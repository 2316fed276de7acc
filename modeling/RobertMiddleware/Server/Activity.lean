import RobertMiddleware.Server.LockOwnership
import RobertMiddleware.Server.SessionStore

/-!
# Sessions of active clients

`last_seen` is what the sweep goes by, so it should be the time of the client's last sign of life.
Of the two signs of life one keeps it so: `validate_token` touches the session of every request
with a valid token. The other does not: `login` makes a session that was never seen, and answers a
second login with the token of the first session without touching it.

A record of the run has the times of both. From it follows when a session is safe from a sweep:
when the last touch is as late as everything else that its client did.

## Main definitions

* `activity` — what a step shows of the clients' activity
* `touchedAt` — the time of the last touch of a session
* `ActiveSafe`, `SeenSince` — the session outlives every sweep that it should; `last_seen` is not
  earlier than anything its client did
* `TouchedSince` — the last touch is as late as any activity

## Main results

* `System.activeSafe_iff` — the first two hold exactly when the third does
* `System.activeSafe_fails` — a client that has just logged in is logged out by a sweep
-/

namespace RobertMiddleware

open Effects Transition

/-! ### The record -/

inductive ActivityKind
  /-- A `LOGIN` is answered with success. -/
  | login
  /-- `is_valid_token` finds the token of a request valid. -/
  | valid
  /-- `touch_session`, the last thing that `validate_token` does for a valid token. -/
  | touch
deriving DecidableEq

/-- A sign of life of the client that has the token. -/
structure Activity where
  kind : ActivityKind
  token : Bytes
  time : ℤ
deriving DecidableEq

/-- What a call of a handler shows of the activity of the client with a live session. -/
def callActivity (a : Shared) : ServerCall → List Activity
  | .isValidToken token =>
    if token ∈ a.sessions.sessions then [⟨.valid, token, a.now⟩] else []
  | .touchSession token =>
    if token ∈ a.sessions.sessions then [⟨.touch, token, a.now⟩] else []
  | _ => []

/-- What a step shows. The token that a login names is in the answer. -/
def activity (s : System) (l : Label) : List Activity :=
  match l, s.server with
  | .server .advance, .serving req (.pure response) =>
    if req.cmdType = .login ∧ response.status = some .success then
      [⟨.login, response.textPayload, s.shared.now⟩]
    else []
  | .server (.call _), .serving _ (.call op _) => callActivity s.shared op
  | _, _ => []

/-- The time of the last touch so far, after an activity. -/
def Activity.seen (token : Bytes) (t : ℤ) (e : Activity) : ℤ :=
  if e.kind = .touch ∧ e.token = token then e.time else t

/-- The time of the last touch of a session, the zero time point if there was none. -/
def touchedAt (token : Bytes) (log : List Activity) : ℤ := log.foldl (Activity.seen token) 0

/-- Nothing that the client did is later than the last touch of its session. -/
def TouchedSince (token : Bytes) (log : List Activity) : Prop :=
  ∀ e ∈ log, e.token = token → e.kind ≠ .touch → e.time ≤ touchedAt token log

instance (token : Bytes) (log : List Activity) : Decidable (TouchedSince token log) :=
  inferInstanceAs (Decidable (∀ e ∈ log, _ → _ → _))

theorem touchedAt_append (token : Bytes) (log es : List Activity) :
    touchedAt token (log ++ es) = es.foldl (Activity.seen token) (touchedAt token log) := by
  rw [touchedAt, List.foldl_append]
  rfl

theorem foldl_seen_of_ne {token : Bytes} {es : List Activity}
    (hes : ∀ e ∈ es, e.kind = .touch → e.token ≠ token) (t : ℤ) :
    es.foldl (Activity.seen token) t = t := by
  induction es generalizing t with
  | nil => rfl
  | cons e es ih =>
    have hseen : Activity.seen token t e = t :=
      if_neg fun h => hes e List.mem_cons_self h.1 h.2
    rw [List.foldl_cons, hseen]
    exact ih (fun e' he' => hes e' (List.mem_cons_of_mem _ he')) t

/-- A session that was never touched. -/
theorem touchedAt_of_ne {token : Bytes} {log : List Activity}
    (hlog : ∀ e ∈ log, e.kind = .touch → e.token ≠ token) : touchedAt token log = 0 :=
  foldl_seen_of_ne hlog 0

/-- Other activity does not touch. -/
theorem touchedAt_append_of_ne {token : Bytes} {log es : List Activity}
    (hes : ∀ e ∈ es, e.kind ≠ .touch) : touchedAt token (log ++ es) = touchedAt token log := by
  rw [touchedAt_append]
  exact foldl_seen_of_ne (fun e he hkind => absurd hkind (hes e he)) _

/-! ### What `last_seen` should be -/

/-- The session outlives every sweep, now or later, with a timeout that its client has not used
up. -/
def ActiveSafe (token : Bytes) (a : Shared) (log : List Activity) : Prop :=
  ∀ now timeout, a.now ≤ now →
    (∃ e ∈ log, e.token = token ∧ now - e.time ≤ timeout * nsPerSec) →
    token ∈ (a.sessions.sweepExpiredSessions now timeout).sessions

/-- `last_seen` is not earlier than any activity. -/
def SeenSince (token : Bytes) (a : Shared) (log : List Activity) : Prop :=
  ∃ session, a.sessions.sessions.lookup token = some session ∧
    ∀ e ∈ log, e.token = token → e.time ≤ session.lastSeen

theorem mem_sweepExpiredSessions_iff {s : SessionManager} {token : Bytes} {session : Session}
    (hlookup : s.sessions.lookup token = some session) (now timeout : ℤ) :
    token ∈ (s.sweepExpiredSessions now timeout).sessions ↔
      now - session.lastSeen ≤ timeout * nsPerSec := by
  rw [← AList.lookup_isSome, SessionManager.lookup_sweepExpiredSessions, hlookup]
  simp [Option.filter, SessionManager.expired]

/-- The two say the same. -/
theorem activeSafe_iff_seenSince {token : Bytes} {a : Shared} {log : List Activity}
    (hlive : token ∈ a.sessions.sessions) : ActiveSafe token a log ↔ SeenSince token a log := by
  obtain ⟨session, hlookup⟩ := Option.isSome_iff_exists.mp (AList.lookup_isSome.mpr hlive)
  constructor
  · intro hsafe
    refine ⟨session, hlookup, fun e he htoken => ?_⟩
    -- a sweep at the last moment at which the client is still active
    have hlate : a.now ≤ e.time + max 0 (a.now - e.time) * nsPerSec := by
      rw [nsPerSec]
      omega
    have hkept := hsafe (e.time + max 0 (a.now - e.time) * nsPerSec) (max 0 (a.now - e.time)) hlate
      ⟨e, he, htoken, by omega⟩
    rw [mem_sweepExpiredSessions_iff hlookup] at hkept
    omega
  · rintro ⟨session', hlookup', hseen⟩ now timeout - ⟨e, he, htoken, hactive⟩
    have hlast := hseen e he htoken
    rw [mem_sweepExpiredSessions_iff hlookup']
    omega

/-! ### The invariant -/

/-- The record is true to the sessions. -/
structure ActivityOk (a : Shared) (log : List Activity) : Prop where
  lastSeen : ∀ token session, a.sessions.sessions.lookup token = some session →
    session.lastSeen = touchedAt token log
  issued : ∀ token session, a.sessions.sessions.lookup token = some session →
    token ∈ a.history.issued
  touched : ∀ e ∈ log, e.kind = .touch → e.token ∈ a.history.issued
  past : ∀ e ∈ log, e.time ≤ a.now
  latest : ∀ e ∈ log, e.kind = .touch → e.time ≤ touchedAt e.token log

/-- Of a live session, `last_seen` is the time of the last touch. -/
theorem ActivityOk.seenSince_iff {a : Shared} {log : List Activity} (ha : ActivityOk a log)
    {token : Bytes} (hlive : token ∈ a.sessions.sessions) :
    SeenSince token a log ↔ TouchedSince token log := by
  obtain ⟨session, hlookup⟩ := Option.isSome_iff_exists.mp (AList.lookup_isSome.mpr hlive)
  have hlast := ha.lastSeen token session hlookup
  constructor
  · rintro ⟨session', hlookup', hseen⟩ e he htoken -
    rw [hlookup] at hlookup'
    obtain rfl := Option.some.inj hlookup'
    exact hlast ▸ hseen e he htoken
  · intro hsince
    refine ⟨session, hlookup, fun e he htoken => ?_⟩
    rw [hlast]
    by_cases hkind : e.kind = .touch
    · exact htoken ▸ ha.latest e he hkind
    · exact hsince e he htoken hkind

/-- Sessions stay as they are or disappear, and nothing is touched. -/
theorem ActivityOk.keep {a b : Shared} {log es : List Activity} (ha : ActivityOk a log)
    (hsessions : ∀ token session, b.sessions.sessions.lookup token = some session →
      a.sessions.sessions.lookup token = some session)
    (hissued : ∀ token ∈ a.history.issued, token ∈ b.history.issued) (hnow : a.now ≤ b.now)
    (hes : ∀ e ∈ es, e.kind ≠ .touch ∧ e.time ≤ b.now) : ActivityOk b (log ++ es) := by
  have htouched : ∀ token, touchedAt token (log ++ es) = touchedAt token log := fun _ =>
    touchedAt_append_of_ne fun e he => (hes e he).1
  refine ⟨fun token session hlookup => ?_, fun token session hlookup => ?_, fun e he hkind => ?_,
    fun e he => ?_, fun e he hkind => ?_⟩
  · rw [htouched]
    exact ha.lastSeen token session (hsessions token session hlookup)
  · exact hissued token (ha.issued token session (hsessions token session hlookup))
  · rcases List.mem_append.mp he with hold | hnew
    · exact hissued _ (ha.touched e hold hkind)
    · exact absurd hkind (hes e hnew).1
  · rcases List.mem_append.mp he with hold | hnew
    · exact (ha.past e hold).trans hnow
    · exact (hes e hnew).2
  · rw [htouched]
    rcases List.mem_append.mp he with hold | hnew
    · exact ha.latest e hold hkind
    · exact absurd hkind (hes e hnew).1

/-- A new session was never touched. -/
theorem ActivityOk.create {a : Shared} {log : List Activity} (ha : ActivityOk a log)
    {uuid username : Bytes} (hfresh : uuid ∉ a.history.issued) :
    ActivityOk { a with
      sessions := { a.sessions with sessions := a.sessions.sessions.insert uuid { username } }
      history := { a.history with issued := a.history.issued ++ [uuid] } } log := by
  have hissued : ∀ token ∈ a.history.issued, token ∈ a.history.issued ++ [uuid] := fun _ htoken =>
    List.mem_append_left _ htoken
  refine ⟨fun token session hlookup => ?_, fun token session hlookup => ?_, fun e he hkind => ?_,
    ha.past, ha.latest⟩
  · rcases eq_or_ne token uuid with rfl | hne
    · rw [AList.lookup_insert] at hlookup
      obtain rfl := Option.some.inj hlookup
      refine (touchedAt_of_ne fun e he hkind htoken => ?_).symm
      exact hfresh (htoken ▸ ha.touched e he hkind)
    · rw [AList.lookup_insert_ne hne] at hlookup
      exact ha.lastSeen token session hlookup
  · rcases eq_or_ne token uuid with rfl | hne
    · exact List.mem_append_right _ (List.mem_singleton_self _)
    · rw [AList.lookup_insert_ne hne] at hlookup
      exact hissued token (ha.issued token session hlookup)
  · exact hissued _ (ha.touched e he hkind)

/-- A touch is recorded with the time that it stores. -/
theorem ActivityOk.touch {a : Shared} {log : List Activity} (ha : ActivityOk a log)
    {token : Bytes} {session : Session}
    (hlookup : a.sessions.sessions.lookup token = some session) :
    ActivityOk { a with
      sessions := { a.sessions with
        sessions := a.sessions.sessions.insert token { session with lastSeen := a.now } } }
      (log ++ [⟨.touch, token, a.now⟩]) := by
  have hthis : touchedAt token (log ++ [⟨.touch, token, a.now⟩]) = a.now := by
    rw [touchedAt_append]
    exact if_pos ⟨rfl, rfl⟩
  have hothers : ∀ {token'}, token' ≠ token →
      touchedAt token' (log ++ [⟨.touch, token, a.now⟩]) = touchedAt token' log := by
    intro token' hne
    rw [touchedAt_append]
    exact if_neg fun h => hne h.2.symm
  refine ⟨fun token' session' hlookup' => ?_, fun token' session' hlookup' => ?_,
    fun e he hkind => ?_, fun e he => ?_, fun e he hkind => ?_⟩
  · rcases eq_or_ne token' token with rfl | hne
    · rw [AList.lookup_insert] at hlookup'
      obtain rfl := Option.some.inj hlookup'
      exact hthis.symm
    · rw [AList.lookup_insert_ne hne] at hlookup'
      rw [hothers hne]
      exact ha.lastSeen token' session' hlookup'
  · rcases eq_or_ne token' token with rfl | hne
    · exact ha.issued token' session hlookup
    · rw [AList.lookup_insert_ne hne] at hlookup'
      exact ha.issued token' session' hlookup'
  · rcases List.mem_append.mp he with hold | hnew
    · exact ha.touched e hold hkind
    · obtain rfl := List.mem_singleton.mp hnew
      exact ha.issued token session hlookup
  · rcases List.mem_append.mp he with hold | hnew
    · exact ha.past e hold
    · obtain rfl := List.mem_singleton.mp hnew
      exact le_refl _
  · rcases List.mem_append.mp he with hold | hnew
    · rcases eq_or_ne e.token token with heq | hne
      · rw [heq, hthis]
        exact ha.past e hold
      · rw [hothers hne]
        exact ha.latest e hold hkind
    · obtain rfl := List.mem_singleton.mp hnew
      exact hthis.ge

theorem activityOk_execCall {uuid : Bytes} {op : ServerCall} {a : Shared} {log : List Activity}
    (ha : ActivityOk a log) (hfresh : a.FreshToken uuid) :
    ActivityOk (execCall uuid op a).2 (log ++ callActivity a op) := by
  have hkeep : ∀ {b : Shared}, b.sessions.sessions = a.sessions.sessions →
      b.history.issued = a.history.issued → b.now = a.now → ActivityOk b (log ++ []) := by
    intro b hsessions hissued hnow
    refine ha.keep (fun token session hlookup => ?_) (fun token htoken => ?_) hnow.ge
      fun e he => absurd he List.not_mem_nil
    · exact hsessions ▸ hlookup
    · exact hissued ▸ htoken
  cases op with
  | login username password =>
    by_cases hmade : a.sessions.NoSessionOf username ∧
        a.sessions.users.lookup username = some password
    · change ActivityOk _ (log ++ [])
      rw [List.append_nil]
      simp only [execCall, SessionManager.login_of_noSession hmade.1, if_pos hmade.2]
      exact ha.create hfresh.2
    · have hsame : (a.sessions.login uuid username password).2 = a.sessions := by
        by_cases hno : a.sessions.NoSessionOf username
        · rw [SessionManager.login_of_noSession hno, if_neg fun hright => hmade ⟨hno, hright⟩]
        · obtain ⟨token, session, -, -, hlogin⟩ :=
            SessionManager.login_of_session uuid password hno
          rw [hlogin]
      refine ha.keep (fun token session hlookup => ?_) (fun token htoken => ?_) (le_refl _)
        fun e he => absurd he List.not_mem_nil
      · simp only [execCall, hsame] at hlookup
        exact hlookup
      · exact List.mem_append_left _ htoken
  | logout left =>
    refine ha.keep (fun token session hlookup => ?_) (fun _ => id) (le_refl _)
      fun e he => absurd he List.not_mem_nil
    rcases eq_or_ne token left with rfl | hne
    · rw [execCall, SessionManager.logout, AList.lookup_erase] at hlookup
      cases hlookup
    · rw [execCall, SessionManager.logout, AList.lookup_erase_ne hne] at hlookup
      exact hlookup
  | isValidToken token =>
    refine ha.keep (fun _ _ => id) (fun _ => id) (le_refl _) fun e he => ?_
    rw [callActivity] at he
    split at he
    · obtain rfl := List.mem_singleton.mp he
      exact ⟨(fun h => by cases h), le_refl _⟩
    · exact absurd he List.not_mem_nil
  | touchSession token =>
    rw [callActivity, execCall, SessionManager.touchSession]
    cases hlookup : a.sessions.sessions.lookup token with
    | none =>
      rw [if_neg (AList.lookup_eq_none.mp hlookup)]
      exact hkeep rfl rfl rfl
    | some session =>
      rw [if_pos (AList.lookup_isSome.mp (hlookup ▸ rfl))]
      exact ha.touch hlookup
  | acquireLock token =>
    refine hkeep ?_ rfl rfl
    simp only [execCall, SessionManager.acquireLock]
    split <;> rfl
  | releaseLock token => exact hkeep (SessionManager.sessions_releaseLock ..) rfl rfl
  | _ => exact hkeep rfl rfl rfl

namespace System

theorem activityOk_initial (users : List UserInfo) : ActivityOk (initial users).shared [] :=
  ⟨nofun, nofun, nofun, nofun, nofun⟩

/-- Of the server thread, only calls and answers are recorded. -/
theorem activity_server {s : System} {e : ServerEvent} (he : ∀ uuid, e ≠ .call uuid) :
    ∀ x ∈ activity s (.server e), x.kind ≠ .touch ∧ x.time ≤ s.shared.now := by
  intro x hx
  unfold activity at hx
  split at hx
  · rename_i hl _
    split at hx
    · obtain rfl := List.mem_singleton.mp hx
      exact ⟨nofun, le_refl _⟩
    · exact absurd hx List.not_mem_nil
  · rename_i uuid _ _ _ hl _
    exact absurd (Label.server.inj hl) (he uuid)
  · exact absurd hx List.not_mem_nil

theorem activity_other {s : System} {l : Label} (hl : ∀ e, l ≠ .server e) : activity s l = [] := by
  unfold activity
  split
  · exact absurd rfl (hl _)
  · exact absurd rfl (hl _)
  · rfl

theorem activityOk_step {P : Platform} {s s' : System} {log : List Activity} {l : Label}
    (hs : ActivityOk s.shared log) (h : step P s l = some s') :
    ActivityOk s'.shared (log ++ activity s l) := by
  by_cases hl : ∃ e, l = .server e
  · obtain ⟨e, rfl⟩ := hl
    cases step_effect h with
    | other hl => exact absurd rfl (hl e)
    | server hmove =>
      cases hmove with
      | between | receive | misread =>
        exact hs.keep (fun _ _ => id) (fun _ => id) (le_refl _) (activity_server nofun)
      | call uuid req op k hpc hfresh =>
        have hobs : activity s (.server (.call uuid)) = callActivity s.shared op := by
          simp only [activity, hpc]
        rw [hobs]
        exact activityOk_execCall hs hfresh
  · have hother : ∀ e, l ≠ .server e := fun e he => hl ⟨e, he⟩
    have hissued := (interference_step h hother).issued
    rw [activity_other hother]
    refine hs.keep (fun token session hlookup => ?_) (fun token htoken => ?_) (now_le_step h)
      fun e he => absurd he List.not_mem_nil
    · rcases sessions_other h hother with hsame | ⟨-, -, hswept⟩
      · exact hsame ▸ hlookup
      · rw [hswept, SessionManager.lookup_sweepExpiredSessions] at hlookup
        exact (Option.filter_eq_some_iff.mp hlookup).1
    · exact hissued ▸ htoken

/-- **When active sessions are safe.** In every state of every run, a live session outlives every
sweep that it should outlive, or, which is the same, its `last_seen` is not earlier than anything
its client did, exactly when its last touch is as late as every answered `LOGIN` that named it and
every validation of its token. -/
theorem activeSafe_iff {P : Platform} {users : List UserInfo} {s : System} {log : List Activity}
    (h : Reaches (logged (step P) activity) (unlogged always) (initial users, []) (s, log))
    {token : Bytes} (hlive : token ∈ s.shared.sessions.sessions) :
    (ActiveSafe token s.shared log ↔ TouchedSince token log) ∧
      (SeenSince token s.shared log ↔ TouchedSince token log) := by
  have hs : ActivityOk s.shared log := h.logged_invariant (I := fun t => ActivityOk t.shared)
    (activityOk_initial users) fun _ _ _ _ hs _ hstep => activityOk_step hs hstep
  exact ⟨(activeSafe_iff_seenSince hlive).trans (hs.seenSince_iff hlive), hs.seenSince_iff hlive⟩

/-! ### Two runs -/

/-- `alice` logs in, and asks for the lock five seconds later. -/
theorem activeSafe_iff_acquire :
    ∃ s log, Reaches (logged (step Platform.linux) activity) (unlogged always)
        (initial SessionManager.aliceOnly, []) (s, log) ∧
      ⟨.touch, ascii "t", 5 * nsPerSec⟩ ∈ log ∧ ActiveSafe (ascii "t") s.shared log := by
  have hrun : ∃ s log, runLabels (logged (step Platform.linux) activity) (unlogged always)
      (initial SessionManager.aliceOnly, []) (SessionManager.loginLabels ++
        .tick 5000000000 :: SessionManager.serve (acquireRequest "t") "u" 5) = some (s, log) ∧
      ⟨.touch, ascii "t", 5 * nsPerSec⟩ ∈ log ∧ ascii "t" ∈ s.shared.sessions.sessions ∧
      TouchedSince (ascii "t") log := ⟨_, _, rfl, by decide, by decide, by decide⟩
  obtain ⟨s, log, hs, htouch, hlive, hsince⟩ := hrun
  exact ⟨s, log, .of_runLabels hs, htouch,
    (activeSafe_iff (.of_runLabels hs) hlive).1.mpr hsince⟩

/-- A minute after the start the sweeper is about to sweep, and `alice` logs in. -/
def lateLoginLabels : List Label :=
  [.start, .owner, .owner, .tick 61000000000, .sweeper, .sweeper] ++
    SessionManager.serve (SessionManager.loginRequest "alice" "secret") "t" 2

/-- **Logged out at once.** `alice` has just been answered, and the sweep of that very moment
erases her session. -/
theorem activeSafe_fails :
    ∃ s log s', Reaches (logged (step Platform.linux) activity) (unlogged always)
        (initial SessionManager.aliceOnly, []) (s, log) ∧
      ⟨.login, ascii "t", s.shared.now⟩ ∈ log ∧ ascii "t" ∈ s.shared.sessions.sessions ∧
      ¬ ActiveSafe (ascii "t") s.shared log ∧ ¬ SeenSince (ascii "t") s.shared log ∧
      step Platform.linux s .sweeper = some s' ∧ ascii "t" ∉ s'.shared.sessions.sessions := by
  have hrun : ∃ s log, runLabels (logged (step Platform.linux) activity) (unlogged always)
      (initial SessionManager.aliceOnly, []) lateLoginLabels = some (s, log) ∧
      ⟨.login, ascii "t", s.shared.now⟩ ∈ log ∧
      s.shared.sessions.sessions.lookup (ascii "t") = some { username := ascii "alice" } ∧
      s.shared.now = 61 * nsPerSec ∧ s.sweeper = .sessions :=
    ⟨_, _, rfl, by decide, by decide, by decide, by decide⟩
  obtain ⟨s, log, hs, hlogin, hlookup, hnow, hsweeper⟩ := hrun
  have hlive : ascii "t" ∈ s.shared.sessions.sessions := AList.lookup_isSome.mp (hlookup ▸ rfl)
  have hunseen : ¬ SeenSince (ascii "t") s.shared log := by
    rintro ⟨session, hlookup', hseen⟩
    rw [hlookup] at hlookup'
    obtain rfl := Option.some.inj hlookup'
    have hzero : s.shared.now ≤ 0 := hseen _ hlogin rfl
    rw [hnow, nsPerSec] at hzero
    omega
  refine ⟨s, log, { s with
    sweeper := .tasks
    shared := { s.shared with
      sessions := s.shared.sessions.sweepExpiredSessions s.shared.now 60 } },
    .of_runLabels hs, hlogin, hlive, fun hsafe => hunseen ?_, hunseen, ?_, ?_⟩
  · exact (activeSafe_iff_seenSince hlive).mp hsafe
  · rw [step, hsweeper]
    rfl
  · rw [mem_sweepExpiredSessions_iff hlookup, hnow, nsPerSec]
    decide

end System

end RobertMiddleware
