import Mathlib.Data.Fintype.EquivFin
import RobertMiddleware.Server.Interference

/-!
# Authentication and the session sweep

Two laws of `SessionManager`.

The first is about `login`: a token is given to a username and a password exactly when the pair is
configured. `login` looks for a session of the username before it looks at the password, so the
law holds of a pair exactly when the password is right or the username has no session.

The second is about `sweep_expired_sessions` and the mutex of the object. The sweep calls
`release_lock`, which takes the mutex the sweep already holds, so it completes exactly when it has
nothing to do.

## Main definitions

* `SessionManager.LoginLaw` — what `login` should do with one username and password
* `SessionManager.SweepExact` — what a sweep should do

## Main results

* `SessionManager.loginLaw_iff`, `loginLaw_fails` — when `login` obeys the law, and a run after
  which it does not
* `SessionManager.sweepExact_iff`, `sweepExact_fails` — when the sweep does, and a run after which
  it does not
-/

namespace RobertMiddleware

open Effects Transition

/-! ### The configured users -/

/-- The password that the configuration gives to a username. -/
def configuredPassword (users : List UserInfo) (username : Bytes) : Option Bytes :=
  (SessionManager.loadUsers users {}).users.lookup username

theorem users_execCall (uuid : Bytes) (op : ServerCall) (s : Shared) :
    (execCall uuid op s).2.sessions.users = s.sessions.users := by
  cases op with
  | login username password =>
    simp only [execCall, SessionManager.login]
    split
    · rfl
    · split <;> rfl
  | touchSession token => simp only [execCall, SessionManager.touchSession]; split <;> rfl
  | acquireLock token => simp only [execCall, SessionManager.acquireLock]; split <;> rfl
  | releaseLock token => exact SessionManager.users_releaseLock token s.sessions
  | _ => rfl

theorem System.users_step {P : Platform} {s s' : System} {l : Label}
    (h : System.step P s l = some s') : s'.shared.sessions.users = s.shared.sessions.users := by
  rcases System.shared_step h with ⟨uuid, req, op, k, -, -, hshared⟩ | ⟨-, hinter⟩
  · rw [hshared]
    exact users_execCall uuid op s.shared
  · exact hinter.users

/-- Nothing changes the users after they are loaded. -/
theorem System.users_reaches {P : Platform} {users : List UserInfo} {s : System}
    (h : Reaches (System.step P) always (System.initial users) s) :
    s.shared.sessions.users = (SessionManager.loadUsers users {}).users :=
  Reaches.invariant
    (I := fun t => t.shared.sessions.users = (SessionManager.loadUsers users {}).users) h rfl
    fun _ _ _ ih _ hstep => (System.users_step hstep).trans ih

namespace SessionManager

/-! ### Authentication -/

/-- No session has this username. -/
def NoSessionOf (username : Bytes) (s : SessionManager) : Prop :=
  ∀ token session, s.sessions.lookup token = some session → session.username ≠ username

/-- `login` on one username and password, in one state, is authentication against the configured
users. -/
structure LoginLaw (users : List UserInfo) (s : Shared) (username password : Bytes) : Prop where
  /-- A token is returned exactly for the configured password. -/
  answers : ∀ uuid, s.FreshToken uuid →
    ((s.sessions.login uuid username password).1.isSome ↔
      configuredPassword users username = some password)
  /-- The token returned names a live session of the user. -/
  live : ∀ uuid token, s.FreshToken uuid →
    (s.sessions.login uuid username password).1 = some token →
    ∃ session, (s.sessions.login uuid username password).2.sessions.lookup token = some session ∧
      session.username = username
  /-- `handle_login` answers `SUCCESS`, with a token, only for the configured password. -/
  handler : ∀ req response s', req.username.getD [] = username → req.password.getD [] = password →
    (RequestHandler.handleLogin req).Exec serverSem Interference s (.ok response) s' →
    response.status = some .success →
    configuredPassword users username = some password ∧ response.textPayload ≠ []

theorem login_of_noSession {uuid username password : Bytes} {s : SessionManager}
    (h : s.NoSessionOf username) :
    s.login uuid username password =
      if s.users.lookup username = some password then
        (some uuid, { s with sessions := s.sessions.insert uuid { username } })
      else (none, s) := by
  have hnone : (s.sessions.entries.find? fun e => e.2.username = username) = none := by
    refine List.find?_eq_none.mpr fun e he => ?_
    simpa using h e.1 e.2 (AList.mem_lookup_iff.mpr he)
  rw [login, hnone]

theorem login_of_session (uuid password : Bytes) {username : Bytes} {s : SessionManager}
    (h : ¬ s.NoSessionOf username) :
    ∃ token session, s.sessions.lookup token = some session ∧ session.username = username ∧
      s.login uuid username password = (some token, s) := by
  cases hfind : s.sessions.entries.find? fun e => e.2.username = username with
  | none =>
    refine absurd (fun token session hlookup => ?_) h
    simpa using List.find?_eq_none.mp hfind ⟨token, session⟩ (AList.mem_lookup_iff.mp hlookup)
  | some e =>
    refine ⟨e.1, e.2, AList.mem_lookup_iff.mpr (List.mem_of_find?_eq_some hfind), ?_, ?_⟩
    · simpa using List.find?_some hfind
    · rw [login, hfind]

/-- Without a session of the username, a token is a matter of the password. -/
theorem login_isSome_iff (uuid : Bytes) {username password : Bytes} {s : SessionManager}
    (h : s.NoSessionOf username) :
    (s.login uuid username password).1.isSome ↔ s.users.lookup username = some password := by
  rw [login_of_noSession h]
  split <;> simp [*]

/-- The token of a login is that of a session of the user. -/
theorem login_live {uuid username password token : Bytes} {s : SessionManager}
    (h : (s.login uuid username password).1 = some token) :
    ∃ session, (s.login uuid username password).2.sessions.lookup token = some session ∧
      session.username = username := by
  by_cases hno : s.NoSessionOf username
  · rw [login_of_noSession hno] at h ⊢
    by_cases hright : s.users.lookup username = some password
    · rw [if_pos hright] at h ⊢
      obtain rfl := Option.some.inj h
      exact ⟨{ username }, AList.lookup_insert _, rfl⟩
    · rw [if_neg hright] at h
      cases h
  · obtain ⟨token', session, hlookup, huser, hlogin⟩ := login_of_session uuid password hno
    rw [hlogin] at h ⊢
    obtain rfl := Option.some.inj h
    exact ⟨session, hlookup, huser⟩

theorem NoSessionOf.of_interference {a b : Shared} {username : Bytes}
    (h : a.sessions.NoSessionOf username) (hab : Interference a b) :
    b.sessions.NoSessionOf username :=
  fun token session hb => h token session (hab.sessions token session hb)

/-- There is always a token to give. -/
theorem exists_freshToken (s : Shared) : ∃ uuid, s.FreshToken uuid := by
  obtain ⟨uuid, huuid⟩ := Infinite.exists_notMem_finset ([] :: s.history.issued).toFinset
  rw [List.mem_toFinset, List.mem_cons, not_or] at huuid
  exact ⟨uuid, huuid⟩

/-- `handle_login` succeeds with the token that `login` gave it, if that is not empty. -/
theorem exec_handleLogin {req : DecodedRequest} {s s' : Shared} {response : ServerResponse}
    (h : (RequestHandler.handleLogin req).Exec serverSem Interference s (.ok response) s')
    (hsuccess : response.status = some .success) :
    ∃ a uuid token, Interference s a ∧
      (a.sessions.login uuid (req.username.getD []) (req.password.getD [])).1 = some token ∧
      token ≠ [] ∧ response.textPayload = token := by
  obtain ⟨a, r, b, hinter, ⟨uuid, -, heq⟩, hrest⟩ := Prog.exec_call_iff.mp h
  obtain ⟨hr, -⟩ := Prod.mk.inj heq
  change Prog.Exec _ _ (if r.getD [] = [] then Prog.pure (errorResponse "Invalid credentials")
    else Prog.pure (successResponse (r.getD []))) _ _ _ at hrest
  split at hrest <;> obtain ⟨hres, -⟩ := Prog.exec_pure_iff.mp hrest <;>
    obtain rfl := Except.ok.inj hres
  · cases hsuccess
  · rename_i htoken
    cases hanswer : r with
    | none => simp [hanswer] at htoken
    | some token =>
      rw [hanswer] at hr htoken
      exact ⟨a, uuid, token, hinter, hr.symm, htoken, rfl⟩

/-- **When `login` is authentication.** After any run, whatever other requests and sweeps were in
it, `login` obeys the law on a username and a password exactly when the username has no session
or the password is the configured one. -/
theorem loginLaw_iff {P : Platform} {users : List UserInfo} {s : System}
    (h : Reaches (System.step P) always (System.initial users) s) (username password : Bytes) :
    LoginLaw users s.shared username password ↔
      s.shared.sessions.NoSessionOf username ∨
        configuredPassword users username = some password := by
  have husers : configuredPassword users username = s.shared.sessions.users.lookup username := by
    rw [System.users_reaches h, configuredPassword]
  constructor
  · intro hlaw
    by_contra hnot
    obtain ⟨hsession, hwrong⟩ := not_or.mp hnot
    obtain ⟨uuid, hfresh⟩ := exists_freshToken s.shared
    obtain ⟨token, -, -, -, hlogin⟩ := login_of_session uuid password hsession
    exact hwrong ((hlaw.answers uuid hfresh).mp (by rw [hlogin]; rfl))
  · intro hcond
    refine ⟨fun uuid _ => ?_, fun uuid token _ => login_live, ?_⟩
    · rw [husers]
      by_cases hno : s.shared.sessions.NoSessionOf username
      · exact login_isSome_iff uuid hno
      · obtain ⟨token, -, -, -, hlogin⟩ := login_of_session uuid password hno
        have hright := hcond.resolve_left hno
        rw [husers] at hright
        simp [hlogin, hright]
    · intro req response s' huser hpass hrun hsuccess
      obtain ⟨a, uuid, token, hinter, hlogin, hne, rfl⟩ := exec_handleLogin hrun hsuccess
      rw [huser, hpass] at hlogin
      refine ⟨hcond.elim (fun hno => ?_) id, hne⟩
      rw [husers, ← hinter.users, ← login_isSome_iff uuid (hno.of_interference hinter), hlogin]
      rfl

/-! ### The sweep -/

/-- A sweep on a free mutex completes, and erases exactly the expired sessions and the lock of
such a session. -/
def SweepExact {τ : Type} [DecidableEq τ] (me : τ) (now timeout : ℤ) (s : SessionManager) : Prop :=
  ∃ s', Locked.sweepExpiredSessions me now timeout ⟨s, none⟩ = .ok ((), ⟨s', none⟩) ∧
    s'.users = s.users ∧
    (∀ token session, s'.sessions.lookup token = some session ↔
      s.sessions.lookup token = some session ∧ expired now timeout session = false) ∧
    ∀ token, s'.currentLock = some token ↔ s.currentLock = some token ∧
      ¬ ∃ session, s.sessions.lookup token = some session ∧ expired now timeout session = true

/-- An expired session makes the sweep ask for the mutex it holds. -/
theorem sweepExpiredSessions_relock {τ : Type} [DecidableEq τ] (me : τ) {now timeout : ℤ}
    {s : SessionManager} {token : Bytes} {session : Session}
    (hlookup : s.sessions.lookup token = some session)
    (hexpired : expired now timeout session = true) :
    Locked.sweepExpiredSessions me now timeout ⟨s, none⟩ = .error .relock := by
  rw [Locked.sweepExpiredSessions_run, if_neg]
  intro hnone
  simpa [hexpired] using hnone ⟨token, session⟩ (AList.mem_lookup_iff.mp hlookup)

/-- **When the sweep is exact.** It is exact when no session is expired, and only then: otherwise
it asks for the mutex it holds. -/
theorem sweepExact_iff {τ : Type} [DecidableEq τ] (me : τ) (now timeout : ℤ) (s : SessionManager) :
    SweepExact me now timeout s ↔
      ∀ token session, s.sessions.lookup token = some session →
        expired now timeout session = false := by
  have hentries : (∀ e ∈ s.sessions.entries, expired now timeout e.2 = false) ↔
      ∀ token session, s.sessions.lookup token = some session →
        expired now timeout session = false :=
    ⟨fun h token session hlookup => h ⟨token, session⟩ (AList.mem_lookup_iff.mp hlookup),
      fun h e he => h e.1 e.2 (AList.mem_lookup_iff.mpr he)⟩
  rw [SweepExact, Locked.sweepExpiredSessions_run, ← hentries]
  constructor
  · rintro ⟨s', hrun, -⟩
    by_contra hexpired
    rw [if_neg hexpired] at hrun
    cases hrun
  · intro hnone
    rw [if_pos hnone]
    refine ⟨s, rfl, rfl, fun token session => ?_, fun token => ?_⟩
    · exact ⟨fun hlookup => ⟨hlookup, hentries.mp hnone token session hlookup⟩, And.left⟩
    · refine ⟨fun hlock => ⟨hlock, ?_⟩, And.left⟩
      rintro ⟨session, hlookup, hexpired⟩
      simp [hentries.mp hnone token session hlookup] at hexpired

/-! ### Two runs -/

/-- The configuration of these runs. -/
def aliceOnly : List UserInfo := [⟨ascii "alice", ascii "secret"⟩]

def loginRequest (username password : String) : DecodedRequest where
  cmdType := .login
  username := some (ascii username)
  password := some (ascii password)

/-- One request is received and handled, in so many calls. -/
def serve (req : DecodedRequest) (uuid : String) (calls : ℕ) : List Label :=
  [.server .advance, .server (.receive req)] ++
    List.replicate calls (.server (.call (ascii uuid))) ++ [.server .advance]

/-- The server is started, and `alice` logs in. -/
def loginLabels : List Label :=
  [.start, .owner, .owner] ++ serve (loginRequest "alice" "secret") "t" 2

/-- Her session is the only one after that. -/
theorem runLabels_loginLabels :
    ∃ s, runLabels (System.step Platform.linux) always (System.initial aliceOnly) loginLabels =
        some s ∧
      s.shared.sessions.sessions.lookup (ascii "t") = some { username := ascii "alice" } ∧
      s.shared.now = 0 := by
  refine ⟨_, rfl, ?_, rfl⟩
  decide

/-- Her own password is still good. -/
theorem loginLaw_iff_alice :
    ∃ s, Reaches (System.step Platform.linux) always (System.initial aliceOnly) s ∧
      LoginLaw aliceOnly s.shared (ascii "alice") (ascii "secret") := by
  obtain ⟨s, hrun, -⟩ := runLabels_loginLabels
  exact ⟨s, .of_runLabels hrun, (loginLaw_iff (.of_runLabels hrun) _ _).mpr (.inr (by decide))⟩

/-- **Any password will do** while she is logged in: it gets her token. -/
theorem loginLaw_fails :
    ∃ s, Reaches (System.step Platform.linux) always (System.initial aliceOnly) s ∧
      (s.shared.sessions.login (ascii "u") (ascii "alice") (ascii "guess")).1.isSome ∧
      ¬ LoginLaw aliceOnly s.shared (ascii "alice") (ascii "guess") := by
  obtain ⟨s, hrun, hsession, -⟩ := runLabels_loginLabels
  have hanswer : ∀ uuid,
      (s.shared.sessions.login uuid (ascii "alice") (ascii "guess")).1.isSome := by
    intro uuid
    obtain ⟨token, -, -, -, hlogin⟩ := login_of_session uuid (ascii "guess")
      fun hno : s.shared.sessions.NoSessionOf (ascii "alice") => hno _ _ hsession rfl
    rw [hlogin]
    rfl
  refine ⟨s, .of_runLabels hrun, hanswer _, fun hlaw => ?_⟩
  obtain ⟨uuid, hfresh⟩ := exists_freshToken s.shared
  exact absurd ((hlaw.answers uuid hfresh).mp (hanswer uuid)) (by decide)

/-- **The first sweep after a login.** A new session was last seen at time zero, so a minute after
the clock started the sweep finds it expired, and locks the mutex twice. -/
theorem sweepExact_fails :
    ∃ s, Reaches (System.step Platform.linux) always (System.initial aliceOnly) s ∧
      Locked.sweepExpiredSessions () (s.shared.now + 61 * nsPerSec) 60 ⟨s.shared.sessions, none⟩ =
        .error .relock ∧
      ¬ SweepExact () (s.shared.now + 61 * nsPerSec) 60 s.shared.sessions := by
  obtain ⟨s, hrun, hsession, hnow⟩ := runLabels_loginLabels
  have hexpired : expired (s.shared.now + 61 * nsPerSec) 60 { username := ascii "alice" } := by
    rw [hnow]; decide
  have hrelock := sweepExpiredSessions_relock () hsession hexpired
  refine ⟨s, .of_runLabels hrun, hrelock, ?_⟩
  rintro ⟨s', hcomplete, -⟩
  rw [hrelock] at hcomplete
  cases hcomplete

end SessionManager

end RobertMiddleware
