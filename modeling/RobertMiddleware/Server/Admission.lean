import RobertMiddleware.Server.ExclusiveControl
import RobertMiddleware.Server.TaskLife

/-!
# Admission and isolation

A record of lock events says who should hold the lock: the session whose `acquire_lock` succeeded
last, unless it has released the lock, logged out or expired since. The lock field agrees with the
record in every state. A request that was told that it holds the lock can lose it to the sweep, but
to nobody else before it is answered, since requests are handled one at a time.

## Main definitions

* `latestHolder` — the holder of the lock according to a record
* `Checked` — the request in service found at its lock check that it holds the lock

## Main results

* `System.admission_reaches` — tasks are added for the holder of the lock, and no other session's
  request changes the lock or the tasks
-/

namespace RobertMiddleware

open Effects Transition

/-! ### The record -/

inductive LockEvent
  /-- A request with this token is received. -/
  | received (token : Bytes)
  /-- `has_lock` answers a request. -/
  | checked (token : Bytes) (held : Bool)
  /-- `acquire_lock` succeeds. -/
  | acquired (token : Bytes)
  /-- `release_lock` succeeds. -/
  | released (token : Bytes)
  | loggedOut (token : Bytes)
  /-- The sweep erases a session. -/
  | expired (token : Bytes)
  /-- A task is inserted in the map for a request with this token. -/
  | added (id : TaskId) (token : Bytes)
deriving DecidableEq

namespace LockEvent

def isReceived : LockEvent → Bool
  | .received _ => true
  | _ => false

/-- The holder of the lock after an event. -/
def holder (h : Option Bytes) : LockEvent → Option Bytes
  | .acquired token => some token
  | .released token | .loggedOut token | .expired token => if h = some token then none else h
  | _ => h

end LockEvent

/-- The session whose `ACQUIRE` was the latest lock event. -/
def latestHolder (log : List LockEvent) : Option Bytes := log.foldl LockEvent.holder none

theorem latestHolder_append (log es : List LockEvent) :
    latestHolder (log ++ es) = es.foldl LockEvent.holder (latestHolder log) := by
  rw [latestHolder, List.foldl_append]
  rfl

/-- Sessions that expire lose the lock. -/
theorem foldl_expired (h : Option Bytes) (tokens : List Bytes) :
    (tokens.map LockEvent.expired).foldl LockEvent.holder h =
      h.filter fun t => !decide (t ∈ tokens) := by
  induction tokens generalizing h with
  | nil => cases h <;> simp [Option.filter]
  | cons token tokens ih =>
    rw [List.map_cons, List.foldl_cons, ih]
    cases h with
    | none => rfl
    | some t =>
      rcases eq_or_ne t token with rfl | hne
      · simp [LockEvent.holder, Option.filter]
      · simp [LockEvent.holder, Option.filter, hne]

/-- The sessions that a sweep at time `now` erases. -/
def SessionManager.expiredTokens (now timeout : ℤ) (s : SessionManager) : List Bytes :=
  (s.sessions.entries.filter fun e => expired now timeout e.2).map Sigma.fst

theorem SessionManager.mem_expiredTokens {now timeout : ℤ} {s : SessionManager} {token : Bytes} :
    token ∈ s.expiredTokens now timeout ↔
      (s.sessions.lookup token).any (expired now timeout) = true := by
  rw [expiredTokens, List.mem_map]
  constructor
  · rintro ⟨⟨t, session⟩, he, rfl⟩
    obtain ⟨hentry, hexpired⟩ := List.mem_filter.mp he
    rw [AList.mem_lookup_iff.mpr hentry]
    exact hexpired
  · intro hany
    cases hlookup : s.sessions.lookup token with
    | none =>
      rw [hlookup] at hany
      cases hany
    | some session =>
      rw [hlookup] at hany
      exact ⟨⟨token, session⟩, List.mem_filter.mpr ⟨AList.mem_lookup_iff.mp hlookup, hany⟩, rfl⟩

def lockObserver : Observer LockEvent where
  receive req := [.received req.token]
  call _ op _ r :=
    match op, r with
    | .hasLock token, held => [.checked token held]
    | .acquireLock token, true => [.acquired token]
    | .releaseLock token, true => [.released token]
    | .logout token, _ => [.loggedOut token]
    | .emplaceTask id _ token, _ => [.added id token]
    | _, _ => []
  other s l :=
    match l, s.sweeper with
    | .sweeper, .sessions => (s.shared.sessions.expiredTokens s.shared.now 60).map .expired
    | _, _ => []

/-! ### What a handler relies on -/

/-- The lock is held as the record says. -/
def Ledger (a : Shared × List LockEvent) : Prop := latestHolder a.2 = a.1.sessions.currentLock

/-- The request in service has this token, and found at its lock check that it holds the lock. -/
def Checked (token : Bytes) (log : List LockEvent) : Prop :=
  ∃ pre post, log = pre ++ .checked token true :: post ∧
    (∀ e ∈ post, e.isReceived = false) ∧ latestHolder pre = some token

/-- The session with this token may change tasks. -/
structure MayChange (token : Bytes) (a : Shared × List LockEvent) : Prop where
  only : a.1.sessions.OnlyHolder token
  checked : Checked token a.2

/-- What the other threads may do between two calls. -/
structure LockRely (a b : Shared × List LockEvent) : Prop where
  interference : Interference a.1 b.1
  extends_ : ∃ es, b.2 = a.2 ++ es ∧ ∀ e ∈ es, e.isReceived = false
  ledger : Ledger b

def admission : Contract LockEvent where
  observer := lockObserver
  rely := LockRely
  call req op a :=
    (op.changesTasks = true → MayChange req.token a) ∧
      ∀ token, op.token? = some token → token = req.token

theorem LockRely.trans {a b c : Shared × List LockEvent} (h : LockRely a b) (h' : LockRely b c) :
    LockRely a c := by
  obtain ⟨es, heq, hes⟩ := h.extends_
  obtain ⟨es', heq', hes'⟩ := h'.extends_
  refine ⟨h.interference.trans h'.interference, ⟨es ++ es', ?_, ?_⟩, h'.ledger⟩
  · rw [heq', heq, List.append_assoc]
  · intro e he
    exact (List.mem_append.mp he).elim (hes e) (hes' e)

theorem admission_stable : admission.Stable where
  trans := LockRely.trans
  reply _ _ := trivial

theorem Checked.append {token : Bytes} {log es : List LockEvent} (h : Checked token log)
    (hes : ∀ e ∈ es, e.isReceived = false) : Checked token (log ++ es) := by
  obtain ⟨pre, post, rfl, hpost, hholder⟩ := h
  refine ⟨pre, post ++ es, by rw [List.append_assoc, List.cons_append], fun e he => ?_, hholder⟩
  exact (List.mem_append.mp he).elim (hpost e) (hes e)

theorem MayChange.of_rely {token : Bytes} {a b : Shared × List LockEvent} (h : MayChange token a)
    (hab : LockRely a b) : MayChange token b := by
  obtain ⟨es, heq, hes⟩ := hab.extends_
  exact ⟨h.only.of_interference hab.interference, heq ▸ h.checked.append hes⟩

/-- No call receives a request. -/
theorem isReceived_call (req : DecodedRequest) (op : ServerCall) (a : Shared) (r : op.Ret) :
    ∀ e ∈ lockObserver.call req op a r, e.isReceived = false := by
  have hsingle : ∀ {e' : LockEvent}, e'.isReceived = false → ∀ e ∈ [e'], e.isReceived = false :=
    fun he' e he => List.mem_singleton.mp he ▸ he'
  have hnil : ∀ e ∈ ([] : List LockEvent), e.isReceived = false := fun e he =>
    absurd he List.not_mem_nil
  cases op with
  | hasLock | logout | emplaceTask => exact hsingle rfl
  | acquireLock | releaseLock =>
    cases r with
    | true => exact hsingle rfl
    | false => exact hnil
  | _ => exact hnil

namespace RequestHandler

section Admission

variable {P : Platform} {req : DecodedRequest} {a : Shared × List LockEvent}

/-- A call of somebody who may change tasks, after which that is still so. -/
theorem keeps_admission_call {α : Type} {op : ServerCall} {k : op.Ret → Handler α}
    {Q : Except String α → Shared × List LockEvent → Prop} (ha : MayChange req.token a)
    (hop : ∀ token, op.token? = some token → token = req.token)
    (hsessions : ∀ uuid b, (execCall uuid op b).2.sessions = b.sessions)
    (hk : ∀ r b, MayChange req.token b → admission.Keeps req (k r) Q b) :
    admission.Keeps req (Prog.call (S := ServerCalls) op k) Q a := by
  refine Contract.keeps_call fun b hb => ⟨⟨fun _ => ha.of_rely hb, hop⟩, fun uuid _ => ?_⟩
  have hmay := ha.of_rely hb
  refine hk _ _ ⟨?_, hmay.checked.append (isReceived_call req op b.1 _)⟩
  rw [hsessions]
  exact hmay.only

/-- Whoever is told that it holds the lock may change tasks. -/
theorem keeps_admission_validateHardwareLock {α : Type} {f : Bool → Handler α}
    {Q : Except String α → Shared × List LockEvent → Prop}
    (hfalse : ∀ b, admission.Keeps req (f false) Q b)
    (htrue : ∀ b, MayChange req.token b → admission.Keeps req (f true) Q b) :
    admission.Keeps req ((validateHardwareLock req).bind f) Q a := by
  refine Contract.keeps_call fun b hb =>
    ⟨⟨(fun h => by cases h), fun token htoken => (Option.some.inj htoken).symm⟩, fun uuid _ => ?_⟩
  cases hheld : b.1.sessions.hasLock req.token with
  | false =>
    have hanswer : (execCall uuid (.hasLock req.token) b.1).1 = false := hheld
    rw [hanswer]
    exact hfalse _
  | true =>
    have hanswer : (execCall uuid (.hasLock req.token) b.1).1 = true := hheld
    rw [hanswer]
    have hlock : b.1.sessions.currentLock = some req.token := by
      simpa [SessionManager.hasLock] using hheld
    refine htrue _ ⟨fun t ht => ?_, b.2, [], rfl, fun _ h => absurd h List.not_mem_nil,
      hb.ledger.trans hlock⟩
    exact Option.some.inj (ht.symm.trans hlock)

theorem admission_call_of_plainCall {op : ServerCall} {a : Shared × List LockEvent}
    (h : PlainCall req op) : admission.call req op a := by
  refine ⟨fun hchanges => ?_, h.own⟩
  rw [h.changesTasks] at hchanges
  cases hchanges

theorem admission_answers (res : Except String ServerResponse) (a : Shared × List LockEvent) :
    admission.Answers req res a := by
  rcases res with e | response
  · trivial
  · trivial

theorem keeps_admission_handleCheckTask (a : Shared × List LockEvent) :
    admission.Keeps req (handleCheckTask P req) (admission.Answers req) a := by
  refine (leavesTasks_validateToken req).keeps_bind (fun _ _ => admission_call_of_plainCall)
    (fun _ _ => trivial) ?_ a
  intro valid b
  cases valid with
  | false => exact admission_answers _ b
  | true =>
    refine keeps_admission_validateHardwareLock (fun c => admission_answers _ c) fun c hc => ?_
    cases req.taskId with
    | none => exact admission_answers _ c
    | some id =>
      refine keeps_admission_call hc nofun (fun _ _ => rfl) fun copy d hd => ?_
      have hremove : ∀ response, admission.Keeps req
          (Prog.call (S := ServerCalls) (.removeTask id) fun _ => .pure response)
          (admission.Answers req) d := fun response =>
        keeps_admission_call hd nofun (fun _ _ => rfl) fun _ e _ => admission_answers _ e
      rcases copy with _ | ⟨_, _, state, _, _, _, _⟩
      · exact admission_answers _ d
      · cases state with
        | completed => exact hremove _
        | pending => exact admission_answers _ d
        | inProgress => exact admission_answers _ d
        | failed => exact hremove _

theorem keeps_admission_handleRobotCommand (a : Shared × List LockEvent) :
    admission.Keeps req (handleRobotCommand P req) (admission.Answers req) a := by
  refine Contract.keeps_call fun b _ => ⟨⟨nofun, nofun⟩, fun uuid _ => ?_⟩
  generalize (execCall uuid .robotLoaded b.1).1 = loaded
  cases loaded with
  | false => exact admission_answers _ _
  | true =>
    refine (leavesTasks_validateToken req).keeps_bind (fun _ _ => admission_call_of_plainCall)
      (fun _ _ => trivial) ?_ _
    intro valid c
    cases valid with
    | false => exact admission_answers _ c
    | true =>
      refine keeps_admission_validateHardwareLock (fun d => admission_answers _ d) fun d hd => ?_
      refine keeps_admission_call hd nofun (fun _ _ => rfl) fun connected e he => ?_
      cases connected with
      | false => exact admission_answers _ e
      | true =>
        cases createRapidRequest P req with
        | error what => exact admission_answers _ e
        | ok robotReq =>
          refine keeps_admission_call he nofun (fun _ _ => rfl) fun id f hf => ?_
          refine keeps_admission_call hf (fun token htoken => (Option.some.inj htoken).symm)
            (fun _ _ => rfl) fun _ g hg => ?_
          exact keeps_admission_call hg nofun (fun _ _ => rfl) fun _ i _ => admission_answers _ i

/-- **Only the holder of the lock changes tasks**, whatever the other threads do. -/
theorem keeps_admission (a : Shared × List LockEvent) :
    admission.Keeps req (handle P req) (admission.Answers req) a :=
  keeps_handle (fun _ _ => admission_call_of_plainCall) (fun _ => admission_answers)
    (fun _ => keeps_admission_handleCheckTask a) fun _ => keeps_admission_handleRobotCommand

end Admission

end RequestHandler

/-! ### Along runs -/

namespace System

structure AdmissionOk (s : System) (log : List LockEvent) : Prop where
  handler : HandlerOk s
  serving : admission.Serving s.server (s.shared, log)
  ledger : Ledger (s.shared, log)
  /-- Whoever had a task added had been told that it holds the lock. -/
  admitted : ∀ pre id token post, log = pre ++ .added id token :: post → Checked token pre

theorem admissionOk_initial (users : List UserInfo) : AdmissionOk (initial users) [] where
  handler := handlerOk_initial users
  serving := trivial
  ledger := rfl
  admitted pre id token post h := by simp at h

section Step

variable {P : Platform} {s s' : System} {log : List LockEvent} {l : Label}

theorem ledger_call {uuid : Bytes} {req : DecodedRequest} {op : ServerCall} {a : Shared}
    (ha : Ledger (a, log)) (hsound : SoundCall op a) :
    Ledger ((execCall uuid op a).2,
      log ++ lockObserver.call req op a (execCall uuid op a).1) := by
  have hheld : latestHolder log = a.sessions.currentLock := ha
  have hquiet : ∀ es, es.foldl LockEvent.holder a.sessions.currentLock =
      (execCall uuid op a).2.sessions.currentLock → latestHolder (log ++ es) =
        (execCall uuid op a).2.sessions.currentLock := by
    intro es hes
    rw [latestHolder_append, hheld]
    exact hes
  refine hquiet _ ?_
  cases op with
  | login username password =>
    simp only [execCall, SessionManager.login]
    split
    · rfl
    · split <;> rfl
  | touchSession token =>
    simp only [execCall, SessionManager.touchSession]
    split <;> rfl
  | acquireLock token =>
    simp only [execCall, SessionManager.acquireLock]
    split
    · rename_i holder hlock
      simp [lockObserver, hlock]
    · simp [lockObserver, LockEvent.holder]
  | releaseLock token =>
    simp only [execCall, SessionManager.releaseLock]
    split
    · rename_i hlock
      simp [lockObserver, LockEvent.holder, hlock]
    · simp [lockObserver]
  | logout token => exact if_neg hsound
  | _ => rfl

theorem ledger_other (hs : Ledger (s.shared, log)) (h : step P s l = some s')
    (hl : ∀ e, l ≠ .server e) : Ledger (s'.shared, log ++ lockObserver.other s l) := by
  have hheld : latestHolder log = s.shared.sessions.currentLock := hs
  by_cases hsweep : l = .sweeper ∧ s.sweeper = .sessions
  · obtain ⟨rfl, hpc⟩ := hsweep
    have hs' : s'.shared.sessions =
        s.shared.sessions.sweepExpiredSessions s.shared.now 60 := by
      simp only [step, sweeperStep, hpc, Option.map_some, Option.some.injEq] at h
      rw [← h]
    have hobs : lockObserver.other s .sweeper =
        (s.shared.sessions.expiredTokens s.shared.now 60).map .expired := by
      simp only [lockObserver, hpc]
    have hfilter : ∀ t, (!decide (t ∈ s.shared.sessions.expiredTokens s.shared.now 60)) =
        !(s.shared.sessions.sessions.lookup t).any (SessionManager.expired s.shared.now 60) := by
      intro t
      simp only [SessionManager.mem_expiredTokens, Bool.decide_eq_true]
    rw [Ledger, hobs, latestHolder_append, foldl_expired, hheld, hs',
      SessionManager.currentLock_sweepExpiredSessions]
    simp only [hfilter]
  · have hobs : lockObserver.other s l = [] := by
      simp only [lockObserver]
      split
      · exact absurd ⟨rfl, ‹_›⟩ hsweep
      · rfl
    have hsessions : s'.shared.sessions = s.shared.sessions :=
      (sessions_other h hl).resolve_right fun hsweeper => hsweep ⟨hsweeper.1, hsweeper.2.1⟩
    rw [Ledger, hobs, List.append_nil, hsessions]
    exact hheld

theorem AdmissionOk.step_ledger (hs : AdmissionOk s log) (h : step P s l = some s') :
    Ledger (s'.shared, log ++ lockObserver.obs s l) := by
  by_cases hl : ∃ e, l = .server e
  · obtain ⟨e, rfl⟩ := hl
    cases step_effect h with
    | other hl => exact absurd rfl (hl e)
    | server hmove =>
      cases hmove with
      | call uuid req op k hpc =>
        rw [Observer.obs_call hpc]
        exact ledger_call hs.ledger (hs.handler.sound hpc)
      | receive req =>
        rw [Ledger, latestHolder_append]
        exact hs.ledger
      | misread =>
        rw [Ledger, latestHolder_append]
        exact hs.ledger
      | between =>
        rw [Observer.obs_advance fun _ _ => rfl, List.append_nil]
        exact hs.ledger
  · have hother : ∀ e, l ≠ .server e := fun e he => hl ⟨e, he⟩
    rw [Observer.obs_other hother]
    exact ledger_other hs.ledger h hother

/-- A task is added by a call of the request in service. -/
theorem added_obs {id : TaskId} {token : Bytes} (he : .added id token ∈ lockObserver.obs s l) :
    ∃ uuid req request k, l = .server (.call uuid) ∧
      s.server = .serving req (.call (S := ServerCalls) (.emplaceTask id request token) k) ∧
      lockObserver.obs s l = [.added id token] := by
  revert he
  unfold Observer.obs
  split
  · intro he
    cases List.mem_singleton.mp he
  · rename_i uuid req op k hpc
    intro he
    cases op with
    | emplaceTask id' request token' =>
      cases List.mem_singleton.mp he
      exact ⟨uuid, req, request, k, rfl, hpc, rfl⟩
    | hasLock | logout => cases List.mem_singleton.mp he
    | acquireLock holder =>
      generalize (execCall uuid (.acquireLock holder) s.shared).1 = answer at he
      cases answer with
      | true => cases List.mem_singleton.mp he
      | false => cases he
    | releaseLock holder =>
      generalize (execCall uuid (.releaseLock holder) s.shared).1 = answer at he
      cases answer with
      | true => cases List.mem_singleton.mp he
      | false => cases he
    | _ => cases he
  · nofun
  · nofun
  · simp only [lockObserver]
    split
    · intro he
      obtain ⟨t, -, ht⟩ := List.mem_map.mp he
      cases ht
    · nofun

theorem AdmissionOk.step (hs : AdmissionOk s log) (h : step P s l = some s') :
    AdmissionOk s' (log ++ lockObserver.obs s l) := by
  have hledger := hs.step_ledger h
  have hrefl : LockRely (s.shared, log) (s.shared, log) :=
    ⟨.refl _, ⟨[], (List.append_nil _).symm, nofun⟩, hs.ledger⟩
  have hother : (∀ e, l ≠ .server e) →
      LockRely (s.shared, log) (s'.shared, log ++ lockObserver.other s l) := by
    intro hl
    rw [Observer.obs_other hl] at hledger
    refine ⟨interference_step h hl, ⟨_, rfl, fun e he => ?_⟩, hledger⟩
    simp only [lockObserver] at he
    split at he
    · obtain ⟨t, -, rfl⟩ := List.mem_map.mp he
      rfl
    · cases he
  refine ⟨hs.handler.step h, ?_, hledger, fun pre id token post heq => ?_⟩
  · exact hs.serving.step admission_stable hrefl hother
      (fun req => RequestHandler.keeps_admission _) h
  · -- the event is an old one, or the one of this step
    have hnew : .added id token ∈ lockObserver.obs s l → Checked token log := by
      intro he
      obtain ⟨uuid, req, request, k, -, hpc, -⟩ := added_obs he
      obtain ⟨hmay, hown⟩ := hs.serving.sound hrefl hpc
      rw [hown token rfl]
      exact (hmay rfl).checked
    rcases List.append_eq_append_iff.mp heq with ⟨es, hpre, hobs⟩ | ⟨es, hlog, hrest⟩
    · have hmem : .added id token ∈ lockObserver.obs s l := by
        rw [hobs]
        exact List.mem_append_right _ List.mem_cons_self
      obtain ⟨-, -, -, -, -, -, hsingle⟩ := added_obs hmem
      have hempty : es = [] := by
        rw [hsingle] at hobs
        cases es with
        | nil => rfl
        | cons e es => simp at hobs
      rw [hpre, hempty, List.append_nil]
      exact hnew hmem
    · cases es with
      | nil =>
        rw [List.append_nil] at hlog
        rw [← hlog]
        refine hnew ?_
        rw [← List.nil_append (lockObserver.obs s l), ← hrest]
        exact List.mem_cons_self
      | cons e es =>
        obtain ⟨rfl, -⟩ := List.cons.inj hrest
        exact hs.admitted pre id token es hlog

/-- A call that is not the holder's changes neither the lock nor the tasks. -/
theorem isolated_call {uuid : Bytes} {req : DecodedRequest} {op : ServerCall} {a : Shared}
    (hcall : admission.call req op (a, log)) {t : Bytes} (hlock : a.sessions.currentLock = some t)
    (hother : req.token ≠ t) :
    (execCall uuid op a).2.sessions.currentLock = some t ∧
      (execCall uuid op a).2.tasker = a.tasker := by
  obtain ⟨hmay, hown⟩ := hcall
  have hplain : op.changesTasks = false := by
    rw [← Bool.not_eq_true]
    exact fun hchanges => hother ((hmay hchanges).only t hlock).symm
  refine ⟨?_, tasker_execCall hplain uuid a⟩
  cases op with
  | login username password =>
    simp only [execCall, SessionManager.login]
    split
    · exact hlock
    · split <;> exact hlock
  | touchSession token =>
    simp only [execCall, SessionManager.touchSession]
    split <;> exact hlock
  | acquireLock token => simp only [execCall, SessionManager.acquireLock, hlock]
  | releaseLock token =>
    have hne : ¬ a.sessions.currentLock = some token := by
      rw [hlock, hown token rfl]
      exact fun heq => hother (Option.some.inj heq).symm
    simp only [execCall, SessionManager.releaseLock, if_neg hne]
    exact hlock
  | _ => exact hlock

end Step

/-- **Admission and isolation.** In every run the lock is held by the session whose `ACQUIRE` was
the latest lock event; a task is only added for a request that found, at its lock check, that its
token is that session; and while a token holds the lock, no step of a request with another token
changes the holder, or anything about the tasks. -/
theorem admission_reaches {P : Platform} {users : List UserInfo} {s : System}
    {log : List LockEvent} (h : Reaches (logged (System.step P) lockObserver.obs) (unlogged always)
      (initial users, []) (s, log)) :
    latestHolder log = s.shared.sessions.currentLock ∧
    (∀ pre id token post, log = pre ++ .added id token :: post → Checked token pre) ∧
    ∀ t req rest e s', s.shared.sessions.currentLock = some t → s.server = .serving req rest →
      req.token ≠ t → System.step P s (.server e) = some s' →
      s'.shared.sessions.currentLock = some t ∧ s'.shared.tasker = s.shared.tasker := by
  have hs : AdmissionOk s log := h.logged_invariant (admissionOk_initial users)
    fun _ _ _ _ hs _ hstep => hs.step hstep
  refine ⟨hs.ledger, hs.admitted, fun t req rest e s' hlock hpc hother hstep => ?_⟩
  cases step_effect hstep with
  | other hl => exact absurd rfl (hl e)
  | server hmove =>
    cases hmove with
    | call uuid req' op k hpc' =>
      have hcall := hs.serving.sound
        ⟨.refl _, ⟨[], (List.append_nil _).symm, nofun⟩, hs.ledger⟩ hpc'
      rw [hpc] at hpc'
      cases hpc'
      exact isolated_call hcall hlock hother
    | _ => exact ⟨hlock, rfl⟩

/-- `alice` holds the lock and has had a task added; `bob` asks for the lock. -/
theorem admission_reaches_status :
    ∃ s log, Reaches (logged (System.step Platform.linux) lockObserver.obs) (unlogged always)
        (initial aliceAndBob, []) (s, log) ∧
      s.shared.sessions.currentLock = some (ascii "t") ∧
      ∃ pre post, log = pre ++ .added 1 (ascii "t") :: post ∧ Checked (ascii "t") pre := by
  have hrun : ∃ s log, runLabels (logged (System.step Platform.linux) lockObserver.obs)
      (unlogged always) (initial aliceAndBob, []) (statusLabels ++
        SessionManager.serve (SessionManager.loginRequest "bob" "hidden") "b" 2 ++
        SessionManager.serve (acquireRequest "b") "u" 5) = some (s, log) ∧
      s.shared.sessions.currentLock = some (ascii "t") ∧ .added 1 (ascii "t") ∈ log :=
    ⟨_, _, rfl, by decide, by decide⟩
  obtain ⟨s, log, hs, hlock, hadded⟩ := hrun
  obtain ⟨pre, post, hlog⟩ := List.append_of_mem hadded
  exact ⟨s, log, .of_runLabels hs, hlock, pre, post, hlog,
    (admission_reaches (.of_runLabels hs)).2.1 pre 1 (ascii "t") post hlog⟩

end System

end RobertMiddleware
