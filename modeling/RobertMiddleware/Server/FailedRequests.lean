import RobertMiddleware.Server.Polling
import RobertMiddleware.Server.Unauthenticated

/-!
# Failed requests

A request that is answered `ERROR`, or whose handler throws, leaves the server as it was, but for
the time at which its session was last seen: the handlers test everything before they change
anything. There is one exception. `handle_check_task` takes a completed task out of the registry
with the answer that reports it, and does so too when the telemetry in it does not unpack and the
answer is an error.

## Main definitions

* `Failed` — the answer is an error, or there is none
* `SessionsKept` — the users, sessions and lock are kept, but for one session's `last_seen`
* `DecodedRequest.LosesTelemetry` — the exception

## Main results

* `RequestHandler.failed_handle` — what a failed request leaves behind
* `RequestHandler.exec_losesTelemetry` — the exception happens
-/

namespace RobertMiddleware

open Effects Transition

/-- The answer has status `ERROR`, or the handler throws. -/
def Failed : Except String ServerResponse → Prop
  | .ok response => response.status = some .error
  | .error _ => True

@[simp] theorem failed_ok {response : ServerResponse} :
    Failed (.ok response) ↔ response.status = some .error := Iff.rfl

@[simp] theorem failed_error {what : String} : Failed (.error what) := trivial

/-- Nothing changes but, at most, when the session of `token` was last seen. -/
structure SessionsKept (token : Bytes) (s s' : SessionManager) : Prop where
  users : s'.users = s.users
  currentLock : s'.currentLock = s.currentLock
  usernames : ∀ token', (s'.sessions.lookup token').map Session.username =
    (s.sessions.lookup token').map Session.username
  others : ∀ token', token' ≠ token → s'.sessions.lookup token' = s.sessions.lookup token'

theorem SessionsKept.refl (token : Bytes) (s : SessionManager) : SessionsKept token s s where
  users := rfl
  currentLock := rfl
  usernames := by
    intro token'
    rfl
  others := by
    intro token' hne
    rfl

theorem sessionsKept_touchSession (now : ℤ) (token : Bytes) (s : SessionManager) :
    SessionsKept token s (s.touchSession now token) := by
  rw [SessionManager.touchSession]
  cases htoken : s.sessions.lookup token with
  | none => exact .refl token s
  | some session =>
    constructor
    · rfl
    · rfl
    · intro token'
      rcases eq_or_ne token' token with rfl | hne
      · rw [AList.lookup_insert, htoken]
        rfl
      · rw [AList.lookup_insert_ne hne]
    · intro token' hne
      exact AList.lookup_insert_ne hne

/-- The request asks for the completed task `id`, whose telemetry does not unpack. -/
structure DecodedRequest.LosesTelemetry (P : Platform) (req : DecodedRequest) (s : Shared)
    (id : TaskId) : Prop where
  cmdType : req.cmdType = .checkTask
  valid : s.sessions.isValidToken req.token = true
  locked : s.sessions.hasLock req.token = true
  taskId : req.taskId = some id
  task : ∃ task : Task, s.tasker.getTask id = some task ∧ task.state = .completed ∧
    task.request.commandId = RapidCommandType.getStatus.toUInt8 ∧
    (Decoder.unpack P task.response {}).1 = false

/-- What a request leaves of `s` if it fails: everything, or everything but the task whose
telemetry it lost. -/
structure FailureKeeps (P : Platform) (req : DecodedRequest) (s s' : Shared) : Prop where
  sessions : SessionsKept req.token s.sessions s'.sessions
  lost : ∀ id, req.LosesTelemetry P s id → s'.tasker = (s.tasker.removeTask id).2
  tasker : (∀ id, ¬ req.LosesTelemetry P s id) → s'.tasker = s.tasker

namespace RequestHandler

variable {P : Platform} {req : DecodedRequest} {s t : Shared}

/-- Run from `t`, the program keeps of `s` what a failed request keeps, if it fails. -/
abbrev KeepsIfFailed (P : Platform) (req : DecodedRequest) (s : Shared)
    (p : Handler ServerResponse) (t : Shared) : Prop :=
  p.Wp serverSem (· = ·) (fun _ _ => True)
    (fun res s' => Failed res → FailureKeeps P req s s') t

/-- The state is the one in which the request came, but for the time of its session. -/
structure Quiet (req : DecodedRequest) (s t : Shared) : Prop where
  sessions : SessionsKept req.token s.sessions t.sessions
  tasker : t.tasker = s.tasker

/-- The rule of a call. -/
theorem keepsIfFailed_call {op : ServerCall} {k : op.Ret → Handler ServerResponse}
    (h : ∀ uuid, t.FreshToken uuid →
      KeepsIfFailed P req s (k (execCall uuid op t).1) (execCall uuid op t).2) :
    KeepsIfFailed P req s (.call (S := ServerCalls) op k) t := by
  rintro _ rfl
  refine ⟨trivial, ?_⟩
  rintro r t' ⟨uuid, hfresh, heq⟩
  obtain ⟨rfl, rfl⟩ := Prod.mk.inj heq
  exact h uuid hfresh

theorem keepsIfFailed_pure {response : ServerResponse}
    (h : response.status = some .error → FailureKeeps P req s t) :
    KeepsIfFailed P req s (.pure response) t := h

theorem Quiet.refl (req : DecodedRequest) (s : Shared) : Quiet req s s := ⟨.refl _ _, rfl⟩

theorem Quiet.hasLock (h : Quiet req s t) :
    t.sessions.hasLock req.token = s.sessions.hasLock req.token := by
  rw [SessionManager.hasLock, SessionManager.hasLock, h.sessions.currentLock]

theorem Quiet.keeps (h : Quiet req s t) (hno : ∀ id, ¬ req.LosesTelemetry P s id) :
    FailureKeeps P req s t where
  sessions := h.sessions
  lost := by
    intro id hlost
    exact absurd hlost (hno id)
  tasker := by
    intro _
    exact h.tasker

/-- `validate_token` touches the session of a valid token, and nothing else. -/
theorem keepsIfFailed_validateToken {f : Bool → Handler ServerResponse}
    (hinvalid : s.sessions.isValidToken req.token = false → KeepsIfFailed P req s (f false) s)
    (hvalid : s.sessions.isValidToken req.token = true → ∀ t, Quiet req s t →
      KeepsIfFailed P req s (f true) t) :
    KeepsIfFailed P req s ((validateToken req).bind f) s := by
  refine keepsIfFailed_call fun uuid _ => ?_
  show KeepsIfFailed P req s (Prog.bind (if s.sessions.isValidToken req.token then _ else _) f) s
  cases hcase : s.sessions.isValidToken req.token with
  | false => exact hinvalid hcase
  | true =>
    refine keepsIfFailed_call fun uuid _ => hvalid hcase _ ?_
    constructor
    · exact sessionsKept_touchSession s.now req.token s.sessions
    · rfl

/-- `validate_token`, in a handler that has no telemetry to lose. -/
theorem keepsIfFailed_session {f : Bool → Handler ServerResponse} {response : ServerResponse}
    (hno : ∀ id, ¬ req.LosesTelemetry P s id) (hfalse : f false = .pure response)
    (htrue : ∀ t, Quiet req s t → KeepsIfFailed P req s (f true) t) :
    KeepsIfFailed P req s ((validateToken req).bind f) s := by
  refine keepsIfFailed_validateToken (fun _ => ?_) fun _ => htrue
  rw [hfalse]
  exact keepsIfFailed_pure fun _ => (Quiet.refl req s).keeps hno

/-! ### The handlers -/

/-- A login that gives no token creates no session. -/
theorem keepsIfFailed_handleLogin (hno : ∀ id, ¬ req.LosesTelemetry P s id) :
    KeepsIfFailed P req s (handleLogin req) s := by
  refine keepsIfFailed_call fun uuid hfresh => ?_
  show KeepsIfFailed P req s (if ((s.sessions.login uuid (req.username.getD [])
    (req.password.getD [])).1.getD [] = []) then _ else _) _
  split
  · rename_i hempty
    refine keepsIfFailed_pure fun _ => Quiet.keeps ⟨?_, rfl⟩ hno
    have hsame : (s.sessions.login uuid (req.username.getD []) (req.password.getD [])).2 =
        s.sessions := by
      revert hempty
      rw [SessionManager.login]
      split
      · intro _
        rfl
      · split
        · intro hnil
          exact absurd hnil hfresh.1
        · intro _
          rfl
    show SessionsKept req.token s.sessions (s.sessions.login uuid _ _).2
    rw [hsame]
    exact .refl _ _
  · refine keepsIfFailed_pure fun herror => ?_
    cases herror

theorem keepsIfFailed_handleLogout (hno : ∀ id, ¬ req.LosesTelemetry P s id) :
    KeepsIfFailed P req s (handleLogout req) s := by
  rw [handleLogout]
  split
  · exact keepsIfFailed_pure fun _ => (Quiet.refl req s).keeps hno
  · refine keepsIfFailed_session hno rfl fun t hquiet => keepsIfFailed_call fun uuid _ => ?_
    show KeepsIfFailed P req s (if t.sessions.hasLock req.token = true then _ else _) t
    -- a logout that has come so far succeeds
    split
    · refine keepsIfFailed_call fun uuid _ => keepsIfFailed_call fun uuid _ => ?_
      refine keepsIfFailed_pure fun herror => ?_
      cases herror
    · refine keepsIfFailed_call fun uuid _ => keepsIfFailed_pure fun herror => ?_
      cases herror

theorem keepsIfFailed_handleAcquire (hno : ∀ id, ¬ req.LosesTelemetry P s id) :
    KeepsIfFailed P req s (handleAcquire req) s := by
  refine keepsIfFailed_session hno rfl fun t hquiet => keepsIfFailed_call fun uuid _ => ?_
  show KeepsIfFailed P req s (if t.sessions.hasLock req.token = true then _ else _) t
  split
  · refine keepsIfFailed_pure fun herror => ?_
    cases herror
  · split
    · exact keepsIfFailed_pure fun _ => hquiet.keeps hno
    · refine keepsIfFailed_call fun uuid _ => ?_
      show KeepsIfFailed P req s (if (!(t.sessions.acquireLock req.token).1) = true then _ else _) _
      split
      · rename_i hrefused
        refine keepsIfFailed_pure fun _ => Quiet.keeps ⟨?_, hquiet.tasker⟩ hno
        have hsame : (t.sessions.acquireLock req.token).2 = t.sessions := by
          revert hrefused
          rw [SessionManager.acquireLock]
          split
          · intro _
            rfl
          · intro hrefused
            cases hrefused
        show SessionsKept req.token s.sessions (t.sessions.acquireLock req.token).2
        rw [hsame]
        exact hquiet.sessions
      · refine keepsIfFailed_pure fun herror => ?_
        cases herror

theorem keepsIfFailed_handleRelease (hno : ∀ id, ¬ req.LosesTelemetry P s id) :
    KeepsIfFailed P req s (handleRelease req) s := by
  refine keepsIfFailed_session hno rfl fun t hquiet => keepsIfFailed_call fun uuid _ => ?_
  show KeepsIfFailed P req s (if (!t.sessions.hasLock req.token) = true then _ else _) t
  split
  · exact keepsIfFailed_pure fun _ => hquiet.keeps hno
  · refine keepsIfFailed_call fun uuid _ => keepsIfFailed_pure fun herror => ?_
    cases herror

theorem keepsIfFailed_handleExit (hno : ∀ id, ¬ req.LosesTelemetry P s id) :
    KeepsIfFailed P req s (handleExit req) s := by
  refine keepsIfFailed_session hno rfl fun t hquiet => keepsIfFailed_call fun uuid _ => ?_
  show KeepsIfFailed P req s (if t.sessions.hasLock req.token = true then _ else _) t
  split
  · refine keepsIfFailed_pure fun herror => ?_
    cases herror
  · exact keepsIfFailed_pure fun _ => hquiet.keeps hno

/-- The request is encoded before its task is added; if an operand is missing, the exception leaves
no task behind. -/
theorem keepsIfFailed_handleRobotCommand (hno : ∀ id, ¬ req.LosesTelemetry P s id) :
    KeepsIfFailed P req s (handleRobotCommand P req) s := by
  refine keepsIfFailed_call fun uuid _ => ?_
  show KeepsIfFailed P req s (if (!s.robotLoaded) = true then _ else _) s
  split
  · exact keepsIfFailed_pure fun _ => (Quiet.refl req s).keeps hno
  refine keepsIfFailed_session hno rfl fun t hquiet => keepsIfFailed_call fun uuid _ => ?_
  show KeepsIfFailed P req s (if (!t.sessions.hasLock req.token) = true then _ else _) t
  split
  · exact keepsIfFailed_pure fun _ => hquiet.keeps hno
  refine keepsIfFailed_call fun uuid _ => ?_
  show KeepsIfFailed P req s (if (!t.robot.connected) = true then _ else _) t
  split
  · exact keepsIfFailed_pure fun _ => hquiet.keeps hno
  cases createRapidRequest P req with
  | error what =>
    intro _
    exact hquiet.keeps hno
  | ok robotReq =>
    refine keepsIfFailed_call fun uuid _ => keepsIfFailed_call fun uuid _ => ?_
    refine keepsIfFailed_call fun uuid _ => keepsIfFailed_pure fun herror => ?_
    cases herror

/-- A completed task is answered with an error when its telemetry does not unpack. -/
theorem completedResponse_status (P : Platform) (task : Task) :
    (completedResponse P task).status = some .error ↔
      task.request.commandId = RapidCommandType.getStatus.toUInt8 ∧
        (Decoder.unpack P task.response {}).1 = false := by
  rw [completedResponse]
  split
  · rename_i hcommand
    simp only [hcommand, true_and]
    split <;> rename_i hunpack <;> simp [hunpack]
  · rename_i hcommand
    simp [hcommand]

theorem keepsIfFailed_handleCheckTask (hcmd : req.cmdType = .checkTask) :
    KeepsIfFailed P req s (handleCheckTask P req) s := by
  refine keepsIfFailed_validateToken (fun hinvalid => ?_) fun hvalid t hquiet => ?_
  · refine keepsIfFailed_pure fun _ => (Quiet.refl req s).keeps fun id hlost => ?_
    cases hinvalid.symm.trans hlost.valid
  refine keepsIfFailed_call fun uuid _ => ?_
  show KeepsIfFailed P req s (if (!t.sessions.hasLock req.token) = true then _ else _) t
  rw [hquiet.hasLock]
  cases hlock : s.sessions.hasLock req.token with
  | false =>
    refine keepsIfFailed_pure fun _ => hquiet.keeps fun id hlost => ?_
    cases hlock.symm.trans hlost.locked
  | true =>
    cases hid : req.taskId with
    | none =>
      intro _
      refine hquiet.keeps fun id hlost => ?_
      cases hid.symm.trans hlost.taskId
    | some id =>
      refine keepsIfFailed_call fun uuid _ => ?_
      simp only [execCall, Prog.pure_bind, hquiet.tasker]
      -- what the request would lose is the task it asks for
      have hlost : ∀ id', req.LosesTelemetry P s id' ↔ id = id' ∧
          ∃ task : Task, s.tasker.getTask id = some task ∧ task.state = .completed ∧
            task.request.commandId = RapidCommandType.getStatus.toUInt8 ∧
            (Decoder.unpack P task.response {}).1 = false := by
        intro id'
        constructor
        · intro hlost
          obtain rfl := Option.some.inj (hid.symm.trans hlost.taskId)
          exact ⟨rfl, hlost.task⟩
        · rintro ⟨rfl, htask⟩
          exact ⟨hcmd, hvalid, hlock, hid, htask⟩
      cases htask : s.tasker.getTask id with
      | none =>
        refine keepsIfFailed_pure fun _ => hquiet.keeps fun id' hid' => ?_
        obtain ⟨-, task, hsome, -⟩ := (hlost id').mp hid'
        rw [htask] at hsome
        cases hsome
      | some task =>
        cases hstate : task.state with
        | completed =>
          simp only [hstate]
          refine keepsIfFailed_call fun uuid _ => keepsIfFailed_pure fun herror => ?_
          have herror' := (completedResponse_status P task).mp herror
          have hremoved : (t.tasker.removeTask id).2 = (s.tasker.removeTask id).2 := by
            rw [hquiet.tasker]
          refine ⟨hquiet.sessions, fun id' hid' => ?_, fun hno => ?_⟩
          · obtain ⟨rfl, -⟩ := (hlost id').mp hid'
            exact hremoved
          · exact absurd ((hlost id).mpr ⟨rfl, task, htask, hstate, herror'⟩) (hno id)
        | failed =>
          simp only [hstate]
          refine keepsIfFailed_call fun uuid _ => keepsIfFailed_pure fun herror => ?_
          cases herror
        | pending =>
          simp only [hstate]
          refine keepsIfFailed_pure fun herror => ?_
          cases herror
        | inProgress =>
          simp only [hstate]
          refine keepsIfFailed_pure fun herror => ?_
          cases herror

theorem keepsIfFailed_dispatch (P : Platform) (req : DecodedRequest) (s : Shared) :
    KeepsIfFailed P req s (dispatch P req) s := by
  by_cases hcheck : req.cmdType = .checkTask
  · rw [dispatch, hcheck]
    exact keepsIfFailed_handleCheckTask hcheck
  have hno : ∀ id, ¬ req.LosesTelemetry P s id := by
    intro id hlost
    exact hcheck hlost.cmdType
  rw [dispatch]
  cases hcmd : req.cmdType with
  | unknown => exact keepsIfFailed_pure fun _ => (Quiet.refl req s).keeps hno
  | login => exact keepsIfFailed_handleLogin hno
  | logout => exact keepsIfFailed_handleLogout hno
  | acquire => exact keepsIfFailed_handleAcquire hno
  | release => exact keepsIfFailed_handleRelease hno
  | checkTask => exact absurd hcmd hcheck
  | exit => exact keepsIfFailed_handleExit hno
  | ping =>
    refine keepsIfFailed_pure fun herror => ?_
    cases herror
  | _ => exact keepsIfFailed_handleRobotCommand hno

theorem keepsIfFailed_handle (P : Platform) (req : DecodedRequest) (s : Shared) :
    KeepsIfFailed P req s (handle P req) s := by
  have hdispatch := keepsIfFailed_dispatch P req s
  rw [handle]
  split
  · exact keepsIfFailed_call fun uuid _ => hdispatch
  · exact hdispatch

/-- **Failed requests leave the server as it was.** When a request is handled and no other thread
moves, and it fails, then the users, the sessions with their usernames, the lock and everything of
the tasks are as they were, and only the session of the request may have been seen later. If the
request asks for a completed task whose telemetry does not unpack, that task is removed, and that is
all. -/
theorem failed_handle {P : Platform} {req : DecodedRequest} {s s' : Shared}
    {res : Except String ServerResponse}
    (hrun : (handle P req).Exec serverSem (· = ·) s res s') (hfailed : Failed res) :
    SessionsKept req.token s.sessions s'.sessions ∧
      (∀ id, req.LosesTelemetry P s id → s'.tasker = (s.tasker.removeTask id).2) ∧
      ((∀ id, ¬ req.LosesTelemetry P s id) → s'.tasker = s.tasker) := by
  have hkeeps := (keepsIfFailed_handle P req s).exec hrun hfailed
  exact ⟨hkeeps.sessions, hkeeps.lost, hkeeps.tasker⟩

/-- A call, whatever token would be drawn. -/
theorem exec_call_of_fresh {op : ServerCall} {k : op.Ret → Handler ServerResponse}
    {res : Except String ServerResponse} {s' : Shared}
    (h : ∀ uuid, s.FreshToken uuid →
      (k (execCall uuid op s).1).Exec serverSem (· = ·) (execCall uuid op s).2 res s') :
    (Prog.call (S := ServerCalls) op k).Exec serverSem (· = ·) s res s' := by
  obtain ⟨uuid, hfresh⟩ := SessionManager.exists_freshToken s
  exact .call rfl ⟨uuid, hfresh, rfl⟩ (h uuid hfresh)

/-- **The exception.** The request that loses telemetry fails, and the task is gone. -/
theorem exec_losesTelemetry {id : TaskId} (hlost : req.LosesTelemetry P s id) :
    ∃ (response : ServerResponse) (s' : Shared),
      (handle P req).Exec serverSem (· = ·) s (.ok response) s' ∧
        response.status = some .error ∧ s'.tasker = (s.tasker.removeTask id).2 := by
  obtain ⟨task, htask, hstate, hunpack⟩ := hlost.task
  have hcmd := hlost.cmdType
  let touched : Shared := { s with sessions := s.sessions.touchSession s.now req.token }
  have hlocked : touched.sessions.hasLock req.token = true := by
    have hkept := (sessionsKept_touchSession s.now req.token s.sessions).currentLock
    rw [SessionManager.hasLock, hkept]
    exact hlost.locked
  refine ⟨completedResponse P task, { touched with tasker := (s.tasker.removeTask id).2 }, ?_,
    (completedResponse_status P task).mpr hunpack, rfl⟩
  rw [handle, if_neg (not_not.mpr hcmd), dispatch, hcmd]
  refine exec_call_of_fresh fun uuid _ => ?_
  simp only [execCall, hlost.valid]
  refine exec_call_of_fresh fun uuid _ => exec_call_of_fresh fun uuid _ => ?_
  show Prog.Exec serverSem (· = ·) (if (!touched.sessions.hasLock req.token) = true then _ else _)
    touched _ _
  rw [hlocked, hlost.taskId]
  refine exec_call_of_fresh fun uuid _ => ?_
  simp only [execCall, Prog.pure_bind, touched, htask, hstate]
  exact exec_call_of_fresh fun uuid _ => .pure _ _

end RequestHandler

namespace System

/-- The robot answers the status request of `alice` with two bytes. -/
def shortLabels : List Label :=
  statusLabels ++ executeLabels ++
    [.robotWorker (.sent 188), .robotWorker (.received (ascii "OK")), .robotWorker .advance] ++
    List.replicate 2 (.taskWorker .advance)

set_option maxRecDepth 2000 in
theorem reaches_shortLabels :
    ∃ s, Reaches (step Platform.linux) always (initial SessionManager.aliceOnly) s ∧
      (checkRequest "t" 1).LosesTelemetry Platform.linux s.shared 1 := by
  have hrun : ∃ s, runLabels (step Platform.linux) always (initial SessionManager.aliceOnly)
      shortLabels = some s ∧
      (checkRequest "t" 1).LosesTelemetry Platform.linux s.shared 1 :=
    ⟨_, rfl, rfl, by decide, by decide, rfl, _, rfl, rfl, rfl, by decide⟩
  obtain ⟨s, hs, hlost⟩ := hrun
  exact ⟨s, .of_runLabels hs, hlost⟩

/-- Her question for the task is answered with an error, and the lock stays hers. -/
theorem failed_handle_short :
    ∃ (s : System) (s' : Shared),
      Reaches (step Platform.linux) always (initial SessionManager.aliceOnly) s ∧
      s'.sessions.currentLock = s.shared.sessions.currentLock ∧
      s'.tasker = (s.shared.tasker.removeTask 1).2 := by
  obtain ⟨s, hs, hlost⟩ := reaches_shortLabels
  obtain ⟨response, s', hrun, herror, -⟩ := RequestHandler.exec_losesTelemetry hlost
  have hkeeps := RequestHandler.failed_handle hrun herror
  exact ⟨s, s', hs, hkeeps.1.currentLock, hkeeps.2.1 1 hlost⟩

/-- **A question that changes the registry.** It is answered with an error, and the task of which it
asks is no longer there. -/
theorem failed_question :
    ∃ (s : System) (s' : Shared) (response : ServerResponse),
      Reaches (step Platform.linux) always (initial SessionManager.aliceOnly) s ∧
      (RequestHandler.handle Platform.linux (checkRequest "t" 1)).Exec serverSem (· = ·) s.shared
        (.ok response) s' ∧
      response.status = some .error ∧ s.shared.tasker.getTask 1 ≠ none ∧
      s'.tasker.getTask 1 = none ∧ s'.tasker.taskMap ≠ s.shared.tasker.taskMap := by
  obtain ⟨s, hs, hlost⟩ := reaches_shortLabels
  obtain ⟨response, s', hrun, herror, htasker⟩ := RequestHandler.exec_losesTelemetry hlost
  obtain ⟨task, htask, -⟩ := hlost.task
  have hgone : s'.tasker.getTask 1 = none := by
    rw [htasker, Tasker.getTask_removeTask, if_pos rfl]
  refine ⟨s, s', response, hs, hrun, herror, ?_, hgone, ?_⟩
  · rw [htask]
    exact Option.some_ne_none task
  · intro hsame
    rw [Tasker.getTask, hsame] at hgone
    cases htask.symm.trans hgone

end System

end RobertMiddleware
