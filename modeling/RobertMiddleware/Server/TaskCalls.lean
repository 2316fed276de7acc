import RobertMiddleware.Server.Interference
import RobertMiddleware.Server.Observation
import RobertMiddleware.Server.TaskPhases

/-!
# How handlers use the tasker

A handler shares the map of the tasks with the task worker and the sweep. Two handlers work on it:
the one for `CHECK_TASK` and the one that queues a robot command. What the others do is plain, and
one case analysis over the dispatcher serves every statement about the tasks.

## Main definitions

* `TaskRely` — what the other threads do to the tasks between two calls of a handler
* `TaskCall` — what holds when a handler calls the tasker
* `RequestHandler.LeavesTasks` — a part of a handler with plain calls only

## Main results

* `RequestHandler.dispatch_cases` — what the dispatcher can run
* `RequestHandler.keeps_taskLife` — every handler calls the tasker as it should
-/

namespace RobertMiddleware

open Effects Transition

/-! ### The calls of a handler -/

/-- What the other threads may do to the tasks between `a` and `b`. -/
structure TaskRely (a b : Shared) : Prop where
  counter : b.tasker.nextTaskCounter = a.tasker.nextTaskCounter
  created : b.history.created = a.history.created
  queued : b.history.queued = a.history.queued
  /-- A task whose id was not pushed yet belongs to the handler. -/
  unqueued : ∀ id, id ∉ a.history.queued → b.tasker.getTask id = a.tasker.getTask id
  advances : ∀ id ∈ a.history.queued,
    Task.Advances (a.tasker.getTask id) (b.tasker.getTask id)
  ids : b.IdsBelow
  below : b.tasker.MapBelow

theorem TaskRely.trans {a b c : Shared} (h : TaskRely a b) (h' : TaskRely b c) :
    TaskRely a c where
  counter := h'.counter.trans h.counter
  created := h'.created.trans h.created
  queued := h'.queued.trans h.queued
  unqueued id hid := (h'.unqueued id (h.queued ▸ hid)).trans (h.unqueued id hid)
  advances id hid := (h.advances id hid).trans (h'.advances id (h.queued ▸ hid))
  ids := h'.ids
  below := h'.below

/-- No task goes back. -/
theorem TaskRely.phase_le {a b : Shared} (h : TaskRely a b) (id : TaskId) :
    Task.phase (a.tasker.getTask id) ≤ Task.phase (b.tasker.getTask id) := by
  by_cases hid : id ∈ a.history.queued
  · exact (h.advances id hid).phase_le
  · rw [h.unqueued id hid]

/-- What holds when a handler calls the tasker. -/
def TaskCall : ServerCall → Shared → Prop
  | .emplaceTask id _ _, a =>
    a.tasker.getTask id = none ∧ id ∉ a.history.queued ∧ ∀ e ∈ a.history.created, e.1 < id
  | .pushTask id, a =>
    (∀ id' ∈ a.history.queued, id' < id) ∧
      ∃ task, a.tasker.getTask id = some task ∧ task.state = .pending
  | .removeTask id, a => 2 ≤ Task.phase (a.tasker.getTask id)
  | _, _ => True

/-- The contract of the tasker, under any observer. -/
def taskLife {ω : Type} (O : Observer ω) : Contract ω where
  observer := O
  rely a b := TaskRely a.1 b.1
  call _ op a := TaskCall op a.1

theorem taskLife_stable {ω : Type} (O : Observer ω) : (taskLife O).Stable where
  trans := TaskRely.trans
  reply _ _ := trivial

/-- The calls that change tasks. -/
def ServerCall.changesTasks : ServerCall → Bool
  | .fetchTaskId | .emplaceTask _ _ _ | .pushTask _ | .removeTask _ => true
  | _ => false

theorem tasker_execCall {op : ServerCall} (h : op.changesTasks = false) (uuid : Bytes)
    (a : Shared) : (execCall uuid op a).2.tasker = a.tasker := by
  cases op with
  | fetchTaskId | emplaceTask | pushTask | removeTask => contradiction
  | _ => rfl

/-- The session token that a call is about. -/
def ServerCall.token? : ServerCall → Option Bytes
  | .tokenToUsername token | .logout token | .isValidToken token | .touchSession token
  | .acquireLock token | .releaseLock token | .hasLock token | .emplaceTask _ _ token =>
    some token
  | _ => none

/-- A call about the request's own session that does not change tasks. -/
structure PlainCall (req : DecodedRequest) (op : ServerCall) : Prop where
  changesTasks : op.changesTasks = false
  own : ∀ token, op.token? = some token → token = req.token

theorem taskCall_of_plainCall {req : DecodedRequest} {op : ServerCall} (h : PlainCall req op)
    (a : Shared) : TaskCall op a := by
  have hchanges := h.changesTasks
  cases op with
  | emplaceTask | pushTask | removeTask => contradiction
  | _ => trivial

namespace RequestHandler

/-- A part of a handler with such calls only. -/
abbrev LeavesTasks {α : Type} (req : DecodedRequest) (p : Handler α) : Prop :=
  p.Calls fun op : ServerCall => PlainCall req op

theorem plainCall_iff {req : DecodedRequest} {op : ServerCall} :
    PlainCall req op ↔
      op.changesTasks = false ∧ ∀ token, op.token? = some token → token = req.token :=
  ⟨fun h => ⟨h.changesTasks, h.own⟩, fun h => ⟨h.1, h.2⟩⟩

theorem leavesTasks_validateToken (req : DecodedRequest) : LeavesTasks req (validateToken req) := by
  simp [validateToken, invoke, Prog.perform, Prog.bind, Prog.Calls, plainCall_iff,
    ServerCall.changesTasks, ServerCall.token?]

theorem leavesTasks_validateHardwareLock (req : DecodedRequest) :
    LeavesTasks req (validateHardwareLock req) := by
  simp [validateHardwareLock, invoke, Prog.perform, Prog.Calls, plainCall_iff,
    ServerCall.changesTasks, ServerCall.token?]

theorem leavesTasks_handleLogin (req : DecodedRequest) : LeavesTasks req (handleLogin req) := by
  simp [handleLogin, invoke, Prog.perform, Prog.bind, Prog.Calls, plainCall_iff,
    ServerCall.changesTasks, ServerCall.token?]

theorem leavesTasks_handleLogout (req : DecodedRequest) : LeavesTasks req (handleLogout req) := by
  simp [handleLogout, validateToken, validateHardwareLock, invoke, Prog.perform, Prog.bind,
    Prog.Calls, plainCall_iff, ServerCall.changesTasks, ServerCall.token?]

theorem leavesTasks_handleAcquire (req : DecodedRequest) : LeavesTasks req (handleAcquire req) := by
  simp [handleAcquire, validateToken, validateHardwareLock, invoke, Prog.perform, Prog.bind,
    Prog.Calls, plainCall_iff, ServerCall.changesTasks, ServerCall.token?]

theorem leavesTasks_handleRelease (req : DecodedRequest) : LeavesTasks req (handleRelease req) := by
  simp [handleRelease, validateToken, validateHardwareLock, invoke, Prog.perform, Prog.bind,
    Prog.Calls, plainCall_iff, ServerCall.changesTasks, ServerCall.token?]

theorem leavesTasks_handleExit (req : DecodedRequest) : LeavesTasks req (handleExit req) := by
  simp [handleExit, validateToken, validateHardwareLock, invoke, Prog.perform, Prog.bind,
    Prog.Calls, plainCall_iff, ServerCall.changesTasks, ServerCall.token?]

/-- What the dispatcher can run, apart from `CHECK_TASK`: a part with plain calls only, or the
handler of the robot commands. -/
theorem dispatch_cases {motive : Handler ServerResponse → Prop} {P : Platform}
    {req : DecodedRequest} (hne : req.cmdType ≠ .checkTask)
    (hplain : ∀ p, LeavesTasks req p → motive p) (hrobot : motive (handleRobotCommand P req)) :
    motive (dispatch P req) := by
  rw [dispatch]
  split
  · exact hplain _ (by trivial)
  · exact hplain _ (leavesTasks_handleLogin req)
  · exact hplain _ (leavesTasks_handleLogout req)
  · exact hplain _ (leavesTasks_handleAcquire req)
  · exact hplain _ (leavesTasks_handleRelease req)
  · contradiction
  · exact hplain _ (leavesTasks_handleExit req)
  · exact hplain _ (by trivial)
  · exact hrobot

/-! ### Handlers -/

section Rules

variable {ω : Type} {C : Contract ω} {req : DecodedRequest} {α β : Type}

/-- A part of a handler that does not change tasks keeps a contract about tasks. -/
theorem LeavesTasks.keeps {p : Handler α} (hp : LeavesTasks req p)
    (hcall : ∀ op a, PlainCall req op → C.call req op a)
    {Q : Except String α → Shared × List ω → Prop} (hQ : ∀ res a, Q res a)
    (a : Shared × List ω) : C.Keeps req p Q a := Prog.Calls.wp hp hcall hQ a

/-- The same, with something after it. -/
theorem LeavesTasks.keeps_bind {p : Handler α} (hp : LeavesTasks req p)
    (hcall : ∀ op a, PlainCall req op → C.call req op a) {f : α → Handler β}
    {Q : Except String β → Shared × List ω → Prop} (herror : ∀ e a, Q (.error e) a)
    (hf : ∀ x a, C.Keeps req (f x) Q a) (a : Shared × List ω) : C.Keeps req (p.bind f) Q a := by
  refine Contract.keeps_bind (hp.keeps hcall ?_ a)
  rintro (e | x) b
  · exact herror e b
  · exact hf x b

/-- For a contract about tasks two handlers are of interest. -/
theorem keeps_handle {P : Platform} {a : Shared × List ω}
    (hcall : ∀ op a, PlainCall req op → C.call req op a)
    (hanswers : req.cmdType ≠ .checkTask → ∀ res a, C.Answers req res a)
    (hcheck : req.cmdType = .checkTask →
      C.Keeps req (handleCheckTask P req) (C.Answers req) a)
    (hrobot : req.cmdType ≠ .checkTask →
      ∀ b, C.Keeps req (handleRobotCommand P req) (C.Answers req) b) :
    C.Keeps req (handle P req) (C.Answers req) a := by
  rw [handle]
  split
  · rename_i hne
    have hname : PlainCall req (.tokenToUsername req.token) := ⟨rfl, by simp [ServerCall.token?]⟩
    refine Contract.keeps_call fun b hb => ⟨hcall _ _ hname, fun _ _ => ?_⟩
    exact dispatch_cases hne (fun p hp => hp.keeps hcall (hanswers hne) _) (hrobot hne _)
  · rename_i heq
    have hcmd : req.cmdType = .checkTask := not_not.mp heq
    rw [dispatch, hcmd]
    exact hcheck hcmd

end Rules

section TaskLife

variable {ω : Type} {O : Observer ω} {req : DecodedRequest}

/-- The contract asks nothing of a plain call. -/
theorem taskLife_call (op : ServerCall) (a : Shared × List ω) (hop : PlainCall req op) :
    (taskLife O).call req op a :=
  taskCall_of_plainCall hop a.1

/-- It asks nothing of a reply either. -/
theorem taskLife_answers (res : Except String ServerResponse) (a : Shared × List ω) :
    (taskLife O).Answers req res a := by
  rcases res with e | response <;> trivial

theorem keeps_taskLife_handleCheckTask (P : Platform) (a : Shared × List ω) :
    (taskLife O).Keeps req (handleCheckTask P req) ((taskLife O).Answers req) a := by
  refine (leavesTasks_validateToken req).keeps_bind taskLife_call (fun _ _ => trivial) ?_ a
  intro valid b
  cases valid with
  | false => exact taskLife_answers _ _
  | true =>
    refine (leavesTasks_validateHardwareLock req).keeps_bind taskLife_call (fun _ _ => trivial) ?_ b
    intro locked c
    cases locked with
    | false => exact taskLife_answers _ _
    | true =>
      cases req.taskId with
      | none => exact taskLife_answers _ _
      | some id =>
        refine Contract.keeps_call fun d _ => ⟨trivial, fun uuid _ => ?_⟩
        generalize hcopy : (execCall uuid (.getTask id) d.1).1 = copy
        -- a task whose copy was at its end does not go back
        have hremove : ∀ {α : Type} {k : Bool → Handler α} {Q e}, 2 ≤ Task.phase copy →
            (∀ r e, (taskLife O).Keeps req (k r) Q e) →
            (taskLife O).Keeps req (Prog.call (S := ServerCalls) (.removeTask id) k) Q
              (d.1, e) := by
          intro α k Q e hphase hk
          refine Contract.keeps_call fun e he => ⟨?_, fun _ _ => hk _ _⟩
          subst hcopy
          exact hphase.trans (he.phase_le id)
        rcases copy with _ | ⟨_, _, state, _, _, _, _⟩
        · exact taskLife_answers _ _
        · cases state with
          | completed => exact hremove (le_refl 2) fun _ _ => taskLife_answers _ _
          | pending => exact taskLife_answers _ _
          | inProgress => exact taskLife_answers _ _
          | failed => exact hremove (le_refl 2) fun _ _ => taskLife_answers _ _

/-- `addTask` draws the next id, and nobody else knows it before it is pushed. -/
theorem keeps_taskLife_addTask {request : RapidRequest} {token : Bytes}
    {Q : Except String TaskId → Shared × List ω → Prop} (hQ : ∀ id a, Q (.ok id) a)
    (a : Shared × List ω) : (taskLife O).Keeps req (addTask request token) Q a := by
  refine Contract.keeps_call fun b hb => ⟨trivial, fun uuid _ => ?_⟩
  have hnone : b.1.tasker.getTask b.1.tasker.nextTaskCounter = none := by
    cases hlookup : b.1.tasker.getTask b.1.tasker.nextTaskCounter with
    | none => rfl
    | some task => exact absurd (hb.below _ _ hlookup) (lt_irrefl _)
  have hout : b.1.tasker.nextTaskCounter ∉ b.1.history.queued :=
    fun hmem => absurd (hb.ids.queued _ hmem) (lt_irrefl _)
  refine Contract.keeps_call fun c hc => ?_
  have hnone' : c.1.tasker.getTask b.1.tasker.nextTaskCounter = none :=
    (hc.unqueued _ hout).trans hnone
  have hout' : b.1.tasker.nextTaskCounter ∉ c.1.history.queued := by
    rw [hc.queued]
    exact hout
  refine ⟨⟨hnone', hout', fun e he => ?_⟩, fun uuid' _ => ?_⟩
  · rw [hc.created] at he
    exact hb.ids.created e he
  refine Contract.keeps_call fun d hd => ⟨⟨fun id' hid' => ?_, ?_⟩, fun _ _ => hQ _ _⟩
  · rw [hd.queued] at hid'
    exact hb.ids.queued id' (hc.queued ▸ hid')
  · have hput := (Tasker.getTask_emplaceTask c.1.now request hnone' _).trans (if_pos rfl)
    exact ⟨_, (hd.unqueued _ hout').trans hput, rfl⟩

theorem keeps_taskLife_handleRobotCommand (P : Platform) (a : Shared × List ω) :
    (taskLife O).Keeps req (handleRobotCommand P req) ((taskLife O).Answers req) a := by
  refine Contract.keeps_call fun b _ => ⟨trivial, fun uuid _ => ?_⟩
  generalize (execCall uuid .robotLoaded b.1).1 = loaded
  cases loaded with
  | false => exact taskLife_answers _ _
  | true =>
    refine (leavesTasks_validateToken req).keeps_bind taskLife_call (fun _ _ => trivial) ?_ _
    intro valid c
    cases valid with
    | false => exact taskLife_answers _ _
    | true =>
      refine (leavesTasks_validateHardwareLock req).keeps_bind taskLife_call
        (fun _ _ => trivial) ?_ c
      intro locked d
      cases locked with
      | false => exact taskLife_answers _ _
      | true =>
        refine Contract.keeps_call fun e _ => ⟨trivial, fun uuid' _ => ?_⟩
        generalize (execCall uuid' .isConnected e.1).1 = connected
        cases connected with
        | false => exact taskLife_answers _ _
        | true =>
          cases createRapidRequest P req with
          | error what => exact taskLife_answers _ _
          | ok robotReq =>
            exact Contract.keeps_bind (p := addTask robotReq req.token)
              (keeps_taskLife_addTask (fun _ _ => taskLife_answers _ _) _)

/-- **The calls of every handler on the tasker are in order.** -/
theorem keeps_taskLife (P : Platform) (a : Shared × List ω) :
    (taskLife O).Keeps req (handle P req) ((taskLife O).Answers req) a :=
  keeps_handle taskLife_call (fun _ => taskLife_answers)
    (fun _ => keeps_taskLife_handleCheckTask P a)
    (fun _ => keeps_taskLife_handleRobotCommand P)

end TaskLife

end RequestHandler

end RobertMiddleware
