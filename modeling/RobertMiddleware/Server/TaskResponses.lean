import RobertMiddleware.Server.Shutdown
import RobertMiddleware.Server.TaskOrder

/-!
# Where the response of a task comes from

The task worker waits for the future of the promise that `queue_request` gave it, and records what
it gets as the response of the task. A record of the requests that are queued, in the order of their
promises, says which request a value belongs to.

## Main definitions

* `System.Concluded` — how a task came to its end
* `System.ResponsesOk` — promises, requests and responses

## Main results

* `System.task_step` — what a step can do to a task
* `System.responses_reaches` — a task ends with the value of a promise made for its own request
-/

namespace RobertMiddleware

open Effects Transition

namespace System

/-! ### What happens to a task -/

/-- What the task worker is about to record of the task in its hands. -/
inductive Records (s : System) (id : TaskId) : Outcome → Prop
  | response (response : Bytes) (hpc : s.taskWorker = .recording id response) :
      Records s id (.ofResponse response)
  | failure (hpc : s.taskWorker = .failing id) : Records s id .disconnected

/-- Where the task `id` of the state `s'` comes from. -/
inductive TaskMove (s s' : System) (id : TaskId) (task' : Task) : Prop
  | new (hid : id ∉ s.shared.history.queued) (hnone : s.shared.tasker.getTask id = none)
      (hstate : task'.state.terminal = false)
  | same (htask : s.shared.tasker.getTask id = some task')
  | started (task : Task) (htask : s.shared.tasker.getTask id = some task)
      (hrequest : task'.request = task.request) (hstate : task'.state.terminal = false)
  | ended (task : Task) (o : Outcome) (htask : s.shared.tasker.getTask id = some task)
      (hrequest : task'.request = task.request) (hrecords : s.Records id o)
      (hstate : task'.state = o.state) (hresponse : task'.response = o.response)

section TaskMove

variable {P : Platform} {s s' : System} {l : Label} {log : List TaskEvent} {id : TaskId}
  {task' : Task}

/-- The task worker updates the task in its hands. -/
theorem taskMove_updateTask {id' : TaskId} {f : Task → Task} {pc : TaskWorkerPc}
    (htask' : (s.shared.tasker.updateTask id' f).2.getTask id = some task')
    (hmove : ∀ task, s.shared.tasker.getTask id' = some task → id = id' → task' = f task →
      TaskMove s { s with
        taskWorker := pc
        shared := { s.shared with tasker := (s.shared.tasker.updateTask id' f).2 } } id task') :
    TaskMove s { s with
      taskWorker := pc
      shared := { s.shared with tasker := (s.shared.tasker.updateTask id' f).2 } } id task' := by
  rw [Tasker.getTask_updateTask] at htask'
  split at htask'
  · rename_i heq
    obtain ⟨task, htask, rfl⟩ := Option.map_eq_some_iff.mp htask'
    exact hmove task htask heq rfl
  · exact .same htask'

theorem LifeOk.state_hand (hs : LifeOk s) {task : Task} {state : TaskState}
    (htask : s.shared.tasker.getTask id = some task)
    (hpc : s.taskWorker.task = some id ∧ s.taskWorker.taskState = state) : task.state = state := by
  obtain ⟨task', htask', hstate⟩ := hs.hand id hpc.1
  obtain rfl := Option.some.inj (htask.symm.trans htask')
  exact hstate.trans hpc.2

/-- What is recorded at the end of a task. -/
theorem taskMove_finish (hs : LifeOk s) {id' : TaskId} {o : Outcome} {pc : TaskWorkerPc}
    (hpc : s.taskWorker.task = some id' ∧ s.taskWorker.taskState = .inProgress)
    (hrecords : s.Records id' o)
    (htask' : (s.shared.tasker.updateTask id' (Task.finish s.shared.now o)).2.getTask id =
      some task') :
    TaskMove s { s with
      taskWorker := pc
      shared := { s.shared with
        tasker := (s.shared.tasker.updateTask id' (Task.finish s.shared.now o)).2 } } id task' := by
  refine taskMove_updateTask htask' fun task htask heq hnew => ?_
  rw [Task.finish_of_inProgress _ _ (hs.state_hand htask hpc)] at hnew
  subst heq hnew
  exact .ended task o htask rfl hrecords rfl rfl

theorem taskMove_taskWorker (hs : LifeOk s) {e : TaskWorkerEvent} {pc : TaskWorkerPc} {b : Shared}
    (h : TaskWorkerEffect s.taskWorker s.shared e pc b)
    (htask' : b.tasker.getTask id = some task') :
    TaskMove s { s with taskWorker := pc, shared := b } id task' := by
  cases h with
  | start id' pc' hpc =>
    refine taskMove_updateTask htask' fun task htask heq hnew => ?_
    have hpending : task.state = .pending :=
      hs.state_hand htask (by rw [hpc]; exact ⟨rfl, rfl⟩)
    rw [Task.markStarted, if_pos hpending] at hnew
    subst heq hnew
    exact .started task htask rfl rfl
  | record id' response hpc =>
    rw [recordResponse_eq_updateTask] at htask' ⊢
    exact taskMove_finish hs (by rw [hpc]; exact ⟨rfl, rfl⟩) (.response response hpc) htask'
  | fail id' hpc =>
    rw [Tasker.failTask_eq] at htask' ⊢
    exact taskMove_finish hs (by rw [hpc]; exact ⟨rfl, rfl⟩) (.failure hpc) htask'
  | _ => exact .same htask'

theorem taskMove_call (hs : TasksOk taskObserver s log) {uuid : Bytes} {req : DecodedRequest}
    {op : ServerCall} {k : op.Ret → Handler ServerResponse} {pc : ServerPc}
    (hpc : s.server = .serving req (.call (S := ServerCalls) op k))
    (htask' : (execCall uuid op s.shared).2.tasker.getTask id = some task') :
    TaskMove s { s with server := pc, shared := (execCall uuid op s.shared).2 } id task' := by
  have hcall := hs.call hpc
  cases op with
  | emplaceTask new request session =>
    have hput := (Tasker.getTask_emplaceTask s.shared.now request hcall.1 id).symm.trans htask'
    split at hput
    · rename_i heq
      obtain rfl := Option.some.inj hput
      rw [heq]
      exact .new hcall.2.1 hcall.1 rfl
    · exact .same hput
  | removeTask old =>
    have hleft := (Tasker.getTask_removeTask old id s.shared.tasker).symm.trans htask'
    split at hleft
    · cases hleft
    · exact .same hleft
  | _ => exact .same htask'

/-- **What a step can do to a task.** -/
theorem task_step (hs : TasksOk taskObserver s log) (h : step P s l = some s')
    (htask' : s'.shared.tasker.getTask id = some task') : TaskMove s s' id task' := by
  cases step_effect h with
  | server hmove =>
    cases hmove with
    | call uuid req op k hpc => exact taskMove_call hs hpc htask'
    | _ => exact .same htask'
  | taskWorker hmove => exact taskMove_taskWorker hs.life hmove htask'
  | robotWorker => exact .same htask'
  | sweeper _ hmove =>
    cases hmove with
    | tasks =>
      have hkept := (Tasker.getTask_sweepExpiredTasks _ 300 id _).symm.trans htask'
      exact .same (Option.filter_eq_some_iff.mp hkept).1
    | _ => exact .same htask'
  | other _ _ _ hmove =>
    refine .same ?_
    rw [Tasker.getTask, ← hmove.taskMap]
    exact htask'

end TaskMove

/-! ### Promises and their values -/

/-- The value was set on a promise that was made for the task. -/
def Got (s : System) (id : TaskId) (value : Bytes) : Prop :=
  ∃ p, (p, id) ∈ s.shared.history.promised ∧ (p, value) ∈ s.shared.robot.responses

/-- How a task came to its end: with a value that is not an error, with one that is, or without
any. -/
inductive Concluded (s : System) (id : TaskId) (task : Task) : Prop
  | completed (hstate : task.state = .completed) (hvalue : isErrorResponse task.response = false)
      (hgot : s.Got id task.response)
  | refused (value : Bytes) (hstate : task.state = .failed) (hvalue : isErrorResponse value = true)
      (hgot : s.Got id value) (hresponse : task.response = ascii "Robot error: " ++ value)
  | disconnected (hstate : task.state = .failed)
      (hresponse : task.response = ascii "Robot disconnected")

/-- Promises and values are kept. -/
structure Keeps (s s' : System) : Prop where
  promised : s.shared.history.promised ⊆ s'.shared.history.promised
  responses : s.shared.robot.responses ⊆ s'.shared.robot.responses

section Keeps

variable {P : Platform} {s s' : System} {l : Label} {id : TaskId} {task : Task} {value : Bytes}

theorem Got.mono (h : s.Got id value) (hkeeps : s.Keeps s') : s'.Got id value := by
  obtain ⟨p, hp, hvalue⟩ := h
  exact ⟨p, hkeeps.promised hp, hkeeps.responses hvalue⟩

theorem Concluded.mono (h : s.Concluded id task) (hkeeps : s.Keeps s') : s'.Concluded id task := by
  cases h with
  | completed hstate hvalue hgot => exact .completed hstate hvalue (hgot.mono hkeeps)
  | refused value hstate hvalue hgot hresponse =>
    exact .refused value hstate hvalue (hgot.mono hkeeps) hresponse
  | disconnected hstate hresponse => exact .disconnected hstate hresponse

theorem keeps_step (h : step P s l = some s') : s.Keeps s' := by
  cases step_effect h with
  | server hmove =>
    cases hmove with
    | call uuid req op =>
      refine ⟨?_, ?_⟩
      · rw [promised_execCall]
        exact List.Subset.refl _
      · rw [robot_execCall]
        exact List.Subset.refl _
    | _ => exact ⟨List.Subset.refl _, List.Subset.refl _⟩
  | taskWorker hmove =>
    cases hmove with
    | push => exact ⟨List.subset_append_left _ _, List.Subset.refl _⟩
    | _ => exact ⟨List.Subset.refl _, List.Subset.refl _⟩
  | robotWorker hmove =>
    refine ⟨List.Subset.refl _, ?_⟩
    cases Robot.workerStep_effect hmove with
    | answer item value _ _ hresponses =>
      rw [hresponses, Robot.setValue]
      split
      · exact List.subset_append_left _ _
      · exact List.Subset.refl _
    | keep _ _ hresponses | take _ _ _ hresponses | beat _ _ _ hresponses =>
      rw [hresponses]
      exact List.Subset.refl _
  | sweeper _ hmove => cases hmove <;> exact ⟨List.Subset.refl _, List.Subset.refl _⟩
  | other _ _ _ hmove =>
    exact ⟨hmove.history ▸ List.Subset.refl _, hmove.robot.responses ▸ List.Subset.refl _⟩

end Keeps

/-! ### The invariant -/

/-- The request of the task `id`, as long as it is there. -/
def Requested (s : System) (id : TaskId) (req : RapidRequest) : Prop :=
  id ∈ s.shared.history.queued ∧
    ∀ task, s.shared.tasker.getTask id = some task → task.request = req

structure ResponsesOk (s : System) (queued : List RapidRequest) : Prop where
  length : queued.length = s.shared.robot.nextPromise
  hand : ∀ id req, s.taskWorker.request = some (id, req) → s.Requested id req
  promised : ∀ p id, (p, id) ∈ s.shared.history.promised →
    ∃ req, queued[p]? = some req ∧ s.Requested id req
  awaiting : ∀ id p, s.taskWorker = .awaiting id p → (p, id) ∈ s.shared.history.promised
  recording : ∀ id response, s.taskWorker = .recording id response → s.Got id response
  ended : ∀ id task, s.shared.tasker.getTask id = some task → task.state.terminal = true →
    s.Concluded id task

theorem responsesOk_initial (users : List UserInfo) : ResponsesOk (initial users) [] :=
  ⟨rfl, nofun, nofun, nofun, nofun, nofun⟩

section ResponsesOk

variable {P : Platform} {s s' : System} {l : Label} {log : List TaskEvent} {id : TaskId}
  {queued : List RapidRequest}

/-- A task keeps its request. -/
theorem Requested.step (h : s.Requested id req) (hs : TasksOk taskObserver s log)
    (hstep : step P s l = some s') : s'.Requested id req := by
  refine ⟨queued_step hstep h.1, fun task' htask' => ?_⟩
  cases task_step hs hstep htask' with
  | new hid => exact absurd h.1 hid
  | same htask => exact h.2 task' htask
  | started task htask hrequest => exact hrequest.trans (h.2 task htask)
  | ended task o htask hrequest => exact hrequest.trans (h.2 task htask)

/-- The other threads leave the task worker where it is, unless they make it. -/
theorem taskWorker_other (h : step P s l = some s') (hl : ∀ e, l ≠ .taskWorker e) :
    s'.taskWorker = s.taskWorker ∨ s'.taskWorker = .loopTest := by
  cases step_effect h with
  | taskWorker => exact absurd rfl (hl _)
  | other _ _ _ hmove => exact hmove.taskWorker.imp_right And.right
  | _ => exact .inl rfl

/-- The task worker waits for a promise that it has just got. -/
theorem awaiting_step (h : step P s l = some s') {p : ℕ} (hpc : s'.taskWorker = .awaiting id p) :
    s.taskWorker = .awaiting id p ∨ (p, id) ∈ s'.shared.history.promised := by
  by_cases hl : ∃ e, l = .taskWorker e
  · obtain ⟨e, rfl⟩ := hl
    cases step_effect h with
    | other _ hno => exact absurd rfl (hno e)
    | taskWorker hmove =>
      cases hmove with
      | keep _ _ _ hawait => exact absurd hpc (hawait id p)
      | start id' pc' _ hpc' => rcases hpc' with rfl | rfl <;> cases hpc
      | push id' req =>
        obtain ⟨rfl, rfl⟩ := TaskWorkerPc.awaiting.inj hpc
        exact .inr (List.mem_append_right _ (List.mem_singleton_self _))
      | _ => cases hpc
  · rcases taskWorker_other h (fun e he => hl ⟨e, he⟩) with hsame | hnew
    · exact .inl (hsame.symm.trans hpc)
    · cases hnew.symm.trans hpc

/-- The task worker records what the future gave it. -/
theorem recording_step (h : step P s l = some s') {response : Bytes}
    (hpc : s'.taskWorker = .recording id response) :
    s.taskWorker = .recording id response ∨
      ∃ p, s.taskWorker = .awaiting id p ∧ (p, response) ∈ s.shared.robot.responses := by
  by_cases hl : ∃ e, l = .taskWorker e
  · obtain ⟨e, rfl⟩ := hl
    cases step_effect h with
    | other _ hno => exact absurd rfl (hno e)
    | taskWorker hmove =>
      cases hmove with
      | keep _ _ _ _ _ _ hdone => exact absurd hpc (hdone id response)
      | start id' pc' _ hpc' => rcases hpc' with rfl | rfl <;> cases hpc
      | answered id' p response' hawaiting hfuture =>
        obtain ⟨rfl, rfl⟩ := TaskWorkerPc.recording.inj hpc
        refine .inr ⟨p, hawaiting, ?_⟩
        obtain ⟨⟨p', value⟩, hfind, rfl⟩ := Option.map_eq_some_iff.mp hfuture
        obtain rfl : p' = p := by simpa using List.find?_some hfind
        exact List.mem_of_find?_eq_some hfind
      | _ => cases hpc
  · rcases taskWorker_other h (fun e he => hl ⟨e, he⟩) with hsame | hnew
    · exact .inl (hsame.symm.trans hpc)
    · cases hnew.symm.trans hpc

/-- What is recorded of a task. -/
theorem ResponsesOk.ended_of_records (hs : ResponsesOk s queued) {o : Outcome} {task : Task}
    (hrecords : s.Records id o) (hstate : task.state = o.state)
    (hresponse : task.response = o.response) : s.Concluded id task := by
  cases hrecords with
  | response value hpc =>
    have hgot := hs.recording id value hpc
    rw [Outcome.ofResponse] at hstate hresponse
    split at hstate
    · rename_i hvalue
      rw [if_pos hvalue] at hresponse
      exact .refused value hstate hvalue hgot hresponse
    · rename_i hvalue
      rw [if_neg hvalue] at hresponse
      exact .completed hstate (hresponse ▸ Bool.eq_false_iff.mpr hvalue) (hresponse ▸ hgot)
  | failure hpc => exact .disconnected hstate hresponse

/-- The task worker queues its request. -/
theorem step_pushing {req : RapidRequest} (hpc : s.taskWorker = .pushing id req)
    (h : step P s (.taskWorker .advance) = some s') :
    s.pushEvents (.taskWorker .advance) = [req] ∧
      s'.shared.robot.nextPromise = s.shared.robot.nextPromise + 1 ∧
      s'.shared.history.promised =
        s.shared.history.promised ++ [(s.shared.robot.nextPromise, id)] := by
  rw [step, hpc] at h
  obtain rfl := Option.some.inj h
  exact ⟨by simp [pushEvents, hpc], rfl, rfl⟩

/-- Nothing is queued. -/
theorem step_not_pushing
    (hl : l = .taskWorker .advance → ∀ id req, s.taskWorker ≠ .pushing id req)
    (h : step P s l = some s') : s.pushEvents l = [] ∧
      s'.shared.robot.nextPromise = s.shared.robot.nextPromise ∧
      s'.shared.history.promised = s.shared.history.promised := by
  refine ⟨?_, ?_⟩
  · rw [pushEvents]
    exact fun id req hadvance hpush => hl hadvance id req hpush
  · cases step_effect h with
    | server hmove => cases hmove <;> simp
    | taskWorker hmove =>
      cases hmove with
      | push id req hpush => exact absurd hpush (hl rfl id req)
      | _ => exact ⟨rfl, rfl⟩
    | robotWorker hmove => exact ⟨Robot.nextPromise_workerStep hmove, rfl⟩
    | sweeper _ hmove => cases hmove <;> exact ⟨rfl, rfl⟩
    | other _ _ _ hmove => exact ⟨hmove.robot.nextPromise, by rw [hmove.history]⟩

/-- A promise is made for the request in the task worker's hands. -/
theorem promised_step {Q : TaskId → RapidRequest → Prop}
    (hlength : queued.length = s.shared.robot.nextPromise)
    (hhand : ∀ id req, s.taskWorker.request = some (id, req) → Q id req)
    (hpromised : ∀ p id, (p, id) ∈ s.shared.history.promised →
      ∃ req, queued[p]? = some req ∧ Q id req) (h : step P s l = some s') :
    (queued ++ s.pushEvents l).length = s'.shared.robot.nextPromise ∧
      ∀ p id, (p, id) ∈ s'.shared.history.promised →
        ∃ req, (queued ++ s.pushEvents l)[p]? = some req ∧ Q id req := by
  have hold : ∀ {more p id}, (p, id) ∈ s.shared.history.promised →
      ∃ req, (queued ++ more)[p]? = some req ∧ Q id req := by
    intro more p id hp
    obtain ⟨req, hreq, hrequested⟩ := hpromised p id hp
    refine ⟨req, ?_, hrequested⟩
    rw [List.getElem?_append_left (List.getElem?_eq_some_iff.mp hreq).1, hreq]
  by_cases hpush : l = .taskWorker .advance ∧ ∃ id req, s.taskWorker = .pushing id req
  · obtain ⟨rfl, id, req, hpc⟩ := hpush
    obtain ⟨hseen, hnext, hmade⟩ := step_pushing hpc h
    rw [hseen, hnext, hmade]
    refine ⟨by rw [List.length_append, hlength]; rfl, fun p id' hp => ?_⟩
    rcases List.mem_append.mp hp with hp | hp
    · exact hold hp
    · obtain ⟨rfl, rfl⟩ := Prod.mk.inj (List.mem_singleton.mp hp)
      refine ⟨req, ?_, hhand id' req (by rw [hpc]; rfl)⟩
      rw [← hlength]
      exact List.getElem?_concat_length
  · have hnot : l = .taskWorker .advance → ∀ id req, s.taskWorker ≠ .pushing id req :=
      fun hl id req hpc => hpush ⟨hl, id, req, hpc⟩
    obtain ⟨hseen, hnext, hmade⟩ := step_not_pushing hnot h
    rw [hseen, hnext, hmade]
    exact ⟨by rw [List.append_nil, hlength], fun p id hp => hold hp⟩

/-- **Step lemma.** -/
theorem ResponsesOk.step (hs : ResponsesOk s queued) (htasks : TasksOk taskObserver s log)
    (h : step P s l = some s') : ResponsesOk s' (queued ++ s.pushEvents l) := by
  have htasks' := htasks.step h
  have hkeeps := keeps_step h
  obtain ⟨hlength, hpromised⟩ := promised_step hs.length hs.hand hs.promised h
  refine ⟨hlength, fun id req hreq => ?_, fun p id hp => ?_, fun id p hpc => ?_,
    fun id response hpc => ?_, fun id task htask hstate => ?_⟩
  · refine Requested.step ?_ htasks h
    by_cases hserver : ∃ e, l = .server e
    · obtain ⟨e, rfl⟩ := hserver
      cases step_effect h with
      | server => exact hs.hand id req hreq
      | other hno => exact absurd rfl (hno e)
    · rcases request_step h hreq with hold | ⟨task, htask, rfl⟩
      · exact hs.hand id req hold
      · -- the task worker has read the request from the map
        have hid : s'.taskWorker.task = some id := by
          cases hpc : s'.taskWorker <;> simp_all [TaskWorkerPc.request, TaskWorkerPc.task]
        have hqueued := (htasks'.life.queue.inHand id hid).1
        rw [(interference_step h fun e he => hserver ⟨e, he⟩).queued] at hqueued
        exact ⟨hqueued, fun task' htask' => by rw [Option.some.inj (htask.symm.trans htask')]⟩
  · obtain ⟨req, hreq, hrequested⟩ := hpromised p id hp
    exact ⟨req, hreq, hrequested.step htasks h⟩
  · rcases awaiting_step h hpc with hold | hnew
    · exact hkeeps.promised (hs.awaiting id p hold)
    · exact hnew
  · rcases recording_step h hpc with hold | ⟨p, hawaiting, hvalue⟩
    · exact (hs.recording id response hold).mono hkeeps
    · exact Got.mono ⟨p, hs.awaiting id p hawaiting, hvalue⟩ hkeeps
  · cases task_step htasks h htask with
    | new _ _ hopen => exact absurd hstate (by rw [hopen]; decide)
    | same hold => exact (hs.ended id task hold hstate).mono hkeeps
    | started _ _ _ hopen => exact absurd hstate (by rw [hopen]; decide)
    | ended old o _ _ hrecords hends hresponse =>
      exact (hs.ended_of_records hrecords hends hresponse).mono hkeeps

theorem responsesOk_reaches {allowed : System → Label → Prop} {users : List UserInfo}
    (h : Reaches (logged (System.step P) pushEvents) (unlogged allowed) (initial users, [])
      (s, queued)) : ResponsesOk s queued ∧ ∃ log, TasksOk taskObserver s log := by
  refine h.logged_invariant
    (I := fun t queued => ResponsesOk t queued ∧ ∃ log, TasksOk taskObserver t log)
    ⟨responsesOk_initial users, [], tasksOk_initial users⟩ ?_
  rintro t queued l t' ⟨ht, log, htasks⟩ - hstep
  exact ⟨ht.step htasks hstep, _, htasks.step hstep⟩

end ResponsesOk

/-- **A task ends with the value of its own promise.** In every run, a task that is `COMPLETED` has
for its response a value that is not an error, and a task that is `FAILED` has the message that the
robot was not there, or the message of an error with the value that is one; and either value was
set on a promise for which the request of that task was queued. -/
theorem responses_reaches {P : Platform} {users : List UserInfo} {s : System}
    {queued : List RapidRequest}
    (h : Reaches (logged (System.step P) pushEvents) (unlogged always) (initial users, [])
      (s, queued)) {id : TaskId} {task : Task} (htask : s.shared.tasker.getTask id = some task)
    (hstate : task.state.terminal = true) :
    s.Concluded id task ∧ ∀ value, s.Got id value →
      ∃ p, (p, value) ∈ s.shared.robot.responses ∧ queued[p]? = some task.request := by
  have hs := (responsesOk_reaches h).1
  refine ⟨hs.ended id task htask hstate, fun value ⟨p, hp, hvalue⟩ => ⟨p, hvalue, ?_⟩⟩
  obtain ⟨req, hreq, hrequested⟩ := hs.promised p id hp
  rw [hrequested.2 task htask, hreq]

set_option maxRecDepth 2000 in
/-- The robot refuses the request for its status. -/
theorem responses_reaches_finish :
    ∃ s queued task, Reaches (logged (System.step Platform.linux) pushEvents) (unlogged always)
        (initial SessionManager.aliceOnly, []) (s, queued) ∧
      s.shared.tasker.getTask 1 = some task ∧ task.state = .failed ∧
      task.response = ascii "Robot error: NACK" ∧ s.Concluded 1 task := by
  have hrun : ∃ s queued task, runLabels (logged (System.step Platform.linux) pushEvents)
      (unlogged always) (initial SessionManager.aliceOnly, []) finishLabels = some (s, queued) ∧
        s.shared.tasker.getTask 1 = some task ∧ task.state = .failed ∧
        task.response = ascii "Robot error: NACK" :=
    ⟨_, _, _, rfl, rfl, rfl, by decide⟩
  obtain ⟨s, queued, task, hs, htask, hstate, hresponse⟩ := hrun
  exact ⟨s, queued, task, .of_runLabels hs, htask, hstate, hresponse,
    (responses_reaches (.of_runLabels hs) htask (by rw [hstate]; rfl)).1⟩

end System

end RobertMiddleware
