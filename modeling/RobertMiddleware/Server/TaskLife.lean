import RobertMiddleware.Server.TaskCalls
import RobertMiddleware.Server.WorkQueue

/-!
# The life of a task

Two threads change the map of the tasks while the task worker has one in its hands:
`handle_check_task` removes the task whose copy it answered with, and the sweep erases what is old.
Neither touches a task that has not come to its end, so the task worker always finds the task it
took.

## Main definitions

* `System.LifeOk` — every queued task is `PENDING`, and the one in hand is where the worker stands
* `System.TasksOk` — that, and what the handlers know

## Main results

* `System.LifeOk.updateTask` — what the task worker may write
* `System.TasksOk.step` — the tasks are in order along runs
-/

namespace RobertMiddleware

open Effects Transition

namespace TaskWorkerPc

/-- The state of the task in the worker's hands. -/
def taskState : TaskWorkerPc → TaskState
  | .starting _ => .pending
  | _ => .inProgress

theorem taskState_of_ne_starting {pc : TaskWorkerPc} (h : ∀ id, pc ≠ .starting id) :
    pc.taskState = .inProgress := by
  cases pc with
  | starting id => exact absurd rfl (h id)
  | _ => rfl

end TaskWorkerPc

namespace System

/-- The task `id` is there, in this state. -/
def HasState (s : System) (id : TaskId) (state : TaskState) : Prop :=
  ∃ task, s.shared.tasker.getTask id = some task ∧ task.state = state

/-- Tasks are where their states say. -/
structure LifeOk (s : System) : Prop where
  queue : TaskQueueOk s
  pending : ∀ id ∈ s.shared.tasker.taskQueue, s.HasState id .pending
  hand : ∀ id, s.taskWorker.task = some id → s.HasState id s.taskWorker.taskState
  /-- A task whose id is still to be pushed. -/
  unqueued : ∀ id task, s.shared.tasker.getTask id = some task → id ∉ s.shared.history.queued →
    task.state = .pending
  below : s.shared.tasker.MapBelow

theorem lifeOk_initial (users : List UserInfo) : LifeOk (initial users) where
  queue := ⟨List.nodup_nil, nofun, nofun⟩
  pending := nofun
  hand := nofun
  unqueued := nofun
  below := nofun

/-- What leaves the tasks alone. -/
theorem LifeOk.of_same {s s' : System} (hs : LifeOk s) (hqueue : TaskQueueOk s')
    (hmap : s'.shared.tasker.taskMap = s.shared.tasker.taskMap)
    (hcounter : s.shared.tasker.nextTaskCounter ≤ s'.shared.tasker.nextTaskCounter)
    (htaskQueue : s'.shared.tasker.taskQueue = s.shared.tasker.taskQueue)
    (hqueued : s'.shared.history.queued = s.shared.history.queued)
    (htask : ∀ id, s'.taskWorker.task = some id →
      s.taskWorker.task = some id ∧ s'.taskWorker.taskState = s.taskWorker.taskState) :
    LifeOk s' := by
  have hget : ∀ id, s'.shared.tasker.getTask id = s.shared.tasker.getTask id := fun id => by
    rw [Tasker.getTask, Tasker.getTask, hmap]
  refine ⟨hqueue, fun id hid => ?_, fun id hid => ?_, fun id task htask hid => ?_,
    fun id task htask => ?_⟩
  · rw [HasState, hget]
    exact hs.pending id (htaskQueue ▸ hid)
  · obtain ⟨hold, hstate⟩ := htask id hid
    rw [HasState, hget, hstate]
    exact hs.hand id hold
  · rw [hget] at htask
    exact hs.unqueued id task htask (hqueued ▸ hid)
  · rw [hget] at htask
    exact (hs.below id task htask).trans_le hcounter

/-! #### The other threads -/

/-- What does not touch the map is not noticed by a handler. -/
theorem taskRely_of_same {s : System} (hs : LifeOk s) (hids : s.shared.IdsBelow) {b : Shared}
    (hmap : b.tasker.taskMap = s.shared.tasker.taskMap)
    (hcounter : b.tasker.nextTaskCounter = s.shared.tasker.nextTaskCounter)
    (hcreated : b.history.created = s.shared.history.created)
    (hqueued : b.history.queued = s.shared.history.queued) : TaskRely s.shared b := by
  have hget : ∀ id, b.tasker.getTask id = s.shared.tasker.getTask id := fun id => by
    rw [Tasker.getTask, Tasker.getTask, hmap]
  refine ⟨hcounter, hcreated, hqueued, fun id _ => hget id, fun id _ => ?_, ⟨?_, ?_⟩, ?_⟩
  · rw [hget]
    exact .refl _
  · rw [hcreated, hcounter]
    exact hids.created
  · rw [hqueued, hcounter]
    exact hids.queued
  · intro id task htask
    rw [hget] at htask
    rw [hcounter]
    exact hs.below id task htask

theorem taskRely_refl {s : System} (hs : LifeOk s) (hids : s.shared.IdsBelow) :
    TaskRely s.shared s.shared :=
  taskRely_of_same hs hids rfl rfl rfl rfl

section Update

variable {s : System} {id : TaskId} {f : Task → Task}

/-- The task worker updates the task in its hands. -/
theorem taskRely_updateTask (hs : LifeOk s) (hids : s.shared.IdsBelow)
    (hid : s.taskWorker.task = some id)
    (hf : ∀ task, task.state = s.taskWorker.taskState →
      Task.Advances (some task) (some (f task))) :
    TaskRely s.shared { s.shared with tasker := (s.shared.tasker.updateTask id f).2 } := by
  obtain ⟨hqueued, -⟩ := hs.queue.inHand id hid
  obtain ⟨task, htask, hstate⟩ := hs.hand id hid
  refine ⟨Tasker.nextTaskCounter_updateTask .., rfl, rfl, fun id' hid' => ?_, fun id' _ => ?_,
    ⟨?_, ?_⟩, fun id' task' htask' => ?_⟩
  · have hne : id' ≠ id := by
      rintro rfl
      exact hid' hqueued
    exact (Tasker.getTask_updateTask ..).trans (if_neg hne)
  · rw [Tasker.getTask_updateTask]
    split
    · rename_i heq
      rw [heq, htask]
      exact hf task hstate
    · exact .refl _
  · exact fun e he => (hids.created e he).trans_eq (Tasker.nextTaskCounter_updateTask ..).symm
  · exact fun e he => (hids.queued e he).trans_eq (Tasker.nextTaskCounter_updateTask ..).symm
  · refine lt_of_lt_of_eq ?_ (Tasker.nextTaskCounter_updateTask ..).symm
    rw [Tasker.getTask_updateTask] at htask'
    split at htask'
    · rename_i heq
      exact heq ▸ hs.below id task htask
    · exact hs.below id' task' htask'

theorem LifeOk.updateTask (hs : LifeOk s) (hid : s.taskWorker.task = some id)
    {pc : TaskWorkerPc} {s' : System} (hqueue : TaskQueueOk s')
    (hs' : s' = { s with
      taskWorker := pc
      shared := { s.shared with tasker := (s.shared.tasker.updateTask id f).2 } })
    (hpc : pc.task = none ∨ pc.task = some id ∧
      ∀ task, task.state = s.taskWorker.taskState → (f task).state = pc.taskState) :
    LifeOk s' := by
  obtain ⟨hqueued, hout⟩ := hs.queue.inHand id hid
  obtain ⟨task, htask, hstate⟩ := hs.hand id hid
  have hget : ∀ id', s'.shared.tasker.getTask id' =
      if id' = id then (s.shared.tasker.getTask id).map f else s.shared.tasker.getTask id' := by
    intro id'
    rw [hs']
    exact Tasker.getTask_updateTask ..
  refine ⟨hqueue, fun id' hid' => ?_, fun id' hid' => ?_, fun id' task' htask' hid' => ?_,
    fun id' task' htask' => ?_⟩
  · have hmem : id' ∈ s.shared.tasker.taskQueue := by
      rw [hs'] at hid'
      exact (Tasker.taskQueue_updateTask ..) ▸ hid'
    have hne : id' ≠ id := by
      rintro rfl
      exact hout hmem
    rw [HasState, hget, if_neg hne]
    exact hs.pending id' hmem
  · rw [hs'] at hid'
    rcases hpc with hnone | ⟨hsome, hafter⟩
    · rw [show pc.task = some id' from hid'] at hnone
      cases hnone
    · obtain rfl : id' = id := Option.some.inj (hid'.symm.trans hsome)
      rw [HasState, hget, if_pos rfl, htask, hs']
      exact ⟨f task, rfl, hafter task hstate⟩
  · have hne : id' ≠ id := by
      rintro rfl
      rw [hs'] at hid'
      exact hid' hqueued
    rw [hget, if_neg hne] at htask'
    rw [hs'] at hid'
    exact hs.unqueued id' task' htask' hid'
  · have hlt : id' < s.shared.tasker.nextTaskCounter := by
      rw [hget] at htask'
      split at htask'
      · rename_i heq
        exact heq ▸ hs.below id task htask
      · exact hs.below id' task' htask'
    rw [hs']
    exact hlt.trans_eq (Tasker.nextTaskCounter_updateTask ..).symm

end Update

section Sweep

variable {s : System}

theorem taskRely_sweepExpiredTasks (hs : LifeOk s) (hids : s.shared.IdsBelow) (now timeout : ℤ) :
    TaskRely s.shared
      { s.shared with tasker := s.shared.tasker.sweepExpiredTasks now timeout } := by
  refine ⟨rfl, rfl, rfl, fun id hid => ?_, fun id _ => ?_, ⟨hids.created, hids.queued⟩,
    fun id task htask => ?_⟩
  · cases htask : s.shared.tasker.getTask id with
    | none =>
      rw [Tasker.getTask_sweepExpiredTasks, htask]
      rfl
    | some task =>
      have hpending := hs.unqueued id task htask hid
      refine Tasker.getTask_sweepExpiredTasks_of_not_terminal now timeout htask ?_
      rw [hpending]
      rfl
  · rw [Tasker.getTask_sweepExpiredTasks]
    cases hkept : (s.shared.tasker.getTask id).filter
        fun task => !task.isExpired now Task.defaultTimeout with
    | none => exact .gone _
    | some task =>
      rw [(Option.filter_eq_some_iff.mp hkept).1]
      exact .refl _
  · rw [Tasker.getTask_sweepExpiredTasks] at htask
    exact hs.below id task (Option.filter_eq_some_iff.mp htask).1

/-- A task that has not come to its end survives the sweep. -/
theorem HasState.sweepExpiredTasks {id : TaskId} {state : TaskState} (h : s.HasState id state)
    (hstate : state.terminal = false) (now timeout : ℤ) {s' : System}
    (hs' : s'.shared.tasker = s.shared.tasker.sweepExpiredTasks now timeout) :
    s'.HasState id state := by
  obtain ⟨task, htask, rfl⟩ := h
  refine ⟨task, ?_, rfl⟩
  rw [hs']
  exact Tasker.getTask_sweepExpiredTasks_of_not_terminal now timeout htask hstate

theorem taskState_terminal (pc : TaskWorkerPc) : pc.taskState.terminal = false := by
  cases pc <;> rfl

theorem LifeOk.sweepExpiredTasks (hs : LifeOk s) (now timeout : ℤ) {s' : System}
    (hqueue : TaskQueueOk s')
    (hs' : s'.shared = { s.shared with
      tasker := s.shared.tasker.sweepExpiredTasks now timeout })
    (hworker : s'.taskWorker = s.taskWorker) : LifeOk s' := by
  have htasker : s'.shared.tasker = s.shared.tasker.sweepExpiredTasks now timeout := by rw [hs']
  have hold : ∀ id task, s'.shared.tasker.getTask id = some task →
      s.shared.tasker.getTask id = some task := by
    intro id task htask
    rw [htasker, Tasker.getTask_sweepExpiredTasks] at htask
    exact (Option.filter_eq_some_iff.mp htask).1
  refine ⟨hqueue, fun id hid => ?_, fun id hid => ?_, fun id task htask hid => ?_,
    fun id task htask => ?_⟩
  · rw [hs'] at hid
    exact (hs.pending id hid).sweepExpiredTasks rfl now timeout htasker
  · rw [hworker] at hid ⊢
    exact (hs.hand id hid).sweepExpiredTasks (taskState_terminal _) now timeout htasker
  · rw [hs'] at hid
    exact hs.unqueued id task (hold id task htask) hid
  · rw [htasker]
    exact hs.below id task (hold id task htask)

end Sweep

/-- The task worker records how a task ended. -/
theorem LifeOk.finish {s : System} (hs : LifeOk s) (hids : s.shared.IdsBelow) {id : TaskId}
    (hid : s.taskWorker.task = some id) (hworking : s.taskWorker.taskState = .inProgress)
    (o : Outcome)
    (hqueue : TaskQueueOk { s with
      taskWorker := .loopTest
      shared := { s.shared with
        tasker := (s.shared.tasker.updateTask id (Task.finish s.shared.now o)).2 } }) :
    TaskRely s.shared { s.shared with
        tasker := (s.shared.tasker.updateTask id (Task.finish s.shared.now o)).2 } ∧
      LifeOk { s with
        taskWorker := .loopTest
        shared := { s.shared with
          tasker := (s.shared.tasker.updateTask id (Task.finish s.shared.now o)).2 } } := by
  refine ⟨taskRely_updateTask hs hids hid fun task htask => ?_,
    hs.updateTask hid hqueue rfl (.inl rfl)⟩
  exact Task.advances_finish _ _ (htask.trans hworking)

/-- The steps of the task worker. -/
theorem life_taskWorker {s : System} (hs : LifeOk s) (hids : s.shared.IdsBelow)
    {e : TaskWorkerEvent} {pc : TaskWorkerPc} {b : Shared}
    (h : TaskWorkerEffect s.taskWorker s.shared e pc b)
    (hqueue : TaskQueueOk { s with taskWorker := pc, shared := b }) :
    TaskRely s.shared b ∧ LifeOk { s with taskWorker := pc, shared := b } := by
  cases h with
  | keep _ _ _ _ htask _ _ hstarting hstarting' =>
    refine ⟨taskRely_refl hs hids, hs.of_same hqueue rfl (le_refl _) rfl rfl fun id hid => ?_⟩
    refine ⟨htask id hid, ?_⟩
    rw [TaskWorkerPc.taskState_of_ne_starting hstarting]
    exact TaskWorkerPc.taskState_of_ne_starting hstarting'
  | take id rest hpc htake =>
    refine ⟨taskRely_of_same hs hids rfl rfl rfl rfl, ?_⟩
    refine ⟨hqueue, fun id' hid' => ?_, ?_, hs.unqueued, hs.below⟩
    · exact hs.pending id' (htake ▸ List.mem_cons_of_mem _ hid')
    · rintro _ ⟨⟩
      exact hs.pending id (htake ▸ List.mem_cons_self)
  | start id _ hpc hpc' =>
    have hid : s.taskWorker.task = some id := by rw [hpc]; rfl
    have hpending : s.taskWorker.taskState = .pending := by rw [hpc]; rfl
    refine ⟨taskRely_updateTask hs hids hid fun task htask => ?_,
      hs.updateTask hid hqueue rfl ?_⟩
    · exact Task.advances_markStarted _ (htask.trans hpending)
    · rcases hpc' with rfl | rfl
      · refine .inr ⟨rfl, fun task htask => ?_⟩
        rw [Task.markStarted, if_pos (htask.trans hpending)]
        rfl
      · exact .inl rfl
  | push id req hpc =>
    refine ⟨taskRely_of_same hs hids rfl rfl rfl rfl,
      hs.of_same hqueue rfl (le_refl _) rfl rfl fun id' hid' => ?_⟩
    rw [hpc]
    exact ⟨hid', rfl⟩
  | answered id p response hpc =>
    refine ⟨taskRely_refl hs hids,
      hs.of_same hqueue rfl (le_refl _) rfl rfl fun id' hid' => ?_⟩
    rw [hpc]
    exact ⟨hid', rfl⟩
  | timedOut id p hpc =>
    refine ⟨taskRely_refl hs hids,
      hs.of_same hqueue rfl (le_refl _) rfl rfl fun id' hid' => ?_⟩
    rw [hpc]
    exact ⟨hid', rfl⟩
  | record id response hpc =>
    rw [recordResponse_eq_updateTask] at hqueue ⊢
    exact hs.finish hids (by rw [hpc]; rfl) (by rw [hpc]; rfl) _ hqueue
  | fail id hpc =>
    rw [Tasker.failTask_eq] at hqueue ⊢
    exact hs.finish hids (by rw [hpc]; rfl) (by rw [hpc]; rfl) _ hqueue

/-- The steps of all threads but the server thread. -/
theorem life_other {P : Platform} {s s' : System} {l : Label} (hs : LifeOk s)
    (hids : s.shared.IdsBelow) (hqueue : TaskQueueOk s') (h : step P s l = some s')
    (hl : ∀ e, l ≠ .server e) : TaskRely s.shared s'.shared ∧ LifeOk s' := by
  cases step_effect h with
  | server => exact absurd rfl (hl _)
  | taskWorker hmove => exact life_taskWorker hs hids hmove hqueue
  | robotWorker hmove =>
    exact ⟨taskRely_of_same hs hids rfl rfl rfl rfl,
      hs.of_same hqueue rfl (le_refl _) rfl rfl fun id hid => ⟨hid, rfl⟩⟩
  | sweeper _ hmove =>
    cases hmove with
    | tasks =>
      exact ⟨taskRely_sweepExpiredTasks hs hids _ _, hs.sweepExpiredTasks _ _ hqueue rfl rfl⟩
    | _ =>
      exact ⟨taskRely_of_same hs hids rfl rfl rfl rfl,
        hs.of_same hqueue rfl (le_refl _) rfl rfl fun id hid => ⟨hid, rfl⟩⟩
  | other _ _ _ hmove =>
    refine ⟨taskRely_of_same hs hids hmove.taskMap hmove.counter (by rw [hmove.history])
      (by rw [hmove.history]), hs.of_same hqueue hmove.taskMap (le_of_eq hmove.counter.symm)
      hmove.taskQueue (by rw [hmove.history]) fun id hid => ?_⟩
    rcases hmove.taskWorker with hsame | ⟨-, hnew⟩
    · rw [hsame] at hid ⊢
      exact ⟨hid, rfl⟩
    · rw [hnew] at hid
      cases hid

/-! #### The calls of a handler -/

/-- A task that is not the one concerned keeps its state. -/
theorem HasState.of_getTask {s s' : System} {id : TaskId} {state : TaskState}
    (h : s.HasState id state)
    (hget : s'.shared.tasker.getTask id = s.shared.tasker.getTask id) : s'.HasState id state := by
  obtain ⟨task, htask, hstate⟩ := h
  exact ⟨task, hget.trans htask, hstate⟩

section Calls

variable {s s' : System} {id : TaskId}

theorem LifeOk.emplaceTask (hs : LifeOk s) {request : RapidRequest} (hqueue : TaskQueueOk s')
    (hnone : s.shared.tasker.getTask id = none) (hout : id ∉ s.shared.history.queued)
    (hlt : id < s.shared.tasker.nextTaskCounter)
    (htasker : s'.shared.tasker = s.shared.tasker.emplaceTask s.shared.now id request)
    (hqueued : s'.shared.history.queued = s.shared.history.queued)
    (hworker : s'.taskWorker = s.taskWorker) : LifeOk s' := by
  have hget : ∀ id', s'.shared.tasker.getTask id' =
      if id' = id then some { id, request, createdTime := s.shared.now }
      else s.shared.tasker.getTask id' := by
    intro id'
    rw [htasker]
    exact Tasker.getTask_emplaceTask _ _ hnone id'
  have hne : ∀ id' ∈ s.shared.history.queued, id' ≠ id := by
    rintro id' hid' rfl
    exact hout hid'
  refine ⟨hqueue, fun id' hid' => ?_, fun id' hid' => ?_, fun id' task htask hid' => ?_,
    fun id' task htask => ?_⟩
  · have hmem : id' ∈ s.shared.tasker.taskQueue := by
      rw [htasker, Tasker.taskQueue_emplaceTask] at hid'
      exact hid'
    exact (hs.pending id' hmem).of_getTask
      ((hget id').trans (if_neg (hne id' (hs.queue.queued id' hmem))))
  · rw [hworker] at hid' ⊢
    exact (hs.hand id' hid').of_getTask
      ((hget id').trans (if_neg (hne id' (hs.queue.inHand id' hid').1)))
  · rw [hget] at htask
    split at htask
    · obtain rfl := Option.some.inj htask
      rfl
    · exact hs.unqueued id' task htask (hqueued ▸ hid')
  · rw [htasker, Tasker.nextTaskCounter_emplaceTask]
    rw [hget] at htask
    split at htask
    · rename_i heq
      exact heq ▸ hlt
    · exact hs.below id' task htask

theorem LifeOk.removeTask (hs : LifeOk s) (hqueue : TaskQueueOk s')
    (hphase : 2 ≤ Task.phase (s.shared.tasker.getTask id))
    (htasker : s'.shared.tasker = (s.shared.tasker.removeTask id).2)
    (hqueued : s'.shared.history.queued = s.shared.history.queued)
    (hworker : s'.taskWorker = s.taskWorker) : LifeOk s' := by
  have hget : ∀ id', s'.shared.tasker.getTask id' =
      if id' = id then none else s.shared.tasker.getTask id' := by
    intro id'
    rw [htasker]
    exact Tasker.getTask_removeTask id id' _
  -- a task that has not come to its end is another one
  have hne : ∀ {id' state}, s.HasState id' state → state.terminal = false → id' ≠ id := by
    rintro id' state ⟨task, htask, rfl⟩ hstate rfl
    rw [htask] at hphase
    cases hcase : task.state <;> simp_all [Task.phase, TaskState.terminal]
  have hold : ∀ id' task, s'.shared.tasker.getTask id' = some task →
      s.shared.tasker.getTask id' = some task := by
    intro id' task htask
    rw [hget] at htask
    split at htask
    · cases htask
    · exact htask
  refine ⟨hqueue, fun id' hid' => ?_, fun id' hid' => ?_, fun id' task htask hid' => ?_,
    fun id' task htask => ?_⟩
  · have hpending : s.HasState id' .pending := by
      rw [htasker, Tasker.taskQueue_removeTask] at hid'
      exact hs.pending id' hid'
    exact hpending.of_getTask ((hget id').trans (if_neg (hne hpending rfl)))
  · rw [hworker] at hid' ⊢
    have hstate := hs.hand id' hid'
    exact hstate.of_getTask ((hget id').trans (if_neg (hne hstate (taskState_terminal _))))
  · exact hs.unqueued id' task (hold id' task htask) (hqueued ▸ hid')
  · rw [htasker, Tasker.nextTaskCounter_removeTask]
    exact hs.below id' task (hold id' task htask)

theorem LifeOk.pushTask (hs : LifeOk s) (hqueue : TaskQueueOk s') (hid : s.HasState id .pending)
    (htasker : s'.shared.tasker = s.shared.tasker.pushTask id)
    (hqueued : s'.shared.history.queued = s.shared.history.queued ++ [id])
    (hworker : s'.taskWorker = s.taskWorker) : LifeOk s' := by
  have hget : ∀ id', s'.shared.tasker.getTask id' = s.shared.tasker.getTask id' := fun id' => by
    rw [htasker]
    rfl
  refine ⟨hqueue, fun id' hid' => ?_, fun id' hid' => ?_, fun id' task htask hid' => ?_,
    fun id' task htask => ?_⟩
  · refine HasState.of_getTask ?_ (hget id')
    rw [htasker] at hid'
    rcases List.mem_append.mp hid' with hold | hnew
    · exact hs.pending id' hold
    · rw [List.mem_singleton.mp hnew]
      exact hid
  · rw [hworker] at hid' ⊢
    exact (hs.hand id' hid').of_getTask (hget id')
  · rw [hget] at htask
    refine hs.unqueued id' task htask fun hmem => hid' ?_
    rw [hqueued]
    exact List.mem_append_left _ hmem
  · rw [hget] at htask
    rw [htasker]
    exact hs.below id' task htask

end Calls

theorem life_call {s : System} (hs : LifeOk s) {op : ServerCall} (uuid : Bytes) {pc : ServerPc}
    (hsound : SoundCall op s.shared) (htask : TaskCall op s.shared)
    (hqueue : TaskQueueOk { s with server := pc, shared := (execCall uuid op s.shared).2 }) :
    LifeOk { s with server := pc, shared := (execCall uuid op s.shared).2 } := by
  cases op with
  | fetchTaskId =>
    exact hs.of_same hqueue rfl (Nat.le_succ _) rfl rfl fun id hid => ⟨hid, rfl⟩
  | emplaceTask id request session =>
    exact hs.emplaceTask hqueue htask.1 htask.2.1 hsound.1 rfl rfl rfl
  | removeTask id => exact hs.removeTask hqueue htask rfl rfl rfl
  | pushTask id => exact hs.pushTask hqueue htask.2 rfl rfl rfl
  | _ => exact hs.of_same hqueue rfl (le_refl _) rfl rfl fun id hid => ⟨hid, rfl⟩

/-! #### All together -/

/-- The tasks are in order, and the request in service will keep them so. -/
structure TasksOk {ω : Type} (O : Observer ω) (s : System) (log : List ω) : Prop where
  life : LifeOk s
  handler : HandlerOk s
  serving : (taskLife O).Serving s.server (s.shared, log)

section TasksOk

variable {ω : Type} {O : Observer ω} {P : Platform} {s s' : System} {log : List ω} {l : Label}

theorem tasksOk_initial (users : List UserInfo) : TasksOk O (initial users) [] :=
  ⟨lifeOk_initial users, handlerOk_initial users, trivial⟩

/-- Every call on the tasker is in order. -/
theorem TasksOk.call (hs : TasksOk O s log) {req : DecodedRequest} {op : ServerCall}
    {k : op.Ret → Handler ServerResponse}
    (hpc : s.server = .serving req (.call (S := ServerCalls) op k)) : TaskCall op s.shared :=
  hs.serving.sound (taskRely_refl hs.life hs.handler.ids) hpc

/-- The other threads do what handlers rely on. -/
theorem TasksOk.rely (hs : TasksOk O s log) (h : step P s l = some s')
    (hl : ∀ e, l ≠ .server e) : TaskRely s.shared s'.shared :=
  (life_other hs.life hs.handler.ids (hs.life.queue.step hs.handler h) h hl).1

theorem TasksOk.step (hs : TasksOk O s log) (h : step P s l = some s') :
    TasksOk O s' (log ++ O.obs s l) := by
  have hqueue := hs.life.queue.step hs.handler h
  refine ⟨?_, hs.handler.step h, hs.serving.step (taskLife_stable O)
    (taskRely_refl hs.life hs.handler.ids) (fun hl => hs.rely h hl)
    (fun req => RequestHandler.keeps_taskLife P _) h⟩
  by_cases hl : ∃ e, l = .server e
  · obtain ⟨e, rfl⟩ := hl
    cases step_effect h with
    | other hl => exact absurd rfl (hl e)
    | server hmove =>
      cases hmove with
      | call uuid req op k hpc =>
        exact life_call hs.life uuid (hs.handler.sound hpc) (hs.call hpc) hqueue
      | _ => exact hs.life.of_same hqueue rfl (le_refl _) rfl rfl fun id hid => ⟨hid, rfl⟩
  · exact (life_other hs.life hs.handler.ids hqueue h fun e he => hl ⟨e, he⟩).2

/-- **Tasks stay in order along every run.** -/
theorem tasksOk_reaches {users : List UserInfo}
    (h : Reaches (logged (System.step P) O.obs) (unlogged always) (initial users, []) (s, log)) :
    TasksOk O s log :=
  h.logged_invariant (tasksOk_initial users) fun _ _ _ _ hs _ hstep => hs.step hstep

end TasksOk

end System

end RobertMiddleware
