import RobertMiddleware.Server.Moves

/-!
# Phases of a task

A task is `PENDING` until the task worker takes its id from the queue, `IN_PROGRESS` in the
worker's hands, and `COMPLETED` or `FAILED` after that, until it is removed or erased. This file
numbers these phases and says what each operation of the tasker does to the phase of a task.

## Main definitions

* `Task.phase` — how far a task has come
* `Task.Advances` — a task keeps its state or goes on
* `Task.finish` — what the task worker records at the end of a task

## Main results

* `Task.Advances.trans` — steps forward compose
* `Task.advances_markStarted`, `Task.advances_finish` — the two writes of the task worker go forward
-/

namespace RobertMiddleware

open Effects Transition

/-! ### The tasker -/

/-- The ids in the map come from the counter. -/
def Tasker.MapBelow (t : Tasker) : Prop :=
  ∀ id task, t.getTask id = some task → id < t.nextTaskCounter

namespace Tasker

theorem getTask_emplaceTask (now : ℤ) {id : TaskId} (request : RapidRequest) {t : Tasker}
    (hid : t.getTask id = none) (id' : TaskId) :
    (t.emplaceTask now id request).getTask id' =
      if id' = id then some { id, request, createdTime := now } else t.getTask id' := by
  have hnot : id ∉ t.taskMap := by
    rw [← AList.lookup_eq_none]
    exact hid
  rw [emplaceTask, if_neg hnot, getTask]
  rcases eq_or_ne id' id with rfl | hne
  · rw [if_pos rfl, AList.lookup_insert]
  · rw [if_neg hne, AList.lookup_insert_ne hne, getTask]

theorem getTask_removeTask (id id' : TaskId) (t : Tasker) :
    (t.removeTask id).2.getTask id' = if id' = id then none else t.getTask id' := by
  rw [removeTask, getTask, getTask]
  rcases eq_or_ne id' id with rfl | hne
  · rw [if_pos rfl]
    split
    · rw [AList.lookup_erase]
    · rename_i hnot
      exact AList.lookup_eq_none.mpr hnot
  · rw [if_neg hne]
    split
    · rw [AList.lookup_erase_ne hne]
    · rfl

theorem getTask_updateTask (id id' : TaskId) (f : Task → Task) (t : Tasker) :
    (t.updateTask id f).2.getTask id' = if id' = id then (t.getTask id).map f else t.getTask id' :=
  lookup_updateTask id id' f t

theorem getTask_sweepExpiredTasks (now timeout : ℤ) (id : TaskId) (t : Tasker) :
    (t.sweepExpiredTasks now timeout).getTask id =
      (t.getTask id).filter fun task => !task.isExpired now Task.defaultTimeout :=
  AList.lookup_eraseWhere _ _ _

/-- A task that has not come to its end survives the sweep. -/
theorem getTask_sweepExpiredTasks_of_not_terminal (now timeout : ℤ) {id : TaskId} {task : Task}
    {t : Tasker} (h : t.getTask id = some task) (hstate : task.state.terminal = false) :
    (t.sweepExpiredTasks now timeout).getTask id = some task := by
  rw [getTask_sweepExpiredTasks, h, Option.filter_some, if_pos]
  simp [Task.isExpired, hstate]

end Tasker

theorem Task.terminal_of_isExpired {now timeout : ℤ} {task : Task}
    (h : task.isExpired now timeout = true) : task.state.terminal = true := by
  rw [isExpired, Bool.and_eq_true] at h
  exact h.1

/-- A task expires five minutes after its end. -/
theorem Task.endTime_of_isExpired {now : ℤ} {task : Task}
    (h : task.isExpired now defaultTimeout = true) : task.endTime + 300 * nsPerSec ≤ now := by
  rw [isExpired, Bool.and_eq_true, decide_eq_true_eq, defaultTimeout] at h
  have hold : 300 ≤ (now - task.endTime).tdiv 1000000000 := h.2
  rw [nsPerSec]
  rcases le_or_gt 0 (now - task.endTime) with hpos | hneg
  · rw [Int.tdiv_eq_ediv_of_nonneg hpos] at hold
    omega
  · have hflip : 0 ≤ (-(now - task.endTime)).tdiv 1000000000 :=
      Int.tdiv_nonneg (by omega) (by omega)
    rw [Int.neg_tdiv] at hflip
    omega

/-! ### Phases -/

namespace Task

/-- How far a task has come: waiting, in hand, at its end, and gone. -/
def phase : Option Task → ℕ
  | some task =>
    match task.state with
    | .pending => 0
    | .inProgress => 1
    | .completed | .failed => 2
  | none => 3

/-- Between two looks at it, a task has gone on from `o` to `o'`. -/
structure Advances (o o' : Option Task) : Prop where
  phase_le : phase o ≤ phase o'
  /-- A task at its end is not changed any more. -/
  settled : phase o = 2 → phase o' = 2 → o' = o
  request : ∀ task ∈ o, ∀ task' ∈ o', task'.request = task.request

theorem phase_eq_two_iff {task : Task} : phase (some task) = 2 ↔ task.state.terminal = true := by
  cases h : task.state <;> simp [phase, h, TaskState.terminal]

theorem phase_eq_three_iff {o : Option Task} : phase o = 3 ↔ o = none := by
  cases o with
  | none => simp [phase]
  | some task => cases h : task.state <;> simp [phase, h]

theorem phase_le_three (o : Option Task) : phase o ≤ 3 := by
  cases o with
  | none => simp [phase]
  | some task => cases h : task.state <;> simp [phase, h]

theorem Advances.refl (o : Option Task) : Advances o o where
  phase_le := le_refl _
  settled _ _ := rfl
  request task htask task' htask' := by
    rw [Option.mem_unique htask htask']

theorem Advances.trans {o o' o'' : Option Task} (h : Advances o o') (h' : Advances o' o'') :
    Advances o o'' where
  phase_le := h.phase_le.trans h'.phase_le
  settled ho ho'' := by
    have hle := h.phase_le
    have hle' := h'.phase_le
    have hmid : phase o' = 2 := by omega
    exact (h'.settled hmid ho'').trans (h.settled ho hmid)
  request task htask task'' htask'' := by
    cases hmid : o' with
    | none =>
      have hle' := h'.phase_le
      have hgone : phase o'' = 3 := by
        rw [hmid] at hle'
        exact le_antisymm (phase_le_three o'') hle'
      rw [phase_eq_three_iff.mp hgone] at htask''
      cases htask''
    | some task' =>
      rw [h'.request task' hmid task'' htask'', h.request task htask task' hmid]

/-- What is gone has gone on from anywhere. -/
theorem Advances.gone (o : Option Task) : Advances o none where
  phase_le := phase_le_three o
  settled _ h := by cases h
  request _ _ _ h := by cases h

end Task

/-! ### What the task worker records -/

/-- How a task ended, and the response that is kept of it. -/
structure Outcome where
  state : TaskState
  response : Bytes
  terminal : state.terminal = true
  /-- A failure has a reason. -/
  reason : state = .failed → response ≠ []

/-- The outcome of a task the robot responded to. -/
def Outcome.ofResponse (response : Bytes) : Outcome :=
  if isErrorResponse response then
    ⟨.failed, ascii "Robot error: " ++ response, rfl, fun _ => by simp [ascii]⟩
  else ⟨.completed, response, rfl, nofun⟩

/-- The outcome of a task the robot did not respond to. -/
def Outcome.disconnected : Outcome :=
  ⟨.failed, ascii "Robot disconnected", rfl, fun _ => by simp [ascii]⟩

/-- The task `task`, ended at time `now`. A task that is not in progress only gets the response. -/
def Task.finish (now : ℤ) (o : Outcome) (task : Task) : Task :=
  if task.state = .inProgress then
    { task with state := o.state, endTime := now, response := o.response }
  else { task with response := o.response }

theorem Tasker.failTask_eq (now : ℤ) (id : TaskId) (t : Tasker) :
    t.failTask now id (ascii "Robot disconnected") =
      t.updateTask id (Task.finish now .disconnected) := by
  have hf : (fun task : Task => (task.markFailed now).2.setResponse (ascii "Robot disconnected")) =
      Task.finish now .disconnected := funext fun task => by
    rw [Task.markFailed, Task.finish]
    split <;> rfl
  rw [failTask, hf]

theorem recordResponse_eq_updateTask (now : ℤ) (id : TaskId) (response : Bytes) (t : Tasker) :
    recordResponse now id response t =
      (t.updateTask id (Task.finish now (.ofResponse response))).2 := by
  rw [recordResponse, Outcome.ofResponse]
  split
  · refine congrArg (fun f => (t.updateTask id f).2) (funext fun task => ?_)
    rw [Task.markFailed, Task.finish]
    split <;> rfl
  · refine congrArg (fun f => (t.updateTask id f).2) (funext fun task => ?_)
    rw [Task.markCompleted, Task.finish]
    split <;> rfl

namespace Task

theorem advances_markStarted (now : ℤ) {task : Task} (h : task.state = .pending) :
    Advances (some task) (some (task.markStarted now).2) := by
  rw [markStarted, if_pos h]
  refine ⟨?_, ?_, ?_⟩
  · simp [phase, h]
  · simp [phase, h]
  · rintro _ ⟨⟩ _ ⟨⟩
    rfl

theorem finish_of_inProgress (now : ℤ) (o : Outcome) {task : Task}
    (h : task.state = .inProgress) :
    task.finish now o = { task with state := o.state, endTime := now, response := o.response } :=
  if_pos h

theorem advances_finish (now : ℤ) (o : Outcome) {task : Task} (h : task.state = .inProgress) :
    Advances (some task) (some (task.finish now o)) := by
  have hend : phase (some (task.finish now o)) = 2 := by
    rw [phase_eq_two_iff, finish_of_inProgress now o h]
    exact o.terminal
  have hbegin : phase (some task) = 1 := by simp [phase, h]
  refine ⟨?_, ?_, ?_⟩
  · rw [hend, hbegin]
    decide
  · intro htwo
    rw [hbegin] at htwo
    cases htwo
  · rintro _ ⟨⟩ _ ⟨⟩
    rw [finish_of_inProgress now o h]

end Task

end RobertMiddleware
