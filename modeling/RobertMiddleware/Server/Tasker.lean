import RobertMiddleware.Commands.Commands
import RobertMiddleware.Internal.EraseLoop

/-!
# Tasks

`src/server/tasker.{hpp,cpp}`. Every function but `addTask` holds one mutex for its whole body, so
its body is one atomic operation. `addTask` is three: it draws an id from the atomic counter,
inserts the task under the map's mutex, and then queues the id under the queue's mutex.

Ids are natural numbers. The counter of the source has 64 bits, so what is said about different ids
is said about runs with fewer than `2 ^ 64` tasks, in which it does not wrap around.
-/

namespace RobertMiddleware

/-- `task_id_t`, as long as it is below `2 ^ 64`. -/
abbrev TaskId := ℕ

inductive TaskState
  | pending | inProgress | completed | failed
deriving DecidableEq

/-- No transition leaves these states. -/
def TaskState.terminal : TaskState → Bool
  | .completed | .failed => true
  | .pending | .inProgress => false

structure Task where
  id : TaskId
  request : RapidRequest
  state : TaskState := .pending
  createdTime : ℤ
  startTime : ℤ := 0
  endTime : ℤ := 0
  response : Bytes := []
deriving DecidableEq

namespace Task

/-- `markStarted` at time `now`. -/
def markStarted (now : ℤ) (t : Task) : Bool × Task :=
  if t.state = .pending then (true, { t with state := .inProgress, startTime := now })
  else (false, t)

/-- `markCompleted` at time `now`. -/
def markCompleted (now : ℤ) (t : Task) : Bool × Task :=
  if t.state = .inProgress then (true, { t with state := .completed, endTime := now })
  else (false, t)

/-- `markFailed` at time `now`. -/
def markFailed (now : ℤ) (t : Task) : Bool × Task :=
  if t.state = .inProgress then (true, { t with state := .failed, endTime := now })
  else (false, t)

/-- `setResponse`. -/
def setResponse (response : Bytes) (t : Task) : Task := { t with response }

/-- `isExpired` at time `now`, in nanoseconds; the elapsed time is cut to whole seconds. -/
def isExpired (now timeout : ℤ) (t : Task) : Bool :=
  t.state.terminal && timeout ≤ (now - t.endTime).tdiv 1000000000

/-- The default of `isExpired`'s parameter, five minutes. -/
def defaultTimeout : ℤ := 300

end Task

structure Tasker where
  nextTaskCounter : ℕ := 1
  taskMap : AList fun _ : TaskId => Task := ∅
  taskQueue : List TaskId := []
  shutdown : Bool := false

namespace Tasker

/-! ### The three steps of `addTask` -/

/-- `m_next_task_counter.fetch_add(1)`. -/
def fetchTaskId (t : Tasker) : TaskId × Tasker :=
  (t.nextTaskCounter, { t with nextTaskCounter := t.nextTaskCounter + 1 })

/-- `m_task_map.emplace(id, Task(id, request))`: an id already present keeps its task. -/
def emplaceTask (now : ℤ) (id : TaskId) (request : RapidRequest) (t : Tasker) : Tasker :=
  if id ∈ t.taskMap then t
  else { t with taskMap := t.taskMap.insert id { id, request, createdTime := now } }

@[simp] theorem nextTaskCounter_emplaceTask (now : ℤ) (id : TaskId) (request : RapidRequest)
    (t : Tasker) : (t.emplaceTask now id request).nextTaskCounter = t.nextTaskCounter := by
  rw [emplaceTask]; split <;> rfl

@[simp] theorem taskQueue_emplaceTask (now : ℤ) (id : TaskId) (request : RapidRequest)
    (t : Tasker) : (t.emplaceTask now id request).taskQueue = t.taskQueue := by
  rw [emplaceTask]; split <;> rfl

@[simp] theorem shutdown_emplaceTask (now : ℤ) (id : TaskId) (request : RapidRequest)
    (t : Tasker) : (t.emplaceTask now id request).shutdown = t.shutdown := by
  rw [emplaceTask]; split <;> rfl

/-- `m_task_queue.push(id)`. -/
def pushTask (id : TaskId) (t : Tasker) : Tasker := { t with taskQueue := t.taskQueue ++ [id] }

/-! ### The other operations -/

/-- `getTask`: a copy of the task. -/
def getTask (id : TaskId) (t : Tasker) : Option Task := t.taskMap.lookup id

/-- Look `id` up and replace its task. -/
def updateTask (id : TaskId) (f : Task → Task) (t : Tasker) : Bool × Tasker :=
  match t.taskMap.lookup id with
  | none => (false, t)
  | some task => (true, { t with taskMap := t.taskMap.insert id (f task) })

@[simp] theorem taskQueue_updateTask (id : TaskId) (f : Task → Task) (t : Tasker) :
    (t.updateTask id f).2.taskQueue = t.taskQueue := by
  rw [updateTask]; split <;> rfl

@[simp] theorem nextTaskCounter_updateTask (id : TaskId) (f : Task → Task) (t : Tasker) :
    (t.updateTask id f).2.nextTaskCounter = t.nextTaskCounter := by
  rw [updateTask]; split <;> rfl

@[simp] theorem shutdown_updateTask (id : TaskId) (f : Task → Task) (t : Tasker) :
    (t.updateTask id f).2.shutdown = t.shutdown := by
  rw [updateTask]; split <;> rfl

/-- Only the entry of `id` changes. -/
theorem lookup_updateTask (id id' : TaskId) (f : Task → Task) (t : Tasker) :
    (t.updateTask id f).2.taskMap.lookup id' =
      if id' = id then (t.taskMap.lookup id).map f else t.taskMap.lookup id' := by
  rw [updateTask]
  cases h : t.taskMap.lookup id with
  | none =>
    rcases eq_or_ne id' id with rfl | hne
    · simp [h]
    · simp [hne]
  | some task =>
    rcases eq_or_ne id' id with rfl | hne
    · simp
    · simp [hne, AList.lookup_insert_ne hne]

/-- `startTask`; what `markStarted` answers is dropped. -/
def startTask (now : ℤ) (id : TaskId) (t : Tasker) : Bool × Tasker :=
  t.updateTask id fun task => (task.markStarted now).2

/-- `completeTask`; what `markCompleted` answers is dropped. -/
def completeTask (now : ℤ) (id : TaskId) (response : Bytes) (t : Tasker) : Bool × Tasker :=
  t.updateTask id fun task => (task.markCompleted now).2.setResponse response

/-- `failTask`; what `markFailed` answers is dropped. -/
def failTask (now : ℤ) (id : TaskId) (response : Bytes) (t : Tasker) : Bool × Tasker :=
  t.updateTask id fun task => (task.markFailed now).2.setResponse response

/-- `removeTask`. -/
def removeTask (id : TaskId) (t : Tasker) : Bool × Tasker :=
  if id ∈ t.taskMap then (true, { t with taskMap := t.taskMap.erase id }) else (false, t)

@[simp] theorem nextTaskCounter_removeTask (id : TaskId) (t : Tasker) :
    (t.removeTask id).2.nextTaskCounter = t.nextTaskCounter := by
  rw [removeTask]; split <;> rfl

@[simp] theorem taskQueue_removeTask (id : TaskId) (t : Tasker) :
    (t.removeTask id).2.taskQueue = t.taskQueue := by
  rw [removeTask]; split <;> rfl

@[simp] theorem shutdown_removeTask (id : TaskId) (t : Tasker) :
    (t.removeTask id).2.shutdown = t.shutdown := by
  rw [removeTask]; split <;> rfl

/-- `sweepExpiredTasks`: the parameter is not passed on to `isExpired`. -/
def sweepExpiredTasks (now _expirationTime : ℤ) (t : Tasker) : Tasker :=
  { t with taskMap := t.taskMap.eraseWhere fun _ task => task.isExpired now Task.defaultTimeout }

/-- `waitForNextTask`, once the waiting thread finds its predicate true: the answer, and the
state. `none` while it still waits. -/
def waitForNextTask (t : Tasker) : Option (Option TaskId × Tasker) :=
  match t.taskQueue with
  | id :: rest => some (some id, { t with taskQueue := rest })
  | [] => if t.shutdown then some (none, t) else none

/-- `stop`, under the queue's mutex. -/
def stop (t : Tasker) : Tasker := { t with shutdown := true }

end Tasker

end RobertMiddleware
