import RobertMiddleware.Internal.Condition
import RobertMiddleware.Server.Tasker

/-!
# Waking the task worker

`addTask`, `stop`, `wakeUpAll` and `waitForNextTask` of `src/server/tasker.cpp`, instruction by
instruction. The first three are called by any number of threads, and the last by the task worker.
`addTask` and `stop` notify after they have given `m_queue_mutex` back, so several tasks may be
pushed before the first notification, and one wake-up may be shared.

Nothing is lost between test and sleep: `m_task_queue` and `m_shutdown` are changed under the mutex.

## Main definitions

* `Tasker.addTaskCode`, `Tasker.stopCode`, `Tasker.wakeUpAllCode` — the three programs
* `Tasker.client` — with `waitForNextTask` as the thread that waits

## Main results

* `Tasker.waitForNextTask_eq` — test and body are the atomic operation
* `Tasker.client_step` — the object changes by atomic operations
* `Tasker.wakeup_reaches` — no wake-up is lost
-/

namespace RobertMiddleware

open Condition Transition

namespace Tasker

/-! ### The programs -/

/-- The predicate of `waitForNextTask`. -/
def ready (t : Tasker) : Bool := !t.taskQueue.isEmpty || t.shutdown

/-- `waitForNextTask`, after the wait. -/
def takeTask (t : Tasker) : Option TaskId × Tasker :=
  if t.shutdown && t.taskQueue.isEmpty then (none, t)
  else
    match t.taskQueue with
    | id :: rest => (some id, { t with taskQueue := rest })
    -- not after the wait: the predicate is true
    | [] => (none, t)

/-- `addTask`. Its local variable is the id. -/
def addTaskCode (now : ℤ) (request : RapidRequest) : List (Instr Tasker TaskId) :=
  [.access fun _ t => t.fetchTaskId, .access fun id t => (id, t.emplaceTask now id request),
    .lock, .access fun id t => (id, t.pushTask id), .unlock, .notifyOne]

/-- `stop`. -/
def stopCode : List (Instr Tasker TaskId) :=
  [.lock, .access fun id t => (id, t.stop), .unlock, .notifyAll]

/-- `wakeUpAll`. -/
def wakeUpAllCode : List (Instr Tasker TaskId) := [.notifyAll]

/-- The calls of the other threads. -/
inductive Call
  | addTask (now : ℤ) (request : RapidRequest)
  | stop
  | wakeUpAll

def Call.code : Call → List (Instr Tasker TaskId)
  | .addTask now request => addTaskCode now request
  | .stop => stopCode
  | .wakeUpAll => wakeUpAllCode

/-- The task worker waits, the others call. -/
def client : Client Tasker TaskId Call where
  ready := ready
  leave t := t.takeTask.2
  call op := ⟨0, op.code⟩

/-! ### Atomic operations -/

variable {t : Tasker}

theorem ready_iff : t.ready = true ↔ t.taskQueue ≠ [] ∨ t.shutdown = true := by
  simp [ready]

/-- **`waitForNextTask`.** What it does when it finds its predicate true is one operation. -/
theorem waitForNextTask_eq (t : Tasker) :
    t.waitForNextTask = if t.ready then some t.takeTask else none := by
  cases hqueue : t.taskQueue <;> cases hshutdown : t.shutdown <;>
    simp [waitForNextTask, ready, takeTask, hqueue, hshutdown]

/-- What a step does to the object: one of the operations, or nothing. -/
inductive Atomic (t : Tasker) : Tasker → Prop
  | same : Atomic t t
  | fetchTaskId : Atomic t t.fetchTaskId.2
  | emplaceTask (now : ℤ) (id : TaskId) (request : RapidRequest) :
      Atomic t (t.emplaceTask now id request)
  | pushTask (id : TaskId) : Atomic t (t.pushTask id)
  | stop : Atomic t t.stop
  | waitForNextTask (answer : Option TaskId) (t' : Tasker)
      (h : t.waitForNextTask = some (answer, t')) : Atomic t t'

theorem Atomic.takeTask (t : Tasker) : Atomic t t.takeTask.2 := by
  by_cases hready : t.ready = true
  · refine .waitForNextTask t.takeTask.1 _ ?_
    rw [waitForNextTask_eq, if_pos hready]
  · have hnot : t.taskQueue = [] ∧ t.shutdown = false := by simpa [ready] using hready
    have hsame : t.takeTask.2 = t := by simp [Tasker.takeTask, hnot.1, hnot.2]
    rw [hsame]
    exact .same

/-- An access of one of the programs. -/
theorem Atomic.access (op : Call) {f : TaskId → Tasker → TaskId × Tasker}
    (hf : .access f ∈ op.code) (id : TaskId) (t : Tasker) : Atomic t (f id t).2 := by
  cases op with
  | addTask now request =>
    simp only [Call.code, addTaskCode, List.mem_cons, List.not_mem_nil, Instr.access.injEq,
      reduceCtorEq, false_or, or_false] at hf
    rcases hf with rfl | rfl | rfl
    · exact .fetchTaskId
    · exact .emplaceTask now id request
    · exact .pushTask id
  | stop =>
    simp only [Call.code, stopCode, List.mem_cons, List.not_mem_nil, Instr.access.injEq,
      reduceCtorEq, false_or, or_false] at hf
    obtain rfl := hf
    exact .stop
  | wakeUpAll => simp [Call.code, wakeUpAllCode] at hf

variable {ι : Type} [DecidableEq ι] {r r' : Room ι Tasker TaskId}

/-- **The object changes by atomic operations.** -/
theorem client_step {l : Condition.Label ι Call} (hr : r.Calls client)
    (h : step client r l = some r') : Atomic r.data r'.data := by
  cases step_move h with
  | access i id f rest hthread =>
    obtain ⟨op, hop⟩ := hr.cons hthread
    exact .access op (hop.subset (List.mem_cons_self ..)) id r.data
  | leave => exact .takeTask r.data
  | _ => exact .same

/-! ### No lost wake-up -/

/-- Drawing an id and storing the task do not touch the queue. -/
theorem guarded_call (op : Call) : Guarded client.ready false (client.call op).code := by
  have hkeep : ∀ t t' : Tasker, t'.taskQueue = t.taskQueue → t'.shutdown = t.shutdown →
      t'.ready = true → t.ready = true := by
    intro t t' hqueue hshutdown hready
    rwa [ready, ← hqueue, ← hshutdown]
  cases op with
  | addTask now request =>
    refine ⟨.inl fun id t => hkeep t _ rfl rfl, .inl fun id t => hkeep t _ ?_ ?_, rfl,
      .inr ⟨rfl, rfl⟩, rfl, rfl⟩
    · exact taskQueue_emplaceTask now id request t
    · exact shutdown_emplaceTask now id request t
  | stop => exact ⟨rfl, .inr ⟨rfl, rfl⟩, rfl, rfl⟩
  | wakeUpAll => exact rfl

/-- **No lost wake-up.** Whatever the tasks are at first, and however the calls of any number of
threads are interleaved with `waitForNextTask`: when the task worker is asleep and there is a task
in the queue, or `stop` has set its flag, some thread that has made its change has still to
notify. -/
theorem wakeup_reaches (hr : r.Idle) (h : Reaches (step client) always r r') :
    ¬ (r'.waiter = .asleep ∧ (r'.data.taskQueue ≠ [] ∨ r'.data.shutdown = true) ∧
      ∀ i, owes (r'.threads i).code = false) := by
  rintro ⟨hasleep, hready, howes⟩
  exact not_lost_of_guarded guarded_call hr h ⟨hasleep, ready_iff.mpr hready, howes⟩

/-- The task worker goes to sleep, and two threads push a task each before they notify. -/
def sharedLabels : List (Condition.Label Bool Call) :=
  [.enter, .waiter, .waiter, .waiter,
    .call false (.addTask 0 .zero), .thread false, .thread false, .thread false, .thread false,
    .thread false, .call true (.addTask 0 .zero), .thread true, .thread true, .thread true,
    .thread true, .thread true]

/-- Two threads and the task worker, and no task. -/
def quietRoom : Room Bool Tasker TaskId := ⟨{}, none, .away, fun _ => ⟨0, []⟩⟩

theorem wakeup_reaches_shared :
    ∃ r, Reaches (step client) always quietRoom r ∧ r.waiter = .asleep ∧
      r.data.taskQueue = [1, 2] ∧ ∃ i, owes (r.threads i).code = true := by
  have hrun : ∃ r, runLabels (step client) always quietRoom sharedLabels = some r ∧
      r.waiter = .asleep ∧ r.data.taskQueue = [1, 2] := ⟨_, rfl, rfl, rfl⟩
  obtain ⟨r, hr, hasleep, hqueue⟩ := hrun
  have hreach := Reaches.of_runLabels hr
  refine ⟨r, hreach, hasleep, hqueue, ?_⟩
  by_contra hnone
  refine wakeup_reaches ⟨rfl, rfl, fun _ => rfl⟩ hreach ⟨hasleep, .inl ?_, fun i => ?_⟩
  · rw [hqueue]
    exact List.cons_ne_nil _ _
  · exact Bool.eq_false_iff.mpr fun howes => hnone ⟨i, howes⟩

end Tasker

end RobertMiddleware
