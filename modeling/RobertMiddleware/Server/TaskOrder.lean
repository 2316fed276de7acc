import Mathlib.Data.List.Sort
import RobertMiddleware.Server.ExclusiveControl
import RobertMiddleware.Server.TaskLife

/-!
# At most once, and in order

An accepted task goes through two queues and two pairs of hands before the robot's worker thread
calls `send_request` for it. All of them are first in, first out, and a task is only ever dropped,
never put back. So the requests that are sent are some of the accepted ones, in their order, none
of them twice.

## Main definitions

* `Robot.waiting` — the items for which `send_request` was not called yet
* `System.pipeline` — the tasks from the first request sent to the last id queued
* `System.OrderOk` — their ids increase, and their requests are those that were accepted

## Main results

* `System.tasks_in_order` — what holds of every run
-/

namespace RobertMiddleware

open Effects Transition

/-! ### Lists -/

/-- Of two lists in the order of their first components, one is a part of the other when its
elements are. -/
theorem sublist_of_subset_of_pairwise {α : Type} {l l' : List (ℕ × α)}
    (hl : l.Pairwise fun a b => a.1 < b.1) (hl' : l'.Pairwise fun a b => a.1 < b.1)
    (h : ∀ a ∈ l, a ∈ l') : l.Sublist l' := by
  have hanti : Std.Antisymm fun a b : ℕ × α => a.1 < b.1 :=
    ⟨fun a b hab hba => absurd (hab.trans hba) (lt_irrefl _)⟩
  have hnodup : l.Nodup := hl.imp fun {a b} hab heq => by
    rw [heq] at hab
    exact lt_irrefl _ hab
  exact List.sublist_of_subperm_of_pairwise (List.subperm_of_subset hnodup h) hl hl'

/-! ### Items that wait to be sent -/

/-- The item for which the worker thread is about to call `send_request`. -/
def WorkerPc.fresh : WorkerPc → Option RobotWorkItem
  | .starting item => some item
  | _ => none

namespace Robot

/-- The items for which `send_request` was not called yet. -/
def waiting (r : Robot) : List RobotWorkItem := r.worker.fresh.toList ++ r.requestQueue

theorem waiting_subset_items {r : Robot} {item : RobotWorkItem} (h : item ∈ r.waiting) :
    item ∈ r.items := by
  rcases List.mem_append.mp h with hfresh | hqueue
  · refine List.mem_append_left _ ?_
    cases hw : r.worker <;> simp_all [WorkerPc.fresh, WorkerPc.item]
  · exact List.mem_append_right _ hqueue

/-- A step of the worker thread begins with an item, or takes the next one or a heartbeat. -/
theorem waiting_workerStep {r r' : Robot} {e : WorkerEvent} (h : r.workerStep e = some r') :
    (∃ item, r.worker = .starting item ∧ e = .advance ∧ r.waiting = item :: r'.waiting) ∨
      (∀ item, r.worker ≠ .starting item) ∧
        (r'.waiting = r.waiting ∨
          ∃ item, item.responsePromise = none ∧ r'.waiting = item :: r.waiting) := by
  revert h
  fun_cases workerStep r e
  all_goals intro h
  all_goals try contradiction
  all_goals obtain rfl := Option.some.inj h
  case case9 item hw =>
    refine .inl ⟨item, hw, rfl, ?_⟩
    rw [waiting, waiting, hw]
    by_cases hfd : r.socketFd.isSome <;> simp [WorkerPc.fresh, hfd]
  case case18 junk hw command =>
    refine .inr ⟨by simp [hw.1], .inr ⟨⟨command, none⟩, rfl, ?_⟩⟩
    simp [waiting, WorkerPc.fresh, hw.1]
  all_goals
    refine .inr ⟨by simp_all, .inl ?_⟩
    grind [waiting, WorkerPc.fresh, requestQueue_setValue]

theorem waiting_quiet {r r' : Robot} (h : r.Quiet r') : r'.waiting.Sublist r.waiting := by
  rw [waiting, waiting, h.requestQueue]
  refine List.Sublist.append ?_ (List.Sublist.refl _)
  rcases h.worker with hw | hw
  · rw [hw]
  · rw [hw]
    exact List.nil_sublist _

end Robot

/-- The task that an item's request belongs to. -/
def Shared.taskOf (s : Shared) (item : RobotWorkItem) : Option TaskId :=
  item.responsePromise.bind fun p => (s.history.promised.find? fun e => e.1 = p).map Prod.snd

/-! ### The record -/

/-- What is recorded of tasks. -/
inductive TaskEvent
  /-- `addTask` draws an id. -/
  | drawn (id : TaskId)
  /-- `addTask` inserts the task. -/
  | accepted (id : TaskId) (request : RapidRequest)
  /-- The robot's worker thread calls `send_request` for the task. -/
  | sent (id : TaskId) (request : RapidRequest)

namespace TaskEvent

def drawn? : TaskEvent → Option TaskId
  | .drawn id => some id
  | _ => none

def accepted? : TaskEvent → Option (TaskId × RapidRequest)
  | .accepted id request => some (id, request)
  | _ => none

def sent? : TaskEvent → Option (TaskId × RapidRequest)
  | .sent id request => some (id, request)
  | _ => none

end TaskEvent

/-- `send_and_receive` calls `send_request` when there is a socket. -/
def sendEvents (s : System) (l : Label) : List TaskEvent :=
  match l, s.shared.robot.worker with
  | .robotWorker .advance, .starting item =>
    if s.shared.robot.socketFd.isSome then
      (s.shared.taskOf item).toList.map fun id => .sent id item.command
    else []
  | _, _ => []

def taskObserver : Observer TaskEvent where
  call _ op _ r :=
    match op, r with
    | .fetchTaskId, id => [.drawn id]
    | .emplaceTask id request _, _ => [.accepted id request]
    | _, _ => []
  other := sendEvents

/-! ### The pipeline -/

namespace System

/-- The tasks whose requests are still to be sent, the next one first. -/
def pipeline (s : System) : List TaskId :=
  s.shared.robot.waiting.filterMap s.shared.taskOf ++
    (s.taskWorker.unpushed.toList ++ s.shared.tasker.taskQueue)

/-- The task worker may drop the task in its hands. -/
theorem pipeline_sublist {s s' : System} (hrobot : s'.shared.robot = s.shared.robot)
    (hpromised : s'.shared.history.promised = s.shared.history.promised)
    (hqueue : s'.shared.tasker.taskQueue = s.shared.tasker.taskQueue)
    (hhand : ∀ id, s'.taskWorker.unpushed = some id → s.taskWorker.unpushed = some id) :
    s'.pipeline.Sublist s.pipeline := by
  have htaskOf : s'.shared.taskOf = s.shared.taskOf := by
    funext item
    rw [Shared.taskOf, Shared.taskOf, hpromised]
  rw [pipeline, pipeline, hrobot, htaskOf, hqueue]
  refine List.Sublist.append (List.Sublist.refl _) (List.Sublist.append ?_ (List.Sublist.refl _))
  cases hnew : s'.taskWorker.unpushed with
  | none => exact List.nil_sublist _
  | some id => rw [hhand id hnew]

/-- A new promise belongs to the task it was made for, and the old ones to their own. -/
theorem taskOf_pushRequest {s : System} (hs : PromisesOk s) (id : TaskId) (req : RapidRequest)
    {b : Shared} (hb : b.history.promised =
      s.shared.history.promised ++ [(s.shared.robot.nextPromise, id)]) :
    (∀ item ∈ s.shared.robot.waiting, b.taskOf item = s.shared.taskOf item) ∧
      b.taskOf ⟨req, some s.shared.robot.nextPromise⟩ = some id := by
  constructor
  · intro item hitem
    rw [Shared.taskOf, Shared.taskOf, hb]
    cases hp : item.responsePromise with
    | none => rfl
    | some p =>
      have hbelow : p < s.shared.robot.nextPromise :=
        hs.robot.below p (List.mem_filterMap.mpr ⟨item, Robot.waiting_subset_items hitem, hp⟩)
      have hne : ¬ s.shared.robot.nextPromise = p := by omega
      simp [List.find?_append, hne]
  · have hnone : s.shared.history.promised.find? (fun e => e.1 = s.shared.robot.nextPromise) =
        none := by
      rw [List.find?_eq_none]
      intro e he
      have hlt := hs.below e he
      simp only [decide_eq_true_eq]
      omega
    rw [Shared.taskOf, hb]
    simp [List.find?_append, hnone]

theorem pipeline_taskWorker {s : System} (hs : PromisesOk s) {e : TaskWorkerEvent}
    {pc : TaskWorkerPc} {b : Shared} (h : TaskWorkerEffect s.taskWorker s.shared e pc b) :
    (pipeline { s with taskWorker := pc, shared := b }).Sublist s.pipeline := by
  cases h with
  | keep _ _ _ _ _ hunpushed => exact pipeline_sublist rfl rfl rfl hunpushed
  | take id rest hpc htake =>
    have hsame : pipeline { s with
        taskWorker := .starting id
        shared := { s.shared with tasker := { s.shared.tasker with taskQueue := rest } } } =
          s.pipeline := by
      rw [pipeline, pipeline, hpc, htake]
      rfl
    rw [hsame]
  | start id _ hpc hpc' =>
    refine pipeline_sublist rfl rfl (Tasker.taskQueue_updateTask ..) fun id' hid' => ?_
    rcases hpc' with rfl | rfl
    · rw [hpc]
      exact hid'
    · cases hid'
  | push id req hpc =>
    obtain ⟨hold, hnew⟩ := taskOf_pushRequest hs id req
      (b := { s.shared with
        robot := (s.shared.robot.pushRequest req).2
        history := { s.shared.history with
          promised := s.shared.history.promised ++ [(s.shared.robot.nextPromise, id)] } }) rfl
    have hwaiting : (s.shared.robot.pushRequest req).2.waiting =
        s.shared.robot.waiting ++ [⟨req, some s.shared.robot.nextPromise⟩] := by
      simp [Robot.waiting, Robot.pushRequest]
    rw [pipeline, pipeline, hpc, hwaiting, List.filterMap_append, List.filterMap_congr hold]
    simp [hnew, TaskWorkerPc.unpushed]
  | answered id p response hpc => exact pipeline_sublist rfl rfl rfl fun id' hid' => by cases hid'
  | timedOut id p hpc => exact pipeline_sublist rfl rfl rfl fun id' hid' => by cases hid'
  | record id response hpc =>
    refine pipeline_sublist rfl rfl ?_ fun id' hid' => by cases hid'
    obtain ⟨f, hf⟩ := recordResponse_eq s.shared.now id response s.shared.tasker
    rw [hf]
    exact Tasker.taskQueue_updateTask ..
  | fail id hpc =>
    exact pipeline_sublist rfl rfl (Tasker.taskQueue_updateTask ..) fun id' hid' => by cases hid'

/-- A request that is sent leaves the pipeline at its front. -/
theorem pipeline_robotWorker {s : System} {e : WorkerEvent} {r : Robot}
    (h : s.shared.robot.workerStep e = some r) :
    (((sendEvents s (.robotWorker e)).filterMap TaskEvent.sent?).map Prod.fst ++
      pipeline { s with shared := { s.shared with robot := r } }).Sublist s.pipeline := by
  rw [pipeline, pipeline, ← List.append_assoc]
  refine List.Sublist.append ?_ (List.Sublist.refl _)
  have htaskOf : Shared.taskOf { s.shared with robot := r } = s.shared.taskOf := rfl
  rcases Robot.waiting_workerStep h with ⟨item, hw, rfl, hwaiting⟩ | ⟨hw, hwaiting⟩
  · rw [hwaiting, htaskOf, List.filterMap_cons]
    simp only [sendEvents, hw]
    cases htask : s.shared.taskOf item with
    | none => by_cases hfd : s.shared.robot.socketFd.isSome <;> simp [hfd]
    | some id => by_cases hfd : s.shared.robot.socketFd.isSome <;> simp [hfd, TaskEvent.sent?]
  · have hnone : sendEvents s (.robotWorker e) = [] := by
      rw [sendEvents]
      exact fun item _ hstart => hw item hstart
    rw [hnone, htaskOf]
    rcases hwaiting with hsame | ⟨item, hitem, hbeat⟩
    · rw [hsame]
      exact List.Sublist.refl _
    · have htask : s.shared.taskOf item = none := by rw [Shared.taskOf, hitem]; rfl
      rw [hbeat, List.filterMap_cons, htask]
      exact List.Sublist.refl _

/-- **The pipeline is first in, first out.** A step sends its first task, drops tasks, or puts the
id that is pushed at its end. -/
theorem pipeline_step {P : Platform} {s s' : System} {l : Label} (hs : PromisesOk s)
    (h : step P s l = some s') :
    (((sendEvents s l).filterMap TaskEvent.sent?).map Prod.fst ++ s'.pipeline).Sublist s.pipeline ∨
      ∃ id, s.Pushes l id ∧ s'.pipeline = s.pipeline ++ [id] := by
  cases step_effect h with
  | server hmove =>
    have hnone : ∀ e, sendEvents s (.server e) = [] := fun _ => rfl
    rw [hnone]
    cases hmove with
    | call uuid req op k hpc =>
      by_cases hpush : ∃ id, op = .pushTask id
      · obtain ⟨id, rfl⟩ := hpush
        refine .inr ⟨id, ⟨uuid, req, k, rfl, hpc⟩, ?_⟩
        rw [pipeline, pipeline, List.append_assoc, List.append_assoc]
        rfl
      · refine .inl (pipeline_sublist (robot_execCall ..) (promised_execCall ..) ?_ fun _ => id)
        cases op with
        | pushTask id => exact absurd ⟨id, rfl⟩ hpush
        | emplaceTask => exact Tasker.taskQueue_emplaceTask ..
        | removeTask => exact Tasker.taskQueue_removeTask ..
        | _ => rfl
    | _ => exact .inl (List.Sublist.refl _)
  | taskWorker hmove => exact .inl (pipeline_taskWorker hs hmove)
  | robotWorker hmove => exact .inl (pipeline_robotWorker hmove)
  | sweeper _ hmove => cases hmove <;> exact .inl (List.Sublist.refl _)
  | other _ _ hrobotWorker hmove =>
    have hnone : sendEvents s l = [] := by
      rw [sendEvents]
      exact fun item hl _ => hrobotWorker _ hl
    have htaskOf : s'.shared.taskOf = s.shared.taskOf := by
      funext item
      rw [Shared.taskOf, Shared.taskOf, hmove.history]
    have hwaiting := (Robot.waiting_quiet hmove.robot).filterMap s.shared.taskOf
    refine .inl ?_
    rw [hnone, pipeline, pipeline, htaskOf, hmove.taskQueue, List.filterMap_nil, List.map_nil,
      List.nil_append]
    refine hwaiting.append (List.Sublist.append ?_ (List.Sublist.refl _))
    rcases hmove.taskWorker with hsame | ⟨-, hnew⟩
    · rw [hsame]
    · rw [hnew]
      exact List.nil_sublist _

/-! ### Requests -/

end System

namespace TaskWorkerPc

/-- The task and the request in the worker's hands. -/
def request : TaskWorkerPc → Option (TaskId × RapidRequest)
  | .checking id req | .queueing id req | .pushing id req => some (id, req)
  | _ => none

end TaskWorkerPc

/-- The task worker has its request from the map. -/
theorem request_taskWorkerStep {pc pc' : TaskWorkerPc} {a b : Shared} {e : TaskWorkerEvent}
    (h : taskWorkerStep pc a e = some (pc', b)) {id : TaskId} {req : RapidRequest}
    (hreq : pc'.request = some (id, req)) :
    pc.request = some (id, req) ∨
      ∃ task, a.tasker.getTask id = some task ∧ task.request = req := by
  revert h
  fun_cases taskWorkerStep pc a e
  all_goals intro h
  all_goals try contradiction
  all_goals obtain ⟨rfl, rfl⟩ := Prod.mk.inj (Option.some.inj h)
  case case7 id' task htask =>
    obtain ⟨rfl, rfl⟩ := Prod.mk.inj (Option.some.inj hreq)
    exact .inr ⟨task, htask, rfl⟩
  all_goals grind [TaskWorkerPc.request]

/-- A task that is there was there before, with the same request. -/
theorem TaskRely.request {a b : Shared} (h : TaskRely a b) {id : TaskId} {task : Task}
    (htask : b.tasker.getTask id = some task) :
    ∃ old, a.tasker.getTask id = some old ∧ task.request = old.request := by
  by_cases hid : id ∈ a.history.queued
  · have hadvances := h.advances id hid
    cases hold : a.tasker.getTask id with
    | none =>
      have hle := hadvances.phase_le
      rw [hold] at hle
      have hgone : Task.phase (b.tasker.getTask id) = 3 :=
        le_antisymm (Task.phase_le_three _) hle
      rw [Task.phase_eq_three_iff.mp hgone] at htask
      cases htask
    | some old => exact ⟨old, rfl, hadvances.request old hold task htask⟩
  · exact ⟨task, (h.unqueued id hid).symm.trans htask, rfl⟩

namespace System

/-- Every request on its way is one that was accepted. -/
structure RequestsOk (s : System) (accepted sent : List (TaskId × RapidRequest)) : Prop where
  tasks : ∀ id task, s.shared.tasker.getTask id = some task → (id, task.request) ∈ accepted
  hand : ∀ e, s.taskWorker.request = some e → e ∈ accepted
  /-- An item without a task is a heartbeat. -/
  waiting : ∀ item ∈ s.shared.robot.waiting, item.responsePromise = none ∨
    ∃ id, s.shared.taskOf item = some id ∧ (id, item.command) ∈ accepted
  sent : ∀ e ∈ sent, e ∈ accepted

section Requests

variable {s s' : System} {accepted accepted' sent : List (TaskId × RapidRequest)}

/-- Items wait where they are, or are gone, or are heartbeats. -/
theorem RequestsOk.waiting_of_subset (hs : RequestsOk s accepted sent)
    (hpromised : s'.shared.history.promised = s.shared.history.promised)
    (hwaiting : ∀ item ∈ s'.shared.robot.waiting,
      item ∈ s.shared.robot.waiting ∨ item.responsePromise = none) :
    ∀ item ∈ s'.shared.robot.waiting, item.responsePromise = none ∨
      ∃ id, s'.shared.taskOf item = some id ∧ (id, item.command) ∈ accepted := by
  intro item hitem
  rcases hwaiting item hitem with hold | hbeat
  · rw [Shared.taskOf, hpromised]
    exact hs.waiting item hold
  · exact .inl hbeat

theorem RequestsOk.call {op : ServerCall} (hs : RequestsOk s accepted sent)
    (htask : TaskCall op s.shared) (uuid : Bytes) (req : DecodedRequest) (pc : ServerPc) :
    RequestsOk { s with server := pc, shared := (execCall uuid op s.shared).2 }
      (accepted ++ (taskObserver.call req op s.shared
        (execCall uuid op s.shared).1).filterMap TaskEvent.accepted?) sent := by
  refine ⟨fun id task hlookup => ?_, fun e he => List.mem_append_left _ (hs.hand e he),
    fun item hitem => ?_, fun e he => List.mem_append_left _ (hs.sent e he)⟩
  · cases op with
    | emplaceTask new request session =>
      have hput := (Tasker.getTask_emplaceTask s.shared.now request htask.1 id).symm.trans hlookup
      split at hput
      · rename_i heq
        obtain rfl := Option.some.inj hput
        rw [heq]
        exact List.mem_append_right _ (List.mem_singleton_self _)
      · exact List.mem_append_left _ (hs.tasks id task hput)
    | removeTask old =>
      have hleft := (Tasker.getTask_removeTask old id s.shared.tasker).symm.trans hlookup
      split at hleft
      · cases hleft
      · exact List.mem_append_left _ (hs.tasks id task hleft)
    | _ => exact List.mem_append_left _ (hs.tasks id task hlookup)
  · refine (hs.waiting_of_subset (promised_execCall ..) (fun item hitem => .inl ?_) item
      hitem).imp_right ?_
    · rw [← robot_execCall uuid op s.shared]
      exact hitem
    · rintro ⟨id, htaskOf, hmem⟩
      exact ⟨id, htaskOf, List.mem_append_left _ hmem⟩

theorem request_step {P : Platform} {l : Label} (h : step P s l = some s') {id : TaskId}
    {req : RapidRequest} (hreq : s'.taskWorker.request = some (id, req)) :
    s.taskWorker.request = some (id, req) ∨
      ∃ task, s.shared.tasker.getTask id = some task ∧ task.request = req := by
  by_cases hl : ∃ e, l = .taskWorker e
  · obtain ⟨e, rfl⟩ := hl
    obtain ⟨⟨pc, b⟩, hmove, rfl⟩ := Option.map_eq_some_iff.mp h
    exact request_taskWorkerStep hmove hreq
  · refine .inl ?_
    cases step_effect h with
    | taskWorker => exact absurd ⟨_, rfl⟩ hl
    | other _ _ _ hmove =>
      rcases hmove.taskWorker with hsame | ⟨-, hnew⟩
      · rw [← hsame]
        exact hreq
      · rw [hnew] at hreq
        cases hreq
    | _ => exact hreq

theorem waiting_step {P : Platform} {l : Label} (hs : RequestsOk s accepted sent)
    (hpromises : PromisesOk s) (h : step P s l = some s') (hl : ∀ e, l ≠ .server e) :
    ∀ item ∈ s'.shared.robot.waiting, item.responsePromise = none ∨
      ∃ id, s'.shared.taskOf item = some id ∧ (id, item.command) ∈ accepted := by
  cases step_effect h with
  | server => exact absurd rfl (hl _)
  | taskWorker hmove =>
    cases hmove with
    | push id req hpc =>
      obtain ⟨hold, hnew⟩ := taskOf_pushRequest hpromises id req
        (b := { s.shared with
          robot := (s.shared.robot.pushRequest req).2
          history := { s.shared.history with
            promised := s.shared.history.promised ++ [(s.shared.robot.nextPromise, id)] } }) rfl
      intro item hitem
      have hwaiting :
          item ∈ s.shared.robot.waiting ++ [⟨req, some s.shared.robot.nextPromise⟩] := by
        simpa [Robot.waiting, Robot.pushRequest] using hitem
      rcases List.mem_append.mp hwaiting with hmem | hmem
      · exact hold item hmem ▸ hs.waiting item hmem
      · rw [List.mem_singleton.mp hmem]
        exact .inr ⟨id, hnew, hs.hand (id, req) (by rw [hpc]; rfl)⟩
    | _ => exact hs.waiting
  | robotWorker hmove =>
    refine hs.waiting_of_subset rfl fun item hitem => ?_
    rcases Robot.waiting_workerStep hmove with ⟨first, -, -, hwaiting⟩ |
      ⟨-, hsame | ⟨beat, hbeat, hwaiting⟩⟩
    · rw [hwaiting]
      exact .inl (List.mem_cons_of_mem _ hitem)
    · exact .inl (hsame ▸ hitem)
    · rcases List.mem_cons.mp (hwaiting ▸ hitem) with rfl | hold
      · exact .inr hbeat
      · exact .inl hold
  | sweeper _ hmove => cases hmove <;> exact hs.waiting
  | other _ _ _ hmove =>
    exact hs.waiting_of_subset (by rw [hmove.history]) fun item hitem =>
      .inl ((Robot.waiting_quiet hmove.robot).subset hitem)

/-- What is sent was waiting. -/
theorem sendEvents_waiting {l : Label} {e : TaskId × RapidRequest}
    (he : e ∈ (sendEvents s l).filterMap TaskEvent.sent?) :
    ∃ item ∈ s.shared.robot.waiting, s.shared.taskOf item = some e.1 ∧ item.command = e.2 := by
  revert he
  fun_cases sendEvents s l with
  | case1 item hw hfd =>
    intro he
    refine ⟨item, ?_, ?_⟩
    · rw [Robot.waiting, hw]
      exact List.mem_append_left _ (List.mem_singleton_self _)
    · cases htask : s.shared.taskOf item with
      | none => simp [htask] at he
      | some id =>
        obtain rfl : e = (id, item.command) := by simpa [htask, TaskEvent.sent?] using he
        exact ⟨rfl, rfl⟩
  | case2 => nofun
  | case3 => nofun

theorem RequestsOk.other {P : Platform} {l : Label} (hs : RequestsOk s accepted sent)
    (hpromises : PromisesOk s) (hrely : TaskRely s.shared s'.shared) (h : step P s l = some s')
    (hl : ∀ e, l ≠ .server e) :
    RequestsOk s' accepted (sent ++ (sendEvents s l).filterMap TaskEvent.sent?) := by
  refine ⟨fun id task htask => ?_, fun e he => ?_, waiting_step hs hpromises h hl, fun e he => ?_⟩
  · obtain ⟨old, hold, hrequest⟩ := hrely.request htask
    rw [hrequest]
    exact hs.tasks id old hold
  · rcases request_step h he with hold | ⟨task, htask, hrequest⟩
    · exact hs.hand e hold
    · have hmem := hs.tasks e.1 task htask
      rw [hrequest] at hmem
      exact hmem
  · rcases List.mem_append.mp he with hold | hnew
    · exact hs.sent e hold
    · obtain ⟨item, hitem, htaskOf, hcommand⟩ := sendEvents_waiting hnew
      rcases hs.waiting item hitem with hbeat | ⟨id, htask, hmem⟩
      · rw [Shared.taskOf, hbeat] at htaskOf
        cases htaskOf
      · obtain rfl : id = e.1 := Option.some.inj (htask.symm.trans htaskOf)
        rw [hcommand] at hmem
        exact hmem

end Requests

/-! ### Along runs -/

section Order

variable {s s' : System} {l : Label} {log : List TaskEvent}

theorem sent_obs (s : System) (l : Label) :
    (taskObserver.obs s l).filterMap TaskEvent.sent? =
      (sendEvents s l).filterMap TaskEvent.sent? := by
  unfold Observer.obs
  split
  · rfl
  · rename_i op _ _
    cases op <;> rfl
  · rfl
  · rfl
  · rfl

theorem obs_of_not_call (hl : ∀ uuid, l ≠ .server (.call uuid)) :
    (taskObserver.obs s l).filterMap TaskEvent.drawn? = [] ∧
      (taskObserver.obs s l).filterMap TaskEvent.accepted? = [] := by
  have hsend : (sendEvents s l).filterMap TaskEvent.drawn? = [] ∧
      (sendEvents s l).filterMap TaskEvent.accepted? = [] := by
    unfold sendEvents
    split
    · split
      · cases s.shared.taskOf _ <;> exact ⟨rfl, rfl⟩
      · exact ⟨rfl, rfl⟩
    · exact ⟨rfl, rfl⟩
  unfold Observer.obs
  split
  · exact ⟨rfl, rfl⟩
  · exact absurd rfl (hl _)
  · exact ⟨rfl, rfl⟩
  · exact ⟨rfl, rfl⟩
  · exact hsend

/-- Ids increase along the record and the pipeline. -/
structure OrderOk (s : System) (log : List TaskEvent) : Prop where
  tasks : TasksOk taskObserver s log
  promises : PromisesOk s
  drawn : (log.filterMap TaskEvent.drawn?).Pairwise (· < ·)
  drawnBelow : ∀ id ∈ log.filterMap TaskEvent.drawn?, id < s.shared.tasker.nextTaskCounter
  accepted : (log.filterMap TaskEvent.accepted?).Pairwise fun a b => a.1 < b.1
  created : ∀ e ∈ log.filterMap TaskEvent.accepted?,
    ∃ token, (e.1, token) ∈ s.shared.history.created
  order : ((log.filterMap TaskEvent.sent?).map Prod.fst ++ s.pipeline).Pairwise (· < ·)
  queued : ∀ id ∈ (log.filterMap TaskEvent.sent?).map Prod.fst ++ s.pipeline,
    id ∈ s.shared.history.queued
  requests : RequestsOk s (log.filterMap TaskEvent.accepted?) (log.filterMap TaskEvent.sent?)

theorem orderOk_initial (users : List UserInfo) : OrderOk (initial users) [] where
  tasks := tasksOk_initial users
  promises := promisesOk_initial users
  drawn := List.Pairwise.nil
  drawnBelow _ hid := absurd hid List.not_mem_nil
  accepted := List.Pairwise.nil
  created _ he := absurd he List.not_mem_nil
  order := List.Pairwise.nil
  queued _ hid := absurd hid List.not_mem_nil
  requests :=
    { tasks _ _ hlookup := by cases hlookup
      hand _ hhand := by cases hhand
      waiting _ hitem := absurd hitem List.not_mem_nil
      sent _ he := absurd he List.not_mem_nil }

/-- The pipeline with what left it at its front. -/
theorem OrderOk.pipeline {P : Platform} (hs : OrderOk s log) (h : step P s l = some s') :
    (((log ++ taskObserver.obs s l).filterMap TaskEvent.sent?).map Prod.fst ++
        s'.pipeline).Pairwise (· < ·) ∧
      ∀ id ∈ ((log ++ taskObserver.obs s l).filterMap TaskEvent.sent?).map Prod.fst ++ s'.pipeline,
        id ∈ s'.shared.history.queued := by
  rw [List.filterMap_append, sent_obs, List.map_append, List.append_assoc]
  rcases pipeline_step hs.promises h with hsub | ⟨id, ⟨uuid, req, k, rfl, hpc⟩, happ⟩
  · have hall := (List.Sublist.refl ((log.filterMap TaskEvent.sent?).map Prod.fst)).append hsub
    exact ⟨hs.order.sublist hall, fun id hid => queued_step h (hs.queued id (hall.subset hid))⟩
  · have hcall := hs.tasks.call hpc
    have hqueued : s'.shared.history.queued = s.shared.history.queued ++ [id] := by
      rcases shared_step h with ⟨uuid', req', op', k', -, hpc', hshared⟩ | ⟨hno, -⟩
      · rw [hpc] at hpc'
        cases hpc'
        rw [hshared]
        rfl
      · exact absurd rfl (hno uuid)
    rw [happ, show sendEvents s (.server (.call uuid)) = [] from rfl, List.filterMap_nil,
      List.map_nil, List.nil_append, ← List.append_assoc]
    constructor
    · refine List.pairwise_append.mpr ⟨hs.order, List.pairwise_singleton _ _, fun a ha b hb => ?_⟩
      rw [List.mem_singleton.mp hb]
      exact hcall.1 a (hs.queued a ha)
    · intro a ha
      rw [hqueued]
      exact List.mem_append.mpr ((List.mem_append.mp ha).imp_left (hs.queued a))

/-- A call draws the id at the counter, or none. -/
theorem OrderOk.drawn_call (hs : OrderOk s log) (uuid : Bytes) (req : DecodedRequest)
    (op : ServerCall) :
    ((log ++ taskObserver.call req op s.shared (execCall uuid op s.shared).1).filterMap
        TaskEvent.drawn?).Pairwise (· < ·) ∧
      ∀ id ∈ (log ++ taskObserver.call req op s.shared (execCall uuid op s.shared).1).filterMap
        TaskEvent.drawn?, id < (execCall uuid op s.shared).2.tasker.nextTaskCounter := by
  rw [List.filterMap_append]
  have hquiet : ∀ {t : Tasker}, t.nextTaskCounter = s.shared.tasker.nextTaskCounter →
      (log.filterMap TaskEvent.drawn? ++ []).Pairwise (· < ·) ∧
        ∀ id ∈ log.filterMap TaskEvent.drawn? ++ [], id < t.nextTaskCounter := by
    intro t ht
    rw [List.append_nil, ht]
    exact ⟨hs.drawn, hs.drawnBelow⟩
  cases op with
  | fetchTaskId =>
    refine ⟨List.pairwise_append.mpr ⟨hs.drawn, List.pairwise_singleton _ _, fun a ha b hb => ?_⟩,
      fun id hid => ?_⟩
    · obtain rfl : b = s.shared.tasker.nextTaskCounter := List.mem_singleton.mp hb
      exact hs.drawnBelow a ha
    · rcases List.mem_append.mp hid with hold | hnew
      · exact (hs.drawnBelow id hold).trans (Nat.lt_succ_self _)
      · rw [List.mem_singleton.mp hnew]
        exact Nat.lt_succ_self _
  | emplaceTask => exact hquiet (Tasker.nextTaskCounter_emplaceTask ..)
  | removeTask => exact hquiet (Tasker.nextTaskCounter_removeTask ..)
  | _ => exact hquiet rfl

/-- A call accepts a task with the next id, or none. -/
theorem OrderOk.accepted_call (hs : OrderOk s log) (uuid : Bytes) (req : DecodedRequest)
    {op : ServerCall} (hcall : TaskCall op s.shared) :
    ((log ++ taskObserver.call req op s.shared (execCall uuid op s.shared).1).filterMap
        TaskEvent.accepted?).Pairwise (fun a b => a.1 < b.1) ∧
      ∀ e ∈ (log ++ taskObserver.call req op s.shared (execCall uuid op s.shared).1).filterMap
        TaskEvent.accepted?,
        ∃ token, (e.1, token) ∈ (execCall uuid op s.shared).2.history.created := by
  rw [List.filterMap_append]
  cases op with
  | emplaceTask id request session =>
    refine ⟨List.pairwise_append.mpr ⟨hs.accepted, List.pairwise_singleton _ _,
      fun a ha b hb => ?_⟩, fun e he => ?_⟩
    · obtain rfl : b = (id, request) := List.mem_singleton.mp hb
      obtain ⟨token, htoken⟩ := hs.created a ha
      exact hcall.2.2 (a.1, token) htoken
    · rcases List.mem_append.mp he with hold | hnew
      · obtain ⟨token, htoken⟩ := hs.created e hold
        exact ⟨token, List.mem_append_left _ htoken⟩
      · obtain rfl : e = (id, request) := List.mem_singleton.mp hnew
        exact ⟨session, List.mem_append_right _ (List.mem_singleton_self _)⟩
  | _ =>
    refine ⟨?_, ?_⟩
    · exact (List.append_nil _).symm ▸ hs.accepted
    · exact (List.append_nil _).symm ▸ hs.created

theorem OrderOk.call {P : Platform} (hs : OrderOk s log) {uuid : Bytes} {req : DecodedRequest}
    {op : ServerCall} {k : op.Ret → Handler ServerResponse}
    (hpc : s.server = .serving req (.call (S := ServerCalls) op k))
    (h : step P s (.server (.call uuid)) =
      some { s with
        server := .serving req (k (execCall uuid op s.shared).1)
        shared := (execCall uuid op s.shared).2 }) :
    OrderOk { s with
      server := .serving req (k (execCall uuid op s.shared).1)
      shared := (execCall uuid op s.shared).2 }
      (log ++ taskObserver.obs s (.server (.call uuid))) := by
  obtain ⟨horder, hqueued⟩ := hs.pipeline h
  have hcall := hs.tasks.call hpc
  obtain ⟨hdrawn, hbelow⟩ := hs.drawn_call uuid req op
  obtain ⟨haccepted, hcreated⟩ := hs.accepted_call uuid req hcall
  have hsent := sent_obs s (.server (.call uuid))
  have htasks := hs.tasks.step h
  have hrequests := hs.requests.call hcall uuid req (.serving req (k (execCall uuid op s.shared).1))
  rw [Observer.obs_call hpc] at hsent htasks horder hqueued ⊢
  refine ⟨htasks, hs.promises.step h, hdrawn, hbelow, haccepted, hcreated, horder, hqueued, ?_⟩
  rw [List.filterMap_append, List.filterMap_append, hsent,
    show sendEvents s (.server (.call uuid)) = [] from rfl, List.filterMap_nil, List.append_nil]
  exact hrequests

/-- A step that is not a call draws and accepts nothing. -/
theorem OrderOk.keep {P : Platform} (hs : OrderOk s log) (h : step P s l = some s')
    (hl : ∀ uuid, l ≠ .server (.call uuid)) (hinter : Interference s.shared s'.shared)
    (hrequests : RequestsOk s' (log.filterMap TaskEvent.accepted?)
      (log.filterMap TaskEvent.sent? ++ (sendEvents s l).filterMap TaskEvent.sent?)) :
    OrderOk s' (log ++ taskObserver.obs s l) := by
  obtain ⟨horder, hqueued⟩ := hs.pipeline h
  obtain ⟨hdrawn, haccepted⟩ := obs_of_not_call (s := s) hl
  refine ⟨hs.tasks.step h, hs.promises.step h, ?_, ?_, ?_, ?_, horder, hqueued, ?_⟩
  · rw [List.filterMap_append, hdrawn, List.append_nil]
    exact hs.drawn
  · rw [List.filterMap_append, hdrawn, List.append_nil, hinter.counter]
    exact hs.drawnBelow
  · rw [List.filterMap_append, haccepted, List.append_nil]
    exact hs.accepted
  · rw [List.filterMap_append, haccepted, List.append_nil, hinter.created]
    exact hs.created
  · rw [List.filterMap_append, haccepted, List.append_nil, List.filterMap_append, sent_obs]
    exact hrequests

theorem OrderOk.step {P : Platform} (hs : OrderOk s log) (h : step P s l = some s') :
    OrderOk s' (log ++ taskObserver.obs s l) := by
  by_cases hl : ∃ e, l = .server e
  · obtain ⟨e, rfl⟩ := hl
    have hsend : (sendEvents s (.server e)).filterMap TaskEvent.sent? = [] := rfl
    cases step_effect h with
    | other hl => exact absurd rfl (hl e)
    | server hmove =>
      cases hmove with
      | call uuid req op k hpc => exact hs.call hpc h
      | between | receive | misread =>
        refine hs.keep h (by simp) (.refl _) ?_
        rw [hsend, List.append_nil]
        exact ⟨hs.requests.tasks, hs.requests.hand, hs.requests.waiting, hs.requests.sent⟩
  · have hother : ∀ e, l ≠ .server e := fun e he => hl ⟨e, he⟩
    exact hs.keep h (fun uuid => hother _) (interference_step h hother)
      (hs.requests.other hs.promises (hs.tasks.rely h hother) h hother)

end Order

/-- **At most once, and in order.** In every run, the ids that `addTask` draws are distinct (up to
`2 ^ 64` of them: the counter of the source has 64 bits); the requests for which the robot's worker
thread calls `send_request` are, in the order of their ids, some of the accepted tasks, none of them
twice; and the ids in the queue are distinct and those of `PENDING` tasks. Every item that waits to
be sent is a heartbeat or belongs to an accepted task. -/
theorem tasks_in_order {P : Platform} {users : List UserInfo} {s : System} {log : List TaskEvent}
    (h : Reaches (logged (System.step P) taskObserver.obs) (unlogged always)
      (initial users, []) (s, log)) :
    (log.filterMap TaskEvent.drawn?).Nodup ∧
      (log.filterMap TaskEvent.sent?).Sublist (log.filterMap TaskEvent.accepted?) ∧
      (log.filterMap TaskEvent.accepted?).Pairwise (fun a b => a.1 < b.1) ∧
      (log.filterMap TaskEvent.sent?).Pairwise (fun a b => a.1 < b.1) ∧
      (∀ item ∈ s.shared.robot.waiting, item.responsePromise = none ∨
        ∃ id, s.shared.taskOf item = some id ∧
          (id, item.command) ∈ log.filterMap TaskEvent.accepted?) ∧
      s.shared.tasker.taskQueue.Nodup ∧
      ∀ id ∈ s.shared.tasker.taskQueue, s.HasState id .pending := by
  have hs : OrderOk s log := h.logged_invariant (orderOk_initial users)
    fun _ _ _ _ hs _ hstep => hs.step hstep
  have hsent : (log.filterMap TaskEvent.sent?).Pairwise fun a b => a.1 < b.1 :=
    List.pairwise_map.mp (List.pairwise_append.mp hs.order).1
  refine ⟨hs.drawn.imp fun {a b} hab => hab.ne, ?_, hs.accepted, hsent, hs.requests.waiting,
    hs.tasks.life.queue.nodup, hs.tasks.life.pending⟩
  exact sublist_of_subset_of_pairwise hsent hs.accepted hs.requests.sent

/-- `alice` asks for the status of the robot and for its zero position. The robot refuses the first
request, and then the second is sent. -/
def twoLabels : List Label :=
  statusLabels ++ SessionManager.serve (robotRequest .zero "t") "u" 9 ++ executeLabels ++
    [.robotWorker (.sent 188), .robotWorker (.received (ascii "NACK")), .robotWorker .advance] ++
    List.replicate 2 (.taskWorker .advance) ++ List.replicate 2 (.robotWorker .advance) ++
    executeLabels

set_option maxRecDepth 2000 in
theorem tasks_in_order_two :
    ∃ s log, Reaches (logged (System.step Platform.linux) taskObserver.obs) (unlogged always)
        (initial SessionManager.aliceOnly, []) (s, log) ∧
      (log.filterMap TaskEvent.sent?).map Prod.fst = [1, 2] ∧
      (log.filterMap TaskEvent.sent?).Sublist (log.filterMap TaskEvent.accepted?) := by
  have hrun : ∃ s log, runLabels (logged (System.step Platform.linux) taskObserver.obs)
      (unlogged always) (initial SessionManager.aliceOnly, []) twoLabels = some (s, log) ∧
        (log.filterMap TaskEvent.sent?).map Prod.fst = [1, 2] :=
    ⟨_, _, rfl, rfl⟩
  obtain ⟨s, log, hs, hsent⟩ := hrun
  exact ⟨s, log, .of_runLabels hs, hsent, (tasks_in_order (.of_runLabels hs)).2.1⟩

end System

end RobertMiddleware
