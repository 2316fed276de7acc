import RobertMiddleware.Server.Interference

/-!
# From the task queue to the socket

The way of an accepted task: its id is pushed to the task queue, the task worker takes it, its
request is queued for the robot with a promise, and the robot's worker thread writes it. `Unwritten`
says that a task is on this way, its request not yet written in full. A step moves tasks along; only
a handler that pushes an id puts one on the way.

## Main definitions

* `System.Unwritten` — some byte of the task's request is still to be written
* `System.Writes` — the step writes bytes of the task's request to the socket
* `System.TaskQueueOk` — an id stands in the queue once

## Main results

* `System.unwritten_step` — the way begins with `pushTask`
* `System.Writes.unwritten` — what is written was unwritten
* `System.TaskQueueOk.step` — the queue keeps its ids apart
-/

namespace RobertMiddleware

open Effects Transition

namespace System

/-- The task `id` was pushed to the queue, and some byte of its request is still to be written. -/
inductive Unwritten (s : System) (id : TaskId) : Prop
  | queued (h : id ∈ s.shared.tasker.taskQueue)
  | inHand (h : s.taskWorker.unpushed = some id)
  | promised (p : ℕ) (hp : (p, id) ∈ s.shared.history.promised) (hu : s.shared.robot.Unsent p)

instance (s : System) (id : TaskId) : Decidable (s.Unwritten id) :=
  decidable_of_iff
    (id ∈ s.shared.tasker.taskQueue ∨ s.taskWorker.unpushed = some id ∨
      ∃ e ∈ s.shared.history.promised, e.2 = id ∧ s.shared.robot.Unsent e.1)
    ⟨fun h => by
      rcases h with h | h | ⟨⟨p, _⟩, hp, rfl, hu⟩
      · exact .queued h
      · exact .inHand h
      · exact .promised p hp hu,
    fun h => by
      cases h with
      | queued h => exact .inl h
      | inHand h => exact .inr (.inl h)
      | promised p hp hu => exact .inr (.inr ⟨(p, id), hp, rfl, hu⟩)⟩

/-- The step `l` from `s` writes bytes of the request of task `id` to the robot's socket. -/
def Writes (s : System) (l : Label) (id : TaskId) : Prop :=
  ∃ n item sent p, l = .robotWorker (.sent n) ∧ s.shared.robot.worker = .sending item sent ∧
    item.responsePromise = some p ∧ (p, id) ∈ s.shared.history.promised

theorem Writes.unwritten {s : System} {l : Label} {id : TaskId} (h : Writes s l id) :
    s.Unwritten id := by
  obtain ⟨n, item, sent, p, -, hworker, hip, hp⟩ := h
  exact .promised p hp ⟨item, .inr (by rw [hworker]; rfl), hip⟩

/-- The step `l` from `s` is a handler's `pushTask id`. -/
def Pushes (s : System) (l : Label) (id : TaskId) : Prop :=
  ∃ uuid req k, l = .server (.call uuid) ∧
    s.server = .serving req (.call (S := ServerCalls) (.pushTask id) k)

/-! ### Promises along runs -/

/-- Promises of tasks are promises of the robot. -/
structure PromisesOk (s : System) : Prop where
  robot : s.shared.robot.PromisesOk
  below : ∀ e ∈ s.shared.history.promised, e.1 < s.shared.robot.nextPromise

theorem promisesOk_initial (users : List UserInfo) : PromisesOk (initial users) :=
  ⟨⟨List.nodup_nil, nofun, nofun, nofun⟩, nofun⟩

theorem PromisesOk.step {P : Platform} {s s' : System} {l : Label} (hs : PromisesOk s)
    (h : step P s l = some s') : PromisesOk s' := by
  obtain ⟨hrobot, hbelow⟩ := hs
  cases step_effect h with
  | server hmove =>
    cases hmove with
    | call uuid req op k hpc =>
      exact ⟨(robot_execCall ..).symm ▸ hrobot, fun e he => by
        simpa using hbelow e (by simpa using he)⟩
    | _ => exact ⟨hrobot, hbelow⟩
  | taskWorker hmove =>
    cases hmove with
    | push id req hpc =>
      refine ⟨hrobot.pushRequest req, fun e he => ?_⟩
      rcases List.mem_append.mp he with hold | hnew
      · exact (hbelow e hold).trans (Nat.lt_succ_self _)
      · rw [List.mem_singleton.mp hnew]
        exact Nat.lt_succ_self _
    | _ => exact ⟨hrobot, hbelow⟩
  | robotWorker hmove =>
    refine ⟨hrobot.workerStep hmove, fun e he => ?_⟩
    exact (hbelow e he).trans_eq (Robot.nextPromise_workerStep hmove).symm
  | sweeper _ hmove => cases hmove <;> exact ⟨hrobot, hbelow⟩
  | other _ _ _ hmove =>
    refine ⟨hrobot.quiet hmove.robot, fun e he => ?_⟩
    rw [hmove.history] at he
    exact (hbelow e he).trans_eq hmove.robot.nextPromise.symm

/-! ### The way of a task -/

theorem taskQueue_execCall {uuid : Bytes} {op : ServerCall} {s : Shared} {id : TaskId}
    (h : id ∈ (execCall uuid op s).2.tasker.taskQueue) :
    id ∈ s.tasker.taskQueue ∨ op = .pushTask id := by
  cases op with
  | emplaceTask id' request token =>
    exact .inl ((Tasker.taskQueue_emplaceTask ..) ▸ h)
  | removeTask id' => exact .inl ((Tasker.taskQueue_removeTask ..) ▸ h)
  | pushTask id' =>
    rcases List.mem_append.mp h with hold | hnew
    · exact .inl hold
    · exact .inr (by rw [List.mem_singleton.mp hnew])
  | _ => exact .inl h

/-- A task stays on its way when the three places it may be in have not gained anything. -/
theorem Unwritten.of_places {s s' : System} {id : TaskId} (hid : s'.Unwritten id)
    (hqueue : id ∈ s'.shared.tasker.taskQueue → id ∈ s.shared.tasker.taskQueue)
    (hhand : s'.taskWorker.unpushed = some id → s.taskWorker.unpushed = some id)
    (hpromised : ∀ p, (p, id) ∈ s'.shared.history.promised → s'.shared.robot.Unsent p →
      (p, id) ∈ s.shared.history.promised ∧ s.shared.robot.Unsent p) : s.Unwritten id := by
  cases hid with
  | queued h => exact .queued (hqueue h)
  | inHand h => exact .inHand (hhand h)
  | promised p hp hu =>
    obtain ⟨hp', hu'⟩ := hpromised p hp hu
    exact .promised p hp' hu'

/-- The task worker moves the task in its hands along. -/
theorem unwritten_taskWorker {s : System} (hs : PromisesOk s) {e : TaskWorkerEvent}
    {pc : TaskWorkerPc} {b : Shared} (h : TaskWorkerEffect s.taskWorker s.shared e pc b)
    {id : TaskId} (hid : Unwritten { s with taskWorker := pc, shared := b } id) :
    s.Unwritten id := by
  have hupdate : ∀ id' f, id ∈ (s.shared.tasker.updateTask id' f).2.taskQueue →
      id ∈ s.shared.tasker.taskQueue := fun id' f h => (Tasker.taskQueue_updateTask ..) ▸ h
  cases h with
  | keep _ _ _ _ _ hunpushed =>
    exact hid.of_places (fun h => h) (hunpushed id) fun _ hp hu => ⟨hp, hu⟩
  | take id' rest _ hqueue =>
    -- from the queue into the worker's hands
    cases hid with
    | queued h => exact .queued (hqueue ▸ List.mem_cons_of_mem _ h)
    | inHand h =>
      obtain rfl : id' = id := Option.some.inj h
      exact .queued (hqueue ▸ List.mem_cons_self)
    | promised p hp hu => exact .promised p hp hu
  | start id' _ hpc hpc' =>
    refine hid.of_places (hupdate id' _) (fun h => ?_) fun _ hp hu => ⟨hp, hu⟩
    rcases hpc' with rfl | rfl
    · rw [hpc]
      exact h
    · cases h
  | push id' req hpc =>
    -- from the worker's hands into the robot's queue
    cases hid with
    | queued h => exact .queued h
    | inHand h => cases h
    | promised p hp hu =>
      rcases List.mem_append.mp hp with hold | hnew
      · rcases Robot.unsent_pushRequest hu with hu | rfl
        · exact .promised p hold hu
        · exact absurd (hs.below _ hold) (lt_irrefl _)
      · obtain ⟨-, rfl⟩ := Prod.mk.inj (List.mem_singleton.mp hnew)
        exact .inHand (by rw [hpc]; rfl)
  | answered => exact hid.of_places (fun h => h) nofun fun _ hp hu => ⟨hp, hu⟩
  | timedOut => exact hid.of_places (fun h => h) nofun fun _ hp hu => ⟨hp, hu⟩
  | record id' response =>
    obtain ⟨f, hf⟩ := recordResponse_eq s.shared.now id' response s.shared.tasker
    refine hid.of_places (fun h => ?_) nofun fun _ hp hu => ⟨hp, hu⟩
    rw [hf] at h
    exact hupdate id' f h
  | fail id' => exact hid.of_places (hupdate id' _) nofun fun _ hp hu => ⟨hp, hu⟩

/-- **The way begins with `pushTask`.** -/
theorem unwritten_step {P : Platform} {s s' : System} {l : Label} (hs : PromisesOk s)
    (h : step P s l = some s') {id : TaskId} (hid : s'.Unwritten id) :
    s.Unwritten id ∨ s.Pushes l id := by
  cases step_effect h with
  | server hmove =>
    cases hmove with
    | call uuid req op k hpc =>
      by_cases hpush : op = .pushTask id
      · subst hpush
        exact .inr ⟨uuid, req, k, rfl, hpc⟩
      · refine .inl (hid.of_places (fun h => ?_) (fun h => h) fun p hp hu => ⟨?_, ?_⟩)
        · exact (taskQueue_execCall h).resolve_right hpush
        · simpa using hp
        · exact (robot_execCall ..) ▸ hu
    | _ => exact .inl (hid.of_places (fun h => h) (fun h => h) fun _ hp hu => ⟨hp, hu⟩)
  | taskWorker hmove => exact .inl (unwritten_taskWorker hs hmove hid)
  | robotWorker hmove =>
    exact .inl (hid.of_places (fun h => h) (fun h => h) fun _ hp hu =>
      ⟨hp, Robot.unsent_workerStep hmove hu⟩)
  | sweeper _ hmove =>
    cases hmove <;>
      exact .inl (hid.of_places (fun h => h) (fun h => h) fun _ hp hu => ⟨hp, hu⟩)
  | other _ _ _ hmove =>
    refine .inl (hid.of_places (fun h => hmove.taskQueue ▸ h) (fun h => ?_) fun _ hp hu =>
      ⟨hmove.history ▸ hp, hmove.robot.unsent hu⟩)
    rcases hmove.taskWorker with hsame | ⟨-, hnew⟩
    · exact hsame ▸ h
    · rw [hnew] at h
      cases h

/-! ### The task queue -/

theorem queued_execCall {uuid : Bytes} {op : ServerCall} {s : Shared} {id : TaskId}
    (h : id ∈ s.history.queued) : id ∈ (execCall uuid op s).2.history.queued := by
  cases op with
  | pushTask id' => exact List.mem_append_left _ h
  | _ => exact h

/-- The record of queued ids only grows. -/
theorem queued_step {P : Platform} {s s' : System} {l : Label} (h : step P s l = some s')
    {id : TaskId} (hid : id ∈ s.shared.history.queued) : id ∈ s'.shared.history.queued := by
  rcases shared_step h with ⟨uuid, req, op, k, -, -, hshared⟩ | ⟨-, hinter⟩
  · rw [hshared]
    exact queued_execCall hid
  · rw [hinter.queued]
    exact hid

/-- Ids stand in the queue once, and the one in the worker's hands no more. -/
structure TaskQueueOk (s : System) : Prop where
  nodup : s.shared.tasker.taskQueue.Nodup
  queued : ∀ id ∈ s.shared.tasker.taskQueue, id ∈ s.shared.history.queued
  inHand : ∀ id, s.taskWorker.task = some id →
    id ∈ s.shared.history.queued ∧ id ∉ s.shared.tasker.taskQueue

theorem TaskQueueOk.of_same {s s' : System} (hs : TaskQueueOk s)
    (hqueue : s'.shared.tasker.taskQueue = s.shared.tasker.taskQueue)
    (hqueued : s'.shared.history.queued = s.shared.history.queued)
    (htask : ∀ id, s'.taskWorker.task = some id → s.taskWorker.task = some id) :
    TaskQueueOk s' where
  nodup := hqueue ▸ hs.nodup
  queued := by rw [hqueue, hqueued]; exact hs.queued
  inHand id hid := by rw [hqueue, hqueued]; exact hs.inHand id (htask id hid)

theorem TaskQueueOk.pushTask {s s' : System} (hs : TaskQueueOk s) {id : TaskId}
    (hnew : id ∉ s.shared.history.queued)
    (hqueue : s'.shared.tasker.taskQueue = s.shared.tasker.taskQueue ++ [id])
    (hqueued : s'.shared.history.queued = s.shared.history.queued ++ [id])
    (htask : s'.taskWorker = s.taskWorker) : TaskQueueOk s' := by
  refine ⟨?_, fun id' hid' => ?_, fun id' hid' => ?_⟩
  · rw [hqueue]
    refine List.nodup_append.mpr ⟨hs.nodup, by simp, fun a ha b hb => ?_⟩
    obtain rfl := List.mem_singleton.mp hb
    rintro rfl
    exact hnew (hs.queued _ ha)
  · rw [hqueue] at hid'
    rw [hqueued]
    exact List.mem_append.mpr ((List.mem_append.mp hid').imp_left (hs.queued id'))
  · obtain ⟨hold, hout⟩ := hs.inHand id' (htask ▸ hid')
    rw [hqueued, hqueue]
    refine ⟨List.mem_append_left _ hold, fun hmem => ?_⟩
    rcases List.mem_append.mp hmem with hmem | hmem
    · exact hout hmem
    · exact hnew (List.mem_singleton.mp hmem ▸ hold)

theorem TaskQueueOk.step {P : Platform} {s s' : System} {l : Label} (hs : TaskQueueOk s)
    (hhandler : HandlerOk s) (h : step P s l = some s') : TaskQueueOk s' := by
  cases step_effect h with
  | server hmove =>
    cases hmove with
    | call uuid req op k hpc =>
      have hsound := hhandler.sound hpc
      cases op with
      | pushTask id => exact hs.pushTask hsound.2.1 rfl rfl rfl
      | emplaceTask => exact hs.of_same (Tasker.taskQueue_emplaceTask ..) rfl fun _ => id
      | removeTask => exact hs.of_same (Tasker.taskQueue_removeTask ..) rfl fun _ => id
      | _ => exact hs.of_same rfl rfl fun _ => id
    | _ => exact hs.of_same rfl rfl fun _ => id
  | taskWorker hmove =>
    cases hmove with
    | keep _ _ _ _ htask => exact hs.of_same rfl rfl htask
    | take id rest hpc hqueue =>
      have hnodup := List.nodup_cons.mp (hqueue ▸ hs.nodup)
      refine ⟨hnodup.2, fun id' hid' => hs.queued id' (hqueue ▸ List.mem_cons_of_mem _ hid'), ?_⟩
      rintro _ ⟨⟩
      exact ⟨hs.queued id (hqueue ▸ List.mem_cons_self), hnodup.1⟩
    | start id _ hpc hpc' =>
      refine hs.of_same (Tasker.taskQueue_updateTask ..) rfl fun _ h => ?_
      rcases hpc' with rfl | rfl
      · rw [hpc]; exact h
      · cases h
    | push id req hpc => exact hs.of_same rfl rfl fun _ h => by rw [hpc]; exact h
    | answered id p response hpc => exact hs.of_same rfl rfl fun _ h => by rw [hpc]; exact h
    | timedOut id p hpc => exact hs.of_same rfl rfl fun _ h => by rw [hpc]; exact h
    | record id response =>
      obtain ⟨f, hf⟩ := recordResponse_eq s.shared.now id response s.shared.tasker
      refine hs.of_same ?_ rfl nofun
      rw [hf]
      exact Tasker.taskQueue_updateTask ..
    | fail id => exact hs.of_same (Tasker.taskQueue_updateTask ..) rfl nofun
  | robotWorker => exact hs.of_same rfl rfl fun _ => id
  | sweeper _ hmove => cases hmove <;> exact hs.of_same rfl rfl fun _ => id
  | other _ _ _ hmove =>
    refine hs.of_same hmove.taskQueue (by rw [hmove.history]) fun id hid => ?_
    rcases hmove.taskWorker with hsame | ⟨-, hnew⟩
    · exact hsame ▸ hid
    · rw [hnew] at hid
      cases hid

end System

end RobertMiddleware
