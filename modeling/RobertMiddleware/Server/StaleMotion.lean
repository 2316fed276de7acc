import RobertMiddleware.Server.ExclusiveControl

/-!
# No stale motion

When the future of a request is not ready after ninety seconds the task worker fails the task and
goes on, but the request stays where it is. If it is still in the robot's queue, or in the worker
thread's hands with bytes left to send, the robot gets it after the client was told that the task
had failed. There is no other way: a request that was sent, or never queued, is not written again.

## Main definitions

* `System.Done` — the task is past the queues, and its request past the socket
* `System.WaitsForWrite` — a step gives up waiting only for a request that was written

## Main results

* `System.Done.step` — a task that is done stays done
* `System.stale_reaches` — when every wait outlasts the writing, a failed task's request is never
  written again
* `System.stale_fails` — a connection that is lost for ninety seconds, and a motion afterwards
-/

namespace RobertMiddleware

open Effects Transition

namespace System

/-- The task `id` was queued, and no byte of its request is still to be written. -/
def Done (s : System) (id : TaskId) : Prop := id ∈ s.shared.history.queued ∧ ¬ s.Unwritten id

/-- If the step is the end of the wait for a response, the request was written in full. -/
def WaitsForWrite (s : System) (l : Label) : Prop :=
  match l, s.taskWorker with
  | .taskWorker .timeout, .awaiting _ p => ¬ s.shared.robot.Unsent p
  | _, _ => True

instance (s : System) (l : Label) : Decidable (WaitsForWrite s l) :=
  decidable_of_iff
    ((match l, s.taskWorker with
      | .taskWorker .timeout, .awaiting _ p => decide (¬ s.shared.robot.Unsent p)
      | _, _ => true) = true)
    (by
      unfold WaitsForWrite
      split
      · exact decide_eq_true_iff
      · exact iff_of_true rfl trivial)

/-! ### Done once and for all -/

theorem Done.step {P : Platform} {s s' : System} {l : Label} {id : TaskId} (hid : Done s id)
    (hpromises : PromisesOk s) (hhandler : HandlerOk s) (h : step P s l = some s') :
    Done s' id := by
  refine ⟨queued_step h hid.1, fun hunwritten => ?_⟩
  rcases unwritten_step hpromises h hunwritten with hold | ⟨uuid, req, k, -, hpc⟩
  · exact hid.2 hold
  · -- an id is pushed once
    exact (hhandler.sound hpc).2.1 hid.1

/-! ### The wait -/

/-- A promised request that is not written yet is the one the task worker waits for. -/
def Awaited (s : System) : Prop :=
  ∀ p id, (p, id) ∈ s.shared.history.promised → s.shared.robot.Unsent p →
    s.taskWorker = .awaiting id p

theorem awaited_taskWorker {s : System} (hs : Awaited s) (hpromises : PromisesOk s)
    {e : TaskWorkerEvent} (hwaits : WaitsForWrite s (.taskWorker e)) {pc : TaskWorkerPc}
    {b : Shared} (h : TaskWorkerEffect s.taskWorker s.shared e pc b) :
    Awaited { s with taskWorker := pc, shared := b } := by
  intro p id hp hu
  cases h with
  | keep _ _ hawait => exact absurd (hs p id hp hu) (hawait id p)
  | take _ _ hpc => simp [hs p id hp hu] at hpc
  | start _ _ hpc => simp [hs p id hp hu] at hpc
  | push id' req hpc =>
    rcases List.mem_append.mp hp with hold | hnew
    · rcases Robot.unsent_pushRequest hu with hu | rfl
      · simp [hs p id hold hu] at hpc
      · exact absurd (hpromises.below _ hold) (lt_irrefl _)
    · obtain ⟨rfl, rfl⟩ := Prod.mk.inj (List.mem_singleton.mp hnew)
      rfl
  | answered id' p' response hpc hfuture =>
    -- the response arrived, so the request was written
    obtain ⟨-, rfl⟩ : id' = id ∧ p' = p := by simpa [hs p id hp hu, eq_comm] using hpc
    rw [hpromises.robot.future_eq_none hu] at hfuture
    cases hfuture
  | timedOut id' p' hpc =>
    obtain ⟨-, rfl⟩ : id' = id ∧ p' = p := by simpa [hs p id hp hu, eq_comm] using hpc
    simp only [WaitsForWrite, hpc] at hwaits
    exact absurd hu hwaits
  | record _ _ hpc => simp [hs p id hp hu] at hpc
  | fail _ hpc => simp [hs p id hp hu] at hpc

theorem awaited_step {P : Platform} {s s' : System} {l : Label} (hs : Awaited s)
    (hpromises : PromisesOk s) (hthreads : ThreadsOk s) (hwaits : WaitsForWrite s l)
    (h : step P s l = some s') : Awaited s' := by
  cases step_effect h with
  | server hmove =>
    cases hmove with
    | call uuid req op =>
      intro p id hp hu
      exact hs p id (by simpa using hp) ((robot_execCall ..) ▸ hu)
    | _ => exact hs
  | taskWorker hmove => exact awaited_taskWorker hs hpromises hwaits hmove
  | robotWorker hmove => exact fun p id hp hu => hs p id hp (Robot.unsent_workerStep hmove hu)
  | sweeper _ hmove => cases hmove <;> exact hs
  | other _ _ _ hmove =>
    intro p id hp hu
    have hawaiting := hs p id (hmove.history ▸ hp) (hmove.robot.unsent hu)
    rcases hmove.taskWorker with hsame | ⟨howner, -⟩
    · exact hsame.trans hawaiting
    · rw [(hthreads.of_starting howner).2.1] at hawaiting
      cases hawaiting

/-! ### Failed tasks -/

/-- The state of the task is `FAILED`. -/
def Failed (s : System) (id : TaskId) : Prop :=
  ∃ task, s.shared.tasker.getTask id = some task ∧ task.state = .failed

/-- The worker is about to record how the task ended. -/
def Ending (s : System) (id : TaskId) : Prop :=
  s.taskWorker = .failing id ∨ ∃ response, s.taskWorker = .recording id response

theorem failed_execCall {uuid : Bytes} {op : ServerCall} {s : Shared} {id : TaskId} {task : Task}
    (h : (execCall uuid op s).2.tasker.getTask id = some task) (hfailed : task.state = .failed) :
    s.tasker.getTask id = some task := by
  cases op with
  | emplaceTask new request token =>
    simp only [execCall, Tasker.emplaceTask, Tasker.getTask] at h ⊢
    split at h
    · exact h
    · rcases eq_or_ne id new with rfl | hne
      · -- a new task is `PENDING`
        rw [AList.lookup_insert] at h
        obtain rfl := Option.some.inj h
        cases hfailed
      · rwa [AList.lookup_insert_ne hne] at h
  | removeTask old =>
    simp only [execCall, Tasker.removeTask, Tasker.getTask] at h ⊢
    split at h
    · rcases eq_or_ne id old with rfl | hne
      · simp at h
      · rwa [AList.lookup_erase_ne hne] at h
    · exact h
  | _ => exact h

theorem state_markStarted {now : ℤ} {task : Task} (h : (task.markStarted now).2.state = .failed) :
    task.state = .failed := by
  rw [Task.markStarted] at h
  split at h
  · cases h
  · exact h

/-- A task becomes `FAILED` when the worker records that, and at no other time. -/
theorem failed_step {P : Platform} {s s' : System} {l : Label} (h : step P s l = some s')
    {id : TaskId} (hid : Failed s' id) : Failed s id ∨ Ending s id := by
  obtain ⟨task, htask, hstate⟩ := hid
  cases step_effect h with
  | server hmove =>
    cases hmove with
    | call => exact .inl ⟨task, failed_execCall htask hstate, hstate⟩
    | _ => exact .inl ⟨task, htask, hstate⟩
  | taskWorker hmove =>
    -- an update of another task does not touch this one
    have hother : ∀ id' f, id ≠ id' →
        (s.shared.tasker.updateTask id' f).2.getTask id = some task → Failed s id := by
      intro id' f hne hlookup
      rw [Tasker.getTask, Tasker.lookup_updateTask, if_neg hne] at hlookup
      exact ⟨task, hlookup, hstate⟩
    cases hmove with
    | start id' =>
      rcases eq_or_ne id id' with rfl | hne
      · rw [Tasker.getTask, Tasker.startTask, Tasker.lookup_updateTask, if_pos rfl] at htask
        obtain ⟨old, hold, rfl⟩ := Option.map_eq_some_iff.mp htask
        exact .inl ⟨old, hold, state_markStarted hstate⟩
      · exact .inl (hother id' _ hne htask)
    | record id' response hpc =>
      obtain ⟨f, hf⟩ := recordResponse_eq s.shared.now id' response s.shared.tasker
      rcases eq_or_ne id id' with rfl | hne
      · exact .inr (.inr ⟨response, hpc⟩)
      · exact .inl (hother id' f hne (hf ▸ htask))
    | fail id' hpc =>
      rcases eq_or_ne id id' with rfl | hne
      · exact .inr (.inl hpc)
      · exact .inl (hother id' _ hne htask)
    | _ => exact .inl ⟨task, htask, hstate⟩
  | robotWorker => exact .inl ⟨task, htask, hstate⟩
  | sweeper _ hmove =>
    cases hmove with
    | tasks =>
      rw [Tasker.getTask, Tasker.sweepExpiredTasks, AList.lookup_eraseWhere] at htask
      exact .inl ⟨task, (Option.filter_eq_some_iff.mp htask).1, hstate⟩
    | _ => exact .inl ⟨task, htask, hstate⟩
  | other _ _ _ hmove => exact .inl ⟨task, by rwa [Tasker.getTask, ← hmove.taskMap], hstate⟩

/-- At the end of a task its request is past the socket. -/
theorem Ending.done {s : System} {id : TaskId} (h : Ending s id) (hqueue : TaskQueueOk s)
    (hawaited : Awaited s) : Done s id := by
  have htask : s.taskWorker.task = some id := by
    rcases h with h | ⟨response, h⟩ <;> rw [h] <;> rfl
  obtain ⟨hqueued, hout⟩ := hqueue.inHand id htask
  refine ⟨hqueued, fun hunwritten => ?_⟩
  cases hunwritten with
  | queued hmem => exact hout hmem
  | inHand hhand => rcases h with h | ⟨response, h⟩ <;> rw [h] at hhand <;> cases hhand
  | promised p hp hu =>
    have hawaiting := hawaited p id hp hu
    rcases h with h | ⟨response, h⟩ <;> rw [h] at hawaiting <;> cases hawaiting

/-! ### Along runs -/

/-- What keeps failed tasks away from the socket. -/
structure StaleOk (s : System) : Prop where
  promises : PromisesOk s
  handler : HandlerOk s
  threads : ThreadsOk s
  queue : TaskQueueOk s
  awaited : Awaited s
  failed : ∀ id, Failed s id → Done s id

theorem staleOk_initial (users : List UserInfo) : StaleOk (initial users) where
  promises := promisesOk_initial users
  handler := handlerOk_initial users
  threads := threadsOk_initial users
  queue := ⟨List.nodup_nil, nofun, nofun⟩
  awaited := nofun
  failed := fun _ ⟨_, htask, _⟩ => nomatch htask

theorem StaleOk.step {P : Platform} {s s' : System} {l : Label} (hs : StaleOk s)
    (hwaits : WaitsForWrite s l) (h : step P s l = some s') : StaleOk s' where
  promises := hs.promises.step h
  handler := hs.handler.step h
  threads := hs.threads.step h
  queue := hs.queue.step hs.handler h
  awaited := awaited_step hs.awaited hs.promises hs.threads hwaits h
  failed id hid := by
    have hdone : Done s id := by
      rcases failed_step h hid with hold | hending
      · exact hs.failed id hold
      · exact hending.done hs.queue hs.awaited
    exact hdone.step hs.promises hs.handler h

/-- **No stale motion.** In every run in which the task worker gives up waiting only for requests
that were written in full, no byte of a task's request is written at any time after the task's
state is `FAILED`. -/
theorem stale_reaches {P : Platform} {users : List UserInfo} {s s' : System} {l : Label}
    {id : TaskId} (h : Reaches (step P) WaitsForWrite (initial users) s) (hfailed : Failed s id)
    (h' : Reaches (step P) WaitsForWrite s s') : ¬ s'.Writes l id := by
  have hs : StaleOk s :=
    h.invariant (I := StaleOk) (staleOk_initial users) fun _ _ _ ht hl hstep => ht.step hl hstep
  have hs' : StaleOk s' ∧ Done s' id :=
    h'.invariant (I := fun t => StaleOk t ∧ Done t id) ⟨hs, hs.failed id hfailed⟩
      fun _ _ _ ⟨ht, hdone⟩ hl hstep =>
        ⟨ht.step hl hstep, hdone.step ht.promises ht.handler hstep⟩
  exact fun hwrites => hs'.2.2 hwrites.unwritten

/-! ### Two runs -/

/-- The connection is lost before the task worker looks at it. -/
def lostLabels : List Label :=
  statusLabels ++ List.replicate 4 (.taskWorker .advance) ++
    [.robotWorker (.heartbeat .zero), .robotWorker .advance, .robotWorker .sendFailed,
      .robotWorker .advance, .taskWorker .advance, .taskWorker .advance]

theorem stale_reaches_lost :
    ∃ s, Reaches (step Platform.linux) WaitsForWrite (initial SessionManager.aliceOnly) s ∧
      Failed s 1 ∧ ¬ s.Writes (.robotWorker (.sent 188)) 1 := by
  have hrun : ∃ s, runLabels (step Platform.linux) WaitsForWrite
      (initial SessionManager.aliceOnly) lostLabels = some s ∧ Failed s 1 :=
    ⟨_, rfl, _, rfl, rfl⟩
  obtain ⟨s, hs, hfailed⟩ := hrun
  exact ⟨s, .of_runLabels hs, hfailed, stale_reaches (.of_runLabels hs) hfailed (.refl s)⟩

/-- While the worker thread is about to send a heartbeat, the task worker brings a task to the
robot's queue. -/
def heartbeatLabels : List Label :=
  acquireLabels ++ connectLabels ++
    [.robotWorker (.heartbeat .zero), .robotWorker .advance] ++
    SessionManager.serve (robotRequest .getStatus "t") "u" 9 ++
    List.replicate 7 (.taskWorker .advance)

/-- The heartbeat cannot be sent, the robot cannot be reached for ninety seconds, and the wait for
the task's response ends. -/
def disconnectLabels : List Label :=
  [.robotWorker .sendFailed, .robotWorker .advance, .robotWorker .advance,
    .robotWorker .advance, .robotWorker .advance, .robotWorker .connectFailed,
    .tick 90000000000, .taskWorker .timeout, .taskWorker .advance]

/-- The robot is there again, and the worker thread takes the request from its queue. -/
def reconnectLabels : List Label :=
  [.robotWorker .advance, .robotWorker .advance, .robotWorker .advance, .robotWorker .connected,
    .robotWorker .advance, .robotWorker .advance]

/-- **The task has failed, and its request is written.** -/
theorem stale_fails :
    ∃ s s', Reaches (step Platform.linux) always (initial SessionManager.aliceOnly) s ∧
      Failed s 1 ∧ Reaches (step Platform.linux) always s s' ∧
      s'.Writes (.robotWorker (.sent 188)) 1 := by
  have hrun : ∃ s, runLabels (step Platform.linux) always (initial SessionManager.aliceOnly)
      (heartbeatLabels ++ disconnectLabels) = some s ∧ Failed s 1 ∧
      ∃ s', runLabels (step Platform.linux) always s reconnectLabels = some s' ∧
        s'.Writes (.robotWorker (.sent 188)) 1 :=
    ⟨_, rfl, ⟨_, rfl, rfl⟩, _, rfl, 188, _, 0, 0, rfl, rfl, rfl, by decide⟩
  obtain ⟨s, hs, hfailed, s', hs', hwrites⟩ := hrun
  exact ⟨s, s', .of_runLabels hs, hfailed, .of_runLabels hs', hwrites⟩

end System

end RobertMiddleware
