import RobertMiddleware.Internal.Progress
import RobertMiddleware.Server.Restart
import RobertMiddleware.Server.SessionLaws
import RobertMiddleware.Server.TaskOrder

/-!
# Waits come to an end

But for the sweep that locks its mutex twice, none of the waits of the threads lasts for ever:
`recv` has a time limit on both sides, the wait for the answer of the robot has its ninety seconds,
and `waitForNextTask` returns when there is a task or the registry has been stopped. So two things
come to an end, whatever the network and the robot do, as long as no exception ends the program: a
call of `stop`, and every task in the queue.

## Main definitions

* `ServerPc.Left`, `TaskWorkerPc.untilEnd`, `WorkerPc.left`, `SweeperPc.left` — how many steps a
  thread takes after its flag was cleared
* `System.Broken` — the ways in which a thread does not come to its end
* `System.StopsWithin` — the steps of all threads, in the joins of `stop`
* `System.Due` — how many steps the task worker takes before a task is over

## Main results

* `System.stop_returns` — `stop` returns after at most 219 steps
* `System.finished_reaches` — a task is over when the task worker has had the time for it
-/

namespace RobertMiddleware

open Effects Transition

/-! ### Handlers -/

namespace RequestHandler

variable (P : Platform) (req : DecodedRequest)

theorem within_handleLogin : (handleLogin req).Within 1 := by
  simp [handleLogin, Prog.Within, Prog.perform, Prog.bind]

theorem within_handleLogout : (handleLogout req).Within 5 := by
  simp [handleLogout, validateToken, validateHardwareLock, Prog.Within, Prog.perform, Prog.bind]

theorem within_handleAcquire : (handleAcquire req).Within 4 := by
  simp [handleAcquire, validateToken, validateHardwareLock, Prog.Within, Prog.perform, Prog.bind]

theorem within_handleRelease : (handleRelease req).Within 4 := by
  simp [handleRelease, validateToken, validateHardwareLock, Prog.Within, Prog.perform, Prog.bind]

theorem within_handleExit : (handleExit req).Within 3 := by
  simp [handleExit, validateToken, validateHardwareLock, Prog.Within, Prog.perform, Prog.bind]

/-- A call, and what follows. -/
theorem within_invoke {α : Type} {op : ServerCall} {f : op.Ret → Handler α} {n : ℕ}
    (hf : ∀ r, (f r).Within n) : (invoke op >>= f).Within (n + 1) := ⟨Nat.succ_pos n, hf⟩

theorem within_validateToken : (validateToken req).Within 2 := by
  simp [validateToken, Prog.Within, Prog.perform, Prog.bind]

theorem within_handleCheckTask : (handleCheckTask P req).Within 5 := by
  refine (within_validateToken req).bind (n := 3) fun valid => ?_
  refine (Prog.within_ite ..).mpr ⟨fun _ => trivial, fun _ => within_invoke fun locked => ?_⟩
  refine (Prog.within_ite ..).mpr ⟨fun _ => trivial, fun _ => ?_⟩
  split
  · trivial
  refine within_invoke fun task => ?_
  split
  · trivial
  split
  · exact within_invoke fun _ => trivial
  · trivial
  · trivial
  · exact within_invoke fun _ => trivial

theorem within_addTask (request : RapidRequest) (session : Bytes) :
    (addTask request session).Within 3 := by
  simp [addTask, Prog.Within, Prog.perform, Prog.bind]

theorem within_handleRobotCommand : (handleRobotCommand P req).Within 8 := by
  refine within_invoke fun loaded => ?_
  refine (Prog.within_ite ..).mpr ⟨fun _ => trivial, fun _ => ?_⟩
  refine (within_validateToken req).bind (n := 5) fun valid => ?_
  refine (Prog.within_ite ..).mpr ⟨fun _ => trivial, fun _ => within_invoke fun locked => ?_⟩
  refine (Prog.within_ite ..).mpr ⟨fun _ => trivial, fun _ => within_invoke fun connected => ?_⟩
  refine (Prog.within_ite ..).mpr ⟨fun _ => trivial, fun _ => ?_⟩
  split
  · trivial
  · exact (within_addTask _ _).bind (n := 0) fun _ => trivial

theorem within_dispatch : (dispatch P req).Within 8 := by
  unfold dispatch
  split
  · trivial
  · exact (within_handleLogin req).mono (by decide)
  · exact (within_handleLogout req).mono (by decide)
  · exact (within_handleAcquire req).mono (by decide)
  · exact (within_handleRelease req).mono (by decide)
  · exact (within_handleCheckTask P req).mono (by decide)
  · exact (within_handleExit req).mono (by decide)
  · trivial
  · exact within_handleRobotCommand P req

/-- **A handler makes nine calls at most.** -/
theorem within_handle : (handle P req).Within 9 := by
  rw [handle, Prog.within_ite]
  exact ⟨fun _ => (Prog.within_perform _).bind fun _ => within_dispatch P req,
    fun _ => (within_dispatch P req).mono (by decide)⟩

end RequestHandler

/-! ### Threads that are to end -/

/-- With `running_` cleared: at most `n` more steps of the server thread. -/
def ServerPc.Left : ServerPc → ℕ → Prop
  | .stopped, _ => True
  | .loopTest, n => 1 ≤ n
  | .crashed, _ => True
  | .receiving, n => 12 ≤ n
  | .serving _ rest, n => 2 ≤ n ∧ rest.Within (n - 2)

/-- With `running_` cleared: the steps that are left of the sweeper, at most. -/
def SweeperPc.left : SweeperPc → ℕ
  | .stopped | .relocking => 0
  | .loopTest => 1
  | .sleeping | .tasks => 2
  | .sessions => 3

/-- With `running_` cleared: the steps that are left of the task worker, at most. It may still take
a task. -/
def TaskWorkerPc.untilEnd : TaskWorkerPc → ℕ
  | .waiting => 9
  | pc => pc.left

/-- With `running_` of the robot cleared: the steps that are left of its worker thread, at most. -/
def WorkerPc.left : WorkerPc → ℕ
  | .stopped => 0
  | .loopTest | .queueWait => 1
  | .reconnectWait | .responding _ _ | .reporting _ _ => 2
  | .connecting | .failing _ _ => 3
  | .connectTest | .receiving _ => 4
  | .sending _ sent => 4 + (188 - sent)
  | .starting _ => 193

/-- With `stop_session` in the join: the steps that are left of the owner. -/
def OwnerPc.left : OwnerPc → ℕ
  | .joiningRobot => 2
  | .joiningThreads => 1
  | _ => 0

theorem ServerPc.Idle.left {pc : ServerPc} (h : pc.Idle) : pc.Left 12 := by
  cases pc with
  | serving => exact h.elim
  | _ => simp [Left]

theorem SweeperPc.left_le (pc : SweeperPc) : pc.left ≤ 3 := by
  cases pc <;> decide

theorem TaskWorkerPc.left_le (pc : TaskWorkerPc) : pc.left ≤ 8 := by
  cases pc <;> simp [left]

theorem TaskWorkerPc.untilEnd_le (pc : TaskWorkerPc) : pc.untilEnd ≤ 9 := by
  cases pc <;> simp [untilEnd, left]

theorem WorkerPc.left_le (pc : WorkerPc) : pc.left ≤ 193 := by
  cases pc <;> simp only [left] <;> omega

section Threads

variable {P : Platform} {a b : Shared}

theorem ServerPc.Left.step {pc pc' : ServerPc} {e : ServerEvent} {n : ℕ} (hn : pc.Left n)
    (hrunning : a.running = false) (h : serverStep P pc a e = some (pc', b)) :
    1 ≤ n ∧ pc'.Left (n - 1) := by
  revert h
  fun_cases serverStep P pc a e
  all_goals intro h
  all_goals try contradiction
  all_goals obtain ⟨rfl, rfl⟩ := Prod.mk.inj (Option.some.inj h)
  case case1 =>
    rw [hrunning]
    exact ⟨hn, trivial⟩
  case case2 =>
    have hn' : 12 ≤ n := hn
    exact ⟨by omega, show 1 ≤ n - 1 by omega⟩
  case case3 req =>
    have hn' : 12 ≤ n := hn
    exact ⟨by omega, by omega, (RequestHandler.within_handle P req).mono (by omega)⟩
  case case4 =>
    have hn' : 12 ≤ n := hn
    exact ⟨by omega, trivial⟩
  case case5 req op k uuid r s' hfresh hcall =>
    obtain ⟨hn', hpos, hrest⟩ := hn
    refine ⟨by omega, by omega, ?_⟩
    rw [Nat.sub_right_comm]
    exact hrest r
  all_goals
    obtain ⟨hn', -⟩ := hn
    exact ⟨by omega, show 1 ≤ n - 1 by omega⟩

theorem SweeperPc.left_step {pc pc' : SweeperPc} (hrunning : a.running = false)
    (h : sweeperStep pc a = some (pc', b)) : pc'.left < pc.left := by
  cases pc with
  | stopped | relocking => cases h
  | loopTest | sleeping =>
    rw [sweeperStep, if_neg (by simp [hrunning])] at h
    cases h
    decide
  | sessions | tasks =>
    cases h
    decide

/-- The task worker comes nearer to its wait. -/
theorem TaskWorkerPc.left_step {pc pc' : TaskWorkerPc} {e : TaskWorkerEvent}
    (h : taskWorkerStep pc a e = some (pc', b)) (hpc : pc ≠ .waiting) : pc'.left < pc.left := by
  revert h
  fun_cases taskWorkerStep pc a e
  all_goals intro h
  all_goals try contradiction
  all_goals obtain ⟨rfl, rfl⟩ := Prod.mk.inj (Option.some.inj h)
  all_goals
    try split
    all_goals simp [left]

theorem TaskWorkerPc.untilEnd_step {pc pc' : TaskWorkerPc} {e : TaskWorkerEvent}
    (hrunning : a.running = false) (h : taskWorkerStep pc a e = some (pc', b)) :
    pc'.untilEnd < pc.untilEnd := by
  revert h
  fun_cases taskWorkerStep pc a e
  all_goals intro h
  all_goals try contradiction
  all_goals obtain ⟨rfl, rfl⟩ := Prod.mk.inj (Option.some.inj h)
  all_goals
    try split
    all_goals simp_all [untilEnd, left]

theorem WorkerPc.left_step {r r' : Robot} {e : WorkerEvent} (hrunning : r.running = false)
    (h : r.workerStep e = some r') : r'.worker.left < r.worker.left := by
  revert h
  fun_cases Robot.workerStep r e
  all_goals intro h
  all_goals try contradiction
  all_goals obtain rfl := Option.some.inj h
  all_goals
    try split
    all_goals simp_all [left]
    all_goals omega

end Threads

/-! ### No thread is stuck -/

section Threads

theorem ServerPc.exists_step (P : Platform) {pc : ServerPc} (a : Shared) (hpc : pc ≠ .stopped)
    (hcrashed : pc ≠ .crashed) : ∃ e, (serverStep P pc a e).isSome := by
  cases pc with
  | stopped => exact absurd rfl hpc
  | crashed => exact absurd rfl hcrashed
  | loopTest => exact ⟨.advance, rfl⟩
  | receiving => exact ⟨.advance, rfl⟩
  | serving req rest =>
    cases rest with
    | pure response => exact ⟨.advance, rfl⟩
    | throw what => exact ⟨.advance, rfl⟩
    | call op k =>
      obtain ⟨uuid, hfresh⟩ := SessionManager.exists_freshToken a
      refine ⟨.call uuid, ?_⟩
      rw [serverStep, if_pos hfresh]
      rfl

theorem SweeperPc.exists_step {pc : SweeperPc} (a : Shared) (hpc : pc ≠ .stopped)
    (hrelocking : pc ≠ .relocking) : (sweeperStep pc a).isSome := by
  cases pc with
  | stopped => exact absurd rfl hpc
  | relocking => exact absurd rfl hrelocking
  | _ => rfl

/-- The task worker waits for nothing but a task, or the end. -/
theorem TaskWorkerPc.exists_step {pc : TaskWorkerPc} {a : Shared} (hpc : pc.Live)
    (hwait : pc = .waiting → a.tasker.shutdown = true ∨ a.tasker.taskQueue ≠ []) :
    ∃ e, (taskWorkerStep pc a e).isSome := by
  cases pc with
  | stopped => exact absurd rfl hpc.1
  | crashed => exact absurd rfl hpc.2
  | waiting =>
    refine ⟨.advance, ?_⟩
    cases hqueue : a.tasker.taskQueue with
    | nil =>
      have hshutdown := (hwait rfl).resolve_right (not_not_intro hqueue)
      simp [taskWorkerStep, Tasker.waitForNextTask, hqueue, hshutdown]
    | cons id rest => simp [taskWorkerStep, Tasker.waitForNextTask, hqueue]
  | fetching id =>
    refine ⟨.advance, ?_⟩
    rw [taskWorkerStep]
    split <;> rfl
  | awaiting id promise =>
    cases hfuture : a.robot.future promise with
    | none => exact ⟨.timeout, by simp [taskWorkerStep, hfuture]⟩
    | some response => exact ⟨.advance, by simp [taskWorkerStep, hfuture]⟩
  | _ => exact ⟨.advance, rfl⟩

/-- The robot's worker thread waits for the network and for its own time limits only. -/
theorem Robot.exists_workerStep {r : Robot} (hworker : r.worker ≠ .stopped) :
    ∃ e, (r.workerStep e).isSome := by
  cases hpc : r.worker with
  | stopped => exact absurd hpc hworker
  | connecting =>
    cases hfd : r.socketFd with
    | none => exact ⟨.connectFailed, by simp [workerStep, hpc, hfd]⟩
    | some fd => exact ⟨.advance, by simp [workerStep, hpc, hfd]⟩
  | queueWait =>
    by_cases hrunning : r.running = true
    · cases hqueue : r.requestQueue with
      | nil => exact ⟨.heartbeat .zero, by simp [workerStep, hpc, hrunning, hqueue]⟩
      | cons item rest => exact ⟨.advance, by simp [workerStep, hpc, hrunning, hqueue]⟩
    · exact ⟨.advance, by simp [workerStep, hpc, hrunning]⟩
  | sending item sent => exact ⟨.sendFailed, by simp [workerStep, hpc]⟩
  | receiving item => exact ⟨.receiveFailed, by simp [workerStep, hpc]⟩
  | _ => exact ⟨.advance, by simp [workerStep, hpc]⟩

end Threads

/-! ### `stop` returns -/

/-- In `stop`, with `running_` of the robot cleared. -/
def OwnerPc.Joining : OwnerPc → Prop
  | .joiningRobot | .joiningThreads => True
  | _ => False

namespace System

/-- What the owner has done when it is in `stop`. -/
structure StopOk (s : System) : Prop where
  running : ¬ s.owner.Settled → s.shared.running = false
  shutdown : s.owner = .stoppingRobot ∨ s.owner.Joining → s.shared.tasker.shutdown = true
  session : s.owner.Joining → s.shared.robot.running = false
  joined : s.owner = .joiningThreads → s.shared.robot.worker = .stopped

/-- The threads and the owner have come to their ends. -/
structure Halted (s : System) : Prop where
  owner : s.owner = .idle
  server : s.server = .stopped
  taskWorker : s.taskWorker = .stopped
  sweeper : s.sweeper = .stopped
  robotWorker : s.shared.robot.worker = .stopped

/-- A thread will not come to its end: an exception has left the task worker or the server thread,
or the sweeper waits for its own mutex. -/
def Broken (s : System) : Prop :=
  s.taskWorker = .crashed ∨ s.server = .crashed ∨ s.sweeper = .relocking

/-- The steps that are left before `stop` returns, at most. -/
structure StopsWithin (s : System) (n : ℕ) : Prop where
  stop : s.StopOk
  joining : s.owner.Joining
  left : ∃ m, s.server.Left m ∧ m + s.taskWorker.untilEnd + s.shared.robot.worker.left +
    s.sweeper.left + s.owner.left ≤ n

/-- What is recorded: every step but the passing of time. -/
def threadObs (_ : System) : Label → List Label
  | .tick _ => []
  | l => [l]

section Stop

variable {P : Platform} {s s' : System} {l : Label}

theorem stopOk_initial (users : List UserInfo) : StopOk (initial users) where
  running h := absurd trivial h
  shutdown h := h.elim (by simp [initial]) False.elim
  session := False.elim
  joined := by simp [initial]

theorem StopOk.ownerStep (hs : StopOk s) (h : s.ownerStep = some s') : StopOk s' := by
  obtain ⟨hrunning, hshutdown, hsession, hjoined⟩ := hs
  revert h
  fun_cases System.ownerStep s
  all_goals intro h
  all_goals try contradiction
  all_goals obtain rfl := Option.some.inj h
  all_goals constructor <;> simp_all [OwnerPc.Settled, OwnerPc.Joining, Tasker.stop,
    Robot.clearRunning, Robot.closeSession]

/-- Only its own steps and the owner move the robot's worker thread. -/
theorem worker_other (h : step P s l = some s') (hworker : ∀ e, l ≠ .robotWorker e)
    (howner : l ≠ .owner) : s'.shared.robot.worker = s.shared.robot.worker := by
  cases l with
  | tick d => cases h; rfl
  | server e =>
    cases step_effect h with
    | server hmove =>
      cases hmove with
      | call uuid req op => exact congrArg Robot.worker (robot_execCall uuid op s.shared)
      | _ => rfl
    | other hno => exact absurd rfl (hno e)
  | taskWorker e =>
    cases step_effect h with
    | taskWorker hmove => cases hmove <;> rfl
    | other _ hno => exact absurd rfl (hno e)
  | robotWorker e => exact absurd rfl (hworker e)
  | sweeper =>
    obtain ⟨⟨pc, b⟩, hmove, rfl⟩ := Option.map_eq_some_iff.mp h
    cases (sweeperStep_effect hmove).2 <;> rfl
  | relock =>
    obtain ⟨-, rfl⟩ := relock_move h
    rfl
  | start =>
    obtain ⟨-, rfl⟩ := start_move h
    split <;> rfl
  | stop =>
    obtain ⟨-, rfl⟩ := stop_move h
    split <;> rfl
  | owner => exact absurd rfl howner

theorem StopOk.step (hs : StopOk s) (h : step P s l = some s') : StopOk s' := by
  by_cases hstart : l = .start
  · subst hstart
    obtain ⟨-, rfl⟩ := start_move h
    split
    · exact ⟨fun hnot => absurd trivial hnot, fun h => h.elim (by simp) False.elim, False.elim,
        by simp⟩
    · exact hs
  by_cases hstop : l = .stop
  · subst hstop
    obtain ⟨-, rfl⟩ := stop_move h
    split
    · exact ⟨fun _ => rfl, fun h => h.elim (by simp) False.elim, False.elim, by simp⟩
    · exact hs
  by_cases howner : l = .owner
  · subst howner
    exact hs.ownerStep h
  have hflags := sameFlags_step h hstart hstop howner
  refine ⟨fun hnot => ?_, fun hpoint => ?_, fun hjoining => ?_, fun hjoining => ?_⟩
  · exact hflags.running.trans (hs.running (hflags.owner ▸ hnot))
  · exact hflags.shutdown.trans (hs.shutdown (hflags.owner ▸ hpoint))
  · exact hflags.session.trans (hs.session (hflags.owner ▸ hjoining))
  · have hstopped := hs.joined (hflags.owner ▸ hjoining)
    by_cases hworker : ∃ e, l = .robotWorker e
    · obtain ⟨e, rfl⟩ := hworker
      obtain ⟨r, hmove, rfl⟩ := Option.map_eq_some_iff.mp h
      rw [Robot.workerStep_stopped hstopped] at hmove
      cases hmove
    · exact (worker_other h (fun e he => hworker ⟨e, he⟩) howner).trans hstopped

/-- A step that was paid for. -/
theorem StopsWithin.of_less {m n : ℕ} (hstop : s.StopOk) (hjoining : s.owner.Joining)
    (hserver : s.server.Left m)
    (hless : m + s.taskWorker.untilEnd + s.shared.robot.worker.left + s.sweeper.left +
      s.owner.left < n) : ∃ n', s.StopsWithin n' ∧ n' + 1 ≤ n :=
  ⟨n - 1, ⟨hstop, hjoining, m, hserver, Nat.le_sub_one_of_lt hless⟩,
    (Nat.sub_add_cancel (Nat.zero_lt_of_lt hless)).le⟩

/-- **Step lemma.** In the joins of `stop` a step brings `stop` nearer to its end. -/
theorem StopsWithin.step {n : ℕ} (hs : s.StopsWithin n) (h : step P s l = some s') :
    s'.Halted ∨ ∃ n', s'.StopsWithin n' ∧ n' + (threadObs s l).length ≤ n := by
  have hstop' := hs.stop.step h
  obtain ⟨hstop, hjoining, m, hserver, hleft⟩ := hs
  have hidle : s.owner ≠ .idle := fun howner => by simp [howner, OwnerPc.Joining] at hjoining
  have hrunning := hstop.running fun hsettled => by
    cases howner : s.owner <;> simp [howner, OwnerPc.Joining, OwnerPc.Settled] at hjoining hsettled
  cases l with
  | tick d =>
    cases h
    exact .inr ⟨n, ⟨hstop', hjoining, m, hserver, hleft⟩, le_rfl⟩
  | server e =>
    have hworker := worker_other h (by simp) (by simp)
    obtain ⟨-, pc, b, hmove, rfl⟩ := server_move h
    obtain ⟨hpos, hserver'⟩ := hserver.step hrunning hmove
    refine .inr (StopsWithin.of_less hstop' hjoining hserver' ?_)
    rw [hworker]
    dsimp only
    omega
  | taskWorker e =>
    have hworker := worker_other h (by simp) (by simp)
    obtain ⟨⟨pc, b⟩, hmove, rfl⟩ := Option.map_eq_some_iff.mp h
    have hless := TaskWorkerPc.untilEnd_step hrunning hmove
    refine .inr (StopsWithin.of_less hstop' hjoining hserver ?_)
    rw [hworker]
    dsimp only
    omega
  | robotWorker e =>
    obtain ⟨r, hmove, rfl⟩ := Option.map_eq_some_iff.mp h
    have hless := WorkerPc.left_step (hstop.session hjoining) hmove
    refine .inr (StopsWithin.of_less hstop' hjoining hserver ?_)
    dsimp only
    omega
  | sweeper =>
    have hworker := worker_other h (by simp) (by simp)
    obtain ⟨⟨pc, b⟩, hmove, rfl⟩ := Option.map_eq_some_iff.mp h
    have hless := SweeperPc.left_step hrunning hmove
    refine .inr (StopsWithin.of_less hstop' hjoining hserver ?_)
    rw [hworker]
    dsimp only
    omega
  | relock =>
    obtain ⟨⟨hsweeper, -⟩, rfl⟩ := relock_move h
    rw [hsweeper] at hleft
    refine .inr (StopsWithin.of_less hstop' hjoining hserver ?_)
    simp only [SweeperPc.left] at hleft ⊢
    omega
  | start => exact absurd (start_move h).1 hidle
  | stop => exact absurd (stop_move h).1 hidle
  | owner =>
    cases howner : s.owner with
    | joiningRobot =>
      have hstopped : s.shared.robot.worker = .stopped := by
        by_contra hnot
        simp [System.step, ownerStep, howner, hnot] at h
      simp only [System.step, ownerStep, howner, if_pos hstopped, Option.some.injEq] at h
      subst h
      refine .inr (StopsWithin.of_less hstop' trivial hserver ?_)
      rw [howner] at hleft
      exact hleft
    | joiningThreads =>
      left
      simp only [System.step, ownerStep, howner] at h
      split at h
      · rename_i hserver' htaskWorker hsweeper
        obtain rfl := Option.some.inj h
        exact ⟨rfl, hserver', htaskWorker, hsweeper, hstop.joined howner⟩
      · cases h
    | _ => simp [howner, OwnerPc.Joining] at hjoining

/-- A server thread that has not ended can move, unless it waits for the sweeper. -/
theorem exists_server_step (P : Platform) (hpc : s.server ≠ .stopped)
    (hcrashed : s.server ≠ .crashed) (hwaits : s.serverWaits = false) :
    ∃ e, (System.step P s (.server e)).isSome := by
  obtain ⟨e, he⟩ := ServerPc.exists_step P s.shared hpc hcrashed
  exact ⟨e, by simpa [System.step, hwaits] using he⟩

theorem serverWaits_eq_false (hsweeper : s.sweeper ≠ .relocking) : s.serverWaits = false := by
  rw [Bool.eq_false_iff, Ne, serverWaits_iff]
  exact fun hwaits => hsweeper hwaits.1

/-- Nobody waits for what does not come. -/
theorem StopsWithin.exists_step {n : ℕ} (P : Platform) (hs : s.StopsWithin n)
    (hbroken : ¬ s.Broken) : ∃ l, threadObs s l ≠ [] ∧ (System.step P s l).isSome := by
  obtain ⟨hcrashed, hserverCrashed, hrelocking⟩ :
      s.taskWorker ≠ .crashed ∧ s.server ≠ .crashed ∧ s.sweeper ≠ .relocking := by
    simpa [Broken] using hbroken
  have hshutdown := hs.stop.shutdown (.inr hs.joining)
  by_cases hworker : s.shared.robot.worker = .stopped
  case neg =>
    obtain ⟨e, he⟩ := Robot.exists_workerStep hworker
    exact ⟨.robotWorker e, by simp [threadObs], by simpa [System.step] using he⟩
  by_cases hserver : s.server = .stopped
  case neg =>
    obtain ⟨e, he⟩ := exists_server_step P hserver hserverCrashed (serverWaits_eq_false hrelocking)
    exact ⟨.server e, by simp [threadObs], he⟩
  by_cases htaskWorker : s.taskWorker = .stopped
  case neg =>
    obtain ⟨e, he⟩ := TaskWorkerPc.exists_step ⟨htaskWorker, hcrashed⟩ fun _ => .inl hshutdown
    exact ⟨.taskWorker e, by simp [threadObs], by simpa [System.step] using he⟩
  by_cases hsweeper : s.sweeper = .stopped
  case neg =>
    refine ⟨.sweeper, by simp [threadObs], ?_⟩
    simpa [System.step] using SweeperPc.exists_step s.shared hsweeper hrelocking
  refine ⟨.owner, by simp [threadObs], ?_⟩
  have hjoining := hs.joining
  cases howner : s.owner with
  | joiningRobot => simp [System.step, ownerStep, howner, hworker]
  | joiningThreads => simp [System.step, ownerStep, howner, hserver, htaskWorker, hsweeper]
  | _ => simp [howner, OwnerPc.Joining] at hjoining

/-- Twelve steps are always enough for the server thread. -/
theorem left_server_step (hs : s.server.Left 12) (h : System.step P s l = some s') :
    s'.server.Left 12 := by
  by_cases hserver : ∃ e, l = .server e
  · obtain ⟨e, rfl⟩ := hserver
    cases step_effect h with
    | other hno => exact absurd rfl (hno e)
    | server hmove =>
      cases hmove with
      | between _ hidle => exact hidle.left
      | misread => trivial
      | receive req =>
        exact ⟨by decide, (RequestHandler.within_handle P req).mono (by decide)⟩
      | call uuid req op k hpc =>
        rw [hpc] at hs
        exact ⟨by decide, (hs.2.2 _).mono (by decide)⟩
  · rcases server_other h fun e he => hserver ⟨e, he⟩ with hsame | hnew
    · rw [hsame]
      exact hs
    · rw [hnew]
      exact ServerPc.Idle.left trivial

end Stop

/-- `stop` has not returned. -/
def InStop (s : System) (_ : Label) : Prop := s.owner ≠ .idle

instance (s : System) (l : Label) : Decidable (InStop s l) := inferInstanceAs (Decidable (_ ≠ _))

/-- **`stop` returns.** In every run, from the moment when `stop_session` has cleared `running_` of
the robot the threads and the owner take at most 219 more steps, in whatever order and however much
time passes, until `stop` has returned and the threads have ended; and before that one of them can
take a step, unless an exception has left the task worker or the server thread, or the sweeper waits
for the mutex that it holds. -/
theorem stop_returns {P : Platform} {users : List UserInfo} {s s' : System} {log : List Label}
    (h : Reaches (step P) always (initial users) s) (howner : s.owner = .joiningRobot)
    (hrun : Reaches (logged (step P) threadObs) (unlogged InStop) (s, []) (s', log)) :
    s'.Halted ∨ log.length ≤ 219 ∧
      (s'.Broken ∨ ∃ l, threadObs s' l ≠ [] ∧ (step P s' l).isSome) := by
  obtain ⟨hstop, hserver⟩ := h.invariant (I := fun t => t.StopOk ∧ t.server.Left 12)
    ⟨stopOk_initial users, trivial⟩ fun t l t' ht _ hstep =>
      ⟨ht.1.step hstep, left_server_step ht.2 hstep⟩
  have hstart : s.StopsWithin 219 := by
    refine ⟨hstop, by rw [howner]; trivial, 12, hserver, ?_⟩
    have htaskWorker := s.taskWorker.untilEnd_le
    have hworker := s.shared.robot.worker.left_le
    have hsweeper := s.sweeper.left_le
    rw [howner, OwnerPc.left]
    omega
  rcases hrun.rank (G := Halted) (R := StopsWithin) hstart
    (fun t l t' ht hl => absurd ht.owner hl) (fun t n l t' ht _ hstep => ht.step hstep) with
    hhalted | ⟨n, hn, hpaid⟩
  · exact .inl hhalted
  · refine .inr ⟨(Nat.le_add_left _ _).trans hpaid, ?_⟩
    by_cases hbroken : s'.Broken
    · exact .inl hbroken
    · exact .inr (hn.exists_step P hbroken)

theorem stop_returns_restart :
    ∃ s s' log, Reaches (step .linux) always (initial SessionManager.aliceOnly) s ∧
      s.owner = .joiningRobot ∧
      Reaches (logged (step .linux) threadObs) (unlogged InStop) (s, []) (s', log) ∧
      s'.owner = .joiningThreads ∧ log.length = 5 ∧
      (s'.Halted ∨ log.length ≤ 219 ∧
        (s'.Broken ∨ ∃ l, threadObs s' l ≠ [] ∧ (step .linux s' l).isSome)) := by
  have hstop : ∃ s, runLabels (step .linux) always (initial SessionManager.aliceOnly)
      (restartLabels.take 6) = some s ∧ s.owner = .joiningRobot ∧
      ∃ s' log, runLabels (logged (step .linux) threadObs) (unlogged InStop) (s, [])
        ((restartLabels.drop 6).take 5) = some (s', log) ∧
        s'.owner = .joiningThreads ∧ log.length = 5 :=
    ⟨_, rfl, rfl, _, _, rfl, rfl, rfl⟩
  obtain ⟨s, hs, howner, s', log, hs', howner', hlength⟩ := hstop
  exact ⟨s, s', log, .of_runLabels hs, howner, .of_runLabels hs', howner', hlength,
    stop_returns (.of_runLabels hs) howner (.of_runLabels hs')⟩

/-! ### Tasks come to their ends -/

/-- The task has been taken and is over, or has been removed since. -/
def Finished (s : System) (id : TaskId) : Prop := 2 ≤ Task.phase (s.shared.tasker.getTask id)

/-- The server runs, and the task has been queued. -/
structure Works (s : System) (id : TaskId) : Prop where
  served : s.ServedOk
  running : s.shared.running = true
  tasks : ∃ log, TasksOk taskObserver s log
  queued : id ∈ s.shared.history.queued

/-- At most `n` steps of the task worker before the task `id` is over: it has the task in its hands,
or takes others before. -/
def Due (s : System) (id : TaskId) (n : ℕ) : Prop :=
  s.taskWorker.task = some id ∧ s.taskWorker.left ≤ n ∨
    ∃ k : ℕ, s.shared.tasker.taskQueue[k]? = some id ∧ s.taskWorker.left + 9 * (k + 1) ≤ n

/-- What is recorded: the steps of the task worker. -/
def taskWorkerObs (_ : System) : Label → List TaskWorkerEvent
  | .taskWorker e => [e]
  | _ => []

section Serve

variable {P : Platform} {s s' : System} {l : Label} {id : TaskId} {n : ℕ}

/-- A task that was queued does not go back. -/
theorem TasksOk.phase_le {ω : Type} {O : Observer ω} {log : List ω} (hs : TasksOk O s log)
    (h : System.step P s l = some s') (hqueued : id ∈ s.shared.history.queued) :
    Task.phase (s.shared.tasker.getTask id) ≤ Task.phase (s'.shared.tasker.getTask id) := by
  cases hs.life.taskChange h (fun hpc => hs.call hpc) id with
  | same hsame => rw [hsame]
  | created uuid req request session k _ hpc => exact absurd hqueued (hs.call hpc).2.1
  | removed _ _ _ _ _ htask' =>
    rw [htask']
    exact Task.phase_le_three _
  | started task htask hpending htask' =>
    rw [htask, htask']
    exact (Task.advances_markStarted _ hpending).phase_le
  | ended task o _ htask hworking htask' =>
    rw [htask, htask']
    exact (Task.advances_finish _ _ hworking).phase_le
  | swept _ _ _ _ htask' =>
    rw [htask']
    exact Task.phase_le_three _

/-- Other threads only put ids at the end of the queue. -/
theorem taskQueue_other (h : step P s l = some s') (hl : ∀ e, l ≠ .taskWorker e) :
    s.shared.tasker.taskQueue <+: s'.shared.tasker.taskQueue := by
  cases step_effect h with
  | server hmove =>
    cases hmove with
    | call uuid req op =>
      cases op with
      | pushTask id => exact List.prefix_append _ _
      | emplaceTask => exact (Tasker.taskQueue_emplaceTask ..) ▸ List.prefix_refl _
      | removeTask => exact (Tasker.taskQueue_removeTask ..) ▸ List.prefix_refl _
      | _ => exact List.prefix_refl _
    | _ => exact List.prefix_refl _
  | taskWorker => exact absurd rfl (hl _)
  | robotWorker => exact List.prefix_refl _
  | sweeper _ hmove => cases hmove <;> exact List.prefix_refl _
  | other _ _ _ hmove =>
    rw [hmove.taskQueue]

theorem taskQueue_taskWorkerStep {pc pc' : TaskWorkerPc} {a b : Shared} {e : TaskWorkerEvent}
    (h : taskWorkerStep pc a e = some (pc', b)) (hpc : pc ≠ .waiting) :
    b.tasker.taskQueue = a.tasker.taskQueue := by
  cases taskWorkerStep_effect h with
  | take id rest hwaiting => exact absurd hwaiting hpc
  | start | fail => exact Tasker.taskQueue_updateTask ..
  | record id response =>
    obtain ⟨f, hf⟩ := recordResponse_eq a.now id response a.tasker
    show (recordResponse a.now id response a.tasker).taskQueue = a.tasker.taskQueue
    rw [hf, Tasker.taskQueue_updateTask]
  | _ => rfl

/-- The task worker takes the first task of a queue. -/
theorem take_taskWorkerStep {pc pc' : TaskWorkerPc} {a b : Shared} {e : TaskWorkerEvent} {k : ℕ}
    (hwaiting : pc = .waiting) (h : taskWorkerStep pc a e = some (pc', b))
    (hk : a.tasker.taskQueue[k]? = some id) :
    ∃ first rest, a.tasker.taskQueue = first :: rest ∧ pc' = .starting first ∧
      b.tasker.taskQueue = rest := by
  subst hwaiting
  cases hqueue : a.tasker.taskQueue with
  | nil => simp [hqueue] at hk
  | cons first rest =>
    cases e with
    | advance =>
      simp only [taskWorkerStep, Tasker.waitForNextTask, hqueue, Option.some.injEq,
        Prod.mk.injEq] at h
      obtain ⟨rfl, rfl⟩ := h
      exact ⟨first, rest, rfl, rfl, rfl⟩
    | timeout => cases h

theorem Works.step (hs : s.Works id) (hl : l ≠ .stop) (h : System.step P s l = some s') :
    s'.Works id := by
  obtain ⟨log, htasks⟩ := hs.tasks
  have hstart : ¬ s.StartGoesOn := fun hgo => absurd hs.running (by simp [hgo.1])
  have hfresh : StartsFresh s l := by
    cases l with
    | start => exact fun hgo => absurd hgo hstart
    | _ => trivial
  refine ⟨hs.served.step hfresh h, ?_, ⟨_, htasks.step h⟩, queued_step h hs.queued⟩
  cases l with
  | stop => exact absurd rfl hl
  | start =>
    obtain ⟨-, rfl⟩ := start_move h
    rw [if_neg hstart]
    exact hs.running
  | owner =>
    rw [System.step, ownerStep, hs.served.idle hs.running] at h
    cases h
  | _ => exact (sameFlags_step h (by simp) (by simp) (by simp)).running.trans hs.running

/-- The task worker has the task in its hands, and keeps it until it is over. -/
theorem Works.step_hand (hs : s.Works id) (hs' : s'.Works id)
    (hid : s.taskWorker.task = some id) {e : TaskWorkerEvent}
    (h : System.step P s (.taskWorker e) = some s') :
    s'.taskWorker.task = some id ∨ s'.Finished id := by
  obtain ⟨log, htasks⟩ := hs.tasks
  obtain ⟨task, htask, -⟩ := htasks.life.hand id hid
  obtain ⟨⟨pc, b⟩, hmove, heq⟩ := Option.map_eq_some_iff.mp h
  have hpc : s'.taskWorker = pc := by rw [← heq]
  rcases hand_taskWorkerStep htask hid hmove with hkept | hcrashed | ⟨-, rfl, hends⟩
  · exact .inl (hpc ▸ hkept)
  · exact absurd (hpc.trans hcrashed) (hs'.served.serving hs'.running).2.2
  · right
    have hrecorded : ∃ o, s.recorded? (.taskWorker .advance) = some (id, o) := by
      rcases hends with ⟨response, hrecording⟩ | hfailing
      · exact ⟨.ofResponse response, by simp only [recorded?, hrecording]⟩
      · exact ⟨.disconnected, by simp only [recorded?, hfailing]⟩
    obtain ⟨o, ho⟩ := hrecorded
    obtain ⟨task', -, hworking, htask'⟩ := htasks.life.recorded h ho
    rw [Finished, htask', Task.phase_eq_two_iff.mpr]
    rw [Task.finish_of_inProgress _ _ hworking]
    exact o.terminal

/-- The task worker is on its way to the task. -/
theorem Due.step_worker (hs : s.Works id) (hs' : s'.Works id) (hdue : s.Due id n)
    {e : TaskWorkerEvent} (h : System.step P s (.taskWorker e) = some s') :
    s'.Finished id ∨ ∃ n', s'.Due id n' ∧ n' + 1 ≤ n := by
  obtain ⟨⟨pc, b⟩, hmove, heq⟩ := Option.map_eq_some_iff.mp h
  have hpc : s'.taskWorker = pc := by rw [← heq]
  have hqueue : s'.shared.tasker.taskQueue = b.tasker.taskQueue := by rw [← heq]
  rcases hdue with ⟨hid, hleft⟩ | ⟨k, hk, hleft⟩
  · have hless := TaskWorkerPc.left_step hmove fun hwaiting => by
      rw [hwaiting] at hid
      cases hid
    rcases hs.step_hand hs' hid h with hkept | hfinished
    · refine .inr ⟨n - 1, .inl ⟨hkept, ?_⟩, ?_⟩
      · rw [hpc]
        omega
      · omega
    · exact .inl hfinished
  · right
    by_cases hwaiting : s.taskWorker = .waiting
    · -- it takes the first task of the queue
      rw [hwaiting, TaskWorkerPc.left] at hleft
      obtain ⟨first, rest, hfirst, rfl, hrest⟩ := take_taskWorkerStep hwaiting hmove hk
      rw [hfirst] at hk
      refine ⟨n - 1, ?_, by omega⟩
      rw [Due, hpc, hqueue, hrest, TaskWorkerPc.left]
      cases k with
      | zero =>
        obtain rfl := Option.some.inj hk
        exact .inl ⟨rfl, by omega⟩
      | succ k => exact .inr ⟨k, hk, by omega⟩
    · have hless := TaskWorkerPc.left_step hmove hwaiting
      refine ⟨n - 1, .inr ⟨k, ?_, ?_⟩, ?_⟩
      · rw [hqueue, taskQueue_taskWorkerStep hmove hwaiting]
        exact hk
      · rw [hpc]
        omega
      · omega

/-- **Step lemma.** As long as the server runs, the task comes nearer to its end. -/
theorem Due.step (hs : s.Works id) (hs' : s'.Works id) (hdue : s.Due id n)
    (h : System.step P s l = some s') :
    s'.Finished id ∨ ∃ n', s'.Due id n' ∧ n' + (taskWorkerObs s l).length ≤ n := by
  by_cases hworker : ∃ e, l = .taskWorker e
  · obtain ⟨e, rfl⟩ := hworker
    exact hdue.step_worker hs hs' h
  · have hother : ∀ e, l ≠ .taskWorker e := fun e he => hworker ⟨e, he⟩
    have hno : taskWorkerObs s l = [] := by
      cases l with
      | taskWorker e => exact absurd rfl (hother e)
      | _ => rfl
    have hpc : s'.taskWorker = s.taskWorker := by
      refine (session_step h hother ?_).1
      rintro rfl
      rw [System.step, ownerStep, hs.served.idle hs.running] at h
      cases h
    refine .inr ⟨n, ?_, by rw [hno]; exact le_rfl⟩
    rw [Due, hpc]
    refine hdue.imp_right ?_
    rintro ⟨k, hk, hleft⟩
    obtain ⟨ids, happ⟩ := taskQueue_other h hother
    refine ⟨k, ?_, hleft⟩
    rw [← happ, List.getElem?_append_left (List.getElem?_eq_some_iff.mp hk).1]
    exact hk

/-- The task worker does not wait while there is a task. -/
theorem Due.exists_step (P : Platform) (hs : s.Works id) (hdue : s.Due id n) :
    ∃ e, (System.step P s (.taskWorker e)).isSome := by
  obtain ⟨e, he⟩ := TaskWorkerPc.exists_step (hs.served.serving hs.running).2 fun hwaiting => by
    rcases hdue with ⟨hid, -⟩ | ⟨k, hk, -⟩
    · rw [hwaiting] at hid
      cases hid
    · exact .inr (List.ne_nil_of_mem (List.mem_of_getElem? hk))
  exact ⟨e, by simpa [System.step] using he⟩

end Serve

/-- The server is not stopped. -/
def NoStop (_ : System) : Label → Prop
  | .stop => False
  | _ => True

instance (s : System) : ∀ l, Decidable (NoStop s l)
  | .stop => .isFalse id
  | .tick _ | .server _ | .taskWorker _ | .robotWorker _ | .sweeper | .relock | .start | .owner =>
    .isTrue trivial

/-- **Every queued task comes to its end.** In every run in which `start` does not go on with a
registry that has been stopped: when the server runs and is not stopped, a task with `k` others
before it in the queue is over after at most `9 * (k + 2)` steps of the task worker, whatever the
other threads, the clients and the robot do; and as long as it is not, the task worker can take a
step. An exception that leaves the server thread ends the program, and with it the promise. -/
theorem finished_reaches {P : Platform} {users : List UserInfo} {s s' : System} {id : TaskId}
    {k : ℕ} {log : List TaskWorkerEvent} (h : Reaches (step P) StartsFresh (initial users) s)
    (hrunning : s.shared.running = true) (hk : s.shared.tasker.taskQueue[k]? = some id)
    (hrun : Reaches (logged (step P) taskWorkerObs) (unlogged NoStop) (s, []) (s', log)) :
    s'.server = .crashed ∨ s'.Finished id ∨
      log.length < 9 * (k + 2) ∧ ∃ e, (step P s' (.taskWorker e)).isSome := by
  obtain ⟨tasks, htasks⟩ := h.exists_logged taskObserver.obs []
  have hworks : s.Works id := by
    have hok := tasksOk_reaches (htasks.mono fun _ _ _ => trivial)
    exact ⟨servedOk_reaches h, hrunning, ⟨tasks, hok⟩,
      hok.life.queue.queued id (List.mem_of_getElem? hk)⟩
  have hdue : s.Due id (9 * (k + 1) + 8) := by
    have hleft := s.taskWorker.left_le
    exact .inr ⟨k, hk, by omega⟩
  have hstop : ∀ {t l}, NoStop t l → l ≠ .stop := fun hl heq => by
    subst heq
    exact hl
  have hend := hrun.rank (G := fun t => t.Works id ∧ t.Finished id)
    (R := fun t n => t.Works id ∧ t.Due id n) ⟨hworks, hdue⟩ ?_ ?_
  · rcases hend with ⟨-, hfinished⟩ | ⟨n, ⟨hworks', hdue'⟩, hpaid⟩
    · exact .inr (.inl hfinished)
    · exact .inr (.inr ⟨by omega, hdue'.exists_step P hworks'⟩)
  · rintro t l t' ⟨ht, hfinished⟩ hl hstep
    obtain ⟨tasks, htasks⟩ := ht.tasks
    exact ⟨ht.step (hstop hl) hstep, hfinished.trans (htasks.phase_le hstep ht.queued)⟩
  · rintro t n l t' ⟨ht, hdue⟩ hl hstep
    have ht' := ht.step (hstop hl) hstep
    exact (hdue.step ht ht' hstep).imp (And.intro ht') fun ⟨n', hn', hless⟩ =>
      ⟨n', ⟨ht', hn'⟩, hless⟩

set_option maxRecDepth 2000 in
theorem finished_reaches_status :
    ∃ s s' log, Reaches (step .linux) StartsFresh (initial SessionManager.aliceOnly) s ∧
      s.shared.tasker.taskQueue = [1] ∧
      Reaches (logged (step .linux) taskWorkerObs) (unlogged NoStop) (s, []) (s', log) ∧
      log.length = 4 ∧
      (s'.server = .crashed ∨ s'.Finished 1 ∨
        log.length < 18 ∧ ∃ e, (step .linux s' (.taskWorker e)).isSome) := by
  have hrun : ∃ s, runLabels (step .linux) StartsFresh (initial SessionManager.aliceOnly)
      statusLabels = some s ∧ s.shared.running = true ∧ s.shared.tasker.taskQueue = [1] ∧
      ∃ s' log, runLabels (logged (step .linux) taskWorkerObs) (unlogged NoStop) (s, [])
        (executeLabels.take 4) = some (s', log) ∧ log.length = 4 :=
    ⟨_, rfl, rfl, rfl, _, _, rfl, rfl⟩
  obtain ⟨s, hs, hrunning, hqueue, s', log, hs', hlength⟩ := hrun
  have hk : s.shared.tasker.taskQueue[0]? = some 1 := by rw [hqueue]; rfl
  exact ⟨s, s', log, .of_runLabels hs, hqueue, .of_runLabels hs', hlength,
    finished_reaches (.of_runLabels hs) hrunning hk (.of_runLabels hs')⟩

end System

end RobertMiddleware
