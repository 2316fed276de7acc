import RobertMiddleware.Server.Shutdown

/-!
# Starting the server again

`start` and `stop` may be called any number of times. Each has its guard, and each of the three
objects has a flag: `Server::running_`, `Robot::running_` and `Tasker::m_shutdown`. `start` sets the
first two back. Nothing sets back the third one, which `stop` sets, and the task worker of a server
that is started again ends as soon as its queue is empty.

In a run in which `start` does not go on with a registry that has been stopped, the task worker is
there as long as the server runs, and can come to every task in its queue.

## Main definitions

* `System.StartsFresh` — a call of `start` does not go on with a registry that has been stopped
* `System.Unserved` — the server is running, or being started, with `m_shutdown` set
* `System.ServedOk` — the three flags and the task worker

## Main results

* `System.unserved_step_iff`, `System.Unserved.step` — the condition is exact
* `TaskWorkerPc.starting_reaches` — the task worker comes to the next task by itself
* `System.served_reaches` — a server that runs has a task worker
* `System.served_fails` — a server without one
-/

namespace RobertMiddleware

open Effects Transition

/-! ### The task worker by itself -/

/-- The thread is in its loop. -/
def TaskWorkerPc.Live (pc : TaskWorkerPc) : Prop := pc ≠ .stopped ∧ pc ≠ .crashed

/-- The server and the robot's session are running, and the registry has not been stopped. -/
structure Shared.Serving (a : Shared) : Prop where
  running : a.running = true
  session : a.robot.running = true
  unstopped : a.tasker.shutdown = false

/-- The task worker leaves its loop when the server or the registry has been stopped. -/
theorem stopped_taskWorkerStep {pc : TaskWorkerPc} {a b : Shared} {e : TaskWorkerEvent}
    (h : taskWorkerStep pc a e = some (.stopped, b)) :
    a.running = false ∨ a.tasker.shutdown = true := by
  revert h
  fun_cases taskWorkerStep pc a e
  all_goals intro h
  all_goals try contradiction
  all_goals obtain ⟨hpc, rfl⟩ := Prod.mk.inj (Option.some.inj h)
  case case1 =>
    left
    by_contra hrunning
    rw [Bool.not_eq_false] at hrunning
    simp [hrunning] at hpc
  case case3 tasker hwait => exact .inr (waitForNextTask_none hwait).2.2
  all_goals
    first
    | cases hpc
    | split at hpc <;> cases hpc

/-- One step of the task worker, which nobody disturbs. -/
def taskWorkerAlone (p : TaskWorkerPc × Shared) (e : TaskWorkerEvent) :
    Option (TaskWorkerPc × Shared) := taskWorkerStep p.1 p.2 e

namespace TaskWorkerPc

/-- How many steps there are before the thread waits for a task, at most. -/
def left : TaskWorkerPc → ℕ
  | .stopped | .crashed | .waiting => 0
  | .loopTest => 1
  | .failing _ | .recording _ _ => 2
  | .awaiting _ _ => 3
  | .pushing _ _ => 4
  | .queueing _ _ => 5
  | .checking _ _ => 6
  | .fetching _ => 7
  | .starting _ => 8

variable {pc : TaskWorkerPc} {a : Shared} {id : TaskId}

/-- The task worker is never stuck with a task: the wait for the robot comes to an end. -/
theorem live_step (ha : a.Serving) (hpc : pc.Live) (hbusy : pc ≠ .waiting) :
    ∃ e pc' b, taskWorkerStep pc a e = some (pc', b) ∧ b.Serving ∧
      b.tasker.taskQueue = a.tasker.taskQueue ∧ pc'.Live ∧ pc'.left < pc.left := by
  obtain ⟨hrunning, hsession, hunstopped⟩ := ha
  cases pc with
  | stopped => exact absurd rfl hpc.1
  | crashed => exact absurd rfl hpc.2
  | waiting => exact absurd rfl hbusy
  | loopTest =>
    refine ⟨.advance, .waiting, a, ?_, ⟨hrunning, hsession, hunstopped⟩, rfl, ⟨by simp, by simp⟩,
      by simp [left]⟩
    rw [taskWorkerStep, if_pos hrunning]
  | starting id =>
    refine ⟨.advance, _, _, rfl, ⟨hrunning, hsession, ?_⟩, ?_, ?_, ?_⟩
    · exact (Tasker.shutdown_updateTask _ _ _).trans hunstopped
    · exact Tasker.taskQueue_updateTask _ _ _
    · constructor <;> split <;> simp
    · split <;> simp [left]
  | fetching id =>
    cases htask : a.tasker.getTask id with
    | none =>
      refine ⟨.advance, .loopTest, a, ?_, ⟨hrunning, hsession, hunstopped⟩, rfl,
        ⟨by simp, by simp⟩, by simp [left]⟩
      rw [taskWorkerStep, htask]
    | some task =>
      refine ⟨.advance, .checking id task.request, a, ?_, ⟨hrunning, hsession, hunstopped⟩, rfl,
        ⟨by simp, by simp⟩, by simp [left]⟩
      rw [taskWorkerStep, htask]
  | checking id req =>
    refine ⟨.advance, _, a, rfl, ⟨hrunning, hsession, hunstopped⟩, rfl, ?_, ?_⟩
    · constructor <;> split <;> simp
    · split <;> simp [left]
  | queueing id req =>
    refine ⟨.advance, .pushing id req, a, ?_, ⟨hrunning, hsession, hunstopped⟩, rfl,
      ⟨by simp, by simp⟩, by simp [left]⟩
    rw [taskWorkerStep, if_pos hsession]
  | pushing id req =>
    exact ⟨.advance, _, _, rfl, ⟨hrunning, hsession, hunstopped⟩, rfl, ⟨by simp, by simp⟩,
      by simp [left]⟩
  | awaiting id promise =>
    cases hfuture : a.robot.future promise with
    | none =>
      refine ⟨.timeout, .failing id, a, ?_, ⟨hrunning, hsession, hunstopped⟩, rfl,
        ⟨by simp, by simp⟩, by simp [left]⟩
      rw [taskWorkerStep, hfuture]
    | some response =>
      refine ⟨.advance, .recording id response, a, ?_, ⟨hrunning, hsession, hunstopped⟩, rfl,
        ⟨by simp, by simp⟩, by simp [left]⟩
      rw [taskWorkerStep, hfuture]
  | recording id response =>
    obtain ⟨f, hf⟩ := recordResponse_eq a.now id response a.tasker
    refine ⟨.advance, .loopTest, _, rfl, ⟨hrunning, hsession, ?_⟩, ?_, ⟨by simp, by simp⟩,
      by simp [left]⟩
    · rw [hf, Tasker.shutdown_updateTask]
      exact hunstopped
    · rw [hf, Tasker.taskQueue_updateTask]
  | failing id =>
    refine ⟨.advance, .loopTest, _, rfl, ⟨hrunning, hsession, ?_⟩, ?_, ⟨by simp, by simp⟩,
      by simp [left]⟩
    · exact (Tasker.shutdown_updateTask _ _ _).trans hunstopped
    · exact Tasker.taskQueue_updateTask _ _ _

/-- It comes back to its wait. -/
theorem waiting_reaches (ha : a.Serving) (hpc : pc.Live) :
    ∃ b, Reaches taskWorkerAlone always (pc, a) (.waiting, b) ∧ b.Serving ∧
      b.tasker.taskQueue = a.tasker.taskQueue := by
  induction hleft : pc.left using Nat.strong_induction_on generalizing pc a with
  | _ left ih =>
    by_cases hwaiting : pc = .waiting
    · subst hwaiting
      exact ⟨a, .refl _, ha, rfl⟩
    · obtain ⟨e, pc', b, hstep, hb, hqueue, hpc', hless⟩ := live_step ha hpc hwaiting
      obtain ⟨c, hreach, hc, hqueue'⟩ := ih _ (hleft ▸ hless) hb hpc' rfl
      have hfirst : Reaches taskWorkerAlone always (pc, a) (pc', b) :=
        (Reaches.refl _).tail (l := e) trivial hstep
      exact ⟨c, hfirst.trans hreach, hc, hqueue'.trans hqueue⟩

/-- **The task worker comes to every task in the queue** by itself. -/
theorem starting_reaches (ha : a.Serving) (hpc : pc.Live) (hid : id ∈ a.tasker.taskQueue) :
    ∃ b, Reaches taskWorkerAlone always (pc, a) (.starting id, b) := by
  induction hqueue : a.tasker.taskQueue generalizing pc a with
  | nil =>
    rw [hqueue] at hid
    cases hid
  | cons first rest ih =>
    obtain ⟨b, hreach, hb, hqueue'⟩ := waiting_reaches ha hpc
    rw [hqueue] at hqueue'
    have htake : taskWorkerAlone (.waiting, b) .advance =
        some (.starting first, { b with tasker := { b.tasker with taskQueue := rest } }) := by
      rw [taskWorkerAlone, taskWorkerStep, Tasker.waitForNextTask, hqueue']
    have hfirst := hreach.tail trivial htake
    rw [hqueue, List.mem_cons] at hid
    rcases hid with rfl | hlater
    · exact ⟨_, hfirst⟩
    · have hlive : (starting first).Live := ⟨by simp, by simp⟩
      obtain ⟨c, hlast⟩ := ih (a := { b with tasker := { b.tasker with taskQueue := rest } })
        ⟨hb.running, hb.session, hb.unstopped⟩ hlive hlater rfl
      exact ⟨c, hfirst.trans hlast⟩

end TaskWorkerPc

/-! ### The flags -/

theorem shutdown_execCall (uuid : Bytes) (op : ServerCall) (s : Shared) :
    (execCall uuid op s).2.tasker.shutdown = s.tasker.shutdown := by
  cases op <;> simp [execCall, Tasker.fetchTaskId, Tasker.pushTask]

theorem TaskWorkerEffect.shutdown_eq {pc pc' : TaskWorkerPc} {a b : Shared} {e : TaskWorkerEvent}
    (h : TaskWorkerEffect pc a e pc' b) : b.tasker.shutdown = a.tasker.shutdown := by
  cases h with
  | start => exact Tasker.shutdown_updateTask _ _ _
  | record id response =>
    obtain ⟨f, hf⟩ := recordResponse_eq a.now id response a.tasker
    show (recordResponse a.now id response a.tasker).shutdown = a.tasker.shutdown
    rw [hf, Tasker.shutdown_updateTask]
  | fail => exact Tasker.shutdown_updateTask _ _ _
  | _ => rfl

theorem TaskWorkerEffect.session_eq {pc pc' : TaskWorkerPc} {a b : Shared} {e : TaskWorkerEvent}
    (h : TaskWorkerEffect pc a e pc' b) : b.robot.running = a.robot.running := by
  cases h <;> rfl

namespace System

/-- The flags, and what the owner is doing. -/
structure SameFlags (s s' : System) : Prop where
  owner : s'.owner = s.owner
  running : s'.shared.running = s.shared.running
  session : s'.shared.robot.running = s.shared.robot.running
  shutdown : s'.shared.tasker.shutdown = s.shared.tasker.shutdown

section Flags

variable {P : Platform} {s s' : System} {l : Label}

/-- Only the owner touches them. -/
theorem sameFlags_step (h : step P s l = some s') (hstart : l ≠ .start) (hstop : l ≠ .stop)
    (howner : l ≠ .owner) : SameFlags s s' := by
  cases l with
  | tick d =>
    cases h
    exact ⟨rfl, rfl, rfl, rfl⟩
  | server e =>
    obtain ⟨-, pc, b, hmove, rfl⟩ := server_move h
    cases serverStep_effect hmove with
    | call uuid req op =>
      exact ⟨rfl, running_execCall uuid op s.shared,
        congrArg Robot.running (robot_execCall uuid op s.shared),
        shutdown_execCall uuid op s.shared⟩
    | _ => exact ⟨rfl, rfl, rfl, rfl⟩
  | taskWorker e =>
    obtain ⟨⟨pc, b⟩, hmove, rfl⟩ := Option.map_eq_some_iff.mp h
    have heffect := taskWorkerStep_effect hmove
    exact ⟨rfl, heffect.running_eq, heffect.session_eq, heffect.shutdown_eq⟩
  | robotWorker e =>
    obtain ⟨r, hmove, rfl⟩ := Option.map_eq_some_iff.mp h
    exact ⟨rfl, rfl, Robot.running_workerStep hmove, rfl⟩
  | sweeper =>
    obtain ⟨⟨pc, b⟩, hmove, rfl⟩ := Option.map_eq_some_iff.mp h
    cases (sweeperStep_effect hmove).2 <;> exact ⟨rfl, rfl, rfl, rfl⟩
  | relock =>
    obtain ⟨-, rfl⟩ := relock_move h
    exact ⟨rfl, rfl, rfl, rfl⟩
  | start => exact absurd rfl hstart
  | stop => exact absurd rfl hstop
  | owner => exact absurd rfl howner

/-- If `start` goes on, the registry has not been stopped. -/
def StartsFresh (s : System) : Label → Prop
  | .start => s.StartGoesOn → s.shared.tasker.shutdown = false
  | _ => True

instance (s : System) : ∀ l, Decidable (StartsFresh s l)
  | .start => inferInstanceAs (Decidable (_ → _))
  | .tick _ | .server _ | .taskWorker _ | .robotWorker _ | .sweeper | .relock | .stop | .owner =>
    .isTrue trivial

/-- `start` has gone on, and not returned. -/
def Starting (s : System) : Prop := s.owner = .startingSession ∨ s.owner = .startingThreads

/-- The server is running, or being started, with `m_shutdown` set. -/
def Unserved (s : System) : Prop :=
  s.shared.tasker.shutdown = true ∧ (s.shared.running = true ∨ s.Starting)

/-- What holds of the flags and the task worker when every server is started with a registry that
has not been stopped. -/
structure ServedOk (s : System) : Prop where
  starting : s.Starting → s.shared.tasker.shutdown = false
  session : s.owner = .startingThreads → s.shared.robot.running = true
  idle : s.shared.running = true → s.owner = .idle
  serving : s.shared.running = true → s.shared.Serving ∧ s.taskWorker.Live

theorem servedOk_initial (users : List UserInfo) : ServedOk (initial users) where
  starting := by
    intro hstarting
    rcases hstarting with h | h <;> cases h
  session := by
    intro h
    cases h
  idle := by
    intro h
    cases h
  serving := by
    intro h
    cases h

theorem ServedOk.ownerStep (hs : ServedOk s) (h : s.ownerStep = some s') : ServedOk s' := by
  -- the server is not running while the owner is inside a call
  have hidle : ∀ {pc}, s.owner = pc → pc ≠ .idle → s.shared.running ≠ true := by
    intro pc howner hpc hrunning
    exact hpc (howner.symm.trans (hs.idle hrunning))
  revert h
  fun_cases System.ownerStep s
  all_goals intro h
  all_goals try contradiction
  all_goals obtain rfl := Option.some.inj h
  case case2 howner =>
    have hstopped := hidle howner (by simp)
    refine ⟨fun _ => hs.starting (.inl howner), fun _ => ?_, fun hrunning => ?_, fun hrunning => ?_⟩
    · show s.shared.robot.startSession.running = true
      by_cases hsession : s.shared.robot.running = true
      · rw [Robot.startSession, if_pos hsession]
        exact hsession
      · rw [Robot.startSession, if_neg hsession]
    · exact absurd hrunning hstopped
    · exact absurd hrunning hstopped
  case case3 howner =>
    refine ⟨fun hstarting => ?_, fun howner' => ?_, fun _ => rfl, fun _ => ⟨⟨rfl, ?_, ?_⟩, ?_⟩⟩
    · rcases hstarting with h | h <;> cases h
    · cases howner'
    · exact hs.session howner
    · exact hs.starting (.inr howner)
    · exact ⟨by simp, by simp⟩
  all_goals
    have hstopped := hidle ‹s.owner = _› (by simp)
    refine ⟨fun hstarting => ?_, fun howner' => ?_, fun hrunning => absurd hrunning hstopped,
      fun hrunning => absurd hrunning hstopped⟩
    · rcases hstarting with h | h <;> cases h
    · cases howner'

/-- **Step lemma.** -/
theorem ServedOk.step (hs : ServedOk s) (hfresh : StartsFresh s l)
    (h : System.step P s l = some s') : ServedOk s' := by
  by_cases hstart : l = .start
  · subst hstart
    obtain ⟨-, rfl⟩ := start_move h
    by_cases hgo : s.StartGoesOn
    · rw [if_pos hgo]
      have hstopped : s.shared.running ≠ true := by simp [hgo.1]
      refine ⟨fun _ => hfresh hgo, fun howner' => ?_, fun hrunning => absurd hrunning hstopped,
        fun hrunning => absurd hrunning hstopped⟩
      cases howner'
    · rw [if_neg hgo]
      exact hs
  by_cases hstop : l = .stop
  · subst hstop
    obtain ⟨-, rfl⟩ := stop_move h
    by_cases hrunning : s.shared.running = true
    · rw [if_pos hrunning]
      refine ⟨fun hstarting => ?_, fun howner' => ?_, fun hrunning' => ?_, fun hrunning' => ?_⟩
      · rcases hstarting with h | h <;> cases h
      · cases howner'
      · cases hrunning'
      · cases hrunning'
    · rw [if_neg hrunning]
      exact hs
  by_cases howner : l = .owner
  · subst howner
    exact hs.ownerStep h
  have hflags := sameFlags_step h hstart hstop howner
  refine ⟨fun hstarting => ?_, fun howner' => ?_, fun hrunning => ?_, fun hrunning => ?_⟩
  · rw [Starting, hflags.owner] at hstarting
    exact hflags.shutdown.trans (hs.starting hstarting)
  · exact hflags.session.trans (hs.session (hflags.owner.symm.trans howner'))
  · exact hflags.owner.trans (hs.idle (hflags.running.symm.trans hrunning))
  · obtain ⟨hserving, hlive⟩ := hs.serving (hflags.running.symm.trans hrunning)
    refine ⟨⟨hrunning, hflags.session.trans hserving.session,
      hflags.shutdown.trans hserving.unstopped⟩, ?_⟩
    by_cases hworker : ∃ e, l = .taskWorker e
    · obtain ⟨e, rfl⟩ := hworker
      obtain ⟨⟨pc, b⟩, hmove, rfl⟩ := Option.map_eq_some_iff.mp h
      refine ⟨fun hstopped => ?_, fun hcrashed => ?_⟩
      · obtain rfl : pc = .stopped := hstopped
        rcases stopped_taskWorkerStep hmove with hended | hended
        · rw [hserving.running] at hended
          cases hended
        · rw [hserving.unstopped] at hended
          cases hended
      · obtain rfl : pc = .crashed := hcrashed
        obtain ⟨id, req, -, hended⟩ := crashed_taskWorkerStep hmove
        rw [hserving.session] at hended
        cases hended
    · rw [(session_step h (fun e he => hworker ⟨e, he⟩) howner).1]
      exact hlive

/-- **The condition is exact.** A step of the owner starts a server with `m_shutdown` set when it
breaks the condition, and only then. -/
theorem unserved_step_iff (hs : ServedOk s) (hnot : ¬ s.Unserved)
    (h : System.step P s l = some s') : s'.Unserved ↔ ¬ StartsFresh s l := by
  by_cases hstart : l = .start
  · subst hstart
    obtain ⟨-, rfl⟩ := start_move h
    by_cases hgo : s.StartGoesOn
    · simp [Unserved, StartsFresh, Starting, hgo]
    · rw [if_neg hgo]
      exact iff_of_false hnot (not_not_intro fun hgo' => absurd hgo' hgo)
  have hfresh : StartsFresh s l := by
    cases l with
    | start => exact absurd rfl hstart
    | _ => trivial
  refine iff_of_false (fun hunserved => ?_) (not_not_intro hfresh)
  have hs' := hs.step hfresh h
  rcases hunserved with ⟨hshutdown, hrunning | hstarting⟩
  · rw [(hs'.serving hrunning).1.unstopped] at hshutdown
    cases hshutdown
  · rw [hs'.starting hstarting] at hshutdown
    cases hshutdown

/-- **There is no way out** but `stop`. -/
theorem Unserved.step (hs : s.Unserved) (h : System.step P s l = some s') :
    s'.Unserved ∨ l = .stop := by
  by_cases hstop : l = .stop
  · exact .inr hstop
  left
  obtain ⟨hshutdown, hup⟩ := hs
  by_cases hstart : l = .start
  · subst hstart
    obtain ⟨-, rfl⟩ := start_move h
    split
    · exact ⟨hshutdown, .inr (.inl rfl)⟩
    · exact ⟨hshutdown, hup⟩
  by_cases howner : l = .owner
  · subst howner
    revert h
    show s.ownerStep = some s' → _
    fun_cases System.ownerStep s
    all_goals intro h
    all_goals try contradiction
    all_goals obtain rfl := Option.some.inj h
    case case2 => exact ⟨hshutdown, .inr (.inr rfl)⟩
    case case3 => exact ⟨hshutdown, .inl rfl⟩
    case case4 howner => exact ⟨rfl, .inl (hup.resolve_right (by simp [Starting, howner]))⟩
    all_goals
      exact ⟨hshutdown, .inl (hup.resolve_right (by simp [Starting, *]))⟩
  · have hflags := sameFlags_step h hstart hstop howner
    rw [Unserved, Starting, hflags.shutdown, hflags.running, hflags.owner]
    exact ⟨hshutdown, hup⟩

/-- The task worker ends as soon as its queue is empty. -/
theorem Unserved.ends (hs : s.Unserved) (hwaiting : s.taskWorker = .waiting)
    (hempty : s.shared.tasker.taskQueue = []) :
    System.step P s (.taskWorker .advance) = some { s with taskWorker := .stopped } := by
  have hwait : s.shared.tasker.waitForNextTask = some (none, s.shared.tasker) := by
    rw [Tasker.waitForNextTask, hempty]
    exact if_pos hs.1
  rw [System.step, hwaiting, taskWorkerStep, hwait]
  rfl

end Flags

/-- A step of the task worker. -/
def OfTaskWorker (_ : System) (l : Label) : Prop := ∃ e, l = .taskWorker e

theorem ofTaskWorker_reaches {P : Platform} {s : System} {p : TaskWorkerPc × Shared}
    (h : Reaches taskWorkerAlone always (s.taskWorker, s.shared) p) :
    Reaches (step P) OfTaskWorker s { s with taskWorker := p.1, shared := p.2 } := by
  induction h with
  | refl => exact .refl s
  | tail _ hlast ih =>
    obtain ⟨e, -, hstep⟩ := hlast
    exact ih.tail ⟨e, rfl⟩ (Option.map_eq_some_iff.mpr ⟨_, hstep, rfl⟩)

theorem servedOk_reaches {P : Platform} {users : List UserInfo} {s : System}
    (h : Reaches (step P) StartsFresh (initial users) s) : ServedOk s :=
  h.invariant (servedOk_initial users) fun _ _ _ ht hfresh hstep => ht.step hfresh hstep

/-- **A server that runs has a task worker.** In every run in which `start` does not go on with a
registry that has been stopped: when the server is running, the task worker has not left its loop,
`waitForNextTask` does not return `nullopt`, and the worker can come to every task in the queue. -/
theorem served_reaches {P : Platform} {users : List UserInfo} {s : System}
    (h : Reaches (step P) StartsFresh (initial users) s) (hrunning : s.shared.running = true) :
    (s.taskWorker ≠ .stopped ∧ s.taskWorker ≠ .crashed) ∧
      (∀ t, s.shared.tasker.waitForNextTask ≠ some (none, t)) ∧
      ∀ id ∈ s.shared.tasker.taskQueue, ∃ s', Reaches (step P) OfTaskWorker s s' ∧
        s'.taskWorker = .starting id := by
  obtain ⟨hserving, hlive⟩ := (servedOk_reaches h).serving hrunning
  refine ⟨hlive, fun t hwait => ?_, fun id hid => ?_⟩
  · have hshutdown := (waitForNextTask_none hwait).2.2
    rw [hserving.unstopped] at hshutdown
    cases hshutdown
  · obtain ⟨b, hreach⟩ := TaskWorkerPc.starting_reaches hserving hlive hid
    exact ⟨_, ofTaskWorker_reaches hreach, rfl⟩

/-! ### Two runs -/

set_option maxRecDepth 2000 in
theorem served_reaches_status :
    ∃ s, Reaches (step Platform.linux) StartsFresh (initial SessionManager.aliceOnly) s ∧
      s.taskWorker ≠ .stopped ∧ s.shared.tasker.taskQueue = [1] ∧
      ∃ s', Reaches (step Platform.linux) OfTaskWorker s s' ∧ s'.taskWorker = .starting 1 := by
  have hrun : ∃ s, runLabels (step Platform.linux) StartsFresh (initial SessionManager.aliceOnly)
      statusLabels = some s ∧ s.shared.running = true ∧ s.shared.tasker.taskQueue = [1] :=
    ⟨_, rfl, rfl, rfl⟩
  obtain ⟨s, hs, hrunning, hqueue⟩ := hrun
  obtain ⟨hlive, -, hserved⟩ := served_reaches (.of_runLabels hs) hrunning
  exact ⟨s, .of_runLabels hs, hlive.1, hqueue, hserved 1 (by simp [hqueue])⟩

/-- The server is started, stopped and started again. -/
def restartLabels : List Label :=
  [.start, .owner, .owner, .stop, .owner, .owner, .robotWorker .advance, .owner,
    .server .advance, .taskWorker .advance, .sweeper, .owner, .start, .owner, .owner]

/-- The task worker looks for a task, and only then `alice` logs in and asks for the status of the
robot. -/
def unservedLabels : List Label :=
  restartLabels ++ [.taskWorker .advance, .taskWorker .advance] ++ statusLabels.drop 3

set_option maxRecDepth 2000 in
/-- **A server without a task worker.** After a restart it is running and accepts a task, and the
task worker has left its loop. -/
theorem served_fails :
    ∃ s, Reaches (step Platform.linux) always (initial SessionManager.aliceOnly) s ∧
      s.shared.running = true ∧ s.owner = .idle ∧ s.taskWorker = .stopped ∧
      s.shared.tasker.taskQueue = [1] := by
  have hrun : ∃ s, runLabels (step Platform.linux) always (initial SessionManager.aliceOnly)
      unservedLabels = some s ∧ s.shared.running = true ∧ s.owner = .idle ∧
      s.taskWorker = .stopped ∧ s.shared.tasker.taskQueue = [1] := ⟨_, rfl, rfl, rfl, rfl, rfl⟩
  obtain ⟨s, hs, hended⟩ := hrun
  exact ⟨s, .of_runLabels hs, hended⟩

end System

end RobertMiddleware
