import RobertMiddleware.Robot.Sessions
import RobertMiddleware.Server.ExclusiveControl
import RobertMiddleware.Server.TaskChange

/-!
# Stopping the server under the task worker

The task worker asks `is_connected` and then calls `queue_request`, which throws when the robot's
session is not running. Nothing in `robot_worker_loop_` catches that. `stop` ends the session while
the worker may stand between the two, and `connected_` outlasts `running_`: `stop_session` clears it
only after the robot's thread was joined.

When the worker is not caught there, every task that it takes from the queue comes to its end in the
map before it takes another one, and before the thread ends.

## Main definitions

* `System.Caught` — `queue_request` is about to throw
* `System.SessionStays` — a step does not end the session under the task worker
* `workEvents` — a record of the tasks that the task worker takes and brings to their end
* `System.ConnectionMove` — what a step of the server is to the robot connection

## Main results

* `System.caught_step_iff`, `System.Caught.step` — the condition is exact: a step that breaks it
  leaves the worker nothing but the exception
* `System.worker_reaches` — in a run that keeps it the worker throws nothing, and finishes what it
  begins
* `System.worker_fails` — a task in progress, and no thread
* `System.robotSessions_reaches` — a run of the server is a run of the robot connection
-/

namespace RobertMiddleware

open Effects Transition

/-! ### The session under the task worker -/

namespace System

/-- The task worker is about to call `queue_request`, which is about to throw. -/
def Caught (s : System) : Prop :=
  ∃ id req, s.taskWorker = .queueing id req ∧ s.shared.robot.running = false

/-- If the step is the end of the session, the task worker is not between `is_connected` and
`queue_request`; if it is a successful `is_connected`, the session has not ended. -/
def SessionStays (s : System) (l : Label) : Prop :=
  match l, s.owner, s.taskWorker with
  | .owner, .stoppingRobot, .queueing _ _ => False
  | .taskWorker .advance, _, .checking _ _ =>
    s.shared.robot.connected = true → s.shared.robot.running = true
  | _, _, _ => True

instance (s : System) (l : Label) : Decidable (SessionStays s l) :=
  decidable_of_iff
    ((match l, s.owner, s.taskWorker with
      | .owner, .stoppingRobot, .queueing _ _ => false
      | .taskWorker .advance, _, .checking _ _ =>
        decide (s.shared.robot.connected = true → s.shared.robot.running = true)
      | _, _, _ => true) = true)
    (by
      unfold SessionStays
      split
      · exact iff_of_false nofun id
      · exact decide_eq_true_iff
      · exact iff_of_true rfl trivial)

section Caught

variable {P : Platform} {s s' : System} {l : Label}

/-- Only the task worker and the owner have a part in it. -/
theorem session_step (h : step P s l = some s') (hworker : ∀ e, l ≠ .taskWorker e)
    (howner : l ≠ .owner) :
    s'.taskWorker = s.taskWorker ∧ s'.shared.robot.running = s.shared.robot.running := by
  cases l with
  | tick d =>
    cases h
    exact ⟨rfl, rfl⟩
  | server e =>
    obtain ⟨-, pc, b, hmove, rfl⟩ := server_move h
    refine ⟨rfl, ?_⟩
    cases serverStep_effect hmove with
    | call uuid req op => exact congrArg Robot.running (robot_execCall uuid op s.shared)
    | _ => rfl
  | taskWorker e => exact absurd rfl (hworker e)
  | robotWorker e =>
    obtain ⟨r, hmove, rfl⟩ := Option.map_eq_some_iff.mp h
    exact ⟨rfl, Robot.running_workerStep hmove⟩
  | sweeper =>
    obtain ⟨⟨pc, b⟩, hmove, rfl⟩ := Option.map_eq_some_iff.mp h
    refine ⟨rfl, ?_⟩
    cases (sweeperStep_effect hmove).2 <;> rfl
  | relock =>
    obtain ⟨-, rfl⟩ := relock_move h
    exact ⟨rfl, rfl⟩
  | start =>
    obtain ⟨-, rfl⟩ := start_move h
    split <;> exact ⟨rfl, rfl⟩
  | stop =>
    obtain ⟨-, rfl⟩ := stop_move h
    split <;> exact ⟨rfl, rfl⟩
  | owner => exact absurd rfl howner

/-- A step of the task worker that brings it before `queue_request`. -/
theorem queueing_taskWorkerStep {pc : TaskWorkerPc} {a b : Shared} {e : TaskWorkerEvent}
    {id : TaskId} {req : RapidRequest} (h : taskWorkerStep pc a e = some (.queueing id req, b)) :
    e = .advance ∧ pc = .checking id req ∧ a.robot.connected = true ∧ b = a := by
  revert h
  fun_cases taskWorkerStep pc a e
  all_goals intro h
  all_goals try contradiction
  all_goals obtain ⟨hpc, rfl⟩ := Prod.mk.inj (Option.some.inj h)
  case case8 id' req' =>
    split at hpc
    · rename_i hconnected
      cases hpc
      exact ⟨rfl, rfl, hconnected, rfl⟩
    · cases hpc
  all_goals
    first
    | cases hpc
    | split at hpc <;> cases hpc

/-- A step of the task worker that throws. -/
theorem crashed_taskWorkerStep {pc : TaskWorkerPc} {a b : Shared} {e : TaskWorkerEvent}
    (h : taskWorkerStep pc a e = some (.crashed, b)) :
    ∃ id req, pc = .queueing id req ∧ a.robot.running = false := by
  revert h
  fun_cases taskWorkerStep pc a e
  all_goals intro h
  all_goals try contradiction
  all_goals obtain ⟨hpc, -⟩ := Prod.mk.inj (Option.some.inj h)
  case case9 id req =>
    split at hpc
    · cases hpc
    · rename_i hended
      exact ⟨id, req, rfl, Bool.eq_false_iff.mpr hended⟩
  all_goals
    first
    | cases hpc
    | split at hpc <;> cases hpc

theorem caught_taskWorker_iff {e : TaskWorkerEvent} (h : step P s (.taskWorker e) = some s') :
    Caught s' ↔ ¬ SessionStays s (.taskWorker e) := by
  obtain ⟨⟨pc, b⟩, hmove, rfl⟩ := Option.map_eq_some_iff.mp h
  constructor
  · rintro ⟨id, req, rfl, hended⟩ hstays
    obtain ⟨rfl, hpc, hconnected, rfl⟩ := queueing_taskWorkerStep hmove
    simp only [SessionStays, hpc] at hstays
    rw [hstays hconnected] at hended
    cases hended
  · intro hends
    unfold SessionStays at hends
    split at hends
    · contradiction
    · rename_i id req hl hpc
      obtain rfl := Label.taskWorker.inj hl
      obtain ⟨hconnected, hended⟩ := Classical.not_imp.mp hends
      rw [hpc, taskWorkerStep, if_pos hconnected] at hmove
      obtain ⟨rfl, rfl⟩ := Prod.mk.inj (Option.some.inj hmove)
      exact ⟨id, req, rfl, Bool.eq_false_iff.mpr hended⟩
    · exact absurd trivial hends

theorem caught_owner_iff (hs : ¬ Caught s) (h : s.ownerStep = some s') :
    Caught s' ↔ ¬ SessionStays s .owner := by
  revert h
  fun_cases ownerStep s
  all_goals intro h
  all_goals try contradiction
  all_goals obtain rfl := Option.some.inj h
  case case5 howner =>
    cases hpc : s.taskWorker with
    | queueing id req =>
      exact iff_of_true ⟨id, req, rfl, rfl⟩ (by simp [SessionStays, howner, hpc])
    | _ => exact iff_of_false (by simp [Caught]) (by simp [SessionStays, hpc])
  all_goals
    refine iff_of_false ?_ (by simp [SessionStays, *])
    rintro ⟨id, req, hpc, hended⟩
  case case2 =>
    rw [Robot.startSession] at hended
    split at hended
    · exact hs ⟨id, req, hpc, hended⟩
    · cases hended
  case case3 => cases hpc
  all_goals exact hs ⟨id, req, hpc, hended⟩

/-- **The condition is exact.** A step makes the next `queue_request` throw when it breaks the
condition, and only then. -/
theorem caught_step_iff (hs : ¬ Caught s) (h : step P s l = some s') :
    Caught s' ↔ ¬ SessionStays s l := by
  by_cases hworker : ∃ e, l = .taskWorker e
  · obtain ⟨e, rfl⟩ := hworker
    exact caught_taskWorker_iff h
  by_cases howner : l = .owner
  · subst howner
    exact caught_owner_iff hs h
  obtain ⟨hpc, hrunning⟩ := session_step h (fun e he => hworker ⟨e, he⟩) howner
  refine iff_of_false ?_ (not_not_intro ?_)
  · rintro ⟨id, req, hpc', hended⟩
    exact hs ⟨id, req, hpc ▸ hpc', hrunning ▸ hended⟩
  · unfold SessionStays
    split
    · exact absurd rfl howner
    · exact absurd ⟨_, rfl⟩ hworker
    · trivial

/-- An exception leaves the thread only from there. -/
theorem crashed_step (h : step P s l = some s') (hcrashed : s'.taskWorker = .crashed) :
    Caught s ∨ s.taskWorker = .crashed := by
  by_cases hworker : ∃ e, l = .taskWorker e
  · obtain ⟨e, rfl⟩ := hworker
    obtain ⟨⟨pc, b⟩, hmove, rfl⟩ := Option.map_eq_some_iff.mp h
    obtain rfl : pc = .crashed := hcrashed
    exact .inl (crashed_taskWorkerStep hmove)
  by_cases howner : l = .owner
  · subst howner
    rcases (ownerStep_effect h).taskWorker with hsame | ⟨-, hloop⟩
    · exact .inr (hsame ▸ hcrashed)
    · rw [hloop] at hcrashed
      cases hcrashed
  · exact .inr ((session_step h (fun e he => hworker ⟨e, he⟩) howner).1 ▸ hcrashed)

/-- **There is no way out.** The session is not started again before the task worker has moved. -/
theorem Caught.step (hs : Caught s) (hthreads : ThreadsOk s) (h : System.step P s l = some s') :
    Caught s' ∨ l = .taskWorker .advance ∧ s'.taskWorker = .crashed := by
  obtain ⟨id, req, hpc, hended⟩ := hs
  by_cases hworker : ∃ e, l = .taskWorker e
  · obtain ⟨e, rfl⟩ := hworker
    obtain ⟨⟨pc, b⟩, hmove, rfl⟩ := Option.map_eq_some_iff.mp h
    rw [hpc] at hmove
    cases e with
    | advance =>
      rw [taskWorkerStep, hended] at hmove
      obtain ⟨rfl, rfl⟩ := Prod.mk.inj (Option.some.inj hmove)
      exact .inr ⟨rfl, rfl⟩
    | timeout => cases hmove
  by_cases howner : l = .owner
  · subst howner
    have hstarted : ¬ (s.owner = .startingSession ∨ s.owner = .startingThreads) := by
      intro hstart
      have hsettled : s.owner.Settled := by
        rcases hstart with hstart | hstart <;> rw [hstart] <;> trivial
      have hstopped := (hthreads.stopped (hthreads.starting hstart) hsettled).2.1
      rw [hpc] at hstopped
      cases hstopped
    left
    revert h
    show s.ownerStep = some s' → _
    fun_cases ownerStep s
    all_goals intro h
    all_goals try contradiction
    all_goals obtain rfl := Option.some.inj h
    case case2 hstart => exact absurd (.inl hstart) hstarted
    case case3 hstart => exact absurd (.inr hstart) hstarted
    case case5 => exact ⟨id, req, hpc, rfl⟩
    all_goals exact ⟨id, req, hpc, hended⟩
  · obtain ⟨hpc', hrunning⟩ := session_step h (fun e he => hworker ⟨e, he⟩) howner
    exact .inl ⟨id, req, hpc'.trans hpc, hrunning.trans hended⟩

end Caught

/-! ### Tasks that are begun are ended -/

/-- The task is `COMPLETED` or `FAILED` in the map. -/
def Ended (s : System) (id : TaskId) : Prop :=
  ∃ task, s.shared.tasker.getTask id = some task ∧ task.state.terminal = true

instance (s : System) (id : TaskId) : Decidable (s.Ended id) :=
  decidable_of_iff ((s.shared.tasker.getTask id).any (fun task => task.state.terminal) = true)
    (by
      rw [Ended]
      cases s.shared.tasker.getTask id <;> simp)

end System

inductive WorkEvent
  /-- The task worker takes the task from the queue. -/
  | dequeued (id : TaskId)
  /-- After a step of the task worker, which has the task in its hands, the task is `COMPLETED` or
  `FAILED`. -/
  | ended (id : TaskId)
deriving DecidableEq

namespace WorkEvent

def dequeued? : WorkEvent → Option TaskId
  | .dequeued id => some id
  | .ended _ => none

def ended? : WorkEvent → Option TaskId
  | .ended id => some id
  | .dequeued _ => none

end WorkEvent

namespace System

/-- What a step of the task worker does with tasks. -/
def workEvents (P : Platform) (s : System) (l : Label) : List WorkEvent :=
  match l, s.taskWorker with
  | .taskWorker _, .waiting => s.shared.tasker.taskQueue.head?.toList.map .dequeued
  | .taskWorker _, pc =>
    match pc.task, step P s l with
    | some id, some s' => if s'.Ended id then [.ended id] else []
    | _, _ => []
  | _, _ => []

section Work

variable {P : Platform} {s s' : System} {l : Label} {e : TaskWorkerEvent} {id : TaskId}

theorem workEvents_other (hl : ∀ e, l ≠ .taskWorker e) : workEvents P s l = [] := by
  unfold workEvents
  split
  · exact absurd rfl (hl _)
  · exact absurd rfl (hl _)
  · rfl

theorem workEvents_hand (hid : s.taskWorker.task = some id)
    (h : step P s (.taskWorker e) = some s') :
    workEvents P s (.taskWorker e) = if s'.Ended id then [.ended id] else [] := by
  unfold workEvents
  split
  · rename_i hpc
    rw [hpc] at hid
    cases hid
  · rw [hid, h]
  · rename_i hother _
    exact absurd rfl (hother e)

/-- The task worker keeps the task in its hands until it records an outcome, or throws. -/
theorem hand_taskWorkerStep {pc pc' : TaskWorkerPc} {a b : Shared} {task : Task}
    (htask : a.tasker.getTask id = some task) (hid : pc.task = some id)
    (h : taskWorkerStep pc a e = some (pc', b)) :
    pc'.task = some id ∨ pc' = .crashed ∨
      pc' = .loopTest ∧ e = .advance ∧
        ((∃ response, pc = .recording id response) ∨ pc = .failing id) := by
  revert hid h
  fun_cases taskWorkerStep pc a e
  all_goals intro hid h
  all_goals try contradiction
  all_goals obtain ⟨rfl, rfl⟩ := Prod.mk.inj (Option.some.inj h)
  case case5 id' started tasker hstart =>
    obtain rfl : id' = id := Option.some.inj hid
    have hfound : (a.tasker.startTask a.now id').1 = true := by
      rw [Tasker.startTask, Tasker.updateTask, show a.tasker.taskMap.lookup id' = _ from htask]
    rw [hstart] at hfound
    obtain rfl : started = true := hfound
    exact .inl rfl
  case case6 id' hnone =>
    obtain rfl : id' = id := Option.some.inj hid
    rw [htask] at hnone
    cases hnone
  case case8 id' req =>
    split
    · exact .inl hid
    · exact .inl hid
  case case9 id' req =>
    split
    · exact .inl hid
    · exact .inr (.inl rfl)
  case case15 id' response =>
    obtain rfl : id' = id := Option.some.inj hid
    exact .inr (.inr ⟨rfl, rfl, .inl ⟨response, rfl⟩⟩)
  case case16 id' =>
    obtain rfl : id' = id := Option.some.inj hid
    exact .inr (.inr ⟨rfl, rfl, .inr rfl⟩)
  all_goals exact .inl hid

/-- Without a task in its hands it takes one, or none. -/
theorem idle_taskWorkerStep {pc pc' : TaskWorkerPc} {a b : Shared} (hidle : pc.task = none)
    (h : taskWorkerStep pc a e = some (pc', b)) :
    (pc = .waiting ∧ ∃ id, a.tasker.taskQueue.head? = some id ∧ pc'.task = some id) ∨
      (pc = .waiting → a.tasker.taskQueue.head? = none) ∧ pc'.task = none := by
  revert hidle h
  fun_cases taskWorkerStep pc a e
  all_goals intro hidle h
  all_goals try contradiction
  all_goals obtain ⟨rfl, rfl⟩ := Prod.mk.inj (Option.some.inj h)
  case case1 =>
    refine .inr ⟨(fun hpc => by cases hpc), ?_⟩
    split <;> rfl
  case case3 tasker hwait =>
    obtain ⟨-, hempty, -⟩ := waitForNextTask_none hwait
    refine .inr ⟨fun _ => ?_, rfl⟩
    rw [hempty]
    rfl
  case case4 id tasker hwait =>
    obtain ⟨rest, hqueue, -⟩ := waitForNextTask_some hwait
    exact .inl ⟨rfl, id, by rw [hqueue]; rfl, rfl⟩

/-- What is ended and what is then in hand was in hand before, or is taken. -/
theorem ledger_taskWorker (hs : LifeOk s) (hs' : LifeOk s') (hfree : ¬ Caught s)
    (h : step P s (.taskWorker e) = some s') :
    s.taskWorker.task.toList ++ (workEvents P s (.taskWorker e)).filterMap WorkEvent.dequeued? =
      (workEvents P s (.taskWorker e)).filterMap WorkEvent.ended? ++
        s'.taskWorker.task.toList := by
  obtain ⟨⟨pc, b⟩, hmove, heq⟩ := Option.map_eq_some_iff.mp h
  have hpc : s'.taskWorker = pc := by rw [← heq]
  cases hid : s.taskWorker.task with
  | none =>
    rcases idle_taskWorkerStep hid hmove with ⟨hwaiting, id, hhead, htask⟩ | ⟨hempty, htask⟩
    · have hobs : workEvents P s (.taskWorker e) = [.dequeued id] := by
        simp only [workEvents, hwaiting, hhead]
        rfl
      rw [hobs, hpc, htask]
      rfl
    · have hobs : workEvents P s (.taskWorker e) = [] := by
        unfold workEvents
        split
        · rw [hempty ‹_›]
          rfl
        · rw [hid]
        · rfl
      rw [hobs, hpc, htask]
      rfl
  | some id =>
    obtain ⟨task, htask, -⟩ := hs.hand id hid
    rw [workEvents_hand hid h]
    rcases hand_taskWorkerStep htask hid hmove with hkept | hcrashed | ⟨hloop, rfl, hrecording⟩
    · have hnot : ¬ s'.Ended id := by
        obtain ⟨task', htask', hstate⟩ := hs'.hand id (hpc ▸ hkept)
        rintro ⟨task'', htask'', hterminal⟩
        rw [htask'] at htask''
        obtain rfl := Option.some.inj htask''
        rw [hstate, taskState_terminal] at hterminal
        cases hterminal
      rw [if_neg hnot, hpc, hkept]
      rfl
    · rcases crashed_step h (hpc.trans hcrashed) with hcaught | hbefore
      · exact absurd hcaught hfree
      · rw [hbefore] at hid
        cases hid
    · have hrecorded : ∃ o, s.recorded? (.taskWorker .advance) = some (id, o) := by
        rcases hrecording with ⟨response, hat⟩ | hat
        · exact ⟨.ofResponse response, by simp only [recorded?, hat]⟩
        · exact ⟨.disconnected, by simp only [recorded?, hat]⟩
      obtain ⟨o, ho⟩ := hrecorded
      obtain ⟨task', -, hworking, htask'⟩ := hs.recorded h ho
      have hended : s'.Ended id := by
        refine ⟨_, htask', ?_⟩
        rw [Task.finish_of_inProgress _ _ hworking]
        exact o.terminal
      rw [if_pos hended, hpc, hloop]
      rfl

end Work

/-! ### Along runs -/

/-- The tasks taken from the queue, in order. -/
def dequeuedIds (log : List WorkEvent) : List TaskId := log.filterMap WorkEvent.dequeued?

/-- The tasks brought to their end, in order. -/
def endedIds (log : List WorkEvent) : List TaskId := log.filterMap WorkEvent.ended?

structure WorkOk (s : System) (log : List WorkEvent) : Prop where
  tasks : LifeOk s
  threads : ThreadsOk s
  free : ¬ Caught s
  alive : s.taskWorker ≠ .crashed
  ledger : dequeuedIds log = endedIds log ++ s.taskWorker.task.toList

theorem workOk_initial (users : List UserInfo) : WorkOk (initial users) [] where
  tasks := lifeOk_initial users
  threads := threadsOk_initial users
  free := nofun
  alive := nofun
  ledger := rfl

theorem WorkOk.step {P : Platform} {s s' : System} {log : List WorkEvent} {l : Label}
    (hs : WorkOk s log) (hs' : LifeOk s') (hstays : SessionStays s l)
    (h : System.step P s l = some s') : WorkOk s' (log ++ workEvents P s l) where
  tasks := hs'
  threads := hs.threads.step h
  free hcaught := (caught_step_iff hs.free h).mp hcaught hstays
  alive hcrashed := (crashed_step h hcrashed).elim hs.free hs.alive
  ledger := by
    rw [dequeuedIds, endedIds, List.filterMap_append, List.filterMap_append]
    by_cases hworker : ∃ e, l = .taskWorker e
    · obtain ⟨e, rfl⟩ := hworker
      have hbefore : log.filterMap WorkEvent.dequeued? = _ := hs.ledger
      rw [hbefore, List.append_assoc, ledger_taskWorker hs.tasks hs' hs.free h, List.append_assoc]
      rfl
    · have hother : ∀ e, l ≠ .taskWorker e := fun e he => hworker ⟨e, he⟩
      have hhand : s'.taskWorker.task = s.taskWorker.task := by
        cases step_effect h with
        | taskWorker => exact absurd rfl (hother _)
        | other _ _ _ hmove =>
          rcases hmove.taskWorker with hsame | ⟨hstart, hloop⟩
          · rw [hsame]
          · rw [hloop, (hs.threads.of_starting hstart).2.1]
            rfl
        | _ => rfl
      rw [workEvents_other hother, hhand, List.filterMap_nil, List.filterMap_nil,
        List.append_nil, List.append_nil]
      exact hs.ledger

/-- **The task worker throws nothing and leaves nothing unfinished.** In every run in which no step
ends the session between `is_connected` and `queue_request`, no exception leaves the task worker,
it is never about to call `queue_request` without a session, and the tasks that it has taken are
those that it has brought to their end, in the same order, and the one in its hands, if any. -/
theorem worker_reaches {P : Platform} {users : List UserInfo} {s : System}
    {log : List WorkEvent} (h : Reaches (logged (System.step P) (workEvents P))
      (unlogged SessionStays) (initial users, []) (s, log)) :
    s.taskWorker ≠ .crashed ∧
      (∀ id req, s.taskWorker = .queueing id req → s.shared.robot.running = true) ∧
      dequeuedIds log = endedIds log ++ s.taskWorker.task.toList := by
  have hs : WorkOk s log := by
    refine (h.logged_invariant (I := fun t tlog => WorkOk t tlog ∧
      ∃ x, TasksOk ({} : Observer Unit) t x) ⟨workOk_initial users, [], tasksOk_initial users⟩ ?_).1
    rintro t tlog l t' ⟨ht, x, htasks⟩ hstays hstep
    have htasks' := htasks.step hstep
    exact ⟨ht.step htasks'.life hstays hstep, _, htasks'⟩
  refine ⟨hs.alive, fun id req hpc => ?_, hs.ledger⟩
  by_contra hended
  exact hs.free ⟨id, req, hpc, Bool.eq_false_iff.mpr hended⟩

/-! ### Two runs -/

/-- The task worker has a task, and stands between `is_connected` and `queue_request`. -/
def queueingLabels : List Label := statusLabels ++ List.replicate 5 (.taskWorker .advance)

/-- The server is stopped, and the task worker finishes its task first. -/
def finishLabels : List Label :=
  queueingLabels ++ [.taskWorker .advance, .taskWorker .advance, .robotWorker .advance,
    .robotWorker .advance, .robotWorker (.sent 188), .stop, .owner, .owner,
    .robotWorker (.received (ascii "NACK")), .robotWorker .advance,
    .taskWorker .advance, .taskWorker .advance, .taskWorker .advance]

set_option maxRecDepth 2000 in
theorem worker_reaches_finish :
    ∃ s log, Reaches (logged (System.step Platform.linux) (workEvents Platform.linux))
        (unlogged SessionStays) (initial SessionManager.aliceOnly, []) (s, log) ∧
      s.taskWorker = .stopped ∧ dequeuedIds log = [1] ∧ dequeuedIds log = endedIds log := by
  have hrun : ∃ s log, runLabels (logged (System.step Platform.linux) (workEvents Platform.linux))
      (unlogged SessionStays) (initial SessionManager.aliceOnly, []) finishLabels =
        some (s, log) ∧ s.taskWorker = .stopped ∧ dequeuedIds log = [1] :=
    ⟨_, _, rfl, by decide, by decide⟩
  obtain ⟨s, log, hs, hstopped, hdequeued⟩ := hrun
  have hledger := (worker_reaches (.of_runLabels hs)).2.2
  rw [hstopped] at hledger
  exact ⟨s, log, .of_runLabels hs, hstopped, hdequeued, hledger.trans (List.append_nil _)⟩

/-- **An exception ends the process.** `stop` ends the robot's session while the task worker stands
between `is_connected` and `queue_request`; the task it has taken stays `IN_PROGRESS`. -/
theorem worker_fails :
    ∃ s log, Reaches (logged (System.step Platform.linux) (workEvents Platform.linux))
        (unlogged always) (initial SessionManager.aliceOnly, []) (s, log) ∧
      s.taskWorker = .crashed ∧ dequeuedIds log = [1] ∧ endedIds log = [] ∧
      s.HasState 1 .inProgress := by
  have hrun : ∃ s log, runLabels (logged (System.step Platform.linux) (workEvents Platform.linux))
      (unlogged always) (initial SessionManager.aliceOnly, [])
      (queueingLabels ++ [.stop, .owner, .owner, .taskWorker .advance]) = some (s, log) ∧
      s.taskWorker = .crashed ∧ dequeuedIds log = [1] ∧ endedIds log = [] ∧
      (s.shared.tasker.getTask 1).map Task.state = some .inProgress :=
    ⟨_, _, rfl, by decide, by decide, by decide, by decide⟩
  obtain ⟨s, log, hs, hcrashed, hdequeued, hended, hstate⟩ := hrun
  exact ⟨s, log, .of_runLabels hs, hcrashed, hdequeued, hended, Option.map_eq_some_iff.mp hstate⟩

/-! ### The robot's sessions of the server -/

/-- The request that the task worker is about to push. -/
def pushing? : TaskWorkerPc → Option RapidRequest
  | .pushing _ req => some req
  | _ => none

/-- The server as the two callers of the robot connection: the owner of the server, and the task
worker. -/
def robotSessions (s : System) : RobotSessions where
  robot := s.shared.robot
  stopping := decide (s.owner = .joiningRobot)
  pushing := pushing? s.taskWorker

/-- What the task worker does to the robot is a call of `queue_request`. -/
theorem pushing_taskWorkerStep {pc pc' : TaskWorkerPc} {a b : Shared} {e : TaskWorkerEvent}
    (h : taskWorkerStep pc a e = some (pc', b)) :
    (b.robot = a.robot ∧ pushing? pc = none ∧ pushing? pc' = none) ∨
      (∃ id req, pc = .queueing id req ∧ a.robot.running = true ∧ pc' = .pushing id req ∧ b = a) ∨
      ∃ id req, pc = .pushing id req ∧ b.robot = (a.robot.pushRequest req).2 ∧
        pushing? pc' = none := by
  revert h
  fun_cases taskWorkerStep pc a e
  all_goals intro h
  all_goals try contradiction
  all_goals obtain ⟨rfl, rfl⟩ := Prod.mk.inj (Option.some.inj h)
  case case9 id req =>
    split
    · rename_i hrunning
      exact .inr (.inl ⟨id, req, rfl, hrunning, rfl, rfl⟩)
    · exact .inl ⟨rfl, rfl, rfl⟩
  case case10 id req promise robot hpush =>
    obtain ⟨rfl, rfl⟩ := Prod.mk.inj hpush
    exact .inr (.inr ⟨id, req, rfl, rfl, rfl⟩)
  all_goals
    left
    refine ⟨rfl, rfl, ?_⟩
    first
    | rfl
    | split <;> rfl

/-- The request that the task worker queues. -/
def pushEvents (s : System) (l : Label) : List RapidRequest :=
  match l, s.taskWorker with
  | .taskWorker .advance, .pushing _ req => [req]
  | _, _ => []

/-- The step `l` of the server is nothing to the robot connection, or the step `l'` of a caller or
of the worker thread. -/
inductive ConnectionMove (s s' : System) (l : Label) : Prop
  | same (hsame : s'.robotSessions = s.robotSessions) (hpushed : s.pushEvents l = [])
      (hother : ∀ e, l ≠ .robotWorker e)
  | call (l' : RobotSessions.Label) (hmove : s.robotSessions.step l' = some s'.robotSessions)
      (hpushed : s.robotSessions.pushEvents l' = s.pushEvents l)
      (hother : (∀ e, l ≠ .robotWorker e) ∧ ∀ e, l' ≠ .worker e)
  | worker (e : WorkerEvent) (hl : l = .robotWorker e)
      (hmove : s.robotSessions.step (.worker e) = some s'.robotSessions)

theorem robotSessions_taskWorker {P : Platform} {s s' : System} {e : TaskWorkerEvent}
    (h : step P s (.taskWorker e) = some s') : ConnectionMove s s' (.taskWorker e) := by
  obtain ⟨⟨pc, b⟩, hmove, rfl⟩ := Option.map_eq_some_iff.mp h
  rcases pushing_taskWorkerStep hmove with ⟨hrobot, hbefore, hafter⟩ |
    ⟨id, req, hpc, hrunning, rfl, rfl⟩ | ⟨id, req, hpc, hrobot, hafter⟩
  · refine .same ?_ ?_ (by simp)
    · simp only [robotSessions, hrobot, hbefore, hafter]
    · unfold pushEvents
      split
      · rename_i hpc
        rw [hpc] at hbefore
        cases hbefore
      · rfl
  · refine .call (.queue req) ?_ ?_ ⟨by simp, by simp⟩
    · simp only [RobotSessions.step, robotSessions, hpc, pushing?, if_pos hrunning]
    · simp [pushEvents, hpc, RobotSessions.pushEvents]
  · refine .call .push ?_ ?_ ⟨by simp, by simp⟩
    · simp only [RobotSessions.step, robotSessions, hpc, hrobot, hafter]
      rfl
    · cases e with
      | advance => simp [pushEvents, hpc, RobotSessions.pushEvents, robotSessions, pushing?]
      | timeout =>
        rw [hpc] at hmove
        cases hmove

/-- The owner starts and stops the session of the robot, in its own order. -/
theorem robotSessions_owner {s s' : System} (hthreads : ThreadsOk s) (h : s.ownerStep = some s') :
    ConnectionMove s s' .owner := by
  revert h
  fun_cases ownerStep s
  all_goals intro h
  all_goals try contradiction
  all_goals obtain rfl := Option.some.inj h
  case case2 howner =>
    refine .call .start ?_ rfl ⟨by simp, by simp⟩
    simp [RobotSessions.step, robotSessions, howner]
  case case3 howner =>
    -- the task worker is not there yet
    have hstopped := (hthreads.of_starting howner).2.1
    refine .same ?_ rfl (by simp)
    simp [robotSessions, howner, hstopped, pushing?]
  case case4 howner =>
    refine .same ?_ rfl (by simp)
    simp [robotSessions, howner]
  case case5 howner =>
    refine .call .stop ?_ rfl ⟨by simp, by simp⟩
    simp [RobotSessions.step, robotSessions, howner]
  case case6 howner hstopped =>
    refine .call .join ?_ rfl ⟨by simp, by simp⟩
    simp [RobotSessions.step, robotSessions, howner, hstopped]
  all_goals
    refine .same ?_ rfl (by simp)
    simp [robotSessions, *]

/-- For the robot connection, a step of the server is a step of a caller or of its own thread. -/
theorem robotSessions_step {P : Platform} {s s' : System} {l : Label} (hthreads : ThreadsOk s)
    (h : step P s l = some s') : ConnectionMove s s' l := by
  cases l with
  | tick d =>
    cases h
    exact .same rfl rfl (by simp)
  | server e =>
    obtain ⟨-, pc, b, hmove, rfl⟩ := server_move h
    refine .same ?_ rfl (by simp)
    cases serverStep_effect hmove with
    | call uuid req op => simp only [robotSessions, robot_execCall]
    | _ => rfl
  | taskWorker e => exact robotSessions_taskWorker h
  | robotWorker e =>
    obtain ⟨r, hmove, rfl⟩ := Option.map_eq_some_iff.mp h
    refine .worker e rfl ?_
    simp only [RobotSessions.step, robotSessions, hmove, Option.map_some]
  | sweeper =>
    obtain ⟨⟨pc, b⟩, hmove, rfl⟩ := Option.map_eq_some_iff.mp h
    refine .same ?_ rfl (by simp)
    cases (sweeperStep_effect hmove).2 <;> rfl
  | relock =>
    obtain ⟨-, rfl⟩ := relock_move h
    exact .same rfl rfl (by simp)
  | start =>
    refine .same ?_ rfl (by simp)
    obtain ⟨howner, rfl⟩ := start_move h
    split
    · simp [robotSessions, howner]
    · rfl
  | stop =>
    refine .same ?_ rfl (by simp)
    obtain ⟨howner, rfl⟩ := stop_move h
    split
    · simp [robotSessions, howner]
    · rfl
  | owner => exact robotSessions_owner hthreads h

/-- **A run of the server is a run of the robot connection**, with the owner and the task worker
as its callers. -/
theorem robotSessions_reaches {P : Platform} {users : List UserInfo} {s : System}
    (h : Reaches (step P) always (initial users) s) :
    Reaches RobotSessions.step always RobotSessions.initial s.robotSessions := by
  refine (h.invariant (I := fun t => ThreadsOk t ∧
    Reaches RobotSessions.step always RobotSessions.initial t.robotSessions)
    ⟨threadsOk_initial users, .refl _⟩ ?_).2
  rintro t l t' ⟨hthreads, ht⟩ - hstep
  refine ⟨hthreads.step hstep, ?_⟩
  cases robotSessions_step hthreads hstep with
  | same hsame => exact hsame ▸ ht
  | call l' hmove => exact ht.tail trivial hmove
  | worker e _ hmove => exact ht.tail trivial hmove

end System

end RobertMiddleware
