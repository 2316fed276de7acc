import RobertMiddleware.Robot.Promises
import RobertMiddleware.Server.System

/-!
# What one step of the server can do

The transition functions of `Server/System.lean`, inverted: one predicate for each thread that says
what its steps do to its own place and to the shared objects. Invariants are proved from these, not
from the transition functions.

## Main results

* `serverStep_effect`, `taskWorkerStep_effect`, `System.ownerStep_effect` — the inversion lemmas
* `robot_execCall`, `taskQueue_execCall`, … — which call of a handler changes what
-/

namespace RobertMiddleware

open Effects

/-! ### The calls of a handler -/

@[simp] theorem robot_execCall (uuid : Bytes) (op : ServerCall) (s : Shared) :
    (execCall uuid op s).2.robot = s.robot := by
  cases op <;> rfl

@[simp] theorem promised_execCall (uuid : Bytes) (op : ServerCall) (s : Shared) :
    (execCall uuid op s).2.history.promised = s.history.promised := by
  cases op <;> rfl

@[simp] theorem running_execCall (uuid : Bytes) (op : ServerCall) (s : Shared) :
    (execCall uuid op s).2.running = s.running := by
  cases op <;> rfl

/-! ### The server thread -/

inductive ServerEffect (P : Platform) (pc : ServerPc) (a : Shared) :
    ServerEvent → ServerPc → Shared → Prop
  /-- Between two requests, or at the end of one. -/
  | between (pc' : ServerPc) (hpc' : pc'.Idle) (hpc : pc ≠ .stopped) :
      ServerEffect P pc a .advance pc' a
  | receive (req : DecodedRequest) (hpc : pc = .receiving) :
      ServerEffect P pc a (.receive req) (.serving req (RequestHandler.handle P req)) a
  | misread (hpc : pc = .receiving) : ServerEffect P pc a .misread .crashed a
  | call (uuid : Bytes) (req : DecodedRequest) (op : ServerCall)
      (k : op.Ret → Handler ServerResponse)
      (hpc : pc = .serving req (.call (S := ServerCalls) op k)) (hfresh : a.FreshToken uuid) :
      ServerEffect P pc a (.call uuid) (.serving req (k (execCall uuid op a).1))
        (execCall uuid op a).2

theorem serverStep_effect {P : Platform} {pc pc' : ServerPc} {a b : Shared} {e : ServerEvent}
    (h : serverStep P pc a e = some (pc', b)) : ServerEffect P pc a e pc' b := by
  revert h
  fun_cases serverStep P pc a e
  all_goals intro h
  all_goals try contradiction
  all_goals obtain ⟨rfl, rfl⟩ := Prod.mk.inj (Option.some.inj h)
  case case3 req => exact .receive req rfl
  case case4 => exact .misread rfl
  case case5 req op k uuid r s' hfresh hcall =>
    obtain ⟨rfl, rfl⟩ := Prod.mk.inj hcall
    exact .call uuid req op k rfl hfresh
  all_goals
    refine .between _ ?_ (by simp)
    try split
    all_goals trivial

theorem ServerEffect.pc_ne_stopped {P : Platform} {pc pc' : ServerPc} {a b : Shared}
    {e : ServerEvent} (h : ServerEffect P pc a e pc' b) : pc ≠ .stopped := by
  cases h <;> simp_all

theorem ServerEffect.running_eq {P : Platform} {pc pc' : ServerPc} {a b : Shared}
    {e : ServerEvent} (h : ServerEffect P pc a e pc' b) : b.running = a.running := by
  cases h <;> simp

/-! ### The task worker -/

namespace TaskWorkerPc

/-- The task in the worker's hands. -/
def task : TaskWorkerPc → Option TaskId
  | .starting id | .fetching id | .checking id _ | .queueing id _ | .pushing id _ | .awaiting id _
  | .recording id _ | .failing id => some id
  | _ => none

/-- The task in the worker's hands, while its request is still to be queued for the robot. -/
def unpushed : TaskWorkerPc → Option TaskId
  | .starting id | .fetching id | .checking id _ | .queueing id _ | .pushing id _ => some id
  | _ => none

end TaskWorkerPc

inductive TaskWorkerEffect (pc : TaskWorkerPc) (a : Shared) :
    TaskWorkerEvent → TaskWorkerPc → Shared → Prop
  /-- Nothing happens to the shared objects; the task in hand is kept or dropped. -/
  | keep (pc' : TaskWorkerPc) (hpc : pc ≠ .stopped) (hawait : ∀ id p, pc ≠ .awaiting id p)
      (hawait' : ∀ id p, pc' ≠ .awaiting id p)
      (htask : ∀ id, pc'.task = some id → pc.task = some id)
      (hunpushed : ∀ id, pc'.unpushed = some id → pc.unpushed = some id)
      (hdone : ∀ id response, pc' ≠ .recording id response)
      (hstarting : ∀ id, pc ≠ .starting id) (hstarting' : ∀ id, pc' ≠ .starting id) :
      TaskWorkerEffect pc a .advance pc' a
  | take (id : TaskId) (rest : List TaskId) (hpc : pc = .waiting)
      (hqueue : a.tasker.taskQueue = id :: rest) :
      TaskWorkerEffect pc a .advance (.starting id)
        { a with tasker := { a.tasker with taskQueue := rest } }
  | start (id : TaskId) (pc' : TaskWorkerPc) (hpc : pc = .starting id)
      (hpc' : pc' = .fetching id ∨ pc' = .loopTest) :
      TaskWorkerEffect pc a .advance pc' { a with tasker := (a.tasker.startTask a.now id).2 }
  | push (id : TaskId) (req : RapidRequest) (hpc : pc = .pushing id req) :
      TaskWorkerEffect pc a .advance (.awaiting id a.robot.nextPromise)
        { a with
          robot := (a.robot.pushRequest req).2
          history := { a.history with
            promised := a.history.promised ++ [(a.robot.nextPromise, id)] } }
  | answered (id : TaskId) (p : ℕ) (response : Bytes) (hpc : pc = .awaiting id p)
      (hfuture : a.robot.future p = some response) :
      TaskWorkerEffect pc a .advance (.recording id response) a
  | timedOut (id : TaskId) (p : ℕ) (hpc : pc = .awaiting id p)
      (hfuture : a.robot.future p = none) :
      TaskWorkerEffect pc a .timeout (.failing id) a
  | record (id : TaskId) (response : Bytes) (hpc : pc = .recording id response) :
      TaskWorkerEffect pc a .advance .loopTest
        { a with tasker := recordResponse a.now id response a.tasker }
  | fail (id : TaskId) (hpc : pc = .failing id) :
      TaskWorkerEffect pc a .advance .loopTest
        { a with tasker := (a.tasker.failTask a.now id (ascii "Robot disconnected")).2 }

theorem waitForNextTask_none {t t' : Tasker} (h : t.waitForNextTask = some (none, t')) :
    t' = t ∧ t.taskQueue = [] ∧ t.shutdown = true := by
  revert h
  fun_cases Tasker.waitForNextTask t
  all_goals intro h
  all_goals cases h
  case case2 hempty hshutdown => exact ⟨rfl, hempty, hshutdown⟩

theorem waitForNextTask_some {t t' : Tasker} {id : TaskId}
    (h : t.waitForNextTask = some (some id, t')) :
    ∃ rest, t.taskQueue = id :: rest ∧ t' = { t with taskQueue := rest } := by
  revert h
  fun_cases Tasker.waitForNextTask t <;> simp_all

/-- What is done with a response is an update of the task. -/
theorem recordResponse_eq (now : ℤ) (id : TaskId) (response : Bytes) (t : Tasker) :
    ∃ f, recordResponse now id response t = (t.updateTask id f).2 := by
  rw [recordResponse]
  split
  · exact ⟨_, rfl⟩
  · exact ⟨_, rfl⟩

theorem taskWorkerStep_effect {pc pc' : TaskWorkerPc} {a b : Shared} {e : TaskWorkerEvent}
    (h : taskWorkerStep pc a e = some (pc', b)) : TaskWorkerEffect pc a e pc' b := by
  revert h
  fun_cases taskWorkerStep pc a e
  all_goals intro h
  all_goals try contradiction
  all_goals obtain ⟨rfl, rfl⟩ := Prod.mk.inj (Option.some.inj h)
  case case3 tasker hwait =>
    obtain ⟨rfl, -, -⟩ := waitForNextTask_none hwait
    exact .keep _ (by simp) (by simp) (by simp) (by simp [TaskWorkerPc.task])
      (by simp [TaskWorkerPc.unpushed]) (by simp) (by simp) (by simp)
  case case4 id tasker hwait =>
    obtain ⟨rest, hqueue, rfl⟩ := waitForNextTask_some hwait
    exact .take id rest rfl hqueue
  case case5 id started tasker hstart =>
    obtain ⟨-, rfl⟩ := Prod.mk.inj hstart
    exact .start id _ rfl (by split <;> simp)
  case case10 id req promise robot hpush =>
    obtain ⟨rfl, rfl⟩ := Prod.mk.inj hpush
    exact .push id req rfl
  case case12 id p response hfuture => exact .answered id p response rfl hfuture
  case case13 id p hfuture => exact .timedOut id p rfl hfuture
  case case15 id response => exact .record id response rfl
  case case16 id => exact .fail id rfl
  all_goals
    refine .keep _ ?_ ?_ ?_ ?_ ?_ ?_ ?_ ?_ <;> grind [TaskWorkerPc.task, TaskWorkerPc.unpushed]

theorem TaskWorkerEffect.pc_ne_stopped {pc pc' : TaskWorkerPc} {a b : Shared}
    {e : TaskWorkerEvent} (h : TaskWorkerEffect pc a e pc' b) : pc ≠ .stopped := by
  cases h <;> simp_all

theorem TaskWorkerEffect.running_eq {pc pc' : TaskWorkerPc} {a b : Shared}
    {e : TaskWorkerEvent} (h : TaskWorkerEffect pc a e pc' b) : b.running = a.running := by
  cases h <;> rfl

/-! ### The sweeper -/

inductive SweeperEffect (a : Shared) : Shared → Prop
  | keep : SweeperEffect a a
  | sessions : SweeperEffect a { a with sessions := a.sessions.sweepExpiredSessions a.now 60 }
  | tasks : SweeperEffect a { a with tasker := a.tasker.sweepExpiredTasks a.now 300 }

theorem sweeperStep_effect {pc pc' : SweeperPc} {a b : Shared}
    (h : sweeperStep pc a = some (pc', b)) : pc ≠ .stopped ∧ SweeperEffect a b := by
  cases pc with
  | stopped | relocking => cases h
  | loopTest => cases h; exact ⟨nofun, .keep⟩
  | sleeping => cases h; exact ⟨nofun, .keep⟩
  | sessions => cases h; exact ⟨nofun, .sessions⟩
  | tasks => cases h; exact ⟨nofun, .tasks⟩

/-! ### The owner -/

/-- Nobody is inside `stop`. -/
def OwnerPc.Settled : OwnerPc → Prop
  | .idle | .startingSession | .startingThreads => True
  | _ => False

namespace System

/-- What time, `start` and `stop` leave alone, and a sweep that waits. -/
structure OwnerEffect (s s' : System) : Prop where
  now_le : s.shared.now ≤ s'.shared.now
  sessions : s'.shared.sessions = s.shared.sessions
  history : s'.shared.history = s.shared.history
  taskMap : s'.shared.tasker.taskMap = s.shared.tasker.taskMap
  taskQueue : s'.shared.tasker.taskQueue = s.shared.tasker.taskQueue
  counter : s'.shared.tasker.nextTaskCounter = s.shared.tasker.nextTaskCounter
  robot : s.shared.robot.Quiet s'.shared.robot
  /-- The threads are made together, in `start`. -/
  server : s'.server = s.server ∨ s.owner = .startingThreads ∧ s'.server = .loopTest
  taskWorker : s'.taskWorker = s.taskWorker ∨
    s.owner = .startingThreads ∧ s'.taskWorker = .loopTest

theorem OwnerEffect.refl (s : System) : OwnerEffect s s :=
  ⟨le_refl _, rfl, rfl, rfl, rfl, rfl, .refl _, .inl rfl, .inl rfl⟩

theorem ownerStep_effect {s s' : System} (h : s.ownerStep = some s') : OwnerEffect s s' := by
  revert h
  fun_cases ownerStep s
  all_goals intro h
  all_goals try contradiction
  all_goals obtain rfl := Option.some.inj h
  case case2 => exact { OwnerEffect.refl s with robot := .startSession _ }
  case case3 howner =>
    exact { OwnerEffect.refl s with
      server := .inr ⟨howner, rfl⟩, taskWorker := .inr ⟨howner, rfl⟩ }
  case case4 => exact { OwnerEffect.refl s with }
  case case5 => exact { OwnerEffect.refl s with robot := .clearRunning _ }
  case case6 => exact { OwnerEffect.refl s with robot := .closeSession _ }
  case case8 => exact { OwnerEffect.refl s with }

/-- The tests at the beginning of `start` succeed. -/
def StartGoesOn (s : System) : Prop :=
  s.shared.running = false ∧ s.shared.robotLoaded = true ∧ s.shared.sessions.users.entries ≠ []

instance (s : System) : Decidable s.StartGoesOn := inferInstanceAs (Decidable (_ ∧ _ ∧ _))

/-- A call of `start`. -/
theorem start_move {P : Platform} {s s' : System} (h : step P s .start = some s') :
    s.owner = .idle ∧ s' = if s.StartGoesOn then { s with owner := .startingSession } else s := by
  have hguard : (s.shared.running = true ∨ s.shared.robotLoaded = false ∨
      s.shared.sessions.users.entries = []) ↔ ¬ s.StartGoesOn := by
    rw [StartGoesOn, not_and_or, not_and_or, Bool.not_eq_false, Bool.not_eq_true, not_not]
  obtain ⟨howner, h⟩ := Option.ite_none_right_eq_some.mp h
  refine ⟨howner, ?_⟩
  split_ifs at h with hstays <;> obtain rfl := Option.some.inj h
  · exact (if_neg (hguard.mp hstays)).symm
  · exact (if_pos (not_not.mp (mt hguard.mpr hstays))).symm

/-- A call of `stop`. -/
theorem stop_move {P : Platform} {s s' : System} (h : step P s .stop = some s') :
    s.owner = .idle ∧ s' = if s.shared.running then
      { s with shared := { s.shared with running := false }, owner := .stoppingTasker } else s := by
  obtain ⟨howner, h⟩ := Option.ite_none_right_eq_some.mp h
  refine ⟨howner, ?_⟩
  split_ifs at h with hrunning <;> obtain rfl := Option.some.inj h
  · exact (if_pos hrunning).symm
  · exact (if_neg hrunning).symm

/-! ### The whole server -/

/-- A step of the server thread, which does not wait for the sweeper. -/
theorem server_move {P : Platform} {s s' : System} {e : ServerEvent}
    (h : step P s (.server e) = some s') : s.serverWaits = false ∧
      ∃ pc b, serverStep P s.server s.shared e = some (pc, b) ∧
        s' = { s with server := pc, shared := b } := by
  rw [step, Option.ite_none_left_eq_some] at h
  obtain ⟨⟨pc, b⟩, hmove, rfl⟩ := Option.map_eq_some_iff.mp h.2
  exact ⟨Bool.eq_false_iff.mpr h.1, pc, b, hmove, rfl⟩

/-- The sweep locks its mutex again. -/
theorem relock_move {P : Platform} {s s' : System} (h : step P s .relock = some s') :
    (s.sweeper = .sessions ∧ s.shared.sessions.anyExpired s.shared.now 60 = true) ∧
      s' = { s with sweeper := .relocking } := by
  obtain ⟨hguard, h⟩ := Option.ite_none_right_eq_some.mp h
  exact ⟨hguard, (Option.some.inj h).symm⟩

/-- A step of the system is a step of one of the four threads, or something that leaves sessions,
tasks and items alone. -/
inductive Effect (P : Platform) (s : System) : Label → System → Prop
  | server {e : ServerEvent} {pc : ServerPc} {b : Shared}
      (h : ServerEffect P s.server s.shared e pc b) :
      Effect P s (.server e) { s with server := pc, shared := b }
  | taskWorker {e : TaskWorkerEvent} {pc : TaskWorkerPc} {b : Shared}
      (h : TaskWorkerEffect s.taskWorker s.shared e pc b) :
      Effect P s (.taskWorker e) { s with taskWorker := pc, shared := b }
  | robotWorker {e : WorkerEvent} {r : Robot} (h : s.shared.robot.workerStep e = some r) :
      Effect P s (.robotWorker e) { s with shared := { s.shared with robot := r } }
  | sweeper {pc : SweeperPc} {b : Shared} (hpc : s.sweeper ≠ .stopped)
      (h : SweeperEffect s.shared b) :
      Effect P s .sweeper { s with sweeper := pc, shared := b }
  | other {l : Label} {s' : System} (hserver : ∀ e, l ≠ .server e)
      (htaskWorker : ∀ e, l ≠ .taskWorker e) (hrobotWorker : ∀ e, l ≠ .robotWorker e)
      (h : OwnerEffect s s') : Effect P s l s'

theorem step_effect {P : Platform} {s s' : System} {l : Label} (h : step P s l = some s') :
    Effect P s l s' := by
  cases l with
  | tick d =>
    simp only [step, Option.some.injEq] at h
    subst h
    have hnow : s.shared.now ≤ s.shared.now + d := le_add_of_nonneg_right (Int.natCast_nonneg d)
    exact .other (by simp) (by simp) (by simp) { OwnerEffect.refl s with now_le := hnow }
  | server e =>
    obtain ⟨-, pc, b, hmove, rfl⟩ := server_move h
    exact .server (serverStep_effect hmove)
  | taskWorker e =>
    obtain ⟨⟨pc, b⟩, hmove, rfl⟩ := Option.map_eq_some_iff.mp h
    exact .taskWorker (taskWorkerStep_effect hmove)
  | robotWorker e =>
    obtain ⟨r, hmove, rfl⟩ := Option.map_eq_some_iff.mp h
    exact .robotWorker hmove
  | sweeper =>
    obtain ⟨⟨pc, b⟩, hmove, rfl⟩ := Option.map_eq_some_iff.mp h
    obtain ⟨hpc, heffect⟩ := sweeperStep_effect hmove
    exact .sweeper hpc heffect
  | relock =>
    obtain ⟨-, rfl⟩ := relock_move h
    exact .other (by simp) (by simp) (by simp) { OwnerEffect.refl s with }
  | start =>
    refine .other (by simp) (by simp) (by simp) ?_
    obtain ⟨-, rfl⟩ := start_move h
    split
    · exact { OwnerEffect.refl s with }
    · exact .refl s
  | stop =>
    refine .other (by simp) (by simp) (by simp) ?_
    obtain ⟨-, rfl⟩ := stop_move h
    split
    · exact { OwnerEffect.refl s with }
    · exact .refl s
  | owner => exact .other (by simp) (by simp) (by simp) (ownerStep_effect h)

/-- The clock does not go back. -/
theorem now_le_step {P : Platform} {s s' : System} {l : Label} (h : step P s l = some s') :
    s.shared.now ≤ s'.shared.now := by
  cases step_effect h with
  | server hmove =>
    cases hmove with
    | call uuid req op => cases op <;> exact le_refl _
    | _ => exact le_refl _
  | taskWorker hmove => cases hmove <;> exact le_refl _
  | robotWorker => exact le_refl _
  | sweeper _ hmove => cases hmove <;> exact le_refl _
  | other _ _ _ hmove => exact hmove.now_le

/-- The handler of the request in service makes its next call. -/
theorem step_call {P : Platform} {s s' : System} {uuid : Bytes} {req : DecodedRequest}
    {op : ServerCall} {k : op.Ret → Handler ServerResponse}
    (h : step P s (.server (.call uuid)) = some s')
    (hpc : s.server = .serving req (.call (S := ServerCalls) op k)) :
    s' = { s with
      server := .serving req (k (execCall uuid op s.shared).1)
      shared := (execCall uuid op s.shared).2 } := by
  cases step_effect h with
  | other hl => exact absurd rfl (hl _)
  | server hmove =>
    cases hmove with
    | call uuid req' op' k' hpc' =>
      rw [hpc] at hpc'
      cases hpc'
      rfl

/-- Between two requests nothing happens to the shared objects. -/
theorem shared_advance {P : Platform} {s s' : System}
    (h : step P s (.server .advance) = some s') : s'.shared = s.shared := by
  cases step_effect h with
  | other hl => exact absurd rfl (hl _)
  | server hmove =>
    cases hmove with
    | between => rfl

/-- The other threads leave the server thread where it is, unless they make it. -/
theorem server_other {P : Platform} {s s' : System} {l : Label} (h : step P s l = some s')
    (hl : ∀ e, l ≠ .server e) : s'.server = s.server ∨ s'.server = .loopTest := by
  cases step_effect h with
  | server => exact absurd rfl (hl _)
  | other _ _ _ hmove => exact hmove.server.imp_right And.right
  | _ => exact .inl rfl

/-- Of the other threads only the sweeper touches the sessions. -/
theorem sessions_other {P : Platform} {s s' : System} {l : Label} (h : step P s l = some s')
    (hl : ∀ e, l ≠ .server e) :
    s'.shared.sessions = s.shared.sessions ∨ l = .sweeper ∧ s.sweeper = .sessions ∧
      s'.shared.sessions = s.shared.sessions.sweepExpiredSessions s.shared.now 60 := by
  cases step_effect h with
  | server => exact absurd rfl (hl _)
  | taskWorker hmove => cases hmove <;> exact .inl rfl
  | robotWorker => exact .inl rfl
  | sweeper =>
    obtain ⟨⟨pc, b⟩, hmove, heq⟩ := Option.map_eq_some_iff.mp h
    cases hpc : s.sweeper with
    | sessions =>
      rw [hpc] at hmove
      obtain ⟨rfl, rfl⟩ := Prod.mk.inj (Option.some.inj hmove)
      rw [← heq]
      exact .inr ⟨rfl, rfl, rfl⟩
    | stopped | relocking =>
      rw [hpc] at hmove
      cases hmove
    | _ =>
      rw [hpc] at hmove
      obtain ⟨rfl, rfl⟩ := Prod.mk.inj (Option.some.inj hmove)
      rw [← heq]
      exact .inl rfl
  | other _ _ _ hmove => exact .inl hmove.sessions

/-! ### Which threads exist -/

/-- Between `stop` and the end of the next `start` there are no threads. -/
structure ThreadsOk (s : System) : Prop where
  stopped : s.shared.running = false → s.owner.Settled →
    s.server = .stopped ∧ s.taskWorker = .stopped ∧ s.sweeper = .stopped
  starting : s.owner = .startingSession ∨ s.owner = .startingThreads → s.shared.running = false

theorem threadsOk_initial (users : List UserInfo) : ThreadsOk (initial users) :=
  ⟨fun _ _ => ⟨rfl, rfl, rfl⟩, fun h => h.elim nofun nofun⟩

/-- There are no threads yet when `start` makes them. -/
theorem ThreadsOk.of_starting {s : System} (hs : ThreadsOk s)
    (howner : s.owner = .startingThreads) :
    s.server = .stopped ∧ s.taskWorker = .stopped ∧ s.sweeper = .stopped :=
  hs.stopped (hs.starting (.inr howner)) (by rw [howner]; trivial)

theorem ThreadsOk.ownerStep {s s' : System} (hs : ThreadsOk s) (h : s.ownerStep = some s') :
    ThreadsOk s' := by
  revert h
  fun_cases System.ownerStep s
  all_goals intro h
  all_goals try contradiction
  all_goals obtain rfl := Option.some.inj h
  all_goals
    obtain ⟨hstopped, hstarting⟩ := hs
    refine ⟨?_, ?_⟩ <;> simp_all [OwnerPc.Settled]

theorem ThreadsOk.step {P : Platform} {s s' : System} {l : Label} (hs : ThreadsOk s)
    (h : step P s l = some s') : ThreadsOk s' := by
  cases l with
  | tick d => cases h; exact ⟨hs.stopped, hs.starting⟩
  | server e =>
    obtain ⟨-, pc, b, hmove, rfl⟩ := server_move h
    have heffect := serverStep_effect hmove
    refine ⟨fun hr ho => absurd (hs.stopped ?_ ho).1 heffect.pc_ne_stopped, fun ho => ?_⟩
    · exact heffect.running_eq ▸ hr
    · exact heffect.running_eq.trans (hs.starting ho)
  | taskWorker e =>
    obtain ⟨⟨pc, b⟩, hmove, rfl⟩ := Option.map_eq_some_iff.mp h
    have heffect := taskWorkerStep_effect hmove
    refine ⟨fun hr ho => absurd (hs.stopped ?_ ho).2.1 heffect.pc_ne_stopped, fun ho => ?_⟩
    · exact heffect.running_eq ▸ hr
    · exact heffect.running_eq.trans (hs.starting ho)
  | robotWorker e =>
    obtain ⟨r, -, rfl⟩ := Option.map_eq_some_iff.mp h
    exact ⟨hs.stopped, hs.starting⟩
  | sweeper =>
    obtain ⟨⟨pc, b⟩, hmove, rfl⟩ := Option.map_eq_some_iff.mp h
    obtain ⟨hpc, heffect⟩ := sweeperStep_effect hmove
    have hrunning : b.running = s.shared.running := by cases heffect <;> rfl
    refine ⟨fun hr ho => absurd (hs.stopped ?_ ho).2.2 hpc, fun ho => ?_⟩
    · exact hrunning ▸ hr
    · exact hrunning.trans (hs.starting ho)
  | relock =>
    obtain ⟨⟨hsweeper, -⟩, rfl⟩ := relock_move h
    refine ⟨fun hr ho => ?_, hs.starting⟩
    rw [(hs.stopped hr ho).2.2] at hsweeper
    cases hsweeper
  | start =>
    obtain ⟨howner, rfl⟩ := start_move h
    split
    · rename_i hgo
      exact ⟨fun hr _ => hs.stopped hr (by rw [howner]; trivial), fun _ => hgo.1⟩
    · exact hs
  | stop =>
    obtain ⟨-, rfl⟩ := stop_move h
    split
    · exact ⟨fun _ => False.elim, fun ho => ho.elim nofun nofun⟩
    · exact hs
  | owner => exact hs.ownerStep h

/-- The other threads leave the server thread where it is, unless there is none. -/
theorem ThreadsOk.server_other {P : Platform} {s s' : System} {l : Label} (hs : ThreadsOk s)
    (h : System.step P s l = some s') (hl : ∀ e, l ≠ .server e) :
    s'.server = s.server ∨ s.server = .stopped ∧ s'.server = .loopTest := by
  cases step_effect h with
  | server => exact absurd rfl (hl _)
  | other _ _ _ hmove =>
    exact hmove.server.imp_right fun ⟨howner, hmade⟩ => ⟨(hs.of_starting howner).1, hmade⟩
  | _ => exact .inl rfl

/-- The sweep locks its mutex twice in one way only, and then waits for ever. -/
theorem ThreadsOk.relocking_iff {P : Platform} {s s' : System} {l : Label} (hs : ThreadsOk s)
    (h : System.step P s l = some s') :
    s'.sweeper = .relocking ↔ s.sweeper = .relocking ∨ l = .relock := by
  cases l with
  | tick d =>
    cases h
    simp
  | server e =>
    obtain ⟨-, pc, b, -, rfl⟩ := server_move h
    simp
  | taskWorker e =>
    obtain ⟨⟨pc, b⟩, -, rfl⟩ := Option.map_eq_some_iff.mp h
    simp
  | robotWorker e =>
    obtain ⟨r, -, rfl⟩ := Option.map_eq_some_iff.mp h
    simp
  | sweeper =>
    obtain ⟨⟨pc, b⟩, hmove, rfl⟩ := Option.map_eq_some_iff.mp h
    revert hmove
    fun_cases sweeperStep s.sweeper s.shared <;> grind
  | relock =>
    obtain ⟨-, rfl⟩ := relock_move h
    simp
  | start =>
    obtain ⟨-, rfl⟩ := start_move h
    split <;> simp
  | stop =>
    obtain ⟨-, rfl⟩ := stop_move h
    split <;> simp
  | owner =>
    revert h
    rw [System.step]
    fun_cases System.ownerStep s
    case case3 howner =>
      rintro ⟨⟩
      simp [(hs.of_starting howner).2.2]
    all_goals grind

/-- What the server thread waits for. -/
theorem serverWaits_iff {s : System} : s.serverWaits = true ↔ s.sweeper = .relocking ∧
    ∃ req op k, s.server = .serving req (.call (S := ServerCalls) op k) ∧
      ServerCall.locksSessions op = true := by
  fun_cases serverWaits s <;> grind

end System

end RobertMiddleware
