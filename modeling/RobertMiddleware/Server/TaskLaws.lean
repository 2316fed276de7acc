import RobertMiddleware.Server.TaskLife

/-!
# Laws of the task registry

`startTask`, `completeTask` and `failTask` each move a task from one state to another. The guard is
in `Task`: `markStarted` and its siblings refuse a task that is in another state. But `Tasker` drops
what they answer. It answers true for every task that it finds, and writes the response in any case.

So the three keep their law exactly when they are called in time, as the task worker does: then a
task at its end stays what it is until it is removed.

The sweep passes no expiration time on, and goes by the default of `isExpired`.

## Main definitions

* `TaskerOp.Lawful` — an operation answers true when it moves its task, and else changes nothing
* `TaskerOp.Timely` — the task is in the state that the operation starts from

## Main results

* `TaskerOp.lawful_iff_timely` — the two are the same
* `TaskerOp.transitions_reaches` — tasks at their end are settled
* `System.timely_reaches` — the task worker is in time
* `Tasker.sweep_iff` — when the sweep goes by its expiration time
-/

namespace RobertMiddleware

open Effects Transition

/-! ### Operations -/

/-- `addTask`, when nobody else runs. -/
def Tasker.addTask (now : ℤ) (request : RapidRequest) (t : Tasker) : TaskId × Tasker :=
  let (id, t) := t.fetchTaskId
  (id, (t.emplaceTask now id request).pushTask id)

@[simp] theorem Tasker.nextTaskCounter_addTask (now : ℤ) (request : RapidRequest) (t : Tasker) :
    (t.addTask now request).2.nextTaskCounter = t.nextTaskCounter + 1 :=
  Tasker.nextTaskCounter_emplaceTask now t.nextTaskCounter request t.fetchTaskId.2

/-- The member functions that change the registry. -/
inductive TaskerOp
  | addTask (request : RapidRequest)
  | startTask (id : TaskId)
  | completeTask (id : TaskId) (response : Bytes)
  | failTask (id : TaskId) (response : Bytes)
  | removeTask (id : TaskId)
  | sweepExpiredTasks (expirationTime : ℤ)
deriving DecidableEq

/-- The task that an operation moves, from one state to another. -/
structure TaskTransition where
  id : TaskId
  source : TaskState
  target : TaskState

namespace TaskerOp

/-- What an operation answers at time `now`, and the registry that it leaves. -/
def exec (now : ℤ) : TaskerOp → Tasker → Bool × Tasker
  | .addTask request, t => (true, (t.addTask now request).2)
  | .startTask id, t => t.startTask now id
  | .completeTask id response, t => t.completeTask now id response
  | .failTask id response, t => t.failTask now id response
  | .removeTask id, t => t.removeTask id
  | .sweepExpiredTasks expirationTime, t => (true, t.sweepExpiredTasks now expirationTime)

def transition : TaskerOp → Option TaskTransition
  | .startTask id => some ⟨id, .pending, .inProgress⟩
  | .completeTask id _ => some ⟨id, .inProgress, .completed⟩
  | .failTask id _ => some ⟨id, .inProgress, .failed⟩
  | _ => none

end TaskerOp

/-- Between `t` and `t'` the task has made the transition. -/
def TaskTransition.Made (m : TaskTransition) (t t' : Tasker) : Prop :=
  (t.getTask m.id).map Task.state = some m.source ∧
    (t'.getTask m.id).map Task.state = some m.target

namespace TaskerOp

/-- The operation answers true if and only if it has moved its task; if it has not, it has changed
nothing. -/
def Lawful (now : ℤ) (op : TaskerOp) (t : Tasker) : Prop :=
  ∀ m ∈ op.transition,
    ((op.exec now t).1 = true ↔ m.Made t (op.exec now t).2) ∧
      (¬ m.Made t (op.exec now t).2 → (op.exec now t).2 = t)

/-- If the task of the operation is there, it is in the state that the operation starts from. -/
def Timely (op : TaskerOp) (t : Tasker) : Prop :=
  ∀ m ∈ op.transition, ∀ task ∈ t.getTask m.id, task.state = m.source

instance (op : TaskerOp) (t : Tasker) : Decidable (op.Timely t) :=
  inferInstanceAs (Decidable (∀ m ∈ op.transition, ∀ task ∈ t.getTask m.id, _))

variable {now : ℤ} {op : TaskerOp} {t t' : Tasker} {id : TaskId}

/-- Each of the three looks its task up and updates it. -/
theorem exec_eq_updateTask (now : ℤ) (t : Tasker) {m : TaskTransition} (hm : m ∈ op.transition) :
    ∃ f : Task → Task, op.exec now t = t.updateTask m.id f ∧ ∀ task, task.state = m.source →
      (f task).state = m.target := by
  cases op with
  | startTask id =>
    obtain rfl := Option.some.inj hm
    exact ⟨_, rfl, fun task hstate => by rw [Task.markStarted, if_pos hstate]⟩
  | completeTask id response =>
    obtain rfl := Option.some.inj hm
    refine ⟨_, rfl, fun task hstate => ?_⟩
    rw [Task.markCompleted, if_pos hstate]
    rfl
  | failTask id response =>
    obtain rfl := Option.some.inj hm
    refine ⟨_, rfl, fun task hstate => ?_⟩
    rw [Task.markFailed, if_pos hstate]
    rfl
  | _ => cases hm

/-- **When the law holds.** -/
theorem lawful_iff_timely : op.Lawful now t ↔ op.Timely t := by
  constructor
  · intro hlaw m hm task htask
    obtain ⟨f, hexec, -⟩ := exec_eq_updateTask now t hm
    have hanswer : (op.exec now t).1 = true := by
      rw [hexec, Tasker.updateTask, show t.taskMap.lookup m.id = some task from htask]
    have hsource := ((hlaw m hm).1.mp hanswer).1
    rw [Option.mem_def.mp htask] at hsource
    exact Option.some.inj hsource
  · intro htimely m hm
    obtain ⟨f, hexec, hf⟩ := exec_eq_updateTask now t hm
    cases htask : t.getTask m.id with
    | none =>
      have hsame : op.exec now t = (false, t) := by
        rw [hexec, Tasker.updateTask, show t.taskMap.lookup m.id = none from htask]
      rw [hsame, TaskTransition.Made, htask]
      exact ⟨by simp, fun _ => rfl⟩
    | some task =>
      have hsource := htimely m hm task htask
      have hanswer : (op.exec now t).1 = true := by
        rw [hexec, Tasker.updateTask, show t.taskMap.lookup m.id = some task from htask]
      have hmade : m.Made t (op.exec now t).2 := by
        rw [TaskTransition.Made, hexec, Tasker.getTask_updateTask, if_pos rfl, htask]
        exact ⟨congrArg some hsource, congrArg some (hf task hsource)⟩
      exact ⟨iff_of_true hanswer hmade, fun hnot => absurd hmade hnot⟩

/-! ### Sequences of operations -/

/-- One operation at some time. -/
def step (t : Tasker) (l : ℤ × TaskerOp) : Option Tasker := some (l.2.exec l.1 t).2

/-- The operations are called in time. -/
def InTime (t : Tasker) (l : ℤ × TaskerOp) : Prop := l.2.Timely t

instance (t : Tasker) (l : ℤ × TaskerOp) : Decidable (InTime t l) :=
  inferInstanceAs (Decidable (l.2.Timely t))

/-- What an operation in time does to the task `id`. -/
inductive Effect (t t' : Tasker) (id : TaskId) : Prop
  | same (hsame : t'.getTask id = t.getTask id)
  | created (task : Task) (hnew : t.nextTaskCounter ≤ id) (hbelow : id < t'.nextTaskCounter)
      (htask' : t'.getTask id = some task) (hresponse : task.response = [])
  | moved (task task' : Task) (htask : t.getTask id = some task)
      (hopen : task.state.terminal = false) (htask' : t'.getTask id = some task')
      (hresponse : task'.state.terminal = true ∨ task'.response = task.response)
  | gone (hgone : t'.getTask id = none)

/-- An update in time. -/
theorem effect_updateTask {m : TaskTransition} {f : Task → Task} (hopen : m.source.terminal = false)
    (htimely : ∀ task ∈ t.getTask m.id, task.state = m.source)
    (hf : ∀ task, task.state = m.source →
      (f task).state.terminal = true ∨ (f task).response = task.response) :
    Effect t (t.updateTask m.id f).2 id := by
  have hget := Tasker.getTask_updateTask m.id id f t
  split at hget
  · rename_i heq
    subst heq
    cases htask : t.getTask m.id with
    | none =>
      rw [htask] at hget
      exact .gone hget
    | some task =>
      have hstate := htimely task htask
      rw [htask] at hget
      exact .moved task (f task) htask (hstate ▸ hopen) hget (hf task hstate)
  · exact .same hget

/-- **What an operation in time can do.** -/
theorem exec_effect (now : ℤ) (id : TaskId) (hbelow : t.MapBelow) (htimely : op.Timely t) :
    Effect t (op.exec now t).2 id := by
  cases op with
  | addTask request =>
    have hfree : t.getTask t.nextTaskCounter = none := by
      cases htask : t.getTask t.nextTaskCounter with
      | none => rfl
      | some task => exact absurd (hbelow _ _ htask) (lt_irrefl _)
    have hput := Tasker.getTask_emplaceTask (t := t.fetchTaskId.2) now request hfree id
    split at hput
    · rename_i heq
      refine .created _ heq.ge ?_ hput rfl
      show id < (t.addTask now request).2.nextTaskCounter
      rw [Tasker.nextTaskCounter_addTask, heq]
      exact Nat.lt_succ_self _
    · exact .same hput
  | startTask id' =>
    refine effect_updateTask (m := ⟨id', .pending, .inProgress⟩) rfl (htimely _ rfl) ?_
    intro task hstate
    rw [Task.markStarted, if_pos hstate]
    exact .inr rfl
  | completeTask id' response =>
    refine effect_updateTask (m := ⟨id', .inProgress, .completed⟩) rfl (htimely _ rfl) ?_
    intro task hstate
    rw [Task.markCompleted, if_pos hstate]
    exact .inl rfl
  | failTask id' response =>
    refine effect_updateTask (m := ⟨id', .inProgress, .failed⟩) rfl (htimely _ rfl) ?_
    intro task hstate
    rw [Task.markFailed, if_pos hstate]
    exact .inl rfl
  | removeTask id' =>
    have hleft := Tasker.getTask_removeTask id' id t
    split at hleft
    · exact .gone hleft
    · exact .same hleft
  | sweepExpiredTasks expirationTime =>
    have hleft := Tasker.getTask_sweepExpiredTasks now expirationTime id t
    cases hkept : (t.getTask id).filter fun task => !task.isExpired now Task.defaultTimeout with
    | none => exact .gone (hleft.trans hkept)
    | some task =>
      refine .same (hleft.trans ?_)
      rw [hkept, (Option.filter_eq_some_iff.mp hkept).1]

/-- The counter only grows. -/
theorem nextTaskCounter_exec (now : ℤ) (op : TaskerOp) (t : Tasker) :
    t.nextTaskCounter ≤ (op.exec now t).2.nextTaskCounter := by
  cases op with
  | addTask request =>
    show _ ≤ (t.addTask now request).2.nextTaskCounter
    simp
  | startTask | completeTask | failTask => exact (Tasker.nextTaskCounter_updateTask ..).ge
  | removeTask => exact (Tasker.nextTaskCounter_removeTask ..).ge
  | sweepExpiredTasks => exact le_refl _

/-- Ids come from the counter, and a task that has not come to its end has no response. -/
structure Ok (t : Tasker) : Prop where
  below : t.MapBelow
  response : ∀ id task, t.getTask id = some task → task.state.terminal = false →
    task.response = []

theorem ok_initial : Ok {} where
  below := by
    intro id task htask
    cases htask
  response := by
    intro id task htask
    cases htask

/-- **Step lemma.** -/
theorem Ok.exec (ht : Ok t) (htimely : op.Timely t) : Ok (op.exec now t).2 where
  below := by
    intro id task' htask'
    have hcounter := nextTaskCounter_exec now op t
    cases exec_effect now id ht.below htimely with
    | same hsame => exact (ht.below id task' (hsame.symm.trans htask')).trans_le hcounter
    | created _ _ hbelow => exact hbelow
    | moved task _ htask => exact (ht.below id task htask).trans_le hcounter
    | gone hgone =>
      rw [hgone] at htask'
      cases htask'
  response := by
    intro id task' htask' hopen
    cases exec_effect now id ht.below htimely with
    | same hsame => exact ht.response id task' (hsame.symm.trans htask') hopen
    | created task _ _ hnew hresponse =>
      obtain rfl := Option.some.inj (htask'.symm.trans hnew)
      exact hresponse
    | moved task after htask hopen' hafter hresponse =>
      obtain rfl := Option.some.inj (htask'.symm.trans hafter)
      rcases hresponse with hend | hsame
      · rw [hopen] at hend
        cases hend
      · exact hsame.trans (ht.response id task htask hopen')
    | gone hgone =>
      rw [hgone] at htask'
      cases htask'

/-- The task `id` has come to its end as `task`, or it has been removed since. -/
def Settled (id : TaskId) (task : Task) (t : Tasker) : Prop :=
  id < t.nextTaskCounter ∧ ∀ after ∈ t.getTask id, after = task

/-- A task at its end stays what it is; its id is not given again. -/
theorem Settled.exec {task : Task} (hend : task.state.terminal = true)
    (hsettled : Settled id task t) (ht : Ok t) (htimely : op.Timely t) :
    Settled id task (op.exec now t).2 := by
  refine ⟨hsettled.1.trans_le (nextTaskCounter_exec now op t), fun after hafter => ?_⟩
  cases exec_effect now id ht.below htimely with
  | same hsame => exact hsettled.2 after (hsame.symm.trans hafter)
  | created _ hnew => exact absurd hsettled.1 (not_lt.mpr hnew)
  | moved before _ hbefore hopen =>
    rw [hsettled.2 before hbefore, hend] at hopen
    cases hopen
  | gone hgone =>
    rw [hgone] at hafter
    cases hafter

/-- **Tasks at their end are settled.** When every operation is called in time, each keeps its law
whenever it is called, a task that has not come to its end has no response, and one that has come to
its end stays what it is until it is removed. -/
theorem transitions_reaches {t : Tasker} (h : Reaches step InTime {} t) :
    (∀ (now : ℤ) (op : TaskerOp), op.Lawful now t ↔ op.Timely t) ∧
      ∀ (id : TaskId) (task : Task), t.getTask id = some task →
        (task.state.terminal = false → task.response = []) ∧
        (task.state.terminal = true → ∀ t' : Tasker, Reaches step InTime t t' →
          t'.getTask id = some task ∨ t'.getTask id = none) := by
  have hok : Ok t := by
    refine h.invariant ok_initial ?_
    rintro t ⟨now, op⟩ t' ht htimely hstep
    obtain rfl := Option.some.inj hstep
    exact ht.exec htimely
  refine ⟨fun now op => lawful_iff_timely, fun id task htask => ?_⟩
  refine ⟨hok.response id task htask, fun hend t' hrun => ?_⟩
  have hsettled : Ok t' ∧ Settled id task t' := by
    refine hrun.invariant (I := fun t => Ok t ∧ Settled id task t)
      ⟨hok, hok.below id task htask, ?_⟩ ?_
    · intro after hafter
      exact Option.some.inj (hafter.symm.trans htask)
    · rintro t ⟨now, op⟩ t' ⟨ht, hs⟩ htimely hstep
      obtain rfl := Option.some.inj hstep
      exact ⟨ht.exec htimely, hs.exec hend ht htimely⟩
  cases hafter : t'.getTask id with
  | none => exact .inr rfl
  | some after => exact .inl (congrArg some (hsettled.2.2 after hafter))

/-- A task is added, started and completed, each in time. -/
def completedLabels : List (ℤ × TaskerOp) :=
  [(0, .addTask .zero), (1, .startTask 1), (2, .completeTask 1 [65])]

theorem transitions_reaches_completed :
    ∃ (t : Tasker) (task : Task), Reaches step InTime {} t ∧ t.getTask 1 = some task ∧
      task.state.terminal = true ∧ ∀ t' : Tasker, Reaches step InTime t t' →
        t'.getTask 1 = some task ∨ t'.getTask 1 = none := by
  have hrun : runLabels step InTime {} completedLabels = some _ := rfl
  have hreach := Reaches.of_runLabels hrun
  exact ⟨_, _, hreach, rfl, rfl, ((transitions_reaches hreach).2 1 _ rfl).2 rfl⟩

/-- **A task completed before it is started, and one failed after it was completed.** The first
completion answers true, leaves the task `PENDING` and writes its response; the failure answers
true as well, leaves the task `COMPLETED` and replaces its response. -/
theorem premature_and_late_end :
    (∃ t : Tasker, Reaches step always {} t ∧
      (t.getTask 1).map Task.state = some .pending ∧
      ((TaskerOp.completeTask 1 [65]).exec 1 t).1 = true ∧
      (((TaskerOp.completeTask 1 [65]).exec 1 t).2.getTask 1).map
        (fun task => (task.state, task.response)) = some (.pending, [65]) ∧
      ¬ (TaskerOp.completeTask 1 [65]).Lawful 1 t) ∧
    ∃ t : Tasker, Reaches step always {} t ∧
      (t.getTask 1).map (fun task => (task.state, task.response)) = some (.completed, [65]) ∧
      ((TaskerOp.failTask 1 [66]).exec 3 t).1 = true ∧
      (((TaskerOp.failTask 1 [66]).exec 3 t).2.getTask 1).map
        (fun task => (task.state, task.response)) = some (.completed, [66]) ∧
      ¬ (TaskerOp.failTask 1 [66]).Lawful 3 t := by
  constructor
  · have hrun : runLabels step always {} [(0, .addTask .zero)] = some _ := rfl
    refine ⟨_, .of_runLabels hrun, rfl, rfl, rfl, ?_⟩
    intro hlaw
    have hsource := ((hlaw _ rfl).1.mp rfl).1
    revert hsource
    decide
  · have hrun : runLabels step always {} completedLabels = some _ := rfl
    refine ⟨_, .of_runLabels hrun, rfl, rfl, rfl, ?_⟩
    intro hlaw
    have hsource := ((hlaw _ rfl).1.mp rfl).1
    revert hsource
    decide

end TaskerOp

/-! ### The task worker -/

/-- The operation that the task worker makes next. -/
def TaskWorkerPc.taskerOp? : TaskWorkerPc → Option TaskerOp
  | .starting id => some (.startTask id)
  | .recording id response =>
    some (if isErrorResponse response then .failTask id (ascii "Robot error: " ++ response)
      else .completeTask id response)
  | .failing id => some (.failTask id (ascii "Robot disconnected"))
  | _ => none

namespace System

/-- The task in the hands of the task worker is in the state that it should be in. -/
theorem LifeOk.timely {s : System} {op : TaskerOp} (hs : LifeOk s)
    (hop : s.taskWorker.taskerOp? = some op) : op.Timely s.shared.tasker := by
  have hand := hs.hand
  have hfound : ∀ {id state}, s.HasState id state → ∀ task ∈ s.shared.tasker.getTask id,
      task.state = state := by
    rintro id state ⟨task, htask, rfl⟩ task' htask'
    rw [Option.mem_unique htask' htask]
  cases hpc : s.taskWorker with
  | starting id =>
    rw [hpc] at hand hop
    obtain rfl := Option.some.inj hop
    rintro m ⟨⟩
    exact hfound (hand id rfl)
  | recording id response =>
    rw [hpc] at hand hop
    obtain rfl := Option.some.inj hop
    split
    all_goals
      rintro m ⟨⟩
      exact hfound (hand id rfl)
  | failing id =>
    rw [hpc] at hand hop
    obtain rfl := Option.some.inj hop
    rintro m ⟨⟩
    exact hfound (hand id rfl)
  | _ =>
    rw [hpc] at hop
    cases hop

/-- What the task worker does to the registry is that operation. -/
theorem tasker_step_taskWorker {P : Platform} {s s' : System} {op : TaskerOp}
    (hop : s.taskWorker.taskerOp? = some op) (h : step P s (.taskWorker .advance) = some s') :
    s'.shared.tasker = (op.exec s.shared.now s.shared.tasker).2 := by
  obtain ⟨⟨pc, b⟩, hmove, rfl⟩ := Option.map_eq_some_iff.mp h
  cases hpc : s.taskWorker with
  | starting id =>
    rw [hpc] at hop hmove
    obtain rfl := Option.some.inj hop
    obtain ⟨-, rfl⟩ := Prod.mk.inj (Option.some.inj hmove)
    rfl
  | recording id response =>
    rw [hpc] at hop hmove
    obtain rfl := Option.some.inj hop
    obtain ⟨-, rfl⟩ := Prod.mk.inj (Option.some.inj hmove)
    show recordResponse s.shared.now id response s.shared.tasker = _
    rw [recordResponse]
    split <;> rfl
  | failing id =>
    rw [hpc] at hop hmove
    obtain rfl := Option.some.inj hop
    obtain ⟨-, rfl⟩ := Prod.mk.inj (Option.some.inj hmove)
    rfl
  | _ =>
    rw [hpc] at hop
    cases hop

/-- **The task worker is in time.** In every run of the server the operations that it makes are
called in time. -/
theorem timely_reaches {P : Platform} {users : List UserInfo} {s : System}
    (h : Reaches (step P) always (initial users) s) {op : TaskerOp}
    (hop : s.taskWorker.taskerOp? = some op) :
    op.Timely s.shared.tasker ∧ ∀ s' : System, step P s (.taskWorker .advance) = some s' →
      s'.shared.tasker = (op.exec s.shared.now s.shared.tasker).2 := by
  obtain ⟨log, hlogged⟩ := h.exists_logged ({} : Observer Unit).obs []
  have hs := tasksOk_reaches hlogged
  exact ⟨hs.life.timely hop, fun s' hstep => tasker_step_taskWorker hop hstep⟩

end System

/-! ### The sweep -/

/-- The age of a task at its end, in whole seconds. -/
def Task.elapsed (now : ℤ) (task : Task) : ℤ := (now - task.endTime).tdiv 1000000000

/-- The sweep with expiration time `E` is exact: what it leaves are the tasks that have not come to
their end and those whose end is less than `E` ago, as they were. -/
def Tasker.SweepExact (now E : ℤ) (t : Tasker) : Prop :=
  ∀ (id : TaskId) (task : Task),
    ((t.sweepExpiredTasks now E).getTask id = some task ↔
      t.getTask id = some task ∧ (task.state.terminal = false ∨ task.elapsed now < E)) ∧
    (t.getTask id = some task → task.state.terminal = true → E ≤ task.elapsed now →
      (t.sweepExpiredTasks now E).getTask id = none)

theorem Task.isExpired_eq_false_iff {now timeout : ℤ} {task : Task} :
    task.isExpired now timeout = false ↔
      (task.state.terminal = false ∨ task.elapsed now < timeout) := by
  rw [Task.isExpired, Bool.and_eq_false_iff, decide_eq_false_iff_not, not_le]
  rfl

theorem Tasker.getTask_sweep_iff (now E : ℤ) (t : Tasker) (id : TaskId) (task : Task) :
    (t.sweepExpiredTasks now E).getTask id = some task ↔ t.getTask id = some task ∧
      (task.state.terminal = false ∨ task.elapsed now < Task.defaultTimeout) := by
  rw [Tasker.getTask_sweepExpiredTasks, Option.filter_eq_some_iff, ← Task.isExpired_eq_false_iff]
  simp

/-- **When the sweep is exact**: when five minutes and its expiration time tell no two tasks of the
registry apart. -/
theorem Tasker.sweep_iff (t : Tasker) (now E : ℤ) :
    t.SweepExact now E ↔ ∀ (id : TaskId) (task : Task), t.getTask id = some task →
      task.state.terminal = true → (E ≤ task.elapsed now ↔ 300 ≤ task.elapsed now) := by
  constructor
  · intro hexact id task htask hend
    have hkept := Tasker.getTask_sweep_iff now E t id task
    rw [(hexact id task).1] at hkept
    simp only [htask, hend, true_and, Bool.true_eq_false, false_or] at hkept
    rw [← not_lt, ← not_lt, not_iff_not]
    exact hkept
  · intro hages id task
    constructor
    · rw [Tasker.getTask_sweep_iff]
      refine and_congr_right fun htask => ?_
      cases hend : task.state.terminal with
      | false => simp
      | true =>
        have hage := hages id task htask hend
        simp only [Bool.true_eq_false, false_or]
        rw [← not_le, ← not_le, not_iff_not]
        exact hage.symm
    · intro htask hend hold
      have hgone := Tasker.getTask_sweepExpiredTasks now E id t
      rw [htask, Option.filter_some] at hgone
      have hexpired : task.isExpired now Task.defaultTimeout = true := by
        rw [Task.isExpired, hend, Bool.true_and, decide_eq_true_eq]
        exact (hages id task htask hend).mp hold
      rw [hgone, hexpired]
      rfl

/-- **An expiration time of one minute.** A task completed a hundred seconds ago outlives the
sweep. -/
theorem Tasker.sweep_one_minute :
    ∃ (t : Tasker) (task : Task), Reaches TaskerOp.step TaskerOp.InTime {} t ∧
      t.getTask 1 = some task ∧ task.state = .completed ∧
      60 ≤ task.elapsed 100000000000 ∧
      (t.sweepExpiredTasks 100000000000 60).getTask 1 = some task ∧
      ¬ t.SweepExact 100000000000 60 := by
  have hrun : runLabels TaskerOp.step TaskerOp.InTime {} [(0, .addTask .zero),
    (0, .startTask 1), (0, .completeTask 1 [65])] = some _ := rfl
  refine ⟨_, _, .of_runLabels hrun, rfl, rfl, by decide, rfl, ?_⟩
  intro hexact
  have hgone := (hexact 1 _).2 rfl rfl (by decide)
  cases hgone

end RobertMiddleware
