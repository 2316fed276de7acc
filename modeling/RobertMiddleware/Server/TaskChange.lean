import RobertMiddleware.Server.TaskLife

/-!
# What a step does to a task

The inversion lemma for one entry of the task map. A task is created and removed by the calls of a
handler, started and ended by the task worker, and swept when it is old.

## Main definitions

* `System.recorded?` — the outcome that the task worker records in a step
* `System.TaskChange` — the six things that can happen to a task

## Main results

* `System.LifeOk.taskChange` — nothing else happens
-/

namespace RobertMiddleware

open Effects Transition

namespace System

/-- What the task worker records in a step, and of which task. -/
def recorded? (s : System) (l : Label) : Option (TaskId × Outcome) :=
  match l, s.taskWorker with
  | .taskWorker .advance, .recording id response => some (id, .ofResponse response)
  | .taskWorker .advance, .failing id => some (id, .disconnected)
  | _, _ => none

/-- What a step does to the task `id`. -/
inductive TaskChange (s : System) (l : Label) (s' : System) (id : TaskId) : Prop
  | same (hsame : s'.shared.tasker.getTask id = s.shared.tasker.getTask id)
      (hrecorded : ∀ o, s.recorded? l ≠ some (id, o))
  | created (uuid : Bytes) (req : DecodedRequest) (request : RapidRequest) (session : Bytes)
      (k : Unit → Handler ServerResponse) (hl : l = .server (.call uuid))
      (hpc : s.server = .serving req
        (.call (S := ServerCalls) (.emplaceTask id request session) k))
      (htask' : s'.shared.tasker.getTask id =
        some { id, request, createdTime := s.shared.now })
  | removed (uuid : Bytes) (req : DecodedRequest) (k : Bool → Handler ServerResponse)
      (hl : l = .server (.call uuid))
      (hpc : s.server = .serving req (.call (S := ServerCalls) (.removeTask id) k))
      (htask' : s'.shared.tasker.getTask id = none)
  | started (task : Task) (htask : s.shared.tasker.getTask id = some task)
      (hpending : task.state = .pending)
      (htask' : s'.shared.tasker.getTask id = some (task.markStarted s.shared.now).2)
      (hrecorded : ∀ o, s.recorded? l ≠ some (id, o))
  | ended (task : Task) (o : Outcome) (hrecorded : s.recorded? l = some (id, o))
      (htask : s.shared.tasker.getTask id = some task) (hworking : task.state = .inProgress)
      (htask' : s'.shared.tasker.getTask id = some (task.finish s.shared.now o))
  | swept (task : Task) (hl : l = .sweeper) (htask : s.shared.tasker.getTask id = some task)
      (hexpired : task.isExpired s.shared.now Task.defaultTimeout = true)
      (htask' : s'.shared.tasker.getTask id = none)

section TaskChange

variable {P : Platform} {s s' : System} {l : Label} {id : TaskId}

/-- A recorded outcome is found in the map. -/
theorem LifeOk.recorded (hs : LifeOk s) (h : step P s l = some s') {o : Outcome}
    (hrecorded : s.recorded? l = some (id, o)) :
    ∃ task, s.shared.tasker.getTask id = some task ∧ task.state = .inProgress ∧
      s'.shared.tasker.getTask id = some (task.finish s.shared.now o) := by
  have hchange : ∀ pc, s.taskWorker.task = some id → s.taskWorker.taskState = .inProgress →
      s' = { s with
        taskWorker := pc
        shared := { s.shared with
          tasker := (s.shared.tasker.updateTask id (Task.finish s.shared.now o)).2 } } →
      ∃ task, s.shared.tasker.getTask id = some task ∧ task.state = .inProgress ∧
        s'.shared.tasker.getTask id = some (task.finish s.shared.now o) := by
    intro pc hid hworking hs'
    obtain ⟨task, htask, hstate⟩ := hs.hand id hid
    refine ⟨task, htask, hstate.trans hworking, ?_⟩
    rw [hs']
    refine (Tasker.getTask_updateTask ..).trans ?_
    rw [if_pos rfl, htask]
    rfl
  revert hrecorded
  fun_cases recorded? s l with
  | case1 id' response hpc =>
    intro hpair
    obtain ⟨rfl, rfl⟩ := Prod.mk.inj (Option.some.inj hpair)
    refine hchange .loopTest (by rw [hpc]; rfl) (by rw [hpc]; rfl) ?_
    rw [← recordResponse_eq_updateTask]
    simpa [step, hpc, taskWorkerStep] using h.symm
  | case2 id' hpc =>
    intro hpair
    obtain ⟨rfl, rfl⟩ := Prod.mk.inj (Option.some.inj hpair)
    refine hchange .loopTest (by rw [hpc]; rfl) (by rw [hpc]; rfl) ?_
    rw [← Tasker.failTask_eq]
    simpa [step, hpc, taskWorkerStep] using h.symm
  | case3 => exact fun hnone => by cases hnone

theorem taskChange_call {uuid : Bytes} {req : DecodedRequest} {op : ServerCall}
    {k : op.Ret → Handler ServerResponse} {pc : ServerPc}
    (hpc : s.server = .serving req (.call (S := ServerCalls) op k))
    (hcall : TaskCall op s.shared) :
    TaskChange s (.server (.call uuid))
      { s with server := pc, shared := (execCall uuid op s.shared).2 } id := by
  have hnone : ∀ o, s.recorded? (.server (.call uuid)) ≠ some (id, o) := nofun
  cases op with
  | emplaceTask new request session =>
    have hput := Tasker.getTask_emplaceTask s.shared.now request hcall.1 id
    split at hput
    · rename_i heq
      subst heq
      exact .created uuid req request session k rfl hpc hput
    · exact .same hput hnone
  | removeTask old =>
    have hleft := Tasker.getTask_removeTask old id s.shared.tasker
    split at hleft
    · rename_i heq
      subst heq
      exact .removed uuid req k rfl hpc hleft
    · exact .same hleft hnone
  | _ => exact .same rfl hnone

/-- The task worker starts a task, ends one, or does something else. -/
theorem LifeOk.taskChange_taskWorker (hs : LifeOk s) {e : TaskWorkerEvent} {pc : TaskWorkerPc}
    {b : Shared} (hmove : TaskWorkerEffect s.taskWorker s.shared e pc b)
    (hnone : ∀ o, s.recorded? (.taskWorker e) ≠ some (id, o)) :
    TaskChange s (.taskWorker e) { s with taskWorker := pc, shared := b } id := by
  cases hmove with
  | start id' _ hpc hpc' =>
    have hget := Tasker.getTask_updateTask id' id
      (fun task => (task.markStarted s.shared.now).2) s.shared.tasker
    split at hget
    · rename_i heq
      subst heq
      obtain ⟨task, htask, hstate⟩ := hs.hand id (by rw [hpc]; rfl)
      rw [hpc] at hstate
      rw [htask] at hget
      exact .started task htask hstate hget hnone
    · exact .same hget hnone
  | record id' response hpc =>
    have hne : id ≠ id' := by
      rintro rfl
      exact hnone (.ofResponse response) (by simp only [recorded?, hpc])
    refine .same ?_ hnone
    rw [recordResponse_eq_updateTask]
    exact (Tasker.getTask_updateTask ..).trans (if_neg hne)
  | fail id' hpc =>
    have hne : id ≠ id' := by
      rintro rfl
      exact hnone .disconnected (by simp only [recorded?, hpc])
    refine .same ?_ hnone
    rw [Tasker.failTask_eq]
    exact (Tasker.getTask_updateTask ..).trans (if_neg hne)
  | _ => exact .same rfl hnone

/-- The sweep of the tasks erases the task or leaves it. -/
theorem taskChange_sweep (hsweep : s'.shared.tasker.getTask id =
      (s.shared.tasker.sweepExpiredTasks s.shared.now 300).getTask id)
    (hnone : ∀ o, s.recorded? .sweeper ≠ some (id, o)) : TaskChange s .sweeper s' id := by
  rw [Tasker.getTask_sweepExpiredTasks] at hsweep
  cases htask : s.shared.tasker.getTask id with
  | none =>
    rw [htask] at hsweep
    exact .same (hsweep.trans htask.symm) hnone
  | some task =>
    rw [htask, Option.filter_some] at hsweep
    cases hexpired : task.isExpired s.shared.now Task.defaultTimeout with
    | true =>
      rw [hexpired] at hsweep
      exact .swept task rfl htask hexpired hsweep
    | false =>
      rw [hexpired] at hsweep
      exact .same (hsweep.trans htask.symm) hnone

/-- **What can happen to a task.** -/
theorem LifeOk.taskChange (hs : LifeOk s) (h : step P s l = some s')
    (hcall : ∀ {req op k}, s.server = .serving req (.call (S := ServerCalls) op k) →
      TaskCall op s.shared) (id : TaskId) : TaskChange s l s' id := by
  by_cases hrecorded : ∃ o, s.recorded? l = some (id, o)
  · obtain ⟨o, ho⟩ := hrecorded
    obtain ⟨task, htask, hworking, htask'⟩ := hs.recorded h ho
    exact .ended task o ho htask hworking htask'
  have hnone : ∀ o, s.recorded? l ≠ some (id, o) := fun o ho => hrecorded ⟨o, ho⟩
  cases step_effect h with
  | server hmove =>
    cases hmove with
    | call uuid req op k hpc => exact taskChange_call hpc (hcall hpc)
    | _ => exact .same rfl hnone
  | taskWorker hmove => exact hs.taskChange_taskWorker hmove hnone
  | robotWorker => exact .same rfl hnone
  | sweeper _ hmove =>
    cases hmove with
    | tasks => exact taskChange_sweep rfl hnone
    | _ => exact .same rfl hnone
  | other _ _ _ hmove =>
    refine .same ?_ hnone
    rw [Tasker.getTask, Tasker.getTask, hmove.taskMap]

end TaskChange

end System

end RobertMiddleware
