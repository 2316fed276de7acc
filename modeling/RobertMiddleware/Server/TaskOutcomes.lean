import RobertMiddleware.Server.Polling
import RobertMiddleware.Server.TaskResponses

/-!
# What a recorded outcome rests on

The task worker records how a task ended, and the task may be gone when the client hears of it: the
answer to the poll removes it. So what the outcome rests on is said of the record: it is the value
of a promise, or none, and the promise was made for the request with which the task was accepted.

## Main definitions

* `System.OutcomesOk` — the outcomes recorded, and the requests of the promises

## Main results

* `System.OutcomesOk.step` — along runs
* `System.OutcomesOk.accepted_of_got` — a value on a promise of a task is one for its request
-/

namespace RobertMiddleware

open Effects Transition

namespace System

structure OutcomesOk (s : System) (queued : List RapidRequest) (log : List PollEvent) : Prop where
  length : queued.length = s.shared.robot.nextPromise
  hand : ∀ id req, s.taskWorker.request = some (id, req) → .accepted id req ∈ log
  promised : ∀ p id, (p, id) ∈ s.shared.history.promised →
    ∃ req, queued[p]? = some req ∧ .accepted id req ∈ log
  unique : ∀ id req req', .accepted id req ∈ log → .accepted id req' ∈ log → req = req'
  recorded : ∀ id o time, .recorded id o time ∈ log →
    ∃ task, s.Concluded id task ∧ task.state = o.state ∧ task.response = o.response

theorem outcomesOk_initial (users : List UserInfo) : OutcomesOk (initial users) [] [] where
  length := rfl
  hand _ _ h := nomatch h
  promised _ _ h := absurd h List.not_mem_nil
  unique _ _ _ h := absurd h List.not_mem_nil
  recorded _ _ _ h := absurd h List.not_mem_nil

section Step

variable {P : Platform} {s s' : System} {l : Label} {queued : List RapidRequest}
  {log : List PollEvent}

/-- A value that was set on a promise of the task was set for the request it was accepted with. -/
theorem OutcomesOk.accepted_of_got (hs : OutcomesOk s queued log) {id : TaskId} {value : Bytes}
    {request : RapidRequest} (hgot : s.Got id value) (haccepted : .accepted id request ∈ log) :
    ∃ p, queued[p]? = some request ∧ (p, value) ∈ s.shared.robot.responses := by
  obtain ⟨p, hp, hvalue⟩ := hgot
  obtain ⟨req, hreq, hmem⟩ := hs.promised p id hp
  obtain rfl := hs.unique id req request hmem haccepted
  exact ⟨p, hreq, hvalue⟩

/-- An id is accepted once. -/
theorem OutcomesOk.step_unique (hs : OutcomesOk s queued log) (hpoll : PollOk P s log)
    {id : TaskId} {req req' : RapidRequest} (hreq : .accepted id req ∈ log ++ pollObserver.obs s l)
    (hreq' : .accepted id req' ∈ log ++ pollObserver.obs s l) : req = req' := by
  have hnew : ∀ {req req'}, PollStep s l [.accepted id req] → .accepted id req' ∉ log := by
    intro req req' hstep hmem
    cases hstep with
    | accept uuid request _ _ session k _ hpc =>
      have hnot := hpoll.not_accepted hpc _ hmem
      simp [PollEvent.accepts] at hnot
  rcases mem_log hreq with hold | hstep
  · rcases mem_log hreq' with hold' | hstep'
    · exact hs.unique id req req' hold hold'
    · exact absurd hold (hnew hstep')
  · rcases mem_log hreq' with hold' | hstep'
    · exact absurd hold' (hnew hstep)
    · cases hstep with
      | accept uuid request _ _ session k _ hpc =>
        cases hstep' with
        | accept uuid' request' _ _ session' k' _ hpc' =>
          rw [hpc] at hpc'
          cases hpc'
          rfl

/-- **Step lemma.** -/
theorem OutcomesOk.step (hs : OutcomesOk s queued log) (hpoll : PollOk P s log)
    (hresponses : ResponsesOk s' (queued ++ s.pushEvents l)) (h : step P s l = some s') :
    OutcomesOk s' (queued ++ s.pushEvents l) (log ++ pollObserver.obs s l) := by
  obtain ⟨hlength, hpromised⟩ := promised_step hs.length hs.hand hs.promised h
  refine ⟨hlength, fun id req hreq => ?_, fun p id hp => ?_, fun id req req' =>
    hs.step_unique hpoll, fun id o time he => ?_⟩
  · rcases request_step h hreq with hold | ⟨task, htask, rfl⟩
    · exact List.mem_append_left _ (hs.hand id req hold)
    · exact List.mem_append_left _ (hpoll.polled.requests id task htask)
  · obtain ⟨req, hreq, hmem⟩ := hpromised p id hp
    exact ⟨req, hreq, List.mem_append_left _ hmem⟩
  · rcases mem_log he with hold | hnew
    · obtain ⟨task, hconcluded, hends⟩ := hs.recorded id o time hold
      exact ⟨task, hconcluded.mono (keeps_step h), hends⟩
    · cases hnew with
      | record _ _ hrecorded =>
        -- the outcome is in the map now
        obtain ⟨task, -, hworking, htask'⟩ := hpoll.tasks.life.recorded h hrecorded
        rw [Task.finish_of_inProgress _ _ hworking] at htask'
        exact ⟨_, hresponses.ended id _ htask' o.terminal, rfl, rfl⟩

end Step

end System

end RobertMiddleware
