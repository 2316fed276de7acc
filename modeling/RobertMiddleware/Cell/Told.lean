import RobertMiddleware.Cell.Plant
import RobertMiddleware.Rapid.MotionRequest
import RobertMiddleware.Rapid.StatusReport
import RobertMiddleware.Server.TaskOutcomes

/-!
# What a client is told

A client asks for its task until the answer says how it ended. Between the answer and what the robot
has done there are the handler, the task map, the task worker, a future, the robot's worker thread
and two connections, and the task is gone when the client reads the answer. Still the answer is
about what the controller has done, for the very request that the client had accepted.

## Main definitions

* `Plant.Tells` — what an answer says of an execution
* `Plant.TellsOk` — the records of both sides, along runs

## Main results

* `Plant.TellsOk.step` — along runs
* `Plant.told_reaches` — what an answer about an ended task says is so
-/

namespace RobertMiddleware

open Effects Transition
open Rapid (Controller Errno RapidServer RapidSystem)

namespace Plant

/-- What is seen of tasks and polls. -/
def pollObs (s : Plant) : Label → List PollEvent
  | .server l => pollObserver.obs s.system l
  | .controller _ => []

/-- What the answer about a completed task says of the execution. -/
structure Tells (request : RapidRequest) (value : Bytes) (x : Rapid.Execution)
    (response : ServerResponse) : Prop where
  success : response.status = some .success
  text : request.commandId ≠ RapidCommandType.getStatus.toUInt8 → response.textPayload = value
  robotStatus : request.commandId = RapidCommandType.getStatus.toUInt8 →
    ∃ t c, x.calls = Rapid.reportTrace t c ∧ response.robotStatus = some (Rapid.reportedStatus c)

section Told

variable {P : Platform} {R : RapidSystem} {errSockTimeout : Errno} {vars : Controller}
  {s s' : Plant} {l : Label} {queued : List RapidRequest} {log : List PollEvent}

/-- The records of the two sides of one run. -/
structure TellsOk (P : Platform) (R : RapidSystem) (errSockTimeout : Errno) (vars : Controller)
    (s : Plant) (queued : List RapidRequest) (log : List PollEvent) : Prop where
  poll : s.system.PollOk P log
  tasks : ∃ tasks, s.system.TasksOk taskObserver tasks
  responses : s.system.ResponsesOk queued
  outcomes : s.system.OutcomesOk queued log
  cell : Reaches (logged (Cell.step R errSockTimeout) Cell.pushObs) (unlogged (Cell.Orderly R))
    (Cell.initial vars, []) (s.cell, queued)

theorem tellsOk_initial (P : Platform) (users : List UserInfo) (vars : Controller) :
    TellsOk P R errSockTimeout vars (initial users vars) [] [] where
  poll := System.pollOk_initial P users
  tasks := ⟨[], System.tasksOk_initial users⟩
  responses := System.responsesOk_initial users
  outcomes := System.outcomesOk_initial users
  cell := .refl _

/-- **Step lemma.** -/
theorem TellsOk.step (hs : TellsOk P R errSockTimeout vars s queued log)
    (horderly : s.Orderly R l) (h : s.step P R errSockTimeout l = some s') :
    TellsOk P R errSockTimeout vars s' (queued ++ s.pushObs l) (log ++ s.pollObs l) := by
  have hcell : Reaches (logged (Cell.step R errSockTimeout) Cell.pushObs)
      (unlogged (Cell.Orderly R)) (Cell.initial vars, []) (s'.cell, queued ++ s.pushObs l) := by
    rcases cell_step hs.poll.threads h with ⟨l', hl', hmove⟩ | ⟨hhidden, hsame⟩
    · exact hs.cell.tail (hl'.orderly horderly)
        (logged_eq_some_iff.mpr ⟨hmove, by rw [hl'.pushObs]⟩)
    · rw [hsame, hhidden.pushObs, List.append_nil]
      exact hs.cell
  cases step_move h with
  | server l system controller hmove =>
    obtain ⟨tasks, htasks⟩ := hs.tasks
    have hresponses := hs.responses.step htasks hmove
    exact ⟨hs.poll.step hmove, ⟨_, htasks.step hmove⟩, hresponses,
      hs.outcomes.step hs.poll hresponses hmove, hcell⟩
  | controller ev controller hmove =>
    refine ⟨?_, hs.tasks, ?_, ?_, hcell⟩
    all_goals simp only [pushObs, pollObs, List.append_nil]
    · exact hs.poll
    · exact hs.responses
    · exact hs.outcomes

/-- A value for an accepted task is a message of the middleware, or an answer to its request. -/
theorem TellsOk.answered (hs : TellsOk P R errSockTimeout vars s queued log) {id : TaskId}
    {request : RapidRequest} {value : Bytes} (haccepted : .accepted id request ∈ log)
    (hgot : s.system.Got id value) :
    ascii "ERR: " <+: value ∨ ∃ x, s.Answered request value x := by
  obtain ⟨p, hrequest, hvalue⟩ := hs.outcomes.accepted_of_got hgot haccepted
  refine ((Cell.answersOk_reaches hs.cell).answer_of_mem hvalue).imp_right ?_
  rintro ⟨req, hreq, x, hx, hraw, hone⟩
  obtain rfl := Option.some.inj (hrequest.symm.trans hreq)
  exact ⟨x, hx, hraw, hone⟩

/-- A reported completion tells what the controller has answered. -/
theorem Answered.tells {request : RapidRequest} {value : Bytes} {x : Rapid.Execution} {o : Outcome}
    {response : ServerResponse} (h : s.Answered request value x)
    (hcount : s.controller.CountOk R errSockTimeout) (hfine : isErrorResponse value = false)
    (hreports : Reports P request o response) (hstate : o.state = .completed)
    (hvalue : o.response = value) : Tells request value x response := by
  -- the bytes of the status, when the status was asked for
  have hstatus : request.commandId = RapidCommandType.getStatus.toUInt8 →
      ∃ t c, x.calls = Rapid.reportTrace t c ∧ value = Rapid.telemetryBuffer c := by
    intro hcommand
    refine hcount.status h.taken h.response ?_ fun hnack => ?_
    · rw [h.raw, Rapid.unpackUsint_image, hcommand]
      decide
    · cases hfine.symm.trans (isErrorResponse_of_nack hnack)
  have hdecoded : ∀ c, value = Rapid.telemetryBuffer c →
      request.commandId = RapidCommandType.getStatus.toUInt8 →
      response.status = some .success ∧ response.robotStatus = some (Rapid.reportedStatus c) := by
    intro c hc hcommand
    have hunpack : Decoder.unpack P o.response {} = (true, Rapid.reportedStatus c) := by
      rw [hvalue, hc, Rapid.unpack_telemetryBuffer]
    have hok := hreports.decoded hstate hcommand
    rw [hunpack] at hok
    exact hok rfl
  refine ⟨?_, fun hcommand => ?_, fun hcommand => ?_⟩
  · by_cases hcommand : request.commandId = RapidCommandType.getStatus.toUInt8
    · obtain ⟨-, c, -, hc⟩ := hstatus hcommand
      exact (hdecoded c hc hcommand).1
    · exact (hreports.text hstate hcommand).1
  · rw [(hreports.text hstate hcommand).2, hvalue]
  · obtain ⟨t, c, hcalls, hc⟩ := hstatus hcommand
    exact ⟨t, c, hcalls, (hdecoded c hc hcommand).2⟩

/-- An answer that a task has ended reports an outcome of the task that was accepted. -/
theorem TellsOk.reported (hs : TellsOk P R errSockTimeout vars s queued log) {id : TaskId}
    {response : ServerResponse} (hreply : .replied id response ∈ log)
    (hrank : pollRank response = some 2) :
    ∃ request o task, .accepted id request ∈ log ∧ Reports P request o response ∧
      s.system.Concluded id task ∧ task.state = o.state ∧ task.response = o.response := by
  obtain ⟨request, o, time, haccepted, hrecorded, hreports⟩ :=
    hs.poll.reports id response hreply hrank
  obtain ⟨task, hconcluded, hends⟩ := hs.outcomes.recorded id o time hrecorded
  exact ⟨request, o, task, haccepted, hreports, hconcluded, hends⟩

theorem TellsOk.completed (hs : TellsOk P R errSockTimeout vars s queued log) {id : TaskId}
    {response : ServerResponse} (hreply : .replied id response ∈ log)
    (hstatus : response.taskStatus = some .taskCompleted) :
    ∃ request value x args, .accepted id request ∈ log ∧ s.Answered request value x ∧
      Rapid.Passes R request.image args ∧ Rapid.Done R args x.calls ∧
      Tells request value x response := by
  have hcount : s.controller.CountOk R errSockTimeout := (Cell.answersOk_reaches hs.cell).count
  obtain ⟨request, o, task, haccepted, hreports, hconcluded, hends, hresponse⟩ :=
    hs.reported hreply (by rw [pollRank, hstatus])
  have hstate : o.state ≠ .failed := by
    intro hfailed
    cases hstatus.symm.trans (hreports.failed hfailed).2.1
  cases hconcluded with
  | completed hcompleted hvalue hgot =>
    rcases hs.answered haccepted hgot with hmessage | ⟨x, hx⟩
    · cases hvalue.symm.trans (isErrorResponse_of_message hmessage)
    rcases hx.judged hcount with ⟨-, args, hpasses, hdone⟩ | ⟨herror, -⟩
    · exact ⟨request, task.response, x, args, haccepted, hx, hpasses, hdone,
        hx.tells hcount hvalue hreports (hends.symm.trans hcompleted) hresponse.symm⟩
    · cases hvalue.symm.trans herror
  | refused _ hfailed => exact absurd (hends.symm.trans hfailed) hstate
  | disconnected hfailed => exact absurd (hends.symm.trans hfailed) hstate

theorem TellsOk.failed (hs : TellsOk P R errSockTimeout vars s queued log) {id : TaskId}
    {response : ServerResponse} (hreply : .replied id response ∈ log)
    (hstatus : response.taskStatus = some .taskFailed) :
    ∃ request, .accepted id request ∈ log ∧
      (response.errorMessage = ascii "Robot disconnected" ∨
        ∃ value, response.errorMessage = ascii "Robot error: " ++ value ∧
          (ascii "ERR: " <+: value ∨ ∃ x, s.Answered request value x ∧ Rapid.Refusal x.calls)) := by
  have hcount : s.controller.CountOk R errSockTimeout := (Cell.answersOk_reaches hs.cell).count
  obtain ⟨request, o, task, haccepted, hreports, hconcluded, hends, hresponse⟩ :=
    hs.reported hreply (by rw [pollRank, hstatus])
  have hstate : o.state ≠ .completed := by
    intro hcompleted
    cases hstatus.symm.trans (hreports.completed hcompleted)
  -- the message is the response of the task
  have hmessage : task.state = .failed → response.errorMessage = task.response := by
    intro hfailed
    rw [(hreports.failed (hends.symm.trans hfailed)).2.2, hresponse]
  refine ⟨request, haccepted, ?_⟩
  cases hconcluded with
  | completed hcompleted => exact absurd (hends.symm.trans hcompleted) hstate
  | refused value hfailed hvalue hgot hrefused =>
    refine .inr ⟨value, (hmessage hfailed).trans hrefused, ?_⟩
    refine (hs.answered haccepted hgot).imp_right ?_
    rintro ⟨x, hx⟩
    rcases hx.judged hcount with ⟨hfine, -⟩ | ⟨-, hrefusal⟩
    · cases hvalue.symm.trans hfine
    · exact ⟨x, hx, hrefusal⟩
  | disconnected hfailed hgone => exact .inl ((hmessage hfailed).trans hgone)

theorem tellsOk_reaches {users : List UserInfo}
    (h : Reaches (logged (step P R errSockTimeout) pollObs) (unlogged (Orderly R))
      (initial users vars, []) (s, log)) :
    ∃ queued, TellsOk P R errSockTimeout vars s queued log :=
  h.logged_invariant (I := fun t tlog => ∃ queued, TellsOk P R errSockTimeout vars t queued tlog)
    ⟨[], tellsOk_initial P users vars⟩ fun _ _ _ _ ht horderly hstep =>
      ht.imp' (· ++ _) fun _ hs => hs.step horderly hstep

/-- **A client is told the truth.** In every run in which the network returns requests and responses
as a whole and no call upsets the count of the responses, take any answer to a client about a task
that was accepted. If it says that the task is completed, then the controller has taken a request
like the one accepted and has carried it out. The text of the answer is its acknowledgement; when
the status was asked for, the status in the answer is made of what its calls have returned. If it
says that the task failed, then its message is that the robot was disconnected, which is also said
when no answer came in ninety seconds, or an error message of the middleware, or the refusal with
which the controller has answered such a request, of which it has carried out nothing. -/
theorem told_reaches {users : List UserInfo}
    (h : Reaches (logged (step P R errSockTimeout) pollObs) (unlogged (Orderly R))
      (initial users vars, []) (s, log)) {id : TaskId} {response : ServerResponse}
    (hreply : .replied id response ∈ log) :
    (response.taskStatus = some .taskCompleted → ∃ request value x args,
      .accepted id request ∈ log ∧ s.Answered request value x ∧
      Rapid.Passes R request.image args ∧ Rapid.Done R args x.calls ∧
      Tells request value x response) ∧
    (response.taskStatus = some .taskFailed → ∃ request, .accepted id request ∈ log ∧
      (response.errorMessage = ascii "Robot disconnected" ∨
        ∃ value, response.errorMessage = ascii "Robot error: " ++ value ∧
          (ascii "ERR: " <+: value ∨
            ∃ x, s.Answered request value x ∧ Rapid.Refusal x.calls))) := by
  obtain ⟨queued, hs⟩ := tellsOk_reaches h
  exact ⟨hs.completed hreply, hs.failed hreply⟩

end Told

theorem told_reaches_zero :
    ∃ s log response request value x args,
      Reaches (logged (step .linux .bench 0) pollObs) (unlogged (Orderly .bench))
        (initial SessionManager.aliceOnly .bench, []) (s, log) ∧
      .replied 1 response ∈ log ∧ .accepted 1 request ∈ log ∧ s.Answered request value x ∧
      Rapid.Passes .bench request.image args ∧ Rapid.Done .bench args x.calls ∧
      Tells request value x response := by
  have hrun : (runLabels (logged (step .linux .bench 0) pollObs) (unlogged (Orderly .bench))
      (initial SessionManager.aliceOnly .bench, []) (zeroLabels ++
        (SessionManager.serve (System.checkRequest "t" 1) "u" 5).map .server)).any fun s =>
        (polls 1 s.2).any fun response => response.taskStatus = some .taskCompleted := by
    decide +kernel
  obtain ⟨⟨s, log⟩, hs, hany⟩ := Option.any_eq_true .. |>.mp hrun
  obtain ⟨response, hpoll, hcompleted⟩ := List.any_eq_true.mp hany
  have hreply := mem_polls hpoll
  obtain ⟨request, value, x, args, htold⟩ :=
    (told_reaches (.of_runLabels hs) hreply).1 (of_decide_eq_true hcompleted)
  exact ⟨s, log, response, request, value, x, args, .of_runLabels hs, hreply, htold⟩

end Plant

end RobertMiddleware
