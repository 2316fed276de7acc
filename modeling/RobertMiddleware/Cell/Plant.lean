import RobertMiddleware.Cell.Answers
import RobertMiddleware.Rapid.Settings
import RobertMiddleware.Rapid.TelemetryStatus
import RobertMiddleware.Rapid.Zones
import RobertMiddleware.Server.TaskResponses

/-!
# The server and the controller

The whole server with the controller at the other end of the robot connection. What its clients get
to see of a motion is the task in the map, with a state and a response. In a run of both sides that
keeps the responses in step with the requests, the response of a task is what the controller has
sent for the request of that task.

## Main definitions

* `Plant.step` — one step of a thread of the server or of the controller
* `Plant.cell` — the two ends of the robot connection

## Main results

* `Plant.cell_reaches` — a run of the plant is a run of the cell
* `Plant.tasks_reaches` — the response of a task says what the robot has done
* `Plant.settings_reaches` — motions and reports have the speed and the zone in effect
-/

namespace RobertMiddleware

open Effects Transition
open Rapid (Controller Errno RapidEvent RapidServer RapidSystem)

structure Plant where
  system : System
  controller : RapidServer

namespace Plant

inductive Label
  | server (l : RobertMiddleware.Label)
  | controller (ev : RapidEvent)

/-- The two ends of the robot connection. -/
def cell (s : Plant) : Cell := ⟨s.system.robotSessions, s.controller⟩

/-- The controller after a step of the server. -/
def afterServer (s : Plant) : RobertMiddleware.Label → Option RapidServer
  | .robotWorker e => s.controller.afterWorker s.system.shared.robot e
  | _ => some s.controller

/-- One step. -/
def step (P : Platform) (R : RapidSystem) (errSockTimeout : Errno) (s : Plant) :
    Label → Option Plant
  | .server l =>
    match s.system.step P l, s.afterServer l with
    | some system, some controller => some { system, controller }
    | _, _ => none
  | .controller ev =>
    (s.controller.step R errSockTimeout s.system.shared.robot.nextFd ev).map fun controller =>
      { s with controller }

/-- Neither side has been started. -/
def initial (users : List UserInfo) (vars : Controller) : Plant where
  system := .initial users
  controller := { vars }

/-- The request that is queued. -/
def pushObs (s : Plant) : Label → List RapidRequest
  | .server l => s.system.pushEvents l
  | .controller _ => []

/-- The network returns requests and responses as a whole, and no call upsets the count of the
responses. -/
def Orderly (R : RapidSystem) (s : Plant) : Label → Prop
  | .server (.robotWorker e) => s.cell.Orderly R (.middleware (.worker e))
  | .server _ => True
  | .controller ev => s.controller.Orderly R ev

instance (R : RapidSystem) (s : Plant) : ∀ l, Decidable (Orderly R s l)
  | .server (.robotWorker _) => inferInstanceAs (Decidable (s.cell.Orderly R _))
  | .controller ev => inferInstanceAs (Decidable (s.controller.Orderly R ev))
  | .server (.tick _) | .server (.server _) | .server (.taskWorker _) | .server .sweeper
  | .server .relock | .server .start | .server .stop | .server .owner => .isTrue trivial

variable {P : Platform} {R : RapidSystem} {errSockTimeout : Errno} {s s' : Plant} {l : Label}
  {queued : List RapidRequest}

/-! ### What a step can do -/

/-- The steps of the two sides. -/
inductive Move (P : Platform) (R : RapidSystem) (errSockTimeout : Errno) (s : Plant) :
    Label → Plant → Prop
  | server (l : RobertMiddleware.Label) (system : System) (controller : RapidServer)
      (hmove : s.system.step P l = some system) (hafter : s.afterServer l = some controller) :
      Move P R errSockTimeout s (.server l) { system, controller }
  | controller (ev : RapidEvent) (controller : RapidServer)
      (hmove : s.controller.step R errSockTimeout s.system.shared.robot.nextFd ev =
        some controller) : Move P R errSockTimeout s (.controller ev) { s with controller }

theorem step_move (h : s.step P R errSockTimeout l = some s') : s.Move P R errSockTimeout l s' := by
  cases l with
  | server l =>
    rw [step] at h
    split at h
    · rename_i system controller hmove hafter
      obtain rfl := Option.some.inj h
      exact .server l system controller hmove hafter
    · cases h
  | controller ev =>
    obtain ⟨controller, hmove, rfl⟩ := Option.map_eq_some_iff.mp h
    exact .controller ev controller hmove

/-- The step `l'` of the cell is what the step `l` is to it. -/
inductive Shows (s : Plant) : Label → Cell.Label → Prop
  | worker (e : WorkerEvent) : Shows s (.server (.robotWorker e)) (.middleware (.worker e))
  | call (l : RobertMiddleware.Label) (l' : RobotSessions.Label)
      (hpushed : s.system.robotSessions.pushEvents l' = s.system.pushEvents l)
      (hl : ∀ e, l ≠ .robotWorker e) (hl' : ∀ e, l' ≠ .worker e) :
      Shows s (.server l) (.middleware l')
  | controller (ev : RapidEvent) : Shows s (.controller ev) (.controller ev)

/-- The step is nothing to the cell. -/
inductive Hides (s : Plant) : Label → Prop
  | server (l : RobertMiddleware.Label) (hpushed : s.system.pushEvents l = [])
      (hl : ∀ e, l ≠ .robotWorker e) : Hides s (.server l)

theorem afterServer_other {l : RobertMiddleware.Label} {controller : RapidServer}
    (hl : ∀ e, l ≠ .robotWorker e) (h : s.afterServer l = some controller) :
    controller = s.controller := by
  unfold afterServer at h
  split at h
  · exact absurd rfl (hl _)
  · exact (Option.some.inj h).symm

theorem cell_step (hthreads : System.ThreadsOk s.system)
    (h : s.step P R errSockTimeout l = some s') :
    (∃ l', s.Shows l l' ∧ s.cell.step R errSockTimeout l' = some s'.cell) ∨
      s.Hides l ∧ s'.cell = s.cell := by
  cases step_move h with
  | server l system controller hmove hafter =>
    cases System.robotSessions_step hthreads hmove with
    | same hsame hpushed hl =>
      refine .inr ⟨.server l hpushed hl, ?_⟩
      simp only [cell]
      rw [hsame, afterServer_other hl hafter]
    | call l' hsessions hpushed hother =>
      refine .inl ⟨.middleware l', .call l l' hpushed hother.1 hother.2, ?_⟩
      have hno : s.cell.afterMiddleware l' = some s.controller := by
        unfold Cell.afterMiddleware
        split
        · exact absurd rfl (hother.2 _)
        · rfl
      simp only [Cell.step, cell] at hno ⊢
      rw [hsessions, hno, afterServer_other hother.1 hafter]
    | worker e hl hsessions =>
      subst hl
      refine .inl ⟨.middleware (.worker e), .worker e, ?_⟩
      have hsame : s.cell.afterMiddleware (.worker e) = some controller := hafter
      simp only [Cell.step, cell] at hsame ⊢
      rw [hsessions, hsame]
  | controller ev controller hmove =>
    exact .inl ⟨.controller ev, .controller ev, Option.map_eq_some_iff.mpr ⟨controller, hmove, rfl⟩⟩

/-- **A run of the plant is a run of the cell**, with the owner and the task worker as the callers
of the robot connection, for every record that the cell can keep as well. -/
theorem cell_reaches {ω : Type} {obs : Plant → Label → List ω}
    {obs' : Cell → Cell.Label → List ω} {allowed : Plant → Label → Prop}
    {allowed' : Cell → Cell.Label → Prop}
    (hshows : ∀ s l l', Shows s l l' →
      (allowed s l → allowed' s.cell l') ∧ obs' s.cell l' = obs s l)
    (hhides : ∀ s l, Hides s l → obs s l = []) {users : List UserInfo} {vars : Controller}
    {log : List ω}
    (h : Reaches (logged (step P R errSockTimeout) obs) (unlogged allowed)
      (initial users vars, []) (s, log)) :
    Reaches (logged (Cell.step R errSockTimeout) obs') (unlogged allowed')
      (Cell.initial vars, []) (s.cell, log) := by
  refine h.project (I := fun t => System.ThreadsOk t.system) cell
    (System.threadsOk_initial users) (fun t l t' ht hstep => ?_) fun t l t' ht hl hstep => ?_
  · cases step_move hstep with
    | server l system controller hmove => exact ht.step hmove
    | controller => exact ht
  · rcases cell_step ht hstep with ⟨l', hl', hmove⟩ | ⟨hhidden, hsame⟩
    · exact .inl ⟨l', (hshows t l l' hl').1 hl, hmove, (hshows t l l' hl').2⟩
    · exact .inr ⟨hsame, hhides t l hhidden⟩

/-- An orderly step of the plant is one of the cell. -/
theorem Shows.orderly {l' : Cell.Label} (h : s.Shows l l') (horderly : s.Orderly R l) :
    s.cell.Orderly R l' := by
  cases h with
  | worker e => exact horderly
  | call l l' _ _ hl' =>
    unfold Cell.Orderly
    split
    · rename_i heq
      exact absurd (Cell.Label.middleware.inj heq) (hl' _)
    · contradiction
    · trivial
  | controller ev => exact horderly

theorem Shows.pushObs {l' : Cell.Label} (h : s.Shows l l') :
    s.cell.pushObs l' = s.pushObs l := by
  cases h with
  | call l l' hpushed => exact hpushed
  | _ => rfl

theorem Hides.pushObs (h : s.Hides l) : s.pushObs l = [] := by
  cases h with
  | server l hpushed => exact hpushed

theorem answersOk_reaches {users : List UserInfo} {vars : Controller}
    (h : Reaches (logged (step P R errSockTimeout) pushObs) (unlogged (Orderly R))
      (initial users vars, []) (s, queued)) : s.cell.AnswersOk R errSockTimeout queued :=
  Cell.answersOk_reaches (cell_reaches (fun _ _ _ hl => ⟨hl.orderly, hl.pushObs⟩)
    (fun _ _ hl => hl.pushObs) h)

/-- A run of the plant is a run of the server. -/
theorem system_reaches {users : List UserInfo} {vars : Controller} {allowed : Plant → Label → Prop}
    (h : Reaches (logged (step P R errSockTimeout) pushObs) (unlogged allowed)
      (initial users vars, []) (s, queued)) :
    Reaches (logged (System.step P) System.pushEvents) (unlogged always)
      (System.initial users, []) (s.system, queued) := by
  refine h.project (I := fun _ => True) Plant.system trivial (fun _ _ _ _ _ => trivial) ?_
  intro t l t' _ _ hstep
  cases step_move hstep with
  | server l system controller hmove => exact .inl ⟨l, trivial, hmove, rfl⟩
  | controller => exact .inr ⟨rfl, rfl⟩

/-! ### Tasks and responses -/

/-- An error message of the middleware is one. -/
theorem isErrorResponse_of_message {value : Bytes} (h : ascii "ERR: " <+: value) :
    isErrorResponse value = true := by
  have hprefix : ascii "ERR:" <+: value := List.IsPrefix.trans (by decide) h
  rw [isErrorResponse, List.isPrefixOf_iff_prefix.mpr hprefix]
  rfl

/-- A refusal of the controller is an error. -/
theorem isErrorResponse_of_nack {value : Bytes} (h : ascii "NACK|" <+: value) :
    isErrorResponse value = true := by
  have hprefix : ascii "NACK" <+: value := List.IsPrefix.trans (by decide) h
  rw [isErrorResponse, List.isPrefixOf_iff_prefix.mpr hprefix, Bool.or_true]

/-- An acknowledgement is not, nor is the status. -/
theorem isErrorResponse_of_positive {value : Bytes} (h : Rapid.Positive value) :
    isErrorResponse value = false := by
  cases h with
  | ack text =>
    rw [Rapid.ascii_append]
    rfl
  | status c => exact Rapid.isErrorResponse_telemetryBuffer c

/-- The controller has answered a request like this one with `value`, and with nothing else. -/
structure Answered (s : Plant) (request : RapidRequest) (value : Bytes)
    (x : Rapid.Execution) : Prop where
  taken : x ∈ s.controller.taken
  raw : x.raw = request.image
  response : Rapid.responsesOf x.calls = [value]

/-- The answer is an error when the command was not carried out, and only then. -/
theorem Answered.judged {request : RapidRequest} {value : Bytes} {x : Rapid.Execution}
    (h : s.Answered request value x) (hcount : s.controller.CountOk R errSockTimeout) :
    isErrorResponse value = false ∧ (∃ args, Rapid.Passes R request.image args ∧
      Rapid.Done R args x.calls) ∨ isErrorResponse value = true ∧ Rapid.Refusal x.calls := by
  rcases hcount.judged h.taken h.response with ⟨args, hpasses, hdone⟩ | hrefusal
  · refine .inl ⟨?_, args, h.raw ▸ hpasses, hdone⟩
    obtain ⟨pre, ev, bytes, htr, hresponses, hev, hpositive, -⟩ := hdone
    have hone := h.response
    rw [htr, Rapid.responsesOf_snoc, hresponses, hev] at hone
    obtain rfl : bytes = value := by simpa using hone
    exact isErrorResponse_of_positive hpositive
  · have hvalue : value ∈ Rapid.responsesOf x.calls := h.response ▸ List.mem_singleton_self _
    exact .inr ⟨isErrorResponse_of_nack (hrefusal.nack value hvalue), hrefusal⟩

/-- **A task says what the robot has done.** In every run in which the network returns requests and
responses as a whole and no call upsets the count of the responses: for a `COMPLETED` task the
controller has carried out a request like the one of the task, once, and the response of the task is
its acknowledgement or status. For a `FAILED` task the message is that the robot was disconnected,
which is also said when no answer came in ninety seconds, or there is an error message of the
middleware, or the response is a refusal of such a request, of which the controller has carried out
nothing. -/
theorem tasks_reaches {users : List UserInfo} {vars : Controller}
    (h : Reaches (logged (step P R errSockTimeout) pushObs) (unlogged (Orderly R))
      (initial users vars, []) (s, queued)) {id : TaskId} {task : Task}
    (htask : s.system.shared.tasker.getTask id = some task) :
    (task.state = .completed → ∃ x args, s.Answered task.request task.response x ∧
      Rapid.Passes R task.request.image args ∧ Rapid.Done R args x.calls) ∧
    (task.state = .failed → task.response = ascii "Robot disconnected" ∨
      ∃ value, task.response = ascii "Robot error: " ++ value ∧ (ascii "ERR: " <+: value ∨
        ∃ x, s.Answered task.request value x ∧ Rapid.Refusal x.calls)) := by
  have hanswers := answersOk_reaches h
  have hresponses := (System.responsesOk_reaches (system_reaches h)).1
  -- a value on a promise of the task, from the controller
  have hgot : ∀ {value}, s.system.Got id value →
      ascii "ERR: " <+: value ∨ ∃ x, s.Answered task.request value x := by
    rintro value ⟨p, hpromised, hvalue⟩
    obtain ⟨req, hreq, hrequested⟩ := hresponses.promised p id hpromised
    refine (hanswers.answer_of_mem hvalue).imp_right ?_
    rintro ⟨request, hrequest, x, hx, hraw, hone⟩
    obtain rfl := Option.some.inj (hreq.symm.trans hrequest)
    exact ⟨x, hx, hrequested.2 task htask ▸ hraw, hone⟩
  constructor
  · intro hstate
    cases hresponses.ended id task htask (by rw [hstate]; rfl) with
    | completed _ hvalue hvalueOf =>
      rcases hgot hvalueOf with hmessage | ⟨x, hx⟩
      · cases hvalue.symm.trans (isErrorResponse_of_message hmessage)
      rcases hx.judged hanswers.count with ⟨-, args, hpasses, hdone⟩ | ⟨herror, -⟩
      · exact ⟨x, args, hx, hpasses, hdone⟩
      · cases hvalue.symm.trans herror
    | refused value hfailed => cases hstate.symm.trans hfailed
    | disconnected hfailed => cases hstate.symm.trans hfailed
  · intro hstate
    cases hresponses.ended id task htask (by rw [hstate]; rfl) with
    | completed hcompleted => cases hstate.symm.trans hcompleted
    | refused value _ hvalue hvalueOf hresponse =>
      refine .inr ⟨value, hresponse, (hgot hvalueOf).imp_right ?_⟩
      rintro ⟨x, hx⟩
      rcases hx.judged hanswers.count with ⟨hfine, -⟩ | ⟨-, hrefusal⟩
      · cases hvalue.symm.trans hfine
      · exact ⟨x, hx, hrefusal⟩
    | disconnected _ hresponse => exact .inl hresponse

/-! ### The speed and the zone in effect -/

/-- A step of the server leaves the controller's work alone. -/
theorem afterServer_sameWork {l : RobertMiddleware.Label} {controller : RapidServer}
    (h : s.afterServer l = some controller) : s.controller.SameWork controller := by
  by_cases hl : ∃ e, l = .robotWorker e
  · obtain ⟨e, rfl⟩ := hl
    exact (RapidServer.afterWorker_eq h).2
  · rw [afterServer_other (fun e he => hl ⟨e, he⟩) h]
    exact ⟨rfl, rfl, rfl, rfl⟩

/-- **Motions and reports have the settings in effect.** In every run of both sides, whatever fails
but the sends of the controller: the speed and the zone of the controller are those that were set
last, and every motion that it has issued and every status that it has sent had the speed and the
zone that were set last before. -/
theorem settings_reaches {users : List UserInfo} {vars : Controller}
    (h : Reaches (step P R errSockTimeout) always (initial users vars) s) :
    s.controller.vars.settings = Rapid.settingsAfter vars.settings s.controller.record ∧
      ∀ pre ev post, s.controller.record = pre ++ ev :: post →
        Rapid.RapidOp.Uses (Rapid.settingsAfter vars.settings pre) ev.1 := by
  have hs : s.controller.SettingsOk vars.settings := by
    refine h.invariant (I := fun t => t.controller.SettingsOk vars.settings)
      (RapidServer.settingsOk_initial vars) ?_
    rintro t l t' ht - hstep
    cases step_move hstep with
    | server l system controller _ hafter =>
      have hsame := afterServer_sameWork hafter
      refine ht.congr (congrArg Controller.settings hsame.vars) ?_
        fun _ _ _ _ _ => .inl hsame.pc.symm
      rw [RapidServer.record, hsame.taken]
      rfl
    | controller ev controller hmove => exact ht.step hmove
  exact ⟨hs.vars, hs.used⟩

/-! ### A run -/

/-- `alice` sends the robot to its zero position, and the robot goes there. -/
def zeroLabels : List Label :=
  (System.acquireLabels ++ System.connectLabels ++
    SessionManager.serve (System.robotRequest .zero "t") "u" 9 ++ System.executeLabels).map
      .server ++
    [.server (.robotWorker (.sent 188)), .controller .accept,
      .controller (.receive Rapid.zeroRequest.image)] ++
    List.replicate 5 (.controller Cell.benchCall) ++
    [.controller .advance, .server (.robotWorker (.received (ascii "ACK|ZERO"))),
      .server (.robotWorker .advance), .server (.taskWorker .advance),
      .server (.taskWorker .advance)]

theorem tasks_reaches_zero :
    ∃ s queued task, Reaches (logged (step .linux .bench 0) pushObs) (unlogged (Orderly .bench))
      (initial SessionManager.aliceOnly .bench, []) (s, queued) ∧
      s.system.shared.tasker.getTask 1 = some task ∧ task.request = Rapid.zeroRequest ∧
      task.response = ascii "ACK|ZERO" ∧ ∃ x args, s.Answered task.request task.response x ∧
        Rapid.Passes .bench task.request.image args ∧ Rapid.Done .bench args x.calls := by
  have hrun : (runLabels (logged (step .linux .bench 0) pushObs) (unlogged (Orderly .bench))
      (initial SessionManager.aliceOnly .bench, []) zeroLabels).any fun s =>
        (s.1.system.shared.tasker.getTask 1).any fun task => task.state = .completed ∧
          task.request = Rapid.zeroRequest ∧ task.response = ascii "ACK|ZERO" := by
    decide +kernel
  obtain ⟨⟨s, queued⟩, hs, hany⟩ := Option.any_eq_true .. |>.mp hrun
  obtain ⟨task, htask, hend⟩ := Option.any_eq_true .. |>.mp hany
  obtain ⟨hstate, hrequest, hresponse⟩ := of_decide_eq_true hend
  exact ⟨s, queued, task, .of_runLabels hs, htask, hrequest, hresponse,
    (tasks_reaches (.of_runLabels hs) htask).1 hstate⟩

/-- The next call is answered by a robot at rest, whose speed was set to 250. -/
def fastCall : Rapid.RapidEvent :=
  let vars : Controller := { Controller.bench with moveSpeed := .ofNat 250 }
  .call (fun op => (Rapid.rapidStep (fun _ => none) op vars).1) vars

/-- The request to set the speed to 250. -/
def speedRequest : RapidRequest :=
  { RapidRequest.zero with commandId := RapidCommandType.setSpeed.toUInt8, speed := 250 }

/-- The controller is done with a request, and the task worker with its task. -/
def finishLabels (response : String) : List Label :=
  [.controller .advance, .server (.robotWorker (.received (ascii response))),
    .server (.robotWorker .advance), .server (.taskWorker .advance), .server (.taskWorker .advance)]

/-- `alice` sets the speed and sends the robot to its zero position. -/
def speedLabels : List Label :=
  (System.acquireLabels ++ System.connectLabels ++
    SessionManager.serve { System.robotRequest .setSpeed "t" with speed := .ofNat 250 } "u" 9 ++
    SessionManager.serve (System.robotRequest .zero "t") "u" 9 ++ System.executeLabels).map
      .server ++
    [.server (.robotWorker (.sent 188)), .controller .accept,
      .controller (.receive speedRequest.image)] ++
    [Cell.benchCall, Cell.benchCall, fastCall, fastCall].map .controller ++
    finishLabels "ACK|SetSpeed" ++
    List.replicate 2 (.server (.robotWorker .advance)) ++ System.executeLabels.map .server ++
    [.server (.robotWorker (.sent 188)), .controller (.receive Rapid.zeroRequest.image)] ++
    List.replicate 5 (.controller fastCall) ++ finishLabels "ACK|ZERO"

theorem settings_reaches_speed :
    ∃ s, Reaches (step .linux .bench 0) always (initial SessionManager.aliceOnly .bench) s ∧
      ∃ pre r post, s.controller.record =
        pre ++ ⟨.primitive (.moveAbsJ Rapid.zeroTarget (.ofNat 250) .fine), r⟩ :: post ∧
        (Single.ofNat 250, .fine) = Rapid.settingsAfter Controller.bench.settings pre := by
  have hrun : (runLabels (step .linux .bench 0) always (initial SessionManager.aliceOnly .bench)
      speedLabels).any fun s => (s.controller.record.map Sigma.fst).contains
        (.primitive (.moveAbsJ Rapid.zeroTarget (.ofNat 250) .fine)) := by
    decide +kernel
  obtain ⟨s, hs, hmoved⟩ := Option.any_eq_true .. |>.mp hrun
  obtain ⟨⟨op, r⟩, hev, rfl⟩ := List.mem_map.mp (List.contains_iff_mem.mp hmoved)
  obtain ⟨pre, post, hrecord⟩ := List.append_of_mem hev
  exact ⟨s, .of_runLabels hs, pre, r, post, hrecord,
    (settings_reaches (.of_runLabels hs)).2 pre _ post hrecord⟩

end Plant

end RobertMiddleware
