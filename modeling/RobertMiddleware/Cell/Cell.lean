import RobertMiddleware.Rapid.Server
import RobertMiddleware.Robot.Framing

/-!
# The robot cell

The robot connection of the middleware with the controller at the other end, and the connections
between them. A connection is a byte stream in each direction. `send` puts bytes on it, `recv` and
`SocketReceive` take some first part of what is there. The sends of the controller succeed.

The sides know of each other only what comes over the connections. A connection that the middleware
has closed may still be served by the controller, which then ends it with an error of
`SocketReceive`; the middleware may have made the next one before that.

## Main definitions

* `RapidServer.afterWorker` — what a step of the robot's worker thread does at the other end
* `Cell.step` — one step of one of the sides
* `Cell.wireObs` — the record of what the worker thread does on the wire

## Main results

* `Cell.connection_reaches` — a run of the cell is a run of the robot connection
-/

namespace RobertMiddleware

open Effects Transition
open Rapid (Controller Errno RapidEvent RapidServer RapidSystem)

namespace Rapid.RapidServer

/-- What a step of the robot's worker thread in `r` does to the connection that it uses, if the
connection allows it. -/
def afterWorker (r : Robot) (e : WorkerEvent) (s : RapidServer) :
    Option RapidServer :=
  match e, r.worker, r.socketFd with
  | .sent n, .sending item sent, some fd =>
    some { s with
      requests := Function.update s.requests fd
        (s.requests fd ++ (item.command.image.drop sent).take n) }
  | .received bytes, .receiving _, some fd =>
    if bytes <+: s.responses fd then
      some { s with
        responses := Function.update s.responses fd ((s.responses fd).drop bytes.length) }
    else none
  | _, _, _ => some s

/-- Two states that differ only in what is on the connections. -/
structure SameWork (s s' : RapidServer) : Prop where
  vars : s'.vars = s.vars
  pc : s'.pc = s.pc
  accepted : s'.accepted = s.accepted
  executions : s'.executions = s.executions

theorem SameWork.taken {s s' : RapidServer} (h : s.SameWork s') :
    s'.taken = s.taken := by
  rw [RapidServer.taken, RapidServer.taken, h.pc, h.executions]

theorem SameWork.received {s s' : RapidServer} (h : s.SameWork s') :
    s'.received = s.received := by
  rw [RapidServer.received, RapidServer.received, h.taken]

theorem SameWork.conns {s s' : RapidServer} {made : ℕ} (h : s.SameWork s')
    (hs : s.ConnsOk made) : s'.ConnsOk made := by
  refine ⟨h.accepted ▸ hs.made, ?_, ?_, ?_⟩
  · rw [h.pc, h.accepted]
    exact hs.conn
  · rw [h.received, h.accepted]
    exact hs.below
  · rw [h.received]
    exact hs.sorted

theorem SameWork.executed {s s' : RapidServer} {R : RapidSystem}
    {errSockTimeout : Errno} (h : s.SameWork s') (hs : s.ExecutedOk R errSockTimeout) :
    s'.ExecutedOk R errSockTimeout := by
  refine ⟨?_, ?_⟩
  · rw [h.executions]
    exact hs.executions
  · rw [h.pc, h.vars]
    exact hs.current

end Rapid.RapidServer

structure Cell where
  sessions : RobotSessions := {}
  controller : RapidServer

namespace Cell

inductive Label
  | middleware (l : RobotSessions.Label)
  | controller (ev : RapidEvent)

/-- The controller after a step of the middleware. -/
def afterMiddleware (s : Cell) : RobotSessions.Label → Option RapidServer
  | .worker e => s.controller.afterWorker s.sessions.robot e
  | _ => some s.controller

/-- One step. -/
def step (R : RapidSystem) (errSockTimeout : Errno) (s : Cell) : Label → Option Cell
  | .middleware l =>
    match s.sessions.step l, s.afterMiddleware l with
    | some sessions, some controller => some { sessions, controller }
    | _, _ => none
  | .controller ev =>
    (s.controller.step R errSockTimeout s.sessions.robot.nextFd ev).map fun controller =>
      { s with controller }

/-- The controller waits for its first connection. -/
def initial (vars : Controller) : Cell where
  controller := { vars }

/-- What is seen of the worker thread on the wire. -/
def wireObs (s : Cell) : Label → List WireEvent
  | .middleware l => s.sessions.wireObs l
  | .controller _ => []

/-! ### What a step can do -/

/-- The steps of the two sides. -/
inductive Move (R : RapidSystem) (errSockTimeout : Errno) (s : Cell) : Label → Cell → Prop
  | middleware (l : RobotSessions.Label) (sessions : RobotSessions) (controller : RapidServer)
      (hmove : s.sessions.step l = some sessions)
      (hafter : s.afterMiddleware l = some controller) :
      Move R errSockTimeout s (.middleware l) { sessions, controller }
  | controller (ev : RapidEvent) (controller : RapidServer)
      (hmove : s.controller.step R errSockTimeout s.sessions.robot.nextFd ev = some controller) :
      Move R errSockTimeout s (.controller ev) { s with controller }

variable {R : RapidSystem} {errSockTimeout : Errno} {s s' : Cell} {l : Label}

theorem step_move (h : s.step R errSockTimeout l = some s') : s.Move R errSockTimeout l s' := by
  cases l with
  | middleware l =>
    rw [step] at h
    split at h
    · rename_i sessions controller hmove hafter
      obtain rfl := Option.some.inj h
      exact .middleware l sessions controller hmove hafter
    · cases h
  | controller ev =>
    obtain ⟨controller, hmove, rfl⟩ := Option.map_eq_some_iff.mp h
    exact .controller ev controller hmove

/-- **A run of the cell is a run of the robot connection**, with the same record. -/
theorem connection_reaches {allowed : Cell → Label → Prop} {vars : Controller}
    {log : List WireEvent}
    (h : Reaches (logged (step R errSockTimeout) wireObs) (unlogged allowed) (initial vars, [])
      (s, log)) :
    Reaches (logged RobotSessions.step RobotSessions.wireObs) (unlogged always)
      (RobotSessions.initial, []) (s.sessions, log) := by
  refine h.project (I := fun _ => True) Cell.sessions trivial (fun _ _ _ _ _ => trivial) ?_
  intro t l t' _ _ hstep
  cases step_move hstep with
  | middleware l sessions controller hmove => exact .inl ⟨l, trivial, hmove, rfl⟩
  | controller => exact .inr ⟨rfl, rfl⟩

end Cell

/-- The connections made so far do not become fewer. -/
theorem WireMove.nextFd_le {r r' : Robot} {es : List WireEvent} (h : WireMove r es r') :
    r.nextFd ≤ r'.nextFd := by
  cases h with
  | connect => exact Nat.le_succ _
  | quiet hnext | take _ hnext | close hnext => exact hnext.ge
  | _ => exact le_rfl

end RobertMiddleware
