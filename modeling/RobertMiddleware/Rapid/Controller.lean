import RobertMiddleware.Internal.Effects
import RobertMiddleware.Rapid.Values

/-!
# The controller

What a RAPID routine can do, as calls: the instructions and functions of the system, the two ways
of answering the client, and the variables that outlive a request. A routine is a program over
these calls whose exceptions are values of `ERRNO`; an error raised in a routine goes to its
`ERROR` clause, and without one to the caller, which is what `Prog.tryCatch` and `Prog.bind` do.

The client stays connected and the sends succeed: the branch of `SendResponse` and
`SendBinaryResponse` for a client that is gone, and the errors of `SocketSend`, are left out. What
is proved about the controller is proved under this assumption.

The module variables that are written before every use (`parsed_target`, `tempRobTarget`, …) are
locals here. Texts for the operator (`TPWrite`) are left out, except for the system functions
evaluated in them.
-/

namespace RobertMiddleware

namespace Rapid

open Effects

/-- What the RAPID sources take from the system. -/
structure RapidSystem where
  /-- `ERR_ROBLIMIT`. -/
  errRobLimit : Errno
  /-- Raised by a function that ends without a value. -/
  errFncNoRet : Errno
  /-- Raised by the use of an optional argument that is not present. -/
  errNotPresent : Errno
  /-- `Offs`. -/
  offs : RobTarget → Single → Single → Single → RobTarget

/-- A system for tests: `Offs` ignores the displacement. -/
def RapidSystem.bench : RapidSystem where
  errRobLimit := 1135
  errFncNoRet := 1129
  errNotPresent := 1170
  offs t _ _ _ := t

/-- The instructions and functions of the system that may raise an error. The robot moves with
the active tool `tool0`. -/
inductive Primitive
  | calcJointT (target : RobTarget)
  | calcRobT (target : JointTarget)
  | moveL (toPoint : RobTarget) (speed : Single) (zone : Zone)
  | moveJ (toPoint : RobTarget) (speed : Single) (zone : Zone)
  | moveAbsJ (toPoint : JointTarget) (speed : Single) (zone : Zone)
  | moveC (cirPoint toPoint : RobTarget) (speed : Single) (zone : Zone)
  | cRobT
  | cJointT
  | cSpeedOverride
  | maxRobSpeed
  | cTime
  | cDate
  | clearPath
deriving DecidableEq

/-- What a primitive returns. `CTime` is `HH:MM:SS` and `CDate` is `YYYY-MM-DD`. -/
@[reducible] def Primitive.Answer : Primitive → Type
  | .calcJointT _ => JointTarget
  | .calcRobT _ => RobTarget
  | .cRobT => RobTarget
  | .cJointT => JointTarget
  | .cSpeedOverride => Single
  | .maxRobSpeed => Single
  | .cTime => Vector UInt8 8
  | .cDate => Vector UInt8 10
  | .moveL .. | .moveJ .. | .moveAbsJ .. | .moveC .. | .clearPath => Unit

/-- The calls of a routine. -/
inductive RapidOp
  | sendResponse (msg : String)
  | sendBinaryResponse (raw : Bytes)
  | primitive (p : Primitive)
  | moveSpeed
  | setMoveSpeed (vTcp : Single)
  | moveZone
  | setMoveZone (zone : Zone)
deriving DecidableEq

/-- A primitive answers with its value or with the number of an error. -/
@[reducible] def RapidOp.Ret : RapidOp → Type
  | .primitive p => Except Errno p.Answer
  | .moveSpeed => Single
  | .moveZone => Zone
  | .sendResponse _ | .sendBinaryResponse _ | .setMoveSpeed _ | .setMoveZone _ => Unit

abbrev RapidCalls : Signature := ⟨RapidOp, RapidOp.Ret⟩

/-- A routine without parameters that returns an `α`. -/
abbrev Routine (α : Type) := Prog RapidCalls Errno α

/-- Go on with the value, or raise the error. -/
def orRaise {α : Type} : Except Errno α → Routine α
  | .ok a => .pure a
  | .error e => .throw e

/-- Call a primitive; its error is raised in the calling routine. -/
def attempt (p : Primitive) : Routine p.Answer :=
  .call (.primitive p) orRaise

def sendResponse (msg : String) : Routine Unit := Prog.perform (S := RapidCalls) (.sendResponse msg)

def sendBinaryResponse (raw : Bytes) : Routine Unit :=
  Prog.perform (S := RapidCalls) (.sendBinaryResponse raw)

/-- `move_speed.v_tcp`. -/
def moveSpeed : Routine Single := Prog.perform (S := RapidCalls) .moveSpeed

def setMoveSpeed (vTcp : Single) : Routine Unit :=
  Prog.perform (S := RapidCalls) (.setMoveSpeed vTcp)

/-- `move_zone`. -/
def moveZone : Routine Zone := Prog.perform (S := RapidCalls) .moveZone

def setMoveZone (zone : Zone) : Routine Unit := Prog.perform (S := RapidCalls) (.setMoveZone zone)

theorem calls_attempt {C : RapidOp → Prop} {p : Primitive} (h : C (.primitive p)) :
    (attempt p).Calls C :=
  ⟨h, fun r => match r with
    | .ok _ => trivial
    | .error _ => trivial⟩

theorem calls_perform {C : RapidOp → Prop} {op : RapidOp} (h : C op) :
    (Prog.perform (S := RapidCalls) op : Routine op.Ret).Calls C := ⟨h, fun _ => trivial⟩

/-! ### States -/

/-- The variables of the program, and what the status functions report. -/
structure Controller where
  /-- `move_speed.v_tcp`. -/
  moveSpeed : Single
  moveZone : Zone
  speedOverride : Single
  robTarget : RobTarget
  jointTarget : JointTarget
  /-- What `CTime` reports. -/
  time : Vector UInt8 8
  /-- What `CDate` reports. -/
  date : Vector UInt8 10
deriving DecidableEq

/-- The variables as `MainModule` declares them (`v100`, `fine`), with the robot in its zero
position at midnight. -/
def Controller.bench : Controller where
  moveSpeed := Single.ofNat 100
  moveZone := .fine
  speedOverride := Single.ofNat 100
  robTarget :=
    ⟨⟨Single.ofNat 450, default, Single.ofNat 500⟩, ⟨default, default, default, default⟩,
      ⟨0, 0, 0, 0⟩, ⟨default, default, default, default, default, default⟩⟩
  jointTarget :=
    ⟨⟨default, default, default, default, default, default⟩,
      ⟨default, default, default, default, default, default⟩⟩
  time := #v[48, 48, 58, 48, 48, 58, 48, 48]
  date := #v[50, 48, 50, 54, 45, 48, 49, 45, 48, 49]

/-- What a primitive that succeeds may answer. The status functions report the state; nothing is
said about the others. -/
def Primitive.Reports (c : Controller) : (p : Primitive) → p.Answer → Prop
  | .cRobT, t => t = c.robTarget
  | .cJointT, j => j = c.jointTarget
  | .cSpeedOverride, s => s = c.speedOverride
  | .cTime, t => t = c.time
  | .cDate, d => d = c.date
  | _, _ => True

/-- The instructions that move the robot. -/
def Primitive.moves : Primitive → Bool
  | .moveL .. | .moveJ .. | .moveAbsJ .. | .moveC .. => true
  | _ => false

/-- What a call answers and what it does to the state. A primitive may fail with any error, and a
motion may end anywhere. The client stays connected and takes every response. -/
def rapidSem : Semantics RapidCalls Controller
  | .sendResponse _, c, _, c' | .sendBinaryResponse _, c, _, c' => c' = c
  | .primitive p, c, r, c' => (∀ a, r = .ok a → p.Reports c a) ∧
      ∃ t j, c' = if p.moves then { c with robTarget := t, jointTarget := j } else c
  | .moveSpeed, c, v, c' => v = c.moveSpeed ∧ c' = c
  | .setMoveSpeed v, c, _, c' => c' = { c with moveSpeed := v }
  | .moveZone, c, z, c' => z = c.moveZone ∧ c' = c
  | .setMoveZone z, c, _, c' => c' = { c with moveZone := z }

/-- Answers of a robot that stays where it is. -/
def Primitive.answer (c : Controller) : (p : Primitive) → p.Answer
  | .calcJointT _ => c.jointTarget
  | .calcRobT _ => c.robTarget
  | .cRobT => c.robTarget
  | .cJointT => c.jointTarget
  | .cSpeedOverride => c.speedOverride
  | .maxRobSpeed => Single.ofNat 7000
  | .cTime => c.time
  | .cDate => c.date
  | .moveL .. | .moveJ .. | .moveAbsJ .. | .moveC .. | .clearPath => ()

theorem Primitive.reports_answer (c : Controller) (p : Primitive) : p.Reports c (p.answer c) := by
  cases p <;> first | rfl | trivial

/-- A robot that stays where it is, whose primitives fail as `outcome` says. -/
def rapidStep (outcome : Primitive → Option Errno) :
    (op : RapidOp) → Controller → op.Ret × Controller
  | .sendResponse _, c | .sendBinaryResponse _, c => ((), c)
  | .primitive p, c =>
    match outcome p with
    | some e => (.error e, c)
    | none => (.ok (p.answer c), c)
  | .moveSpeed, c => (c.moveSpeed, c)
  | .setMoveSpeed v, c => ((), { c with moveSpeed := v })
  | .moveZone, c => (c.moveZone, c)
  | .setMoveZone z, c => ((), { c with moveZone := z })

theorem rapidSem_rapidStep (outcome : Primitive → Option Errno) (op : RapidOp) (c : Controller) :
    rapidSem op c (rapidStep outcome op c).1 (rapidStep outcome op c).2 := by
  cases op with
  | primitive p =>
    simp only [rapidSem, rapidStep]
    split
    · exact ⟨nofun, c.robTarget, c.jointTarget, by simp⟩
    · refine ⟨?_, c.robTarget, c.jointTarget, by simp⟩
      rintro _ ⟨⟩
      exact p.reports_answer c
  | _ => simp [rapidSem, rapidStep]

/-- What happens between two calls: the robot moves, the override is turned and time passes, but
the variables belong to the program. -/
def Controller.Drift (c c' : Controller) : Prop :=
  c'.moveSpeed = c.moveSpeed ∧ c'.moveZone = c.moveZone

theorem Controller.Drift.refl (c : Controller) : c.Drift c := ⟨rfl, rfl⟩

end Rapid

end RobertMiddleware
