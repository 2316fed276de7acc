import RobertMiddleware.Commands.Protocol

/-!
# Commands and the request sent to the robot

`src/commands/commands.{hpp,cpp}`: the command and zone enums, the decoded form of a client's
request, and `create_rapid_request`, which turns it into the packed 188-byte `RapidRequest`.
-/

namespace RobertMiddleware

open ByteLayout

/-- `RapidCommandType`, one byte each. -/
inductive RapidCommandType
  | moveL | moveJ | moveC | moveAbsJ | setSpeed | setZone | exit | ping | pingR | zero
  | getStatus | checkTask | login | logout | acquire | release | moveLOffs | moveJOffs
  | unknown
deriving DecidableEq

/-- The value of the enumerator. -/
def RapidCommandType.toUInt8 : RapidCommandType → UInt8
  | .moveL => 0x00
  | .moveJ => 0x01
  | .moveC => 0x02
  | .moveAbsJ => 0x03
  | .setSpeed => 0x04
  | .setZone => 0x05
  | .exit => 0x06
  | .ping => 0x07
  | .pingR => 0x08
  | .zero => 0x09
  | .getStatus => 0x0A
  | .checkTask => 0x0B
  | .login => 0x0C
  | .logout => 0x0D
  | .acquire => 0x0E
  | .release => 0x0F
  | .moveLOffs => 0x10
  | .moveJOffs => 0x11
  | .unknown => 0xFF

/-- `RapidZone`. -/
inductive RapidZone
  | fine | z1 | z5 | z10 | z15 | z20 | z30
deriving DecidableEq

/-- The value of the enumerator, as `static_cast<uint8_t>` gives it. -/
def RapidZone.toUInt8 : RapidZone → UInt8
  | .fine => 0
  | .z1 => 1
  | .z5 => 2
  | .z10 => 3
  | .z15 => 4
  | .z20 => 5
  | .z30 => 6

/-- `RapidRequest`, packed. -/
structure RapidRequest where
  commandId : UInt8
  zone : UInt8
  speed : UInt16
  target : RapidRobTarget
  extraTarget : RapidRobTarget
  jointTarget : RapidJointTarget
deriving DecidableEq

/-- The zeroed structure that `create_rapid_request` starts from. -/
def RapidRequest.zero : RapidRequest := ⟨0, 0, 0, .zero, .zero, .zero⟩

/-- The fields in front of the operands. -/
def RapidRequest.header (r : RapidRequest) : Bytes :=
  [r.commandId, r.zone] ++ leBytes 2 r.speed.toNat

/-- The words of the operands. -/
def RapidRequest.words (r : RapidRequest) : List (BitVec 32) :=
  r.target.words ++ (r.extraTarget.words ++ r.jointTarget.words)

/-- The bytes that `send` is given. -/
def RapidRequest.image (r : RapidRequest) : Bytes := r.header ++ wordsBytes r.words

@[simp] theorem RapidRequest.length_header (r : RapidRequest) : r.header.length = 4 := by
  simp [header]

@[simp] theorem RapidRequest.length_words (r : RapidRequest) : r.words.length = 46 := rfl

/-- `sizeof(RapidRequest)`. -/
@[simp] theorem RapidRequest.length_image (r : RapidRequest) : r.image.length = 188 := by
  simp [image]

/-- `DecodedRequest`, with its member initialisers. -/
structure DecodedRequest where
  cmdType : RapidCommandType := .unknown
  target : Option RobTargetBridge := none
  extraTarget : Option RobTargetBridge := none
  jointTarget : Option JointTargetBridge := none
  taskId : Option ℕ := none
  speed : Single := default
  zone : RapidZone := .fine
  sessionToken : Option Bytes := none
  username : Option Bytes := none
  password : Option Bytes := none
deriving DecidableEq

/-- The commands whose first target is encoded. -/
def RapidCommandType.usesTarget (c : RapidCommandType) : Bool :=
  c = .moveL || c = .moveJ || c = .moveC || c = .moveLOffs || c = .moveJOffs

/-- `create_rapid_request`; the error is the text of the `std::invalid_argument`. -/
def createRapidRequest (P : Platform) (decoded : DecodedRequest) :
    Except String RapidRequest := do
  let msg := { RapidRequest.zero with commandId := decoded.cmdType.toUInt8 }
  if decoded.cmdType = .unknown then
    return msg
  let msg ← if decoded.cmdType.usesTarget then
      match decoded.target with
      | some t => .ok { msg with target := t.toRapid }
      | none => .error "MoveL, MoveJ, and MoveC commands require target data."
    else .ok msg
  let msg ← if decoded.cmdType = .moveC then
      match decoded.extraTarget with
      | some t => .ok { msg with extraTarget := t.toRapid }
      | none => .error "MoveC command requires a second target."
    else .ok msg
  let msg ← if decoded.cmdType = .moveAbsJ then
      match decoded.jointTarget with
      | some t => .ok { msg with jointTarget := t.toRapid }
      | none => .error "MoveAbsJ command requires joint data."
    else .ok msg
  let msg := if decoded.cmdType = .setSpeed then
      { msg with speed := P.toUint16 decoded.speed } else msg
  let msg := if decoded.cmdType = .setZone then
      { msg with zone := decoded.zone.toUInt8 } else msg
  return msg

end RobertMiddleware
