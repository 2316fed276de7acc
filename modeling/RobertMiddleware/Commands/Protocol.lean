import RobertMiddleware.Core.Data

/-!
# The client protocol

The messages of `protocol.proto`, as far as the sources read and write them. The proto file
itself is a submodule and its code is generated, so parsing and serialising are a parameter
(`Protobuf`) of everything that uses them. An enum of the protocol is open: a client may send a
number that has no name.

`Platform` collects what the C++ sources leave to the platform they run on.
-/

namespace RobertMiddleware

/-! ### Requests -/

/-- `protocol::CommandType`. -/
inductive CommandType
  | moveL | moveJ | moveC | moveAbsJ | setSpeed | setZone | exit | ping | pingR | zero
  | getStatus | checkTask | login | logout | acquire | release | moveLOffs | moveJOffs
  | other (n : ℤ)
deriving DecidableEq

/-- `protocol::Zone`. -/
inductive ProtoZone
  | fine | z1 | z5 | z10 | z15 | z20 | z30
  | other (n : ℤ)
deriving DecidableEq

structure Position where
  x : Single
  y : Single
  z : Single
deriving DecidableEq

structure Orientation where
  q1 : Single
  q2 : Single
  q3 : Single
  q4 : Single
deriving DecidableEq

structure ConfData where
  cf1 : Int32
  cf4 : Int32
  cf6 : Int32
  cfx : Int32
deriving DecidableEq

structure ExtJoint where
  eaxA : Single
  eaxB : Single
  eaxC : Single
  eaxD : Single
  eaxE : Single
  eaxF : Single
deriving DecidableEq

structure RobJointValues where
  rax1 : Single
  rax2 : Single
  rax3 : Single
  rax4 : Single
  rax5 : Single
  rax6 : Single
deriving DecidableEq

/-- `protocol::RobTarget`. -/
structure RobTarget where
  trans : Position
  rot : Orientation
  robconf : ConfData
  extax : ExtJoint
deriving DecidableEq

/-- `protocol::JointTarget`. -/
structure JointTarget where
  robjoint : RobJointValues
  extjoint : ExtJoint
deriving DecidableEq

/-- `protocol::ClientRequest`. A message field may be absent; a scalar or string field that was
not sent has its default. -/
structure ClientRequest where
  command : CommandType
  target : Option RobTarget := none
  extraTarget : Option RobTarget := none
  jointTarget : Option JointTarget := none
  speed : Single := default
  zone : ProtoZone := .fine
  taskId : ℕ := 0
  sessionToken : Bytes := []
  username : Bytes := []
  password : Bytes := []
deriving DecidableEq

/-! ### Responses -/

/-- `protocol::ResponseStatus`. -/
inductive ResponseStatus
  | success | error | warning
deriving DecidableEq

/-- `protocol::TaskStatus`. -/
inductive TaskStatus
  | taskPending | taskInProgress | taskCompleted | taskFailed
deriving DecidableEq

/-- `protocol::RobotStatus`; the two enum fields hold whatever number was stored. -/
structure RobotStatus where
  opMode : ℤ := 0
  speedOverride : Single := default
  currentSpeed : Single := default
  currentZone : ℤ := 0
  currentTarget : RobTarget :=
    ⟨⟨default, default, default⟩, ⟨default, default, default, default⟩, ⟨0, 0, 0, 0⟩,
      ⟨default, default, default, default, default, default⟩⟩
  currentJointTarget : JointTarget :=
    ⟨⟨default, default, default, default, default, default⟩,
      ⟨default, default, default, default, default, default⟩⟩
  robotTime : Bytes := []
  robotDate : Bytes := []
deriving DecidableEq

/-- `protocol::ServerResponse`; `none` is a field that was never set. -/
structure ServerResponse where
  status : Option ResponseStatus := none
  errorMessage : Bytes := []
  textPayload : Bytes := []
  taskStatus : Option TaskStatus := none
  taskId : ℕ := 0
  robotStatus : Option RobotStatus := none
deriving DecidableEq

/-! ### What the sources do not fix -/

/-- The generated code: `ParseFromString` fails on bytes that are not a message,
`SerializeToString` fails on a message it cannot encode. -/
structure Protobuf where
  parseFromString : Bytes → Option ClientRequest
  serializeToString : ServerResponse → Option Bytes

/-- What the C++ sources leave to the platform. -/
structure Platform where
  /-- The error number `EAGAIN`. -/
  eagain : ℕ
  eagain_pos : 0 < eagain
  /-- What a `float` that does not fit converts to. -/
  uint16OfFloat : Single → UInt16
  intOfFloat : Single → Int32
  /-- What lies in memory behind the last byte of a vector. -/
  pastEnd : Bytes → ℕ → UInt8

/-- Linux, with zero for everything that is not specified. -/
def Platform.linux : Platform where
  eagain := 11
  eagain_pos := by decide
  uint16OfFloat := fun _ => 0
  intOfFloat := fun _ => 0
  pastEnd := fun _ _ => 0

/-- `static_cast<uint16_t>` of a `float`. -/
def Platform.toUint16 (P : Platform) (s : Single) : UInt16 :=
  if 0 ≤ s.trunc ∧ s.trunc < 2 ^ 16 then UInt16.ofNat s.trunc.toNat else P.uint16OfFloat s

/-- `static_cast` of a `float` to an enum, whose values are those of an `int`. -/
def Platform.toEnum (P : Platform) (s : Single) : ℤ :=
  if -2 ^ 31 ≤ s.trunc ∧ s.trunc < 2 ^ 31 then s.trunc else (P.intOfFloat s).toInt

end RobertMiddleware
