import RobertMiddleware.Commands.Commands
import RobertMiddleware.Internal.Effects

/-!
# Decoding

`src/commands/decoder.{hpp,cpp}`: from the client's protobuf message to a `DecodedRequest`, and
from the robot's telemetry bytes to a `RobotStatus`.

`unpack_robot_status` reads raw memory, so it is a program whose calls are its reads: an offset
and a width each. Running it on a vector answers a read with the bytes in memory there, whether or
not they belong to the vector.
-/

namespace RobertMiddleware

open Effects

namespace Decoder

/-- `proto_cmd_enum2rapid_cmd_enum`. -/
def protoCmdEnum2rapidCmdEnum : CommandType → RapidCommandType
  | .moveL => .moveL
  | .moveJ => .moveJ
  | .moveC => .moveC
  | .moveAbsJ => .moveAbsJ
  | .setSpeed => .setSpeed
  | .setZone => .setZone
  | .exit => .exit
  | .ping => .ping
  | .pingR => .pingR
  | .zero => .zero
  | .getStatus => .getStatus
  | .checkTask => .checkTask
  | .login => .login
  | .logout => .logout
  | .acquire => .acquire
  | .release => .release
  | .moveLOffs => .moveLOffs
  | .moveJOffs => .moveJOffs
  | .other _ => .unknown

/-- `proto_zone_enum2rapid_zone_enum`. -/
def protoZoneEnum2rapidZoneEnum : ProtoZone → RapidZone
  | .fine => .fine
  | .z1 => .z1
  | .z5 => .z5
  | .z10 => .z10
  | .z15 => .z15
  | .z20 => .z20
  | .z30 => .z30
  | .other _ => .fine

/-- `translate_jointtarget`. -/
def translateJointtarget (t : JointTarget) : JointTargetBridge where
  joints := #v[t.robjoint.rax1, t.robjoint.rax2, t.robjoint.rax3, t.robjoint.rax4,
    t.robjoint.rax5, t.robjoint.rax6]
  extJoints := #v[t.extjoint.eaxA, t.extjoint.eaxB, t.extjoint.eaxC, t.extjoint.eaxD,
    t.extjoint.eaxE, t.extjoint.eaxF]

/-- `translate_robtarget`. The `int32` field `cfx` is passed as an `unsigned int`. -/
def translateRobtarget (t : RobTarget) : RobTargetBridge where
  position := ⟨#v[t.trans.x, t.trans.y, t.trans.z]⟩
  orientation := ⟨#v[t.rot.q1, t.rot.q2, t.rot.q3, t.rot.q4]⟩
  configData :=
    .ofFields t.robconf.cf1 t.robconf.cf4 t.robconf.cf6 t.robconf.cfx.toUInt32
  extJoint := ⟨#v[t.extax.eaxA, t.extax.eaxB, t.extax.eaxC, t.extax.eaxD, t.extax.eaxE,
    t.extax.eaxF]⟩

/-- A string field that was left empty is an absent operand. -/
def nonEmpty (s : Bytes) : Option Bytes := if s.isEmpty then none else some s

/-- `decode_buffer`. -/
def decodeBuffer (pb : Protobuf) (rawMsg : Bytes) : DecodedRequest :=
  match pb.parseFromString rawMsg with
  | none => {}
  | some clientRequest =>
    let cmdType := protoCmdEnum2rapidCmdEnum clientRequest.command
    { cmdType
      target := clientRequest.target.map translateRobtarget
      extraTarget := clientRequest.extraTarget.map translateRobtarget
      jointTarget := clientRequest.jointTarget.map translateJointtarget
      speed := clientRequest.speed
      zone := protoZoneEnum2rapidZoneEnum clientRequest.zone
      taskId := if cmdType = .checkTask then some clientRequest.taskId else none
      sessionToken := nonEmpty clientRequest.sessionToken
      username := nonEmpty clientRequest.username
      password := nonEmpty clientRequest.password }

/-! ### Telemetry -/

/-- The reads of raw memory: an offset and a width. -/
abbrev Reads : Signature := ⟨ℕ × ℕ, fun _ => Bytes⟩

/-- `read_from_buffer<T>` with `sizeof(T) = width`, and the fixed-length string constructor. -/
def readFromBuffer (offset width : ℕ) : Prog Reads Empty Bytes :=
  Prog.perform (S := Reads) (offset, width)

/-- `read_from_buffer<float>`. -/
def readFloat (offset : ℕ) : Prog Reads Empty Single := do
  return ⟨bytesWord (← readFromBuffer offset 4)⟩

/-- `read_from_buffer<int32_t>`. -/
def readInt32 (offset : ℕ) : Prog Reads Empty Int32 := do
  return ⟨⟨bytesWord (← readFromBuffer offset 4)⟩⟩

/-- The six external axes from `offset` on. -/
def readExtJoint (offset : ℕ) : Prog Reads Empty ExtJoint := do
  return ⟨← readFloat offset, ← readFloat (offset + 4), ← readFloat (offset + 8),
    ← readFloat (offset + 12), ← readFloat (offset + 16), ← readFloat (offset + 20)⟩

/-- `unpack_robot_status` on a vector of `size` bytes: whether it succeeded, and the message it
was given to fill in. -/
def unpackRobotStatus (P : Platform) (size : ℕ) (pbState : RobotStatus) :
    Prog Reads Empty (Bool × RobotStatus) := do
  if size < 162 then
    return (false, pbState)
  let opMode ← readFromBuffer 0 1
  let speedOverride ← readFloat 1
  let currentSpeed ← readFloat 5
  let currentZone ← readFloat 9
  let trans : Position := ⟨← readFloat 13, ← readFloat 17, ← readFloat 21⟩
  let rot : Orientation := ⟨← readFloat 25, ← readFloat 29, ← readFloat 33, ← readFloat 37⟩
  let robconf : ConfData := ⟨← readInt32 41, ← readInt32 45, ← readInt32 49, ← readInt32 53⟩
  let extax ← readExtJoint 57
  let robjoint : RobJointValues := ⟨← readFloat 81, ← readFloat 85, ← readFloat 89,
    ← readFloat 93, ← readFloat 97, ← readFloat 101⟩
  let extjoint ← readExtJoint 105
  let robotTime ← readFromBuffer 129 8
  let robotDate ← readFromBuffer 161 10
  return (true,
    { opMode := ByteLayout.ofLeBytes opMode
      speedOverride
      currentSpeed
      currentZone := P.toEnum currentZone
      currentTarget := ⟨trans, rot, robconf, extax⟩
      currentJointTarget := ⟨robjoint, extjoint⟩
      robotTime
      robotDate })

/-- The bytes in memory from `offset` on, seen from the start of the vector `raw`. -/
def readMemory (P : Platform) (raw : Bytes) (offset width : ℕ) : Bytes :=
  (List.range width).map fun i => raw[offset + i]?.getD (P.pastEnd raw (offset + i))

/-- `unpack_robot_status` on the vector `raw`. -/
def unpack (P : Platform) (raw : Bytes) (pbState : RobotStatus) : Bool × RobotStatus :=
  (unpackRobotStatus P raw.length pbState).run fun (op : ℕ × ℕ) => readMemory P raw op.1 op.2

/-- Inside the vector memory is the vector. -/
theorem readMemory_eq_slice {P : Platform} {raw : Bytes} {offset width : ℕ}
    (h : offset + width ≤ raw.length) :
    readMemory P raw offset width = ByteLayout.slice raw offset width :=
  ByteLayout.map_getD_eq_slice (fun i => P.pastEnd raw (offset + i)) h

end Decoder

end RobertMiddleware
