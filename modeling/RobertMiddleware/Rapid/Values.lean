import RobertMiddleware.Core.Data

/-!
# Controller values

The data the RAPID modules work on, and `ValueModule.mod`. A `num` is a single-precision number. One
that holds a coordinate, an angle or a speed is a `Single`; one that holds an integer is written as
that integer, and an integer that `UnpackRawBytes` reads is rounded to one that a `num` holds. Bytes
and sixteen-bit words need no rounding.

A `rawbytes` variable counts its bytes from one. Reading past the bytes received gives zeros, the
content of a cleared variable.
-/

namespace RobertMiddleware

namespace Rapid

open ByteLayout

/-! ### Data types -/

structure Pos where
  x : Single
  y : Single
  z : Single
deriving DecidableEq

structure Orient where
  q1 : Single
  q2 : Single
  q3 : Single
  q4 : Single
deriving DecidableEq

/-- Four `num`s that hold integers. -/
structure ConfData where
  cf1 : ℤ
  cf4 : ℤ
  cf6 : ℤ
  cfx : ℤ
deriving DecidableEq

structure ExtJoint where
  eaxA : Single
  eaxB : Single
  eaxC : Single
  eaxD : Single
  eaxE : Single
  eaxF : Single
deriving DecidableEq

structure RobJoint where
  rax1 : Single
  rax2 : Single
  rax3 : Single
  rax4 : Single
  rax5 : Single
  rax6 : Single
deriving DecidableEq

structure RobTarget where
  trans : Pos
  rot : Orient
  robconf : ConfData
  extax : ExtJoint
deriving DecidableEq

structure JointTarget where
  robax : RobJoint
  extax : ExtJoint
deriving DecidableEq

/-- The `zonedata` the program uses. -/
inductive Zone
  | fine | z0 | z1 | z5 | z10 | z15 | z20 | z30
deriving DecidableEq

/-- The value of `ERRNO`. -/
abbrev Errno := ℤ

/-! ### `ValueModule` -/

/-- `value_to_zone`. The `TEST` has no default: on any other number the function ends without a
value, which raises `errFncNoRet`. -/
def valueToZone (errFncNoRet : Errno) : ℕ → Except Errno Zone
  | 0 => .ok .fine
  | 1 => .ok .z0
  | 2 => .ok .z1
  | 3 => .ok .z5
  | 4 => .ok .z10
  | 5 => .ok .z15
  | 6 => .ok .z20
  | 7 => .ok .z30
  | _ => .error errFncNoRet

/-- `zone_to_value`. -/
def zoneToValue : Zone → ℕ
  | .fine => 0
  | .z0 => 1
  | .z1 => 2
  | .z5 => 3
  | .z10 => 4
  | .z15 => 5
  | .z20 => 6
  | .z30 => 7

theorem valueToZone_zoneToValue (errFncNoRet : Errno) (z : Zone) :
    valueToZone errFncNoRet (zoneToValue z) = .ok z := by
  cases z <;> rfl

theorem zoneToValue_lt (z : Zone) : zoneToValue z < 8 := by
  cases z <;> decide

/-- `value_to_zone` has a value on the numbers of the eight zones and on no other. -/
theorem valueToZone_eq_error_iff {errFncNoRet e : Errno} {n : ℕ} :
    valueToZone errFncNoRet n = .error e ↔ 7 < n ∧ e = errFncNoRet := by
  fun_cases valueToZone errFncNoRet n
  case case9 h0 h1 h2 h3 h4 h5 h6 h7 =>
    have hn : 7 < n := by grind
    constructor
    · intro h
      exact ⟨hn, (Except.error.inj h).symm⟩
    · rintro ⟨-, rfl⟩
      rfl
  all_goals exact ⟨nofun, fun h => absurd h.1 (by decide)⟩

/-- `command_to_string`. -/
def commandToString : ℕ → String
  | 0x00 => "MoveL"
  | 0x01 => "MoveJ"
  | 0x02 => "MoveC"
  | 0x03 => "MoveAbsJ"
  | 0x04 => "SetSpeed"
  | 0x05 => "SetZone"
  | 0x06 => "Exit"
  | 0x07 => "PING"
  | 0x08 => "PINGR"
  | 0x09 => "ZERO"
  | 0x0A => "GETSTATUS"
  | 0x10 => "MoveLOffs"
  | 0x11 => "MoveJOffs"
  | _ => "UNKNOWN"

/-! ### `rawbytes` -/

/-- The `n` bytes from byte `index` on. -/
def rawBytes (raw : Bytes) (index n : ℕ) : Bytes :=
  (List.range n).map fun i => raw[index - 1 + i]?.getD 0

/-- `UnpackRawBytes … \IntX := USINT`. -/
def unpackUsint (raw : Bytes) (index : ℕ) : ℕ := ofLeBytes (rawBytes raw index 1)

/-- `UnpackRawBytes … \IntX := UINT`. -/
def unpackUint (raw : Bytes) (index : ℕ) : ℕ := ofLeBytes (rawBytes raw index 2)

/-- What a `num` holds after an integer was stored in it. -/
def toNum (i : ℤ) : ℤ := (Single.ofInt i).trunc

/-- `UnpackRawBytes … \IntX := DINT`. -/
def unpackDint (raw : Bytes) (index : ℕ) : ℤ := toNum (bytesWord (rawBytes raw index 4)).toInt

/-- `UnpackRawBytes … \IntX := UDINT`. -/
def unpackUdint (raw : Bytes) (index : ℕ) : ℤ := toNum (bytesWord (rawBytes raw index 4)).toNat

/-- `UnpackRawBytes … \Float4`. -/
def unpackFloat4 (raw : Bytes) (index : ℕ) : Single := ⟨bytesWord (rawBytes raw index 4)⟩

/-- `PackRawBytes … \IntX := USINT`. -/
def packUsint (n : ℕ) : Bytes := leBytes 1 n

/-- `PackRawBytes … \IntX := DINT`. -/
def packDint (n : ℤ) : Bytes := wordBytes (BitVec.ofInt 32 n)

/-- `PackRawBytes … \Float4`. -/
def packFloat4 (s : Single) : Bytes := wordBytes s.bits

@[simp] theorem length_packUsint (n : ℕ) : (packUsint n).length = 1 := length_leBytes _ _

@[simp] theorem length_packDint (n : ℤ) : (packDint n).length = 4 := length_wordBytes _

@[simp] theorem length_packFloat4 (s : Single) : (packFloat4 s).length = 4 := length_wordBytes _

/-- Inside the bytes received a read is a slice. -/
theorem rawBytes_eq_slice {raw : Bytes} {index n : ℕ} (h : index - 1 + n ≤ raw.length) :
    rawBytes raw index n = slice raw (index - 1) n :=
  map_getD_eq_slice (fun _ => 0) h

end Rapid

end RobertMiddleware
