import RobertMiddleware.Internal.ByteLayout
import RobertMiddleware.Internal.Single

/-!
# Robot data and its packed form

`src/core/data.{hpp,cpp}`: positions, orientations, configurations and joints as the decoder
builds them, and the packed structures (`#pragma pack(push, 1)`) that travel to the robot. A
`float` is a `Single`, so a `memcpy` between a `float` and a `uint32_t` copies the word.

The packed structures are given with the words they consist of, in the order of their fields; the
image in memory is these words, each little-endian, with nothing in between.
-/

namespace RobertMiddleware

open ByteLayout

/-- A `std::string` or a byte vector. -/
abbrev Bytes := List UInt8

/-- The bytes of a string literal of the source, all of which are ASCII. -/
def ascii (s : String) : Bytes := s.toList.map fun c => UInt8.ofNat c.toNat

/-! ### Packed structures -/

/-- A 32-bit word in memory. -/
def wordBytes (w : BitVec 32) : Bytes := leBytes 4 w.toNat

/-- The 32-bit word whose bytes are `bs`. -/
def bytesWord (bs : Bytes) : BitVec 32 := BitVec.ofNat 32 (ofLeBytes bs)

@[simp] theorem length_wordBytes (w : BitVec 32) : (wordBytes w).length = 4 := length_leBytes _ _

/-- **A word survives the round trip through memory.** -/
@[simp] theorem bytesWord_wordBytes (w : BitVec 32) : bytesWord (wordBytes w) = w := by
  rw [bytesWord, wordBytes, ofLeBytes_leBytes_of_lt (by have := w.isLt; omega),
    BitVec.ofNat_toNat, BitVec.setWidth_eq]

/-- Words in memory, one after the other. -/
def wordsBytes (ws : List (BitVec 32)) : Bytes := ws.flatMap wordBytes

@[simp] theorem length_wordsBytes (ws : List (BitVec 32)) :
    (wordsBytes ws).length = 4 * ws.length := by
  induction ws with
  | nil => rfl
  | cons w ws ih =>
    rw [wordsBytes, List.flatMap_cons, ← wordsBytes, List.length_append, length_wordBytes, ih,
      List.length_cons]
    omega

theorem wordsBytes_append (ws ws' : List (BitVec 32)) :
    wordsBytes (ws ++ ws') = wordsBytes ws ++ wordsBytes ws' := List.flatMap_append

/-- Every word is found at four times its index. -/
theorem slice_wordsBytes {ws : List (BitVec 32)} {i : ℕ} (hi : i < ws.length) :
    slice (wordsBytes ws) (4 * i) 4 = wordBytes ws[i] := by
  induction ws generalizing i with
  | nil => exact absurd hi (Nat.not_lt_zero i)
  | cons w ws ih =>
    rw [wordsBytes, List.flatMap_cons, ← wordsBytes]
    cases i with
    | zero => exact slice_append_left (length_wordBytes w)
    | succ i =>
      rw [slice_append_right (by rw [length_wordBytes]; omega), length_wordBytes,
        show 4 * (i + 1) - 4 = 4 * i by omega, ih (by simpa using hi), List.getElem_cons_succ]

/-- Three words, each a `float`. -/
structure RapidPosition where
  x : BitVec 32
  y : BitVec 32
  z : BitVec 32
deriving DecidableEq

/-- Four words, each a `float`. -/
structure RapidOrientation where
  q1 : BitVec 32
  q2 : BitVec 32
  q3 : BitVec 32
  q4 : BitVec 32
deriving DecidableEq

/-- The configuration: `cfx` is unsigned, the other three are signed. -/
structure RapidConfData where
  cf1 : Int32
  cf4 : Int32
  cf6 : Int32
  cfx : UInt32
deriving DecidableEq

/-- Six words, each a `float`: robot joints, or external axes. -/
structure RapidRobJoint where
  j1 : BitVec 32
  j2 : BitVec 32
  j3 : BitVec 32
  j4 : BitVec 32
  j5 : BitVec 32
  j6 : BitVec 32
deriving DecidableEq

structure RapidRobTarget where
  position : RapidPosition
  orientation : RapidOrientation
  configData : RapidConfData
  extJoint : RapidRobJoint
deriving DecidableEq

structure RapidJointTarget where
  joints : RapidRobJoint
  extJoints : RapidRobJoint
deriving DecidableEq

def RapidPosition.zero : RapidPosition := ⟨0, 0, 0⟩

def RapidOrientation.zero : RapidOrientation := ⟨0, 0, 0, 0⟩

def RapidConfData.zero : RapidConfData := ⟨0, 0, 0, 0⟩

def RapidRobJoint.zero : RapidRobJoint := ⟨0, 0, 0, 0, 0, 0⟩

def RapidRobTarget.zero : RapidRobTarget := ⟨.zero, .zero, .zero, .zero⟩

def RapidJointTarget.zero : RapidJointTarget := ⟨.zero, .zero⟩

/-! ### Images in memory -/

def RapidPosition.words (p : RapidPosition) : List (BitVec 32) := [p.x, p.y, p.z]

def RapidOrientation.words (o : RapidOrientation) : List (BitVec 32) := [o.q1, o.q2, o.q3, o.q4]

def RapidConfData.words (c : RapidConfData) : List (BitVec 32) :=
  [c.cf1.toBitVec, c.cf4.toBitVec, c.cf6.toBitVec, c.cfx.toBitVec]

def RapidRobJoint.words (j : RapidRobJoint) : List (BitVec 32) :=
  [j.j1, j.j2, j.j3, j.j4, j.j5, j.j6]

def RapidRobTarget.words (t : RapidRobTarget) : List (BitVec 32) :=
  t.position.words ++ (t.orientation.words ++ (t.configData.words ++ t.extJoint.words))

def RapidJointTarget.words (t : RapidJointTarget) : List (BitVec 32) :=
  t.joints.words ++ t.extJoints.words

@[simp] theorem RapidRobTarget.length_words (t : RapidRobTarget) : t.words.length = 17 := rfl

@[simp] theorem RapidJointTarget.length_words (t : RapidJointTarget) : t.words.length = 12 := rfl

/-! ### The classes the decoder builds -/

/-- `RobPosition`, holding `std::array<float, 3>`. -/
structure RobPosition where
  position : Vector Single 3
deriving DecidableEq

/-- `RobOrientation`, holding `std::array<float, 4>`. -/
structure RobOrientation where
  orientation : Vector Single 4
deriving DecidableEq

/-- `RobConfigData`, holding `std::array<int, 4>`; `cfx` is stored as an `int`. -/
structure RobConfigData where
  configData : Vector Int32 4
deriving DecidableEq

/-- `RobJoint`, holding `std::array<float, 6>`. -/
structure RobJoint where
  joints : Vector Single 6
deriving DecidableEq

structure JointTargetBridge where
  joints : Vector Single 6
  extJoints : Vector Single 6
deriving DecidableEq

structure RobTargetBridge where
  position : RobPosition
  orientation : RobOrientation
  configData : RobConfigData
  extJoint : RobJoint
deriving DecidableEq

/-- The constructor `RobConfigData(int, int, int, unsigned int)`. -/
def RobConfigData.ofFields (cf1 cf4 cf6 : Int32) (cfx : UInt32) : RobConfigData :=
  ⟨#v[cf1, cf4, cf6, cfx.toInt32]⟩

def RobPosition.toRapid (p : RobPosition) : RapidPosition :=
  ⟨p.position[0].bits, p.position[1].bits, p.position[2].bits⟩

def RobOrientation.toRapid (o : RobOrientation) : RapidOrientation :=
  ⟨o.orientation[0].bits, o.orientation[1].bits, o.orientation[2].bits, o.orientation[3].bits⟩

/-- The stored `int` is cast back to `uint32_t` for `cfx`. -/
def RobConfigData.toRapid (c : RobConfigData) : RapidConfData :=
  ⟨c.configData[0], c.configData[1], c.configData[2], c.configData[3].toUInt32⟩

/-- Six floats in a row, as `RobJoint::to_rapid` and the 24-byte `memcpy`s lay them out. -/
def rapidRobJoint (j : Vector Single 6) : RapidRobJoint :=
  ⟨j[0].bits, j[1].bits, j[2].bits, j[3].bits, j[4].bits, j[5].bits⟩

def RobJoint.toRapid (j : RobJoint) : RapidRobJoint := rapidRobJoint j.joints

def JointTargetBridge.toRapid (t : JointTargetBridge) : RapidJointTarget :=
  ⟨rapidRobJoint t.joints, rapidRobJoint t.extJoints⟩

def RobTargetBridge.toRapid (t : RobTargetBridge) : RapidRobTarget :=
  ⟨t.position.toRapid, t.orientation.toRapid, t.configData.toRapid, t.extJoint.toRapid⟩

end RobertMiddleware
