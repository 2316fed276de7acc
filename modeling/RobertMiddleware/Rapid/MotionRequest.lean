import RobertMiddleware.Commands.Decoder
import RobertMiddleware.Rapid.Parsing

/-!
# Motion requests across the two languages

The middleware encodes a motion with `create_rapid_request`, and `parse_message` reads the 188
bytes on the controller. The two were written separately; this file shows that the controller's
`ExecuteAction` gets the command and the operands the client sent, word for word but for large
configuration numbers, which a `num` does not hold.

## Main results

* `word_image` — a word read at a byte of the request is the operand word that was put there
* `parseMessageWith_image` — what `parse_message` passes on, in terms of the request's fields
* `createRapidRequest_motion` — what the encoder makes of a motion, and when it refuses
* `motion_roundTrip` — the two together
* `motion_rounded` — a configuration number that a `num` does not hold
-/

namespace RobertMiddleware

namespace Rapid

open ByteLayout

/-! ### Reading the image of a request -/

theorem unpackUsint_image (msg : RapidRequest) :
    unpackUsint msg.image 1 = msg.commandId.toNat := by
  rw [unpackUsint, rawBytes_eq_slice (by rw [RapidRequest.length_image]; omega)]
  rfl

/-- The operands start at byte five and consist of words. -/
theorem word_image (msg : RapidRequest) {index : ℕ} (h5 : 5 ≤ index) (h4 : (index - 5) % 4 = 0)
    (hle : index ≤ 185) :
    bytesWord (rawBytes msg.image index 4) = msg.words.getD ((index - 5) / 4) 0 := by
  have hi : (index - 5) / 4 < msg.words.length := by rw [RapidRequest.length_words]; omega
  rw [rawBytes_eq_slice (by rw [RapidRequest.length_image]; omega), RapidRequest.image,
    slice_append_right (by rw [RapidRequest.length_header]; omega), RapidRequest.length_header,
    show index - 1 - 4 = 4 * ((index - 5) / 4) by omega, slice_wordsBytes hi,
    bytesWord_wordBytes, List.getD_eq_getElem?_getD, List.getElem?_eq_getElem hi,
    Option.getD_some]

/-- The `robtarget` whose fields are those of the packed target, as far as a `num` holds them. -/
def targetOf (t : RapidRobTarget) : RobTarget where
  trans := ⟨⟨t.position.x⟩, ⟨t.position.y⟩, ⟨t.position.z⟩⟩
  rot := ⟨⟨t.orientation.q1⟩, ⟨t.orientation.q2⟩, ⟨t.orientation.q3⟩, ⟨t.orientation.q4⟩⟩
  robconf :=
    ⟨toNum t.configData.cf1.toInt, toNum t.configData.cf4.toInt, toNum t.configData.cf6.toInt,
      toNum t.configData.cfx.toNat⟩
  extax :=
    ⟨⟨t.extJoint.j1⟩, ⟨t.extJoint.j2⟩, ⟨t.extJoint.j3⟩, ⟨t.extJoint.j4⟩, ⟨t.extJoint.j5⟩,
      ⟨t.extJoint.j6⟩⟩

/-- The `jointtarget` whose fields are those of the packed target. -/
def jointTargetOf (t : RapidJointTarget) : JointTarget where
  robax :=
    ⟨⟨t.joints.j1⟩, ⟨t.joints.j2⟩, ⟨t.joints.j3⟩, ⟨t.joints.j4⟩, ⟨t.joints.j5⟩, ⟨t.joints.j6⟩⟩
  extax :=
    ⟨⟨t.extJoints.j1⟩, ⟨t.extJoints.j2⟩, ⟨t.extJoints.j3⟩, ⟨t.extJoints.j4⟩, ⟨t.extJoints.j5⟩,
      ⟨t.extJoints.j6⟩⟩

theorem parsedTarget_image (msg : RapidRequest) :
    parsedTarget msg.image = targetOf msg.target := by
  simp (disch := decide) only [parsedTarget, unpackFloat4, unpackDint, unpackUdint, word_image]
  rfl

theorem parsedTarget2_image (msg : RapidRequest) :
    parsedTarget2 msg.image = targetOf msg.extraTarget := by
  simp (disch := decide) only [parsedTarget2, unpackFloat4, unpackDint, unpackUdint, word_image]
  rfl

theorem parsedJointTarget_image (msg : RapidRequest) :
    parsedJointTarget msg.image = jointTargetOf msg.jointTarget := by
  simp (disch := decide) only [parsedJointTarget, unpackFloat4, word_image]
  rfl

/-! ### Motion commands -/

/-- The commands that carry operands. -/
inductive MotionCommand
  | moveL | moveJ | moveC | moveAbsJ | moveLOffs | moveJOffs
deriving DecidableEq

namespace MotionCommand

/-- The command as the middleware knows it. -/
def cmdType : MotionCommand → RapidCommandType
  | .moveL => .moveL
  | .moveJ => .moveJ
  | .moveC => .moveC
  | .moveAbsJ => .moveAbsJ
  | .moveLOffs => .moveLOffs
  | .moveJOffs => .moveJOffs

/-- The command as the controller names it. -/
def name : MotionCommand → String
  | .moveL => "MoveL"
  | .moveJ => "MoveJ"
  | .moveC => "MoveC"
  | .moveAbsJ => "MoveAbsJ"
  | .moveLOffs => "MoveLOffs"
  | .moveJOffs => "MoveJOffs"

/-- Every motion but `MoveAbsJ` goes to a Cartesian target. -/
def usesTarget : MotionCommand → Bool
  | .moveAbsJ => false
  | _ => true

/-- Only `MoveC` has a second target. -/
def usesExtraTarget : MotionCommand → Bool
  | .moveC => true
  | _ => false

/-- Only `MoveAbsJ` has a joint target. -/
def usesJointTarget : MotionCommand → Bool
  | .moveAbsJ => true
  | _ => false

/-- What `parse_message` passes on for a request with this command. -/
def args (m : MotionCommand) (msg : RapidRequest) : ActionArgs where
  actionCmd := m.name
  targetCoords := if m.usesTarget then some (targetOf msg.target) else none
  circularExtraTarget := if m.usesExtraTarget then some (targetOf msg.extraTarget) else none
  jointTarget := if m.usesJointTarget then some (jointTargetOf msg.jointTarget) else none

end MotionCommand

theorem parseMessageWith_image (R : RapidSystem) (execute : ActionArgs → Routine Unit)
    {m : MotionCommand} {msg : RapidRequest} (h : msg.commandId = m.cmdType.toUInt8) :
    parseMessageWith R execute msg.image msg.image.length = execute (m.args msg) := by
  have hcmd : commandToString (unpackUsint msg.image 1) = m.name := by
    rw [unpackUsint_image, h]
    cases m <;> rfl
  rw [parseMessageWith, hcmd, RapidRequest.length_image, parsedTarget_image, parsedTarget2_image,
    parsedJointTarget_image]
  cases m <;> rfl

/-! ### The encoder on motions -/

/-- A decoded request for a motion, with the operands translated from the client's. -/
def motionRequest (m : MotionCommand) (d : DecodedRequest)
    (target extraTarget : Option RobertMiddleware.RobTarget)
    (jointTarget : Option RobertMiddleware.JointTarget) : DecodedRequest :=
  { d with
    cmdType := m.cmdType
    target := target.map Decoder.translateRobtarget
    extraTarget := extraTarget.map Decoder.translateRobtarget
    jointTarget := jointTarget.map Decoder.translateJointtarget }

/-- An operand that the command uses is absent. -/
def MotionCommand.Missing (m : MotionCommand)
    (target extraTarget : Option RobertMiddleware.RobTarget)
    (jointTarget : Option RobertMiddleware.JointTarget) : Prop :=
  m.usesTarget ∧ target = none ∨ m.usesExtraTarget ∧ extraTarget = none ∨
    m.usesJointTarget ∧ jointTarget = none

/-- The packed form of an operand: zero unless the command uses it. -/
def packedOperand {α β : Type} (uses : Bool) (zero : β) (pack : α → β) (field : Option α) : β :=
  if uses then field.elim zero pack else zero

/-- The request a motion is encoded as. -/
def MotionCommand.encoded (m : MotionCommand)
    (target extraTarget : Option RobertMiddleware.RobTarget)
    (jointTarget : Option RobertMiddleware.JointTarget) : RapidRequest :=
  { RapidRequest.zero with
    commandId := m.cmdType.toUInt8
    target := packedOperand m.usesTarget .zero (fun t => (Decoder.translateRobtarget t).toRapid)
      target
    extraTarget := packedOperand m.usesExtraTarget .zero
      (fun t => (Decoder.translateRobtarget t).toRapid) extraTarget
    jointTarget := packedOperand m.usesJointTarget .zero
      (fun j => (Decoder.translateJointtarget j).toRapid) jointTarget }

/-- The encoder refuses the motions that lack an operand, and encodes the others. -/
theorem createRapidRequest_motion {P : Platform} {m : MotionCommand} {d : DecodedRequest}
    {target extraTarget : Option RobertMiddleware.RobTarget}
    {jointTarget : Option RobertMiddleware.JointTarget} {msg : RapidRequest} :
    createRapidRequest P (motionRequest m d target extraTarget jointTarget) = .ok msg ↔
      ¬ m.Missing target extraTarget jointTarget ∧
        msg = m.encoded target extraTarget jointTarget := by
  cases m <;> rcases target with _ | target <;> rcases extraTarget with _ | extraTarget <;>
    rcases jointTarget with _ | jointTarget <;>
    simp [createRapidRequest, motionRequest, MotionCommand.Missing, MotionCommand.encoded,
      MotionCommand.cmdType, MotionCommand.usesTarget, MotionCommand.usesExtraTarget,
      MotionCommand.usesJointTarget, RapidCommandType.usesTarget, packedOperand, eq_comm,
      RapidRequest.zero, Except.bind, Bind.bind, Pure.pure, Except.pure]

/-- The encoder throws exactly when an operand is missing. -/
theorem createRapidRequest_motion_error {P : Platform} {m : MotionCommand} {d : DecodedRequest}
    {target extraTarget : Option RobertMiddleware.RobTarget}
    {jointTarget : Option RobertMiddleware.JointTarget} :
    (∃ what, createRapidRequest P (motionRequest m d target extraTarget jointTarget) =
      .error what) ↔ m.Missing target extraTarget jointTarget := by
  cases hres : createRapidRequest P (motionRequest m d target extraTarget jointTarget) with
  | ok msg =>
    have hok := createRapidRequest_motion.mp hres
    exact ⟨nofun, fun hmissing => absurd hmissing hok.1⟩
  | error what =>
    refine ⟨fun _ => ?_, fun _ => ⟨what, rfl⟩⟩
    by_contra hmissing
    have hok := createRapidRequest_motion (P := P) (d := d).mpr ⟨hmissing, rfl⟩
    rw [hres] at hok
    contradiction

/-! ### The round trip -/

/-- The `robtarget` holds the words of the client's target: coordinates bit for bit, and what `num`
makes of the configuration numbers, three read as signed words and `cfx` as an unsigned one. -/
structure RobTarget.Carries (num : ℤ → ℤ) (r : RobTarget) (t : RobertMiddleware.RobTarget) :
    Prop where
  x : r.trans.x = t.trans.x
  y : r.trans.y = t.trans.y
  z : r.trans.z = t.trans.z
  q1 : r.rot.q1 = t.rot.q1
  q2 : r.rot.q2 = t.rot.q2
  q3 : r.rot.q3 = t.rot.q3
  q4 : r.rot.q4 = t.rot.q4
  cf1 : r.robconf.cf1 = num t.robconf.cf1.toBitVec.toInt
  cf4 : r.robconf.cf4 = num t.robconf.cf4.toBitVec.toInt
  cf6 : r.robconf.cf6 = num t.robconf.cf6.toBitVec.toInt
  cfx : r.robconf.cfx = num t.robconf.cfx.toBitVec.toNat
  eaxA : r.extax.eaxA = t.extax.eaxA
  eaxB : r.extax.eaxB = t.extax.eaxB
  eaxC : r.extax.eaxC = t.extax.eaxC
  eaxD : r.extax.eaxD = t.extax.eaxD
  eaxE : r.extax.eaxE = t.extax.eaxE
  eaxF : r.extax.eaxF = t.extax.eaxF

/-- The `jointtarget` holds the words of the client's target. -/
structure JointTarget.Carries (r : JointTarget) (t : RobertMiddleware.JointTarget) : Prop where
  rax1 : r.robax.rax1 = t.robjoint.rax1
  rax2 : r.robax.rax2 = t.robjoint.rax2
  rax3 : r.robax.rax3 = t.robjoint.rax3
  rax4 : r.robax.rax4 = t.robjoint.rax4
  rax5 : r.robax.rax5 = t.robjoint.rax5
  rax6 : r.robax.rax6 = t.robjoint.rax6
  eaxA : r.extax.eaxA = t.extjoint.eaxA
  eaxB : r.extax.eaxB = t.extjoint.eaxB
  eaxC : r.extax.eaxC = t.extjoint.eaxC
  eaxD : r.extax.eaxD = t.extjoint.eaxD
  eaxE : r.extax.eaxE = t.extjoint.eaxE
  eaxF : r.extax.eaxF = t.extjoint.eaxF

/-- The integers up to `2 ^ 24`, which a `num` holds. -/
def Held (i : ℤ) : Prop := i.natAbs ≤ 2 ^ 24

theorem toNum_of_held {i : ℤ} (h : Held i) : toNum i = i := Single.trunc_ofInt h

/-- What arrives of the client's target: a configuration number may be rounded, but not one that a
`num` holds. -/
structure RobTarget.Arrives (r : RobTarget) (t : RobertMiddleware.RobTarget) : Prop where
  carries : r.Carries toNum t
  cf1 : Held t.robconf.cf1.toBitVec.toInt → r.robconf.cf1 = t.robconf.cf1.toBitVec.toInt
  cf4 : Held t.robconf.cf4.toBitVec.toInt → r.robconf.cf4 = t.robconf.cf4.toBitVec.toInt
  cf6 : Held t.robconf.cf6.toBitVec.toInt → r.robconf.cf6 = t.robconf.cf6.toBitVec.toInt
  cfx : Held t.robconf.cfx.toBitVec.toNat → r.robconf.cfx = t.robconf.cfx.toBitVec.toNat

theorem RobTarget.Carries.arrives {r : RobTarget} {t : RobertMiddleware.RobTarget}
    (h : r.Carries toNum t) : r.Arrives t where
  carries := h
  cf1 hheld := h.cf1.trans (toNum_of_held hheld)
  cf4 hheld := h.cf4.trans (toNum_of_held hheld)
  cf6 hheld := h.cf6.trans (toNum_of_held hheld)
  cfx hheld := h.cfx.trans (toNum_of_held hheld)

theorem arrives_targetOf (t : RobertMiddleware.RobTarget) :
    (targetOf (Decoder.translateRobtarget t).toRapid).Arrives t :=
  RobTarget.Carries.arrives (by constructor <;> rfl)

theorem carries_jointTargetOf (j : RobertMiddleware.JointTarget) :
    (jointTargetOf (Decoder.translateJointtarget j).toRapid).Carries j := by
  constructor <;> rfl

/-- An argument of `ExecuteAction`: present, with the client's words, if the command uses it, and
absent otherwise. -/
def ArgCarries {α β : Type} (uses : Bool) (Carries : α → β → Prop) (arg : Option α)
    (field : Option β) : Prop :=
  if uses then ∃ a b, arg = some a ∧ field = some b ∧ Carries a b else arg = none

theorem argCarries_of {α β γ : Type} {uses : Bool} {Carries : α → β → Prop} {zero : γ}
    {pack : β → γ} {read : γ → α} {field : Option β} (hread : ∀ b, Carries (read (pack b)) b)
    (hpresent : ¬ (uses = true ∧ field = none)) :
    ArgCarries uses Carries
      (if uses then some (read (packedOperand uses zero pack field)) else none) field := by
  cases uses with
  | false => rfl
  | true =>
    cases field with
    | none => exact absurd ⟨rfl, rfl⟩ hpresent
    | some b => exact ⟨_, b, rfl, rfl, hread b⟩

/-! #### Bytes of the image -/

theorem slice_header (msg : RapidRequest) : slice msg.image 0 4 = msg.header :=
  slice_append_left msg.length_header

theorem slice_target (msg : RapidRequest) :
    slice msg.image 4 68 = wordsBytes msg.target.words := by
  rw [RapidRequest.image, RapidRequest.words, wordsBytes_append]
  exact slice_append_of_length_eq (by simp) (by simp)

theorem slice_extraTarget (msg : RapidRequest) :
    slice msg.image 72 68 = wordsBytes msg.extraTarget.words := by
  rw [RapidRequest.image, RapidRequest.words, wordsBytes_append, wordsBytes_append,
    ← List.append_assoc]
  exact slice_append_of_length_eq (by simp) (by simp)

theorem slice_jointTarget (msg : RapidRequest) :
    slice msg.image 140 48 = wordsBytes msg.jointTarget.words := by
  rw [RapidRequest.image, RapidRequest.words, wordsBytes_append, wordsBytes_append,
    ← List.append_assoc, ← List.append_assoc, ← List.append_nil (wordsBytes msg.jointTarget.words)]
  exact slice_append_of_length_eq (by simp) (by simp)

theorem wordsBytes_zero_target :
    wordsBytes RapidRobTarget.zero.words = List.replicate 68 0 := by decide

theorem wordsBytes_zero_jointTarget :
    wordsBytes RapidJointTarget.zero.words = List.replicate 48 0 := by decide

/-- **Motion round trip.** For every motion command and all operands the client may have sent: the
encoder throws exactly when an operand of the command is missing; and whatever it encodes,
`parse_message` calls `ExecuteAction` with the command's name and with the client's operands, in a
request where everything the command does not use is zero. Configuration numbers arrive as the
nearest integers that a `num` holds, which are themselves up to `2 ^ 24`. -/
theorem motion_roundTrip (P : Platform) (R : RapidSystem) (execute : ActionArgs → Routine Unit)
    (m : MotionCommand) (d : DecodedRequest)
    (target extraTarget : Option RobertMiddleware.RobTarget)
    (jointTarget : Option RobertMiddleware.JointTarget) :
    ((∃ what, createRapidRequest P (motionRequest m d target extraTarget jointTarget) =
        .error what) ↔ m.Missing target extraTarget jointTarget) ∧
      ∀ msg, createRapidRequest P (motionRequest m d target extraTarget jointTarget) = .ok msg →
        msg.image.length = 188 ∧
        (∃ args, parseMessageWith R execute msg.image msg.image.length = execute args ∧
          args.actionCmd = m.name ∧
          ArgCarries m.usesTarget RobTarget.Arrives args.targetCoords target ∧
          ArgCarries m.usesExtraTarget RobTarget.Arrives args.circularExtraTarget extraTarget ∧
          ArgCarries m.usesJointTarget JointTarget.Carries args.jointTarget jointTarget ∧
          args.speed = none ∧ args.zone = none) ∧
        slice msg.image 0 4 = [m.cmdType.toUInt8, 0, 0, 0] ∧
        (m.usesTarget = false → slice msg.image 4 68 = List.replicate 68 0) ∧
        (m.usesExtraTarget = false → slice msg.image 72 68 = List.replicate 68 0) ∧
        (m.usesJointTarget = false → slice msg.image 140 48 = List.replicate 48 0) := by
  refine ⟨createRapidRequest_motion_error, fun msg hmsg => ?_⟩
  obtain ⟨hpresent, rfl⟩ := createRapidRequest_motion.mp hmsg
  obtain ⟨htarget, hrest⟩ := not_or.mp hpresent
  obtain ⟨hextra, hjoint⟩ := not_or.mp hrest
  refine ⟨RapidRequest.length_image _,
    ⟨_, parseMessageWith_image R execute rfl, rfl, argCarries_of arrives_targetOf htarget,
      argCarries_of arrives_targetOf hextra, argCarries_of carries_jointTargetOf hjoint, rfl, rfl⟩,
    ?_, fun hunused => ?_, fun hunused => ?_, fun hunused => ?_⟩
  · rw [slice_header]
    simp [RapidRequest.header, MotionCommand.encoded, RapidRequest.zero, leBytes]
  · rw [slice_target, MotionCommand.encoded, hunused]
    exact wordsBytes_zero_target
  · rw [slice_extraTarget, MotionCommand.encoded, hunused]
    exact wordsBytes_zero_target
  · rw [slice_jointTarget, MotionCommand.encoded, hunused]
    exact wordsBytes_zero_jointTarget

/-- A target with the configuration number 16777217; no `num` is between its two neighbours. -/
def roundedTarget : RobertMiddleware.RobTarget where
  trans := ⟨default, default, default⟩
  rot := ⟨default, default, default, default⟩
  robconf := ⟨16777217, 0, 0, 0⟩
  extax := ⟨default, default, default, default, default, default⟩

/-- **Not every configuration number arrives.** A motion to this target is encoded, and the call of
`ExecuteAction` is none with the client's target. -/
theorem motion_rounded : ∃ msg execute,
    createRapidRequest .linux (motionRequest .moveL {} (some roundedTarget) none none) = .ok msg ∧
      ¬ ∃ args, parseMessageWith .bench execute msg.image msg.image.length = execute args ∧
        ArgCarries true (RobTarget.Carries id) args.targetCoords (some roundedTarget) := by
  refine ⟨MotionCommand.moveL.encoded (some roundedTarget) none none,
    fun args => .throw (args.targetCoords.elim 0 fun t => t.robconf.cf1),
    createRapidRequest_motion.mpr ⟨by simp [MotionCommand.Missing, MotionCommand.usesExtraTarget,
      MotionCommand.usesJointTarget], rfl⟩, ?_⟩
  rintro ⟨args, hcall, a, b, ha, hb, hcarries⟩
  obtain rfl : roundedTarget = b := Option.some.inj hb
  rw [parseMessageWith_image (m := .moveL) _ _ rfl] at hcall
  have hcf1 : toNum 16777217 = args.targetCoords.elim 0 fun t => t.robconf.cf1 :=
    Effects.Prog.throw.inj hcall
  rw [ha, Option.elim_some, hcarries.cf1] at hcf1
  exact absurd hcf1 (by decide +kernel)

end Rapid

end RobertMiddleware
