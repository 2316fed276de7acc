import RobertMiddleware.Rapid.Telemetry
import RobertMiddleware.Server.System

/-!
# Telemetry across the two languages

The controller packs its state with one-based indices, and `unpack_robot_status` reads it with
zero-based offsets. This file shows that what the middleware reads is what the controller packed,
and that the task worker takes the buffer for an answer and not for an error text.

## Main results

* `exec_handleGetState_iff` — the runs of `HandleGetState` in which nothing fails
* `disjoint_telemetryFields` — no two fields share a byte
* `unpack_telemetryBuffer` — every field reads back
* `telemetry_roundTrip` — the whole way from the controller's state to the finished task
-/

namespace RobertMiddleware

namespace Rapid

open ByteLayout Effects

/-! ### The buffer -/

/-- The fields follow each other. -/
theorem disjoint_telemetryFields (c : Controller) :
    (telemetryFields c).Pairwise DisjointFields := by
  refine pairwise_disjointFields_of_isChain ?_
  simp [telemetryFields, telemetryPacks]

theorem length_telemetryBuffer (c : Controller) : (telemetryBuffer c).length = 171 := by
  simp [telemetryBuffer, length_writeAll, telemetryFields, telemetryPacks]

/-- A read at a field's offset gives the field. -/
theorem readMemory_telemetryBuffer (P : Platform) (c : Controller) :
    ∀ f ∈ telemetryFields c,
      Decoder.readMemory P (telemetryBuffer c) f.1 f.2.length = f.2 := by
  intro f hf
  have hend : ∀ g ∈ telemetryFields c, g.1 + g.2.length ≤ 171 := by
    simp [telemetryFields, telemetryPacks]
  rw [Decoder.readMemory_eq_slice (by rw [length_telemetryBuffer]; exact hend f hf)]
  exact slice_writeAll [] (disjoint_telemetryFields c) hf

/-- The first byte is the operating mode, so the buffer is not an error text. -/
theorem isErrorResponse_telemetryBuffer (c : Controller) :
    isErrorResponse (telemetryBuffer c) = false := by
  have hfirst : slice (telemetryBuffer c) 0 1 = [0] :=
    slice_writeAll [] (disjoint_telemetryFields c) (f := (0, packUsint 0)) List.mem_cons_self
  cases hbuf : telemetryBuffer c with
  | nil => simp [hbuf, slice] at hfirst
  | cons b rest =>
    have hb : b = 0 := by simpa [hbuf, slice] using hfirst
    rw [hb]
    rfl

/-! ### What the middleware reads -/

theorem single_unpacked (s : Single) : (⟨bytesWord (packFloat4 s)⟩ : Single) = s := by
  rw [packFloat4, bytesWord_wordBytes]

theorem int32_unpacked (n : ℤ) : (⟨⟨bytesWord (packDint n)⟩⟩ : Int32) = Int32.ofInt n := by
  rw [packDint, bytesWord_wordBytes]
  rfl

theorem toEnum_zoneToValue (P : Platform) (z : Zone) :
    P.toEnum (Single.ofNat (zoneToValue z)) = zoneToValue z := by
  have hlt := zoneToValue_lt z
  rw [Platform.toEnum, Single.trunc_ofNat (by omega), if_pos (by omega)]

/-- Four configuration numbers that a `DINT` holds. -/
def ConfData.FitsDint (r : ConfData) : Prop :=
  ∀ n ∈ [r.cf1, r.cf4, r.cf6, r.cfx], -2 ^ 31 ≤ n ∧ n < 2 ^ 31

/-- The configuration as four `DINT`s. -/
def confOf (r : ConfData) : RobertMiddleware.ConfData :=
  ⟨.ofInt r.cf1, .ofInt r.cf4, .ofInt r.cf6, .ofInt r.cfx⟩

theorem confOf_toInt {r : ConfData} (h : r.FitsDint) :
    (confOf r).cf1.toInt = r.cf1 ∧ (confOf r).cf4.toInt = r.cf4 ∧
      (confOf r).cf6.toInt = r.cf6 ∧ (confOf r).cfx.toInt = r.cfx := by
  have hone : ∀ n ∈ [r.cf1, r.cf4, r.cf6, r.cfx], (Int32.ofInt n).toInt = n :=
    fun n hn => Int32.toInt_ofInt_of_le (h n hn).1 (h n hn).2
  exact ⟨hone _ (by simp), hone _ (by simp), hone _ (by simp), hone _ (by simp)⟩

/-- The external axes under the client's names. -/
def extJointOf (e : ExtJoint) : RobertMiddleware.ExtJoint :=
  ⟨e.eaxA, e.eaxB, e.eaxC, e.eaxD, e.eaxE, e.eaxF⟩

/-- The state of the controller in the fields of the client's message. -/
def reportedStatus (c : Controller) : RobotStatus where
  opMode := 0
  speedOverride := c.speedOverride
  currentSpeed := c.moveSpeed
  currentZone := zoneToValue c.moveZone
  currentTarget :=
    { trans := ⟨c.robTarget.trans.x, c.robTarget.trans.y, c.robTarget.trans.z⟩
      rot := ⟨c.robTarget.rot.q1, c.robTarget.rot.q2, c.robTarget.rot.q3, c.robTarget.rot.q4⟩
      robconf := confOf c.robTarget.robconf
      extax := extJointOf c.robTarget.extax }
  currentJointTarget :=
    { robjoint :=
        ⟨c.jointTarget.robax.rax1, c.jointTarget.robax.rax2, c.jointTarget.robax.rax3,
          c.jointTarget.robax.rax4, c.jointTarget.robax.rax5, c.jointTarget.robax.rax6⟩
      extjoint := extJointOf c.jointTarget.extax }
  robotTime := c.time.toList
  robotDate := c.date.toList

/-- **Every field reads back.** -/
theorem unpack_telemetryBuffer (P : Platform) (c : Controller) (pbState : RobotStatus) :
    Decoder.unpack P (telemetryBuffer c) pbState = (true, reportedStatus c) := by
  have hread := readMemory_telemetryBuffer P c
  simp only [telemetryFields, telemetryPacks, List.map_cons, List.map_nil, List.forall_mem_cons,
    length_packUsint, length_packFloat4, length_packDint, Vector.length_toList] at hread
  simp [Decoder.unpack, Decoder.unpackRobotStatus, length_telemetryBuffer, Decoder.readFromBuffer,
    Decoder.readFloat, Decoder.readInt32, Decoder.readExtJoint, Prog.perform, Prog.bind, Prog.run,
    hread, single_unpacked, int32_unpacked, toEnum_zoneToValue, reportedStatus, confOf, extJointOf,
    packUsint, leBytes, ofLeBytes]

/-! ### The run that sends it -/

theorem exec_attempt_bind_ok_iff {p : Primitive} {α : Type} {f : p.Answer → Routine α} {b : α}
    {c c' : Controller} {tr tr' : List (Event RapidCalls)} (hp : p.moves = false) :
    ((attempt p).bind f).Exec rapidSem.traced Eq (c, tr) (.ok b) (c', tr') ↔
      ∃ a, p.Reports c a ∧
        (f a).Exec rapidSem.traced Eq (c, tr ++ [⟨.primitive p, .ok a⟩]) (.ok b) (c', tr') := by
  simp only [attempt, Prog.bind, Prog.exec_call_iff]
  constructor
  · rintro ⟨_, r, ⟨c₂, tr₂⟩, rfl, ⟨⟨hreports, t, j, hc⟩, htr⟩, hrest⟩
    obtain rfl : c₂ = c := by simpa [hp] using hc
    obtain rfl := htr
    cases r with
    | ok a => exact ⟨a, hreports a rfl, hrest⟩
    | error e => exact absurd (Prog.exec_throw_iff.mp hrest).1 (by simp)
  · rintro ⟨a, hreports, hrest⟩
    refine ⟨_, .ok a, (c, _), rfl, ⟨⟨?_, c.robTarget, c.jointTarget, ?_⟩, rfl⟩, hrest⟩
    · rintro _ ⟨⟩
      exact hreports
    · simp [hp]

theorem exec_moveSpeed_bind_iff {α : Type} {f : Single → Routine α} {c : Controller}
    {tr : List (Event RapidCalls)} {res : Except Errno α}
    {s' : Controller × List (Event RapidCalls)} :
    (moveSpeed.bind f).Exec rapidSem.traced Eq (c, tr) res s' ↔
      (f c.moveSpeed).Exec rapidSem.traced Eq (c, tr ++ [⟨.moveSpeed, c.moveSpeed⟩]) res s' := by
  simp [moveSpeed, Prog.perform, Prog.bind, Prog.exec_call_iff, Semantics.traced, rapidSem]

theorem exec_moveZone_bind_iff {α : Type} {f : Zone → Routine α} {c : Controller}
    {tr : List (Event RapidCalls)} {res : Except Errno α}
    {s' : Controller × List (Event RapidCalls)} :
    (moveZone.bind f).Exec rapidSem.traced Eq (c, tr) res s' ↔
      (f c.moveZone).Exec rapidSem.traced Eq (c, tr ++ [⟨.moveZone, c.moveZone⟩]) res s' := by
  simp [moveZone, Prog.perform, Prog.bind, Prog.exec_call_iff, Semantics.traced, rapidSem]

theorem exec_sendBinaryResponse_iff {raw : Bytes} {c c' : Controller}
    {tr tr' : List (Event RapidCalls)} :
    (sendBinaryResponse raw).Exec rapidSem.traced Eq (c, tr) (.ok ()) (c', tr') ↔
      c' = c ∧ tr' = tr ++ [⟨.sendBinaryResponse raw, ()⟩] := by
  have hunit : (∃ x, tr' = tr ++ [⟨.sendBinaryResponse raw, x⟩]) ↔
      tr' = tr ++ [⟨.sendBinaryResponse raw, ()⟩] := ⟨fun ⟨_, h⟩ => h, fun h => ⟨(), h⟩⟩
  simpa [sendBinaryResponse, Prog.perform, Prog.exec_call_iff, Prog.exec_pure_iff,
    Semantics.traced, rapidSem] using fun _ => hunit

/-- The calls of `HandleGetState` when nothing fails, with their answers. -/
def statusTrace (c : Controller) : List (Event RapidCalls) :=
  [⟨.primitive .cRobT, Except.ok c.robTarget⟩,
   ⟨.primitive .cJointT, Except.ok c.jointTarget⟩,
   ⟨.primitive .cSpeedOverride, Except.ok c.speedOverride⟩,
   ⟨.primitive .cTime, Except.ok c.time⟩,
   ⟨.primitive .cDate, Except.ok c.date⟩,
   ⟨.moveSpeed, c.moveSpeed⟩,
   ⟨.moveZone, c.moveZone⟩,
   ⟨.sendBinaryResponse (telemetryBuffer c), ()⟩]

/-- `HandleGetState` returns after sending the buffer of the state it ran in. -/
theorem exec_handleGetState_iff {c c' : Controller} {tr : List (Event RapidCalls)} :
    handleGetState.Exec rapidSem.traced Eq (c, []) (.ok ()) (c', tr) ↔
      c' = c ∧ tr = statusTrace c := by
  simp only [handleGetState, Prog.bind_eq, exec_attempt_bind_ok_iff (p := .cRobT) rfl,
    exec_attempt_bind_ok_iff (p := .cJointT) rfl,
    exec_attempt_bind_ok_iff (p := .cSpeedOverride) rfl,
    exec_attempt_bind_ok_iff (p := .cTime) rfl, exec_attempt_bind_ok_iff (p := .cDate) rfl,
    Primitive.Reports, exists_eq_left, exec_moveSpeed_bind_iff, exec_moveZone_bind_iff,
    exec_sendBinaryResponse_iff]
  rfl

/-- **Telemetry round trip.** Whatever the state of the controller: `HandleGetState` sends one
buffer, in which no two fields overlap; `unpack_robot_status` accepts it and finds in it the values
the controller packed; the buffer does not start like an error, so the task worker completes the
task with it, and the client is given the status. -/
theorem telemetry_roundTrip (P : Platform) (c : Controller) :
    (∀ c' tr, handleGetState.Exec rapidSem.traced Eq (c, []) (.ok ()) (c', tr) ↔
        c' = c ∧ tr = statusTrace c) ∧
      (telemetryFields c).Pairwise DisjointFields ∧
      (∀ pbState, Decoder.unpack P (telemetryBuffer c) pbState = (true, reportedStatus c)) ∧
      (c.robTarget.robconf.FitsDint →
        (confOf c.robTarget.robconf).cf1.toInt = c.robTarget.robconf.cf1 ∧
        (confOf c.robTarget.robconf).cf4.toInt = c.robTarget.robconf.cf4 ∧
        (confOf c.robTarget.robconf).cf6.toInt = c.robTarget.robconf.cf6 ∧
        (confOf c.robTarget.robconf).cfx.toInt = c.robTarget.robconf.cfx) ∧
      ¬ ascii "ERR:" <+: telemetryBuffer c ∧ ¬ ascii "NACK" <+: telemetryBuffer c ∧
      (∀ now id tasker, recordResponse now id (telemetryBuffer c) tasker =
        (tasker.completeTask now id (telemetryBuffer c)).2) ∧
      ∀ task : Task, task.request.commandId = RapidCommandType.getStatus.toUInt8 →
        task.response = telemetryBuffer c →
          RequestHandler.completedResponse P task =
            { status := some .success
              taskStatus := some .taskCompleted
              robotStatus := some (reportedStatus c) } := by
  have herror := isErrorResponse_telemetryBuffer c
  obtain ⟨herr, hnack⟩ := Bool.or_eq_false_iff.mp herror
  refine ⟨fun _ _ => exec_handleGetState_iff, disjoint_telemetryFields c,
    unpack_telemetryBuffer P c, confOf_toInt, ?_, ?_, fun now id tasker => ?_,
    fun task hcommand hresponse => ?_⟩
  · rw [← List.isPrefixOf_iff_prefix, herr]
    exact Bool.false_ne_true
  · rw [← List.isPrefixOf_iff_prefix, hnack]
    exact Bool.false_ne_true
  · rw [recordResponse, herror, if_neg Bool.false_ne_true]
  · rw [RequestHandler.completedResponse, if_pos hcommand, hresponse, unpack_telemetryBuffer]

end Rapid

end RobertMiddleware
