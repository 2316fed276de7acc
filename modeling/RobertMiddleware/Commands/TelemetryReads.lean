import RobertMiddleware.Commands.Decoder

/-!
# The reads of the telemetry decoder

`unpack_robot_status` tests the size of its vector once, against 162, and then reads thirty-five
fields at fixed offsets. The last of them, the date, is ten bytes from 161 on, so it ends at 171:
a vector of 162 to 170 bytes passes the test and is read past its end.

## Main definitions

* `Decoder.unpackReads` — the reads that unpacking makes
* `Decoder.SafeReads` — they stay inside the vector, and a vector too short is refused

## Main results

* `Decoder.unpackReads_eq` — the reads are those of the fields, or none
* `Decoder.safeReads_iff` — the vectors that are safe to unpack
-/

namespace RobertMiddleware

open Effects

namespace Decoder

/-- The reads made on the vector `raw`, as offsets and widths, in order. -/
def unpackReads (P : Platform) (raw : Bytes) (pbState : RobotStatus) : List (ℕ × ℕ) :=
  ((unpackRobotStatus P raw.length pbState).play
    (fun (op : ℕ × ℕ) (_ : Unit) => (readMemory P raw op.1 op.2, ())) ()).2.2.map Sigma.fst

/-- The operating mode, thirty-two words, the time and the date. -/
def fieldReads : List (ℕ × ℕ) :=
  (0, 1) :: (List.range 32).map (fun i => (1 + 4 * i, 4)) ++ [(129, 8), (161, 10)]

/-- Where the last field ends. -/
def telemetryLength : ℕ := 171

/-- Every read stays inside the vector, and if the vector is too short to hold every field it is
refused and the output is left as it was. -/
def SafeReads (P : Platform) (raw : Bytes) (pbState : RobotStatus) : Prop :=
  (∀ r ∈ unpackReads P raw pbState, r.1 + r.2 ≤ raw.length) ∧
    (raw.length < telemetryLength → unpack P raw pbState = (false, pbState))

theorem fieldReads_end_le : ∀ r ∈ fieldReads, r.1 + r.2 ≤ telemetryLength := by decide

variable {P : Platform} {raw : Bytes} {pbState : RobotStatus}

/-- **The reads.** They do not depend on what is read. -/
theorem unpackReads_eq :
    unpackReads P raw pbState = if raw.length < 162 then [] else fieldReads := by
  rw [unpackReads, unpackRobotStatus]
  split
  · rfl
  · rfl

/-- A short vector is refused. -/
theorem unpack_of_lt (h : raw.length < 162) : unpack P raw pbState = (false, pbState) := by
  rw [unpack, unpackRobotStatus, if_pos h]
  rfl

/-- A vector that passes the test is accepted, whatever memory holds behind it. -/
theorem unpack_fst_of_le (h : 162 ≤ raw.length) : (unpack P raw pbState).1 = true := by
  rw [unpack, unpackRobotStatus, if_neg (not_lt.mpr h)]
  rfl

/-- **When unpacking is safe**: for the vectors that the test refuses and for those that hold
every field. -/
theorem safeReads_iff :
    SafeReads P raw pbState ↔ raw.length < 162 ∨ telemetryLength ≤ raw.length := by
  constructor
  · intro hsafe
    by_contra hbetween
    obtain ⟨hlong, hshort⟩ := not_or.mp hbetween
    have haccepted : (unpack P raw pbState).1 = true := unpack_fst_of_le (not_lt.mp hlong)
    rw [hsafe.2 (not_le.mp hshort)] at haccepted
    cases haccepted
  · rintro (hshort | hlong)
    · constructor
      · intro r hr
        rw [unpackReads_eq, if_pos hshort] at hr
        cases hr
      · intro _
        exact unpack_of_lt hshort
    · have hlarge : ¬ raw.length < 162 := by
        intro hlt
        exact absurd (hlt.trans_le' hlong) (by decide)
      constructor
      · intro r hr
        rw [unpackReads_eq, if_neg hlarge] at hr
        exact (fieldReads_end_le r hr).trans hlong
      · intro hshort
        exact absurd hshort (not_lt.mpr hlong)

/-- **A reply of 162 bytes.** The date is read nine bytes past the end, and the vector is
accepted. -/
theorem read_past_end :
    (161, 10) ∈ unpackReads Platform.linux (List.replicate 162 0) {} ∧
      (unpack Platform.linux (List.replicate 162 0) {}).1 = true ∧
      ¬ SafeReads Platform.linux (List.replicate 162 0) {} := by
  have hread : (161, 10) ∈ unpackReads Platform.linux (List.replicate 162 0) {} := by
    rw [unpackReads_eq, List.length_replicate, if_neg (by decide)]
    decide
  refine ⟨hread, unpack_fst_of_le List.length_replicate.ge, fun hsafe => ?_⟩
  have hinside := hsafe.1 _ hread
  rw [List.length_replicate] at hinside
  exact absurd hinside (by decide)

end Decoder

end RobertMiddleware
