import Mathlib.Tactic.Linarith
import RobertMiddleware.Rapid.Replies

/-!
# The workspace check

`IsSafeTarget` stands before each Cartesian motion. This file says what it checks, as six
comparisons on the coordinates and one call of `CalcJointT`, and what a motion behind it can do: no
motion is issued unless every target is inside the box, a margin away from its faces, and
`CalcJointT` has found joints for it.

A routine is judged by the calls that it makes, however they are answered.

## Main definitions

* `InBox` — a target inside the box between `corner_min` and `corner_max`
* `SafeMotion` — the motions of a run are to points that were checked before
* `Point` — the target points of a command

## Main results

* `isInWorkspace_inBox` — what the six comparisons come to
* `SafeMotion.checked` — every motion comes after the checks
* `emits_guardedMove` — check and move, or refuse
-/

namespace RobertMiddleware

namespace Rapid

open Effects

/-! ### The box -/

/-- Strictly between `lo` and `hi`, and a margin of one away from both. -/
structure Within (lo hi : ℚ) (s : Single) : Prop where
  finite : s.isInf = false
  above : lo < s.toRat
  below : s.toRat < hi
  margin_lo : 1 ≤ s.toRat - lo
  margin_hi : 1 ≤ hi - s.toRat

/-- Inside the box between `corner_min` and `corner_max`, with its margin. -/
structure InBox (t : RobTarget) : Prop where
  x : Within 400 800 t.trans.x
  y : Within (-400) 400 t.trans.y
  z : Within 300 800 t.trans.z

/-- The coordinates are numbers. -/
structure Numeric (t : RobTarget) : Prop where
  x : t.trans.x.isNaN = false
  y : t.trans.y.isNaN = false
  z : t.trans.z.isNaN = false

/-- A number that passes the two comparisons with the faces. -/
theorem within_of_tests {lo hi : ℚ} {s : Single} (hnum : s.isNaN = false)
    (hlo : s.leRat (lo + 1) = false) (hhi : s.gtRat (hi - 1) = false) : Within lo hi s := by
  cases hinf : s.isInf with
  | true =>
    -- an infinity is beyond one of the faces
    cases hsign : s.sign <;> simp_all [Single.leRat, Single.gtRat]
  | false =>
    simp only [Single.leRat, Single.gtRat, hnum, hinf, Bool.false_eq_true, if_false,
      decide_eq_false_iff_not, not_le, not_lt] at hlo hhi
    exact ⟨hinf, by linarith, by linarith, by linarith, by linarith⟩

/-- **The six comparisons.** A target that passes `IsInWorkspace` is inside the box. -/
theorem isInWorkspace_inBox {t : RobTarget} (hnum : Numeric t) (h : isInWorkspace t = true) :
    InBox t := by
  rw [isInWorkspace] at h
  split_ifs at h with hx hy hz
  rw [Bool.or_eq_true, not_or, Bool.not_eq_true, Bool.not_eq_true] at hx hy hz
  exact ⟨within_of_tests hnum.x hx.1 hx.2, within_of_tests hnum.y hy.1 hy.2,
    within_of_tests hnum.z hz.1 hz.2⟩

/-! ### Calls that move the robot -/

/-- The Cartesian targets of an instruction. -/
def RapidOp.targets : RapidOp → List RobTarget
  | .primitive (.moveL t _ _) => [t]
  | .primitive (.moveJ t _ _) => [t]
  | .primitive (.moveC t t' _ _) => [t, t']
  | _ => []

/-- The call moves the robot, to a Cartesian target or not. -/
def RapidOp.moves : RapidOp → Bool
  | .primitive p => p.moves
  | _ => false

theorem RapidOp.targets_eq_nil {op : RapidOp} (h : op.moves = false) : op.targets = [] := by
  cases op with
  | primitive p =>
    cases p with
    | moveL | moveJ | moveC => cases h
    | _ => rfl
  | _ => rfl

/-- The position that `CRobT` reported. -/
def reported : Event RapidCalls → Option RobTarget
  | ⟨.primitive .cRobT, r⟩ =>
    match (r : Except Errno RobTarget) with
    | .ok t => some t
    | .error _ => none
  | _ => none

/-- The robot is not moved. -/
def Still (tr : Calls) : Prop := ∀ ev ∈ tr, RapidOp.moves ev.1 = false

/-- The position is not asked for. -/
def Unlocated (tr : Calls) : Prop := ∀ ev ∈ tr, ev.1 ≠ .primitive .cRobT

/-- One of the events `f` is among the calls. -/
def Occurs {ι : Type} (f : ι → Event RapidCalls) (tr : Calls) : Prop := ∃ i, f i ∈ tr

/-- `CalcJointT` has found joints for the target. -/
def Checked (t : RobTarget) (tr : Calls) : Prop :=
  Occurs (fun j : JointTarget => ⟨.primitive (.calcJointT t), Except.ok j⟩) tr

/-- The client is refused. -/
def Nack (tr : Calls) : Prop :=
  Occurs (fun text : String => ⟨.sendResponse ("NACK|" ++ text), ()⟩) tr

/-- The primitive has raised an error. -/
def Raised (p : Primitive) (tr : Calls) : Prop :=
  Occurs (fun e : Errno => ⟨.primitive p, Except.error e⟩) tr

/-- The motions are to points that satisfy `P`, after all such points were checked. -/
def SafeMotion (P : RobTarget → Prop) (tr : Calls) : Prop :=
  ∃ before after, tr = before ++ after ∧ Still before ∧
    (∀ t, P t → isInWorkspace t = true ∧ Checked t before) ∧
    ∀ ev ∈ after, ∀ t ∈ RapidOp.targets ev.1, P t

section Traces

variable {tr tr' : Calls} {t : RobTarget} {P : RobTarget → Prop}

theorem Still.targets (h : Still tr) {ev : Event RapidCalls} (hev : ev ∈ tr) :
    RapidOp.targets ev.1 = [] := RapidOp.targets_eq_nil (h ev hev)

theorem still_append : Still (tr ++ tr') ↔ Still tr ∧ Still tr' := List.forall_mem_append

theorem unlocated_append : Unlocated (tr ++ tr') ↔ Unlocated tr ∧ Unlocated tr' :=
  List.forall_mem_append

theorem occurs_append {ι : Type} {f : ι → Event RapidCalls} :
    Occurs f (tr ++ tr') ↔ Occurs f tr ∨ Occurs f tr' := by
  simp only [Occurs, List.mem_append, exists_or]

theorem Occurs.append_right {ι : Type} {f : ι → Event RapidCalls} (h : Occurs f tr)
    (tr' : Calls) : Occurs f (tr ++ tr') := occurs_append.mpr (.inl h)

theorem Occurs.append_left {ι : Type} {f : ι → Event RapidCalls} (h : Occurs f tr)
    (tr' : Calls) : Occurs f (tr' ++ tr) := occurs_append.mpr (.inr h)

theorem SafeMotion.append_right (h : SafeMotion P tr) (htr' : Still tr') :
    SafeMotion P (tr ++ tr') := by
  obtain ⟨before, after, rfl, hstill, hsafe, hto⟩ := h
  refine ⟨before, after ++ tr', List.append_assoc .., hstill, hsafe, ?_⟩
  refine List.forall_mem_append.mpr ⟨hto, fun ev hev t ht => ?_⟩
  rw [htr'.targets hev] at ht
  exact absurd ht List.not_mem_nil

theorem SafeMotion.append_left (h : SafeMotion P tr) (htr' : Still tr') :
    SafeMotion P (tr' ++ tr) := by
  obtain ⟨before, after, rfl, hstill, hsafe, hto⟩ := h
  have hbefore : Still (tr' ++ before) := still_append.mpr ⟨htr', hstill⟩
  refine ⟨tr' ++ before, after, (List.append_assoc ..).symm, hbefore, fun t ht => ?_, hto⟩
  exact ⟨(hsafe t ht).1, (hsafe t ht).2.append_left tr'⟩

/-- Without points there are no Cartesian motions. -/
theorem SafeMotion.of_no_point (htr : ∀ ev ∈ tr, RapidOp.targets ev.1 = []) (hP : ∀ t, ¬ P t) :
    SafeMotion P tr :=
  ⟨[], tr, rfl, fun _ hev => absurd hev List.not_mem_nil, fun t ht => absurd ht (hP t),
    fun ev hev t ht => by
      rw [htr ev hev] at ht
      exact absurd ht List.not_mem_nil⟩

/-- All the points are checked in the end. -/
theorem SafeMotion.point (h : SafeMotion P tr) (ht : P t) :
    isInWorkspace t = true ∧ Checked t tr := by
  obtain ⟨before, after, rfl, -, hsafe, -⟩ := h
  exact ⟨(hsafe t ht).1, (hsafe t ht).2.append_right after⟩

/-- Every motion comes after the checks. -/
theorem SafeMotion.checked (h : SafeMotion P tr) {pre post : Calls} {ev : Event RapidCalls}
    (htr : tr = pre ++ ev :: post) (ht : t ∈ RapidOp.targets ev.1) :
    P t ∧ isInWorkspace t = true ∧ Checked t pre := by
  obtain ⟨before, after, hsplit, hstill, hsafe, hto⟩ := h
  rw [htr] at hsplit
  rcases List.append_eq_append_iff.mp hsplit with ⟨as, hbefore, hafter⟩ | ⟨bs, hpre, hafter⟩
  · -- the motion would be among the calls before the checks are over
    cases as with
    | nil =>
      rw [List.nil_append] at hafter
      rw [List.append_nil] at hbefore
      have hP := hto ev (hafter ▸ List.mem_cons_self) t ht
      exact ⟨hP, (hsafe t hP).1, hbefore ▸ (hsafe t hP).2⟩
    | cons ev' as =>
      rw [List.cons_append] at hafter
      obtain ⟨rfl, -⟩ := List.cons.inj hafter
      rw [hstill.targets (hbefore ▸ List.mem_append_right _ List.mem_cons_self)] at ht
      exact absurd ht List.not_mem_nil
  · have hP := hto ev (hafter ▸ List.mem_append_right _ List.mem_cons_self) t ht
    exact ⟨hP, (hsafe t hP).1, hpre ▸ (hsafe t hP).2.append_right bs⟩

end Traces

/-! ### The check and the motion -/

/-- Neither a motion nor a question for the position. -/
def RapidOp.Idle (op : RapidOp) : Prop := op.moves = false ∧ op ≠ .primitive .cRobT

def Silent (tr : Calls) : Prop := ∀ ev ∈ tr, RapidOp.Idle ev.1

theorem Silent.still {tr : Calls} (h : Silent tr) : Still tr := fun ev hev => (h ev hev).1

theorem Silent.unlocated {tr : Calls} (h : Silent tr) : Unlocated tr :=
  fun ev hev => (h ev hev).2

theorem silent_nil : Silent [] := fun _ hev => absurd hev List.not_mem_nil

theorem Silent.cons {ev : Event RapidCalls} {tr : Calls} (htr : Silent tr)
    (hev : RapidOp.Idle ev.1) : Silent (ev :: tr) := List.forall_mem_cons.mpr ⟨hev, htr⟩

theorem Silent.append {tr tr' : Calls} (h : Silent tr) (h' : Silent tr') : Silent (tr ++ tr') :=
  List.forall_mem_append.mpr ⟨h, h'⟩

theorem idle_moveSpeed : RapidOp.Idle .moveSpeed := ⟨rfl, by simp⟩

theorem idle_moveZone : RapidOp.Idle .moveZone := ⟨rfl, by simp⟩

theorem idle_sendResponse (msg : String) : RapidOp.Idle (.sendResponse msg) := ⟨rfl, by simp⟩

theorem silent_response (msg : String) :
    Silent [(⟨.sendResponse msg, ()⟩ : Event RapidCalls)] :=
  silent_nil.cons (idle_sendResponse msg)

/-- A refusal. -/
theorem nack_singleton (text : String) :
    Nack [(⟨.sendResponse ("NACK|" ++ text), ()⟩ : Event RapidCalls)] :=
  ⟨text, List.mem_singleton_self _⟩

section Specs

variable {R : RapidSystem} {P : RobTarget → Prop}

/-- The check before a motion: it says no, or all points that satisfy `P` are checked. -/
def Checks (P : RobTarget → Prop) (check : Routine Bool) : Prop :=
  check.Emits fun res es => Silent es ∧ (res = .ok false ∨
    res = .ok true ∧ ∀ t, P t → isInWorkspace t = true ∧ Checked t es)

/-- `IsSafeTarget` on a Cartesian target. -/
theorem checks_isSafeTarget (t : RobTarget) : Checks (· = t) (isSafeTarget (some t) none) := by
  rw [isSafeTarget]
  refine Prog.emits_tryCatch.mpr ?_
  split
  · exact ⟨silent_nil, .inl rfl⟩
  · rename_i hinside
    rw [Bool.not_eq_true', Bool.not_eq_false] at hinside
    intro r
    cases r with
    | error e => exact ⟨silent_nil.cons ⟨rfl, by simp⟩, .inl rfl⟩
    | ok j =>
      refine ⟨silent_nil.cons ⟨rfl, by simp⟩, .inr ⟨rfl, ?_⟩⟩
      rintro _ rfl
      exact ⟨hinside, j, List.mem_singleton_self _⟩

/-- The two targets of `MoveC`. -/
theorem checks_areSafeTargets (t t2 : RobTarget) :
    Checks (fun u => u = t ∨ u = t2) (areSafeTargets t t2) := by
  refine Prog.emits_bind.mpr ((checks_isSafeTarget t).mono ?_)
  rintro res es ⟨hes, rfl | ⟨rfl, hchecked⟩⟩
  · exact ⟨hes.append silent_nil, .inl rfl⟩
  · refine (checks_isSafeTarget t2).mono ?_
    rintro res' es' ⟨hes', rfl | ⟨rfl, hchecked'⟩⟩
    · exact ⟨hes.append hes', .inl rfl⟩
    · refine ⟨hes.append hes', .inr ⟨rfl, ?_⟩⟩
      rintro u (hu | hu)
      · exact ⟨(hchecked u hu).1, (hchecked u hu).2.append_right es'⟩
      · exact ⟨(hchecked' u hu).1, (hchecked' u hu).2.append_left es⟩

/-- The call moves the robot to points that satisfy `P`, if to Cartesian targets at all. -/
def RapidOp.MovesTo (P : RobTarget → Prop) (op : RapidOp) : Prop :=
  op ≠ .primitive .cRobT ∧ ∀ t ∈ op.targets, P t

theorem reported_eq_none {ev : Event RapidCalls} (h : ev.1 ≠ .primitive .cRobT) :
    reported ev = none := by
  obtain ⟨op, r⟩ := ev
  cases op with
  | primitive p =>
    cases p with
    | cRobT => exact absurd rfl h
    | _ => rfl
  | _ => rfl

theorem RapidOp.Idle.movesTo {op : RapidOp} (h : op.Idle) : op.MovesTo P :=
  ⟨h.2, fun t ht => by rw [op.targets_eq_nil h.1] at ht; exact absurd ht List.not_mem_nil⟩

theorem calls_moveL (t : RobTarget) : (moveL t).Calls (RapidOp.MovesTo (· = t)) :=
  (calls_perform idle_moveSpeed.movesTo).bind fun _ =>
    (calls_perform idle_moveZone.movesTo).bind fun _ =>
    calls_attempt ⟨by simp, fun _ hu => List.mem_singleton.mp hu⟩

theorem calls_moveJ (t : RobTarget) : (moveJ t).Calls (RapidOp.MovesTo (· = t)) :=
  (calls_perform idle_moveSpeed.movesTo).bind fun _ =>
    (calls_perform idle_moveZone.movesTo).bind fun _ =>
    calls_attempt ⟨by simp, fun _ hu => List.mem_singleton.mp hu⟩

theorem calls_moveC (t t2 : RobTarget) :
    (moveC t2 t).Calls (RapidOp.MovesTo fun u => u = t ∨ u = t2) :=
  (calls_perform idle_moveSpeed.movesTo).bind fun _ =>
    (calls_perform idle_moveZone.movesTo).bind fun _ =>
    calls_attempt ⟨by simp, fun u hu => by
      rcases List.mem_cons.mp hu with hu | hu
      · exact .inr hu
      · exact .inl (List.mem_singleton.mp hu)⟩

/-- Check, move and acknowledge, or refuse. -/
theorem emits_guardedMove {check : Routine Bool} {move : Routine Unit} (ack : String)
    (hcheck : Checks P check) (hmove : move.Calls (RapidOp.MovesTo P)) :
    (guardedMove check move ack).Emits fun res es => Unlocated es ∧
      (SafeMotion P es ∨ res = .ok () ∧ Still es ∧ Nack es) := by
  refine Prog.emits_bind.mpr (hcheck.mono ?_)
  rintro res es ⟨hes, rfl | ⟨rfl, hsafe⟩⟩
  · intro _
    have hrefusal := silent_response "NACK|SINGULARITY_OR_LIMIT"
    exact ⟨(hes.append hrefusal).unlocated, .inr ⟨rfl, (hes.append hrefusal).still,
      (nack_singleton "SINGULARITY_OR_LIMIT").append_left es⟩⟩
  · have hafter : ∀ es', (∀ ev ∈ es', RapidOp.MovesTo P ev.1) → Unlocated (es ++ es') ∧
        SafeMotion P (es ++ es') := fun es' hes' =>
      ⟨unlocated_append.mpr ⟨hes.unlocated, fun ev hev => (hes' ev hev).1⟩,
        es, es', rfl, hes.still, hsafe, fun ev hev => (hes' ev hev).2⟩
    have hcalls : (move.bind fun _ => sendResponse ack).Calls (RapidOp.MovesTo P) :=
      hmove.bind fun _ => calls_perform (idle_sendResponse ack).movesTo
    refine hcalls.emits.mono fun res' es' hes' => ?_
    exact ⟨(hafter es' hes').1, .inl (hafter es' hes').2⟩

end Specs

/-! ### The points of a command -/

/-- `t` is a target point of a command with these targets: one of them, or the position that was
reported, displaced by the first of them. -/
def Point (R : RapidSystem) (cmd : String) (first second : Option RobTarget) (tr : Calls)
    (t : RobTarget) : Prop :=
  (cmd = "MoveL" ∨ cmd = "MoveJ" ∨ cmd = "MoveC") ∧ first = some t ∨
    cmd = "MoveC" ∧ second = some t ∨
    (cmd = "MoveLOffs" ∨ cmd = "MoveJOffs") ∧ ∃ d current, first = some d ∧
      (∃ ev ∈ tr, reported ev = some current) ∧
      t = R.offs current d.trans.x d.trans.y d.trans.z

/-- The target points of an action. -/
abbrev ActionArgs.Point (R : RapidSystem) (args : ActionArgs) : Calls → RobTarget → Prop :=
  Rapid.Point R args.actionCmd args.targetCoords args.circularExtraTarget

section Points

variable {R : RapidSystem} {cmd : String} {first second : Option RobTarget} {tr tr' : Calls}
  {t : RobTarget}

theorem Unlocated.not_reported (h : Unlocated tr) (current : RobTarget) :
    ¬ ∃ ev ∈ tr, reported ev = some current := by
  rintro ⟨ev, hev, hcurrent⟩
  rw [reported_eq_none (h ev hev)] at hcurrent
  contradiction

theorem reported_append {current : RobTarget} :
    (∃ ev ∈ tr ++ tr', reported ev = some current) ↔
      (∃ ev ∈ tr, reported ev = some current) ∨ ∃ ev ∈ tr', reported ev = some current := by
  simp only [List.mem_append, or_and_right, exists_or]

/-- What does not ask for the position leaves the points alone. -/
theorem Unlocated.point_append (h : Unlocated tr') :
    Point R cmd first second (tr ++ tr') t ↔ Point R cmd first second tr t := by
  simp only [Point, reported_append, h.not_reported, or_false]

theorem Unlocated.point_append_left (h : Unlocated tr') :
    Point R cmd first second (tr' ++ tr) t ↔ Point R cmd first second tr t := by
  simp only [Point, reported_append, h.not_reported, false_or]

theorem point_direct (hcmd : cmd = "MoveL" ∨ cmd = "MoveJ") {u : RobTarget} :
    Point R cmd (some t) second tr u ↔ u = t := by
  rcases hcmd with rfl | rfl <;> simp [Point, eq_comm]

theorem point_circular {t2 u : RobTarget} :
    Point R "MoveC" (some t) (some t2) tr u ↔ u = t ∨ u = t2 := by
  simp [Point, eq_comm]

/-- The commands with an offset have the displaced position as their point. -/
theorem point_offset (hcmd : cmd = "MoveLOffs" ∨ cmd = "MoveJOffs") {d u : RobTarget} :
    Point R cmd (some d) second tr u ↔ ∃ current, (∃ ev ∈ tr, reported ev = some current) ∧
      u = R.offs current d.trans.x d.trans.y d.trans.z := by
  rcases hcmd with rfl | rfl <;> simp [Point]

/-- Only `MoveC` uses the second target. -/
theorem point_second (hcmd : cmd ≠ "MoveC") {second' : Option RobTarget} :
    Point R cmd first second tr t ↔ Point R cmd first second' tr t := by
  simp [Point, hcmd]

/-- The other commands have no points. -/
theorem not_point (h : cmd ∉ ["MoveL", "MoveJ", "MoveC", "MoveLOffs", "MoveJOffs"]) :
    ¬ Point R cmd first second tr t := by
  simp only [List.mem_cons, List.not_mem_nil, or_false, not_or] at h
  simp [Point, h]

end Points

end Rapid

end RobertMiddleware
