import Mathlib.Logic.Relation

/-!
# Runs of a labelled transition function

The steps of a system are a partial function `step : σ → ℓ → Option σ`: the label holds every
choice that the system leaves open (which thread moves, what the network does), and `none` says
that the label is not possible in the state. A run may be restricted to the steps that a condition
`allowed` permits; the condition sees the state before the step and the label, never the outcome.

## Main definitions

* `Transition.Reaches step allowed` — the runs whose steps are all allowed
* `Transition.runLabels` — the run along a list of labels, computed
* `Transition.logged` — the same system with a record of what an observer sees of its steps
* `Transition.EachEntry` — what holds of every entry of a record

## Main results

* `Transition.Reaches.invariant` — what every allowed step preserves holds along every run
* `Transition.Reaches.of_runLabels` — a computed run is a run
* `Transition.Reaches.of_logged`, `Reaches.exists_logged` — the record does not change the runs
* `Transition.Reaches.project` — a run of one system seen as a run of another
-/

namespace Transition

variable {σ ℓ : Type} {step : σ → ℓ → Option σ} {allowed allowed' : σ → ℓ → Prop}

/-- One step, taken with an allowed label. -/
def Step (step : σ → ℓ → Option σ) (allowed : σ → ℓ → Prop) (s s' : σ) : Prop :=
  ∃ l, allowed s l ∧ step s l = some s'

/-- Some run with allowed steps only leads from `s` to `s'`. -/
def Reaches (step : σ → ℓ → Option σ) (allowed : σ → ℓ → Prop) : σ → σ → Prop :=
  Relation.ReflTransGen (Step step allowed)

/-- No restriction on the steps of a run. -/
def always (_ : σ) (_ : ℓ) : Prop := True

instance (s : σ) (l : ℓ) : Decidable (always s l) := .isTrue trivial

theorem Reaches.refl (s : σ) : Reaches step allowed s s := Relation.ReflTransGen.refl

theorem Reaches.trans {s s' s'' : σ} (h : Reaches step allowed s s')
    (h' : Reaches step allowed s' s'') : Reaches step allowed s s'' :=
  Relation.ReflTransGen.trans h h'

theorem Reaches.tail {s s' s'' : σ} {l : ℓ} (h : Reaches step allowed s s') (hl : allowed s' l)
    (hs : step s' l = some s'') : Reaches step allowed s s'' :=
  Relation.ReflTransGen.tail h ⟨l, hl, hs⟩

theorem Reaches.mono {s s' : σ} (hle : ∀ s l, allowed s l → allowed' s l)
    (h : Reaches step allowed s s') : Reaches step allowed' s s' :=
  Relation.ReflTransGen.mono (fun _ _ ⟨l, hl, hs⟩ => ⟨l, hle _ l hl, hs⟩) _ _ h

/-- **Invariant rule.** -/
theorem Reaches.invariant {I : σ → Prop} {s s' : σ} (h : Reaches step allowed s s') (hs : I s)
    (hstep : ∀ s l s', I s → allowed s l → step s l = some s' → I s') : I s' := by
  induction h with
  | refl => exact hs
  | tail _ hlast ih =>
    obtain ⟨l, hl, hnext⟩ := hlast
    exact hstep _ l _ ih hl hnext

/-- What holds along a run may be used for a stronger restriction on its steps. -/
theorem Reaches.restrict {I : σ → Prop} {s s' : σ} (h : Reaches step allowed s s') (hs : I s)
    (hstep : ∀ s l s', I s → allowed s l → step s l = some s' → I s')
    (hle : ∀ s l, I s → allowed s l → allowed' s l) : Reaches step allowed' s s' := by
  induction h with
  | refl => exact .refl s
  | tail hrun hlast ih =>
    obtain ⟨l, hl, hnext⟩ := hlast
    exact ih.tail (hle _ l (Reaches.invariant hrun hs hstep) hl) hnext

/-- The state after the labels `ls`, if they are possible and allowed. -/
def runLabels (step : σ → ℓ → Option σ) (allowed : σ → ℓ → Prop)
    [∀ s l, Decidable (allowed s l)] : σ → List ℓ → Option σ
  | s, [] => some s
  | s, l :: ls =>
    if allowed s l then (step s l).bind fun s' => runLabels step allowed s' ls else none

theorem Reaches.of_runLabels [∀ s l, Decidable (allowed s l)] {s s' : σ} {ls : List ℓ}
    (h : runLabels step allowed s ls = some s') : Reaches step allowed s s' := by
  induction ls generalizing s with
  | nil =>
    obtain rfl : s = s' := by simpa [runLabels] using h
    exact .refl s
  | cons l ls ih =>
    rw [runLabels] at h
    split at h
    · rename_i hallowed
      obtain ⟨t, ht, hrest⟩ := Option.bind_eq_some_iff.mp h
      exact Relation.ReflTransGen.head ⟨l, hallowed, ht⟩ (ih hrest)
    · cases h

/-! ### Records -/

section Records

variable {ω : Type} {obs : σ → ℓ → List ω}

/-- The system with a record, oldest entry first, of what `obs` sees of each step. -/
def logged (step : σ → ℓ → Option σ) (obs : σ → ℓ → List ω) :
    σ × List ω → ℓ → Option (σ × List ω) :=
  fun s l => (step s.1 l).map fun s' => (s', s.2 ++ obs s.1 l)

/-- The same restriction on steps, whatever was recorded. -/
def unlogged (allowed : σ → ℓ → Prop) (s : σ × List ω) (l : ℓ) : Prop := allowed s.1 l

instance [h : ∀ s l, Decidable (allowed s l)] (s : σ × List ω) (l : ℓ) :
    Decidable (unlogged allowed s l) := h s.1 l

theorem logged_eq_some_iff {s s' : σ} {log log' : List ω} {l : ℓ} :
    logged step obs (s, log) l = some (s', log') ↔
      step s l = some s' ∧ log' = log ++ obs s l := by
  rw [logged, Option.map_eq_some_iff]
  constructor
  · rintro ⟨t, ht, hpair⟩
    obtain ⟨rfl, rfl⟩ := Prod.mk.inj hpair
    exact ⟨ht, rfl⟩
  · rintro ⟨hs, rfl⟩
    exact ⟨s', hs, rfl⟩

/-- A run with a record is a run. -/
theorem Reaches.of_logged {s s' : σ × List ω}
    (h : Reaches (logged step obs) (unlogged allowed) s s') : Reaches step allowed s.1 s'.1 := by
  induction h with
  | refl => exact .refl s.1
  | tail _ hlast ih =>
    obtain ⟨l, hl, hnext⟩ := hlast
    exact ih.tail hl (logged_eq_some_iff.mp hnext).1

/-- Every run has a record. -/
theorem Reaches.exists_logged {s s' : σ} (h : Reaches step allowed s s') (obs : σ → ℓ → List ω)
    (log : List ω) : ∃ log', Reaches (logged step obs) (unlogged allowed) (s, log) (s', log') := by
  induction h with
  | refl => exact ⟨log, .refl _⟩
  | tail _ hlast ih =>
    obtain ⟨l, hl, hnext⟩ := hlast
    obtain ⟨log', hlogged⟩ := ih
    exact ⟨_, hlogged.tail hl (logged_eq_some_iff.mpr ⟨hnext, rfl⟩)⟩

/-- **Invariant rule** for a system with a record. -/
theorem Reaches.logged_invariant {I : σ → List ω → Prop} {s s' : σ} {log log' : List ω}
    (h : Reaches (logged step obs) (unlogged allowed) (s, log) (s', log')) (hs : I s log)
    (hstep : ∀ s log l s', I s log → allowed s l → step s l = some s' →
      I s' (log ++ obs s l)) : I s' log' := by
  refine h.invariant (I := fun t => I t.1 t.2) hs ?_
  rintro ⟨t, tlog⟩ l ⟨t', tlog'⟩ ht hl hnext
  obtain ⟨hmove, rfl⟩ := logged_eq_some_iff.mp hnext
  exact hstep t tlog l t' ht hl hmove

/-- **Projection.** When each allowed step is one that another system allows, seen alike there, or
is not seen and leaves the other system where it is, every run is a run of the other system. -/
theorem Reaches.project {σ' ℓ' : Type} {step' : σ' → ℓ' → Option σ'} {obs' : σ' → ℓ' → List ω}
    {allowed' : σ' → ℓ' → Prop} {I : σ → Prop} (f : σ → σ') {s s' : σ} {log log' : List ω}
    (h : Reaches (logged step obs) (unlogged allowed) (s, log) (s', log')) (hs : I s)
    (hinv : ∀ s l s', I s → step s l = some s' → I s')
    (hproject : ∀ s l s', I s → allowed s l → step s l = some s' →
      (∃ l', allowed' (f s) l' ∧ step' (f s) l' = some (f s') ∧ obs' (f s) l' = obs s l) ∨
        f s' = f s ∧ obs s l = []) :
    Reaches (logged step' obs') (unlogged allowed') (f s, log) (f s', log') := by
  refine (h.logged_invariant (I := fun t tlog => I t ∧
    Reaches (logged step' obs') (unlogged allowed') (f s, log) (f t, tlog)) ⟨hs, .refl _⟩ ?_).2
  rintro t tlog l t' ⟨ht, hrun⟩ hl hstep
  refine ⟨hinv t l t' ht hstep, ?_⟩
  rcases hproject t l t' ht hl hstep with ⟨l', hl', hmove, hseen⟩ | ⟨hsame, hseen⟩
  · exact hrun.tail hl' (logged_eq_some_iff.mpr ⟨hmove, by rw [hseen]⟩)
  · rw [hsame, hseen, List.append_nil]
    exact hrun

/-- `P` holds of every entry of the record, together with the entries before it. -/
def EachEntry (P : List ω → ω → Prop) (log : List ω) : Prop :=
  ∀ pre ev post, log = pre ++ ev :: post → P pre ev

theorem eachEntry_nil (P : List ω → ω → Prop) : EachEntry P [] := by
  intro pre ev post hsplit
  simp at hsplit

theorem EachEntry.snoc {P : List ω → ω → Prop} {log : List ω} {ev : ω} (h : EachEntry P log)
    (hev : P log ev) : EachEntry P (log ++ [ev]) := by
  intro pre ev' post hsplit
  -- the entry is the new one or an earlier one
  rcases List.eq_nil_or_concat post with rfl | ⟨post', last, rfl⟩
  · obtain ⟨rfl, hlast⟩ := List.append_inj' hsplit rfl
    rwa [← List.singleton_inj.mp hlast]
  · rw [List.concat_eq_append, ← List.cons_append, ← List.append_assoc] at hsplit
    exact h pre ev' post' (List.append_inj' hsplit rfl).1

end Records

end Transition
