import RobertMiddleware.Internal.Effects
import RobertMiddleware.Internal.Transition

/-!
# How long it takes

A rank says how many entries a run can still add to its record before a goal is reached. A step has
to pay for what it adds: the rank becomes smaller by at least the number of entries. Steps that add
nothing may be taken for ever, as long as they do not make the rank greater.

The rank is a relation, not a function. Where a state holds a program, the number of calls that the
program may still make has a bound, but nobody needs the least one.

## Main definitions

* `Effects.Prog.Within` — a program makes at most so many calls

## Main results

* `Effects.Prog.Within.bind` — one program after another
* `Transition.Reaches.rank` — the goal is reached before the rank is spent
-/

namespace Effects

namespace Prog

variable {S : Signature} {ε α β : Type} {m n : ℕ}

/-- At most `n` calls, whatever the answers. -/
def Within : Prog S ε α → ℕ → Prop
  | .pure _, _ => True
  | .throw _, _ => True
  | .call _ k, n => 0 < n ∧ ∀ r, (k r).Within (n - 1)

@[simp] theorem within_pure (a : α) : (Prog.pure a : Prog S ε α).Within n := trivial

@[simp] theorem within_throw (e : ε) : (Prog.throw e : Prog S ε α).Within n := trivial

@[simp] theorem within_ite (c : Prop) [Decidable c] (p q : Prog S ε α) :
    (if c then p else q).Within n ↔ (c → p.Within n) ∧ (¬ c → q.Within n) := by
  split <;> simp [*]

theorem within_perform (op : S.Op) : (Prog.perform op : Prog S ε (S.Ret op)).Within 1 :=
  ⟨Nat.one_pos, fun _ => trivial⟩

theorem Within.mono {p : Prog S ε α} (h : p.Within m) (hle : m ≤ n) : p.Within n := by
  induction p generalizing m n with
  | pure a => trivial
  | throw e => trivial
  | call op k ih =>
    exact ⟨Nat.lt_of_lt_of_le h.1 hle, fun r => ih r (h.2 r) (Nat.sub_le_sub_right hle 1)⟩

theorem Within.bind {p : Prog S ε α} {f : α → Prog S ε β} (hp : p.Within m)
    (hf : ∀ a, (f a).Within n) : (p.bind f).Within (m + n) := by
  induction p generalizing m with
  | pure a => exact (hf a).mono (Nat.le_add_left n m)
  | throw e => trivial
  | call op k ih =>
    have hrest : m + n - 1 = m - 1 + n := Nat.sub_add_comm hp.1
    refine ⟨Nat.add_pos_left hp.1 n, fun r => ?_⟩
    rw [hrest]
    exact ih r (hp.2 r)

end Prog

end Effects

namespace Transition

variable {σ ℓ ω : Type} {step : σ → ℓ → Option σ} {obs : σ → ℓ → List ω} {allowed : σ → ℓ → Prop}

/-- **Rank rule.** A run of allowed steps reaches the goal `G`, or the rank `R` pays for its
record. -/
theorem Reaches.rank {G : σ → Prop} {R : σ → ℕ → Prop} {s s' : σ} {log : List ω} {n : ℕ}
    (h : Reaches (logged step obs) (unlogged allowed) (s, []) (s', log)) (hs : R s n)
    (hgoal : ∀ s l s', G s → allowed s l → step s l = some s' → G s')
    (hrank : ∀ s n l s', R s n → allowed s l → step s l = some s' →
      G s' ∨ ∃ n', R s' n' ∧ n' + (obs s l).length ≤ n) :
    G s' ∨ ∃ n', R s' n' ∧ n' + log.length ≤ n := by
  refine h.logged_invariant (I := fun t tlog => G t ∨ ∃ n', R t n' ∧ n' + tlog.length ≤ n) ?_ ?_
  · exact .inr ⟨n, hs, Nat.le_refl n⟩
  · rintro t tlog l t' (ht | ⟨m, hm, hpaid⟩) hl hstep
    · exact .inl (hgoal t l t' ht hl hstep)
    · rcases hrank t m l t' hm hl hstep with hdone | ⟨m', hm', hless⟩
      · exact .inl hdone
      · refine .inr ⟨m', hm', ?_⟩
        rw [List.length_append]
        omega

end Transition
