import Mathlib.Data.List.AList

/-!
# Erasing from a map while iterating over it

The loop

```
for it = begin; it ≠ end;
  if p(it) then it = erase(it) else ++it
```

visits every entry of the map once and erases the ones that satisfy `p`. Mathlib's `AList` is the
map: a list of entries with distinct keys, whose order is the order of iteration. The loop is a
recursion over the entries that were there at the start; the map is its accumulator, since erasing
an entry leaves the other iterators valid.

## Main results

* `AList.lookup_eraseWhere` — what is left is exactly what does not satisfy `p`, unchanged
-/

namespace AList

variable {α : Type} {β : α → Type} [DecidableEq α]

/-- The loop over the entries still to visit. -/
def eraseLoop (p : (a : α) → β a → Bool) : List (Sigma β) → AList β → AList β
  | [], s => s
  | ⟨a, b⟩ :: rest, s => eraseLoop p rest (if p a b then s.erase a else s)

/-- Erase every entry that satisfies `p`. -/
def eraseWhere (p : (a : α) → β a → Bool) (s : AList β) : AList β := eraseLoop p s.entries s

/-- A key is gone after the loop when the entry visited under it satisfied `p`; otherwise the loop
did not touch it. -/
theorem lookup_eraseLoop (p : (a : α) → β a → Bool) {l : List (Sigma β)} (hl : l.NodupKeys)
    (s : AList β) (a : α) :
    (eraseLoop p l s).lookup a = if (l.dlookup a).any (p a) then none else s.lookup a := by
  induction l generalizing s with
  | nil => simp [eraseLoop]
  | cons e rest ih =>
    obtain ⟨a₀, b₀⟩ := e
    obtain ⟨hnew, hrest⟩ := List.nodupKeys_cons.mp hl
    rw [eraseLoop, ih hrest]
    rcases eq_or_ne a a₀ with rfl | hne
    · -- the entry just visited is the only one under its key
      have hnone : rest.dlookup a = none := List.dlookup_eq_none.mpr hnew
      rw [hnone, List.dlookup_cons_eq]
      cases hp : p a b₀ <;> simp [hp]
    · rw [List.dlookup_cons_ne _ ⟨a₀, b₀⟩ hne]
      congr 1
      cases p a₀ b₀ <;> simp [lookup_erase_ne hne]

/-- **The loop is exact.** -/
theorem lookup_eraseWhere (p : (a : α) → β a → Bool) (s : AList β) (a : α) :
    (s.eraseWhere p).lookup a = (s.lookup a).filter fun b => !p a b := by
  rw [eraseWhere, lookup_eraseLoop p s.nodupKeys]
  change (if (s.lookup a).any (p a) then none else s.lookup a) = _
  cases s.lookup a with
  | none => rfl
  | some b => cases hp : p a b <;> simp [hp, Option.filter]

end AList
