import Mathlib.Data.List.Basic
import Mathlib.Data.List.TakeDrop
import Mathlib.Data.Nat.Basic
import Mathlib.Order.Lattice
import Mathlib.Tactic.Basic

/-!
# Records on a byte stream

A writer sends the images of records, one after the other, over a stream that takes some next part
of an image at a time and may end at any moment. What has come out so far is a sequence of whole
images, and at most some proper first part of one more.

`Holds` says what has come out by where the writer stands. Its rules are the moves of a writer:
begin a record, write a part, and stop.

## Main definitions

* `FramedStream.Place` — where the writer stands
* `FramedStream.Holds` — what the stream holds then

## Main results

* `FramedStream.Holds.write` — writing one more part
* `FramedStream.Holds.framed` — whole images, and at most one proper first part
* `FramedStream.Framed.chunks` — what a reader of parts of the right size gets
* `FramedStream.sublist_of_fibres` — several streams, one after the other
-/

namespace FramedStream

variable {α β : Type} {image : α → List β} {known known' : α → Prop} {sent : List α}
  {bs : List β}

/-- Where a writer of records stands. -/
inductive Place (α : Type)
  /-- Between two records. -/
  | between
  /-- Inside a record, of which `k` elements are written. -/
  | inside (a : α) (k : ℕ)
  /-- Nothing more will be written. -/
  | ended
deriving DecidableEq

/-- The images of the records `sent`, and then at most a proper first part of one `known` record. -/
def Framed (image : α → List β) (known : α → Prop) (sent : List α) (bs : List β) : Prop :=
  ∃ part, bs = sent.flatMap image ++ part ∧
    (part = [] ∨ ∃ a, known a ∧ part <+: image a ∧ part ≠ image a)

/-- What a stream holds of which the records `sent` were written as a whole. -/
def Holds (image : α → List β) (known : α → Prop) (sent : List α) (bs : List β) :
    Place α → Prop
  | .between => bs = sent.flatMap image
  | .inside a k => known a ∧ k < (image a).length ∧ bs = sent.flatMap image ++ (image a).take k
  | .ended => Framed image known sent bs

theorem Framed.mono (hle : ∀ a, known a → known' a) (h : Framed image known sent bs) :
    Framed image known' sent bs := by
  obtain ⟨part, hbs, hnil | ⟨a, ha, hpart⟩⟩ := h
  · exact ⟨part, hbs, .inl hnil⟩
  · exact ⟨part, hbs, .inr ⟨a, hle a ha, hpart⟩⟩

theorem Holds.mono (hle : ∀ a, known a → known' a) {place : Place α}
    (h : Holds image known sent bs place) : Holds image known' sent bs place := by
  cases place with
  | between => exact h
  | inside a k => exact ⟨hle a h.1, h.2⟩
  | ended => exact Framed.mono hle h

/-- A proper first part of a list is not the list. -/
theorem take_ne {l : List β} {k : ℕ} (hk : k < l.length) : l.take k ≠ l := by
  intro heq
  have hlength := congrArg List.length heq
  rw [List.length_take] at hlength
  omega

/-- **Wherever the writer stands.** -/
theorem Holds.framed {place : Place α} (h : Holds image known sent bs place) :
    Framed image known sent bs := by
  cases place with
  | between => exact ⟨[], by rw [List.append_nil]; exact h, .inl rfl⟩
  | inside a k =>
    obtain ⟨ha, hk, hbs⟩ := h
    exact ⟨(image a).take k, hbs, .inr ⟨a, ha, List.take_prefix k _, take_ne hk⟩⟩
  | ended => exact h

/-- The writer stops. -/
theorem Holds.stop {place : Place α} (h : Holds image known sent bs place) :
    Holds image known sent bs .ended := h.framed

/-- A record is begun. -/
theorem Holds.begin {a : α} (h : Holds image known sent bs .between) (ha : known a)
    (himage : 0 < (image a).length) : Holds image known sent bs (.inside a 0) := by
  refine ⟨ha, himage, ?_⟩
  rw [List.take_zero, List.append_nil]
  exact h

/-- A part of the record is written, and it is not the last. -/
theorem Holds.write {a : α} {k n : ℕ} (h : Holds image known sent bs (.inside a k))
    (hn : k + n < (image a).length) :
    Holds image known sent (bs ++ ((image a).drop k).take n) (.inside a (k + n)) := by
  obtain ⟨ha, -, rfl⟩ := h
  refine ⟨ha, hn, ?_⟩
  rw [List.append_assoc, List.take_add]

/-- The last part of the record is written. -/
theorem Holds.finish {a : α} {k n : ℕ} (h : Holds image known sent bs (.inside a k))
    (hn : k + n = (image a).length) :
    Holds image known (sent ++ [a]) (bs ++ ((image a).drop k).take n) .between := by
  obtain ⟨-, -, rfl⟩ := h
  show _ = (sent ++ [a]).flatMap image
  rw [List.append_assoc, ← List.take_add, hn, List.take_length, List.flatMap_append]
  simp

/-! ### Reading -/

/-- What is left over is shorter than a record. -/
theorem Framed.length_lt {n : ℕ} (hpos : 0 < n) (hn : ∀ a, (image a).length = n)
    (h : Framed image known [] bs) : bs.length < n := by
  obtain ⟨part, rfl, rfl | ⟨a, -, hfront, hne⟩⟩ := h
  · exact hpos
  · have hle := hfront.length_le
    rw [hn] at hle
    refine lt_of_le_of_ne hle fun heq => hne (hfront.eq_of_length ?_)
    rw [hn]
    exact heq

/-- **Reading records of one size.** Whole parts of that size, read from the stream one after the
other, are the images of the first records that were written. -/
theorem Framed.chunks {n : ℕ} (hpos : 0 < n) (hn : ∀ a, (image a).length = n)
    {chunks : List (List β)} {rest : List β}
    (h : Framed image known sent (chunks.flatten ++ rest))
    (hchunks : ∀ chunk ∈ chunks, chunk.length = n) : chunks <+: sent.map image := by
  induction chunks generalizing sent with
  | nil => exact List.nil_prefix
  | cons chunk chunks ih =>
    have hchunk := hchunks chunk List.mem_cons_self
    cases sent with
    | nil =>
      have hlt := h.length_lt hpos hn
      rw [List.flatten_cons, List.append_assoc, List.length_append] at hlt
      omega
    | cons a sent =>
      obtain ⟨part, hbs, hpart⟩ := h
      rw [List.flatten_cons, List.flatMap_cons, List.append_assoc, List.append_assoc] at hbs
      obtain ⟨rfl, hrest⟩ := List.append_inj hbs (hchunk.trans (hn a).symm)
      rw [List.map_cons, List.prefix_cons_inj]
      exact ih ⟨part, hrest, hpart⟩ fun c hc => hchunks c (List.mem_cons_of_mem _ hc)

/-- **Several streams, one after the other.** Of two lists in the order of their keys, one is a
part of the other when it is for each key. -/
theorem sublist_of_fibres {κ : Type} [LinearOrder κ] (key : α → κ) {l l' : List α}
    (hl : (l.map key).Pairwise (· ≤ ·)) (hl' : (l'.map key).Pairwise (· ≤ ·))
    (h : ∀ k, (l.filter (key · = k)).Sublist (l'.filter (key · = k))) : l.Sublist l' := by
  induction l' generalizing l with
  | nil =>
    cases l with
    | nil => exact .refl _
    | cons x l => simpa using h (key x)
  | cons y l' ih =>
    cases l with
    | nil => exact List.nil_sublist _
    | cons x l =>
      have hx := List.pairwise_cons.mp (List.map_cons ▸ hl)
      have hy := List.pairwise_cons.mp (List.map_cons ▸ hl')
      rcases lt_trichotomy (key x) (key y) with hlt | heq | hlt
      · -- nothing in the longer list has the key of `x`
        have hmem : x ∈ (y :: l').filter (key · = key x) :=
          (h (key x)).subset (List.mem_filter.mpr ⟨List.mem_cons_self, by simp⟩)
        obtain ⟨hmem, -⟩ := List.mem_filter.mp hmem
        rcases List.mem_cons.mp hmem with rfl | hmem
        · exact absurd hlt (lt_irrefl _)
        · exact absurd (hy.1 _ (List.mem_map_of_mem hmem)) hlt.not_ge
      · have hfibre := h (key x)
        rw [List.filter_cons_of_pos (by simp), List.filter_cons_of_pos (by simp [heq]),
          List.cons_sublist_cons'] at hfibre
        rcases hfibre with hskip | ⟨rfl, hfibre⟩
        · refine .cons _ (ih hl hy.2 fun k => ?_)
          rcases eq_or_ne (key x) k with rfl | hne
          · rwa [List.filter_cons_of_pos (by simp)]
          · have hother := h k
            rwa [List.filter_cons_of_neg (a := y) (by simpa [← heq] using hne)] at hother
        · refine .cons_cons _ (ih hx.2 hy.2 fun k => ?_)
          rcases eq_or_ne (key x) k with rfl | hne
          · exact hfibre
          · have hother := h k
            rwa [List.filter_cons_of_neg (by simpa using hne),
              List.filter_cons_of_neg (by simpa using hne)] at hother
      · refine .cons _ (ih hl hy.2 fun k => ?_)
        rcases eq_or_ne (key y) k with rfl | hne
        · -- nothing in the shorter list has the key of `y`
          rw [List.filter_eq_nil_iff.mpr]
          · exact List.nil_sublist _
          · intro z hz
            have hle : key x ≤ key z := by
              rcases List.mem_cons.mp hz with rfl | hz
              · exact le_rfl
              · exact hx.1 _ (List.mem_map_of_mem hz)
            simpa using ne_of_gt (lt_of_lt_of_le hlt hle)
        · have hother := h k
          rwa [List.filter_cons_of_neg (a := y) (by simpa using hne)] at hother

end FramedStream
