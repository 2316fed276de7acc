import Mathlib.Data.List.Pairwise
import Mathlib.Data.List.TakeDrop
import Mathlib.Tactic.Ring

/-!
# Fixed-width fields in byte strings

Two programs that exchange a packed record agree when each reads, at the place it reads, the field
the other wrote. A record is built either by concatenating its fields or by writing each at a
position of a growing buffer; it is read by cutting a slice at an offset. Numbers are
little-endian.

## Main definitions

* `ByteLayout.leBytes`, `ofLeBytes` — a number as `k` bytes, low byte first, and back
* `ByteLayout.slice` — `n` bytes from an offset
* `ByteLayout.writeAt` — write bytes at an offset, extending the buffer with zeros up to it

## Main results

* `ByteLayout.ofLeBytes_leBytes` — the number round trip
* `ByteLayout.slice_append_of_length_eq` — a slice of a concatenation is the field that starts
  there
* `ByteLayout.slice_writeAll` — every one of a family of disjoint writes reads back whole
-/

namespace ByteLayout

/-! ### Numbers -/

/-- The number `x` as `k` bytes, low byte first; what does not fit is dropped. -/
def leBytes : ℕ → ℕ → List UInt8
  | 0, _ => []
  | k + 1, x => UInt8.ofNat x :: leBytes k (x / 256)

/-- The number whose bytes are `bs`, low byte first. -/
def ofLeBytes : List UInt8 → ℕ
  | [] => 0
  | b :: bs => b.toNat + 256 * ofLeBytes bs

@[simp] theorem length_leBytes (k x : ℕ) : (leBytes k x).length = k := by
  induction k generalizing x with
  | zero => rfl
  | succ k ih => simp [leBytes, ih]

theorem ofLeBytes_leBytes (k x : ℕ) : ofLeBytes (leBytes k x) = x % 256 ^ k := by
  induction k generalizing x with
  | zero => simp [leBytes, ofLeBytes, Nat.mod_one]
  | succ k ih =>
    rw [leBytes, ofLeBytes, ih, pow_succ', Nat.mod_mul, UInt8.toNat_ofNat']

/-- A number of `8 * k` bits survives the round trip. -/
theorem ofLeBytes_leBytes_of_lt {k x : ℕ} (h : x < 256 ^ k) : ofLeBytes (leBytes k x) = x := by
  rw [ofLeBytes_leBytes, Nat.mod_eq_of_lt h]

/-! ### Slices -/

/-- The `n` bytes of `buf` from offset `off`. -/
def slice (buf : List UInt8) (off n : ℕ) : List UInt8 := (buf.drop off).take n

theorem getElem?_slice (buf : List UInt8) (off n i : ℕ) :
    (slice buf off n)[i]? = if i < n then buf[off + i]? else none := by
  rw [slice, List.getElem?_take, List.getElem?_drop]

/-- A slice read byte by byte, by a reader for whom there is something behind the buffer too. -/
theorem map_getD_eq_slice {buf : List UInt8} {off n : ℕ} (fill : ℕ → UInt8)
    (h : off + n ≤ buf.length) :
    ((List.range n).map fun i => buf[off + i]?.getD (fill i)) = slice buf off n := by
  refine List.ext_getElem? fun i => ?_
  rw [getElem?_slice, List.getElem?_map]
  split
  · rename_i hi
    have hlt : off + i < buf.length := by omega
    rw [List.getElem?_range hi, List.getElem?_eq_getElem hlt]
    simp [List.getElem?_eq_getElem hlt]
  · rename_i hi
    rw [List.getElem?_eq_none (by simpa using hi)]
    rfl

/-- A slice behind the first part of a concatenation. -/
theorem slice_append_right {a b : List UInt8} {off n : ℕ} (h : a.length ≤ off) :
    slice (a ++ b) off n = slice b (off - a.length) n := by
  rw [slice, slice, List.drop_append, List.drop_eq_nil_of_le h, List.nil_append]

/-- The first part of a concatenation. -/
theorem slice_append_left {a b : List UInt8} {n : ℕ} (h : a.length = n) :
    slice (a ++ b) 0 n = a := by
  rw [slice, List.drop_zero, List.take_left' h]

/-- The field that starts where `a` ends. -/
theorem slice_append_of_length_eq {a b c : List UInt8} {off n : ℕ} (ha : a.length = off)
    (hb : b.length = n) : slice (a ++ (b ++ c)) off n = b := by
  rw [slice, List.drop_left' ha, List.take_left' hb]

/-! ### Writing at an offset -/

/-- Write `bs` at offset `off`. A buffer shorter than `off` is first extended with zeros, and the
buffer ends no earlier than the bytes written. -/
def writeAt (buf : List UInt8) (off : ℕ) (bs : List UInt8) : List UInt8 :=
  buf.take off ++ (List.replicate (off - buf.length) 0 ++ (bs ++ buf.drop (off + bs.length)))

@[simp] theorem length_writeAt (buf : List UInt8) (off : ℕ) (bs : List UInt8) :
    (writeAt buf off bs).length = max buf.length (off + bs.length) := by
  simp only [writeAt, List.length_append, List.length_take, List.length_replicate,
    List.length_drop]
  omega

/-- **Read after write.** -/
theorem slice_writeAt_self (buf : List UInt8) (off : ℕ) (bs : List UInt8) :
    slice (writeAt buf off bs) off bs.length = bs := by
  rw [writeAt, ← List.append_assoc]
  refine slice_append_of_length_eq ?_ rfl
  rw [List.length_append, List.length_take, List.length_replicate]
  omega

/-- Outside the bytes written a byte of the buffer is unchanged. -/
theorem getElem?_writeAt_of_lt {buf bs : List UInt8} {off i : ℕ}
    (h : i < off ∨ off + bs.length ≤ i) (hi : i < buf.length) :
    (writeAt buf off bs)[i]? = buf[i]? := by
  rcases h with h | h
  · rw [writeAt, List.getElem?_append_left (by rw [List.length_take]; omega),
      List.getElem?_take, if_pos h]
  · rw [writeAt, List.getElem?_append_right (by rw [List.length_take]; omega),
      List.getElem?_append_right (by rw [List.length_replicate, List.length_take]; omega),
      List.getElem?_append_right (by rw [List.length_replicate, List.length_take]; omega),
      List.getElem?_drop, List.length_take, List.length_replicate]
    congr 1
    omega

/-- **Read elsewhere.** A slice inside the buffer and disjoint from the bytes written is
unchanged. -/
theorem slice_writeAt_of_disjoint {buf bs : List UInt8} {off off' n : ℕ}
    (h : off' + n ≤ off ∨ off + bs.length ≤ off') (hn : off' + n ≤ buf.length) :
    slice (writeAt buf off bs) off' n = slice buf off' n := by
  refine List.ext_getElem? fun i => ?_
  rw [getElem?_slice, getElem?_slice]
  split
  · exact getElem?_writeAt_of_lt (by omega) (by omega)
  · rfl

/-- Two fields, each an offset and its bytes, share no byte. -/
def DisjointFields (f g : ℕ × List UInt8) : Prop :=
  f.1 + f.2.length ≤ g.1 ∨ g.1 + g.2.length ≤ f.1

instance (f g : ℕ × List UInt8) : Decidable (DisjointFields f g) :=
  inferInstanceAs (Decidable (_ ∨ _))

/-- Fields that follow each other are disjoint. -/
theorem pairwise_disjointFields_of_isChain {fields : List (ℕ × List UInt8)}
    (h : fields.IsChain fun f g => f.1 + f.2.length ≤ g.1) : fields.Pairwise DisjointFields := by
  have : IsTrans (ℕ × List UInt8) fun f g => f.1 + f.2.length ≤ g.1 :=
    ⟨fun f g k hfg hgk => by omega⟩
  exact h.pairwise.imp Or.inl

/-- All the writes of `fields`, in order. -/
def writeAll (fields : List (ℕ × List UInt8)) (buf : List UInt8) : List UInt8 :=
  fields.foldl (fun buf f => writeAt buf f.1 f.2) buf

theorem slice_writeAll_of_disjoint {fields : List (ℕ × List UInt8)} {buf : List UInt8}
    {off n : ℕ} (h : ∀ f ∈ fields, off + n ≤ f.1 ∨ f.1 + f.2.length ≤ off)
    (hn : off + n ≤ buf.length) : slice (writeAll fields buf) off n = slice buf off n := by
  induction fields generalizing buf with
  | nil => rfl
  | cons f fields ih =>
    have hlen : off + n ≤ (writeAt buf f.1 f.2).length := by rw [length_writeAt]; omega
    rw [writeAll, List.foldl_cons, ← writeAll,
      ih (fun g hg => h g (List.mem_cons_of_mem _ hg)) hlen,
      slice_writeAt_of_disjoint (h f List.mem_cons_self) hn]

/-- **Disjoint fields read back.** -/
theorem slice_writeAll {fields : List (ℕ × List UInt8)} (buf : List UInt8)
    (hdisj : fields.Pairwise DisjointFields) {f : ℕ × List UInt8} (hf : f ∈ fields) :
    slice (writeAll fields buf) f.1 f.2.length = f.2 := by
  induction fields generalizing buf with
  | nil => exact absurd hf List.not_mem_nil
  | cons g fields ih =>
    obtain ⟨hg, hrest⟩ := List.pairwise_cons.mp hdisj
    rw [writeAll, List.foldl_cons, ← writeAll]
    rcases List.mem_cons.mp hf with rfl | hf
    · rw [slice_writeAll_of_disjoint (fun f' hf' => hg f' hf') (by rw [length_writeAt]; omega),
        slice_writeAt_self]
    · exact ih _ hrest hf

theorem length_writeAll (fields : List (ℕ × List UInt8)) (buf : List UInt8) :
    (writeAll fields buf).length =
      fields.foldl (fun n f => max n (f.1 + f.2.length)) buf.length := by
  induction fields generalizing buf with
  | nil => rfl
  | cons f fields ih =>
    rw [writeAll, List.foldl_cons, ← writeAll, ih, length_writeAt, List.foldl_cons]

end ByteLayout
