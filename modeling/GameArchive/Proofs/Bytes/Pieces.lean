/-
Byte strings as rows of pieces of one size.

Cut into pieces, data give the slices at multiples of the size; joined,
pieces of one size are found again at those multiples, and slices that
follow each other are one slice. The last stride may
be shorter than the others, and is found again all the same.
-/
import GameArchive.Proofs.Bytes.Reading

namespace GameArchive.Bytes

/-- A slice of what is left after some bytes is a slice further on. -/
theorem slice_drop (data : Bytes) (n offset length : Nat) :
    slice (data.drop n) offset length = data.slice (n + offset) length := by
  unfold slice
  rw [List.drop_drop]

/-- A slice without its first bytes is a shorter slice further on. -/
theorem drop_slice (data : Bytes) (offset length n : Nat) :
    (data.slice offset length).drop n
      = data.slice (offset + n) (length - n) := by
  unfold slice
  rw [List.drop_take, List.drop_drop]

/-- A slice that ends within the front does not see what follows. -/
theorem slice_left {a : Bytes} (b : Bytes) {offset length : Nat}
    (h : offset + length ≤ a.length) :
    slice (a ++ b) offset length = a.slice offset length := by
  unfold slice
  rw [List.drop_append_of_le_length (by omega),
    List.take_append_of_le_length (by rw [List.length_drop]; omega)]

/-- A slice that ends before the data are cut off does not see the cut. -/
theorem slice_take (data : Bytes) {n offset length : Nat}
    (h : offset + length ≤ n) :
    slice (data.take n) offset length = data.slice offset length := by
  unfold slice
  rw [List.drop_take, List.take_take, Nat.min_eq_left (by omega)]

-- Neighbours in a byte string are one slice.
section

variable (data : Bytes) {offset next : Nat}

/-- Two slices that follow each other are one. -/
theorem slice_append_slice {m : Nat} (h : offset + m = next) (n : Nat) :
    data.slice offset m ++ data.slice next n = data.slice offset (m + n) := by
  subst h
  unfold slice
  rw [List.take_add, List.drop_drop]

/-- A byte before a slice makes the slice longer by one. -/
theorem byteAt_cons_slice (h : offset + 1 = next)
    (hinside : offset < data.length) (n : Nat) :
    data.byteAt offset :: data.slice next n = data.slice offset (1 + n) := by
  have hbyte : data.slice offset 1 = [data.byteAt offset] := by
    unfold byteAt slice
    rw [List.getD_eq_getElem?_getD, List.getElem?_eq_getElem hinside,
      List.drop_eq_getElem_cons hinside]
    rfl
  rw [← slice_append_slice data h, hbyte, List.singleton_append]

/-- Slices of one size in a row are one slice. -/
theorem flatMap_range_slice (offset size count : Nat) :
    ((List.range count).flatMap fun k => data.slice (offset + size * k) size)
      = data.slice offset (size * count) := by
  induction count with
  | zero => exact List.take_zero.symm
  | succ count ih =>
      rw [List.range_succ, List.flatMap_append, ih, List.flatMap_singleton,
        slice_append_slice data rfl, Nat.mul_succ]

end

-- What is read before the end of a beginning is read from the whole.
section

variable (data : Bytes) {n offset : Nat}

theorem byteAt_take (h : offset < n) :
    byteAt (data.take n) offset = data.byteAt offset := by
  unfold byteAt
  rw [List.getD_eq_getElem?_getD, List.getElem?_take_of_lt h,
    ← List.getD_eq_getElem?_getD]

theorem u16At_take (h : offset + 2 ≤ n) :
    u16At (data.take n) offset = data.u16At offset := by
  unfold u16At
  rw [slice_take data h]

/-- A word that ends before the data are cut off is read as before; so are the
narrower fields above. -/
theorem u32At_take (h : offset + 4 ≤ n) :
    u32At (data.take n) offset = data.u32At offset := by
  unfold u32At
  rw [slice_take data h]

end

/-- The pieces of data are its slices at the multiples of their size. -/
theorem pieces_eq_map (size : Nat) :
    ∀ (count : Nat) (data : Bytes), pieces size count data
      = (List.range count).map fun k => data.slice (k * size) size := by
  intro count
  induction count with
  | zero => intro data; rfl
  | succ count ih =>
      intro data
      rw [pieces, ih, List.range_succ_eq_map, List.map_cons, List.map_map]
      congr 1
      · rw [Nat.zero_mul]
        rfl
      · refine List.map_congr_left fun k _ => ?_
        rw [slice_drop, Function.comp, Nat.succ_mul, Nat.add_comm]

-- =============================================== pieces of many things

section

variable {α : Type} {f : α → Bytes} {size : Nat}

/-- Things that are written in one size take up that size for each. -/
theorem length_flatMap_const (hf : ∀ a, (f a).length = size)
    (things : List α) :
    (things.flatMap f).length = size * things.length := by
  induction things with
  | nil => rfl
  | cons a things ih =>
      rw [List.flatMap_cons, List.length_append, ih, hf, List.length_cons,
        Nat.mul_succ, Nat.add_comm]

/-- Things that are written in one size are found at the multiples of it,
whatever follows them. -/
theorem slice_flatMap_const (hf : ∀ a, (f a).length = size)
    (things : List α) (rest : Bytes) :
    ∀ {k : Nat} (hk : k < things.length),
      slice (things.flatMap f ++ rest) (size * k) size = f things[k] := by
  induction things with
  | nil => intro k hk; cases hk
  | cons a things ih =>
      intro k hk
      rw [List.flatMap_cons, List.append_assoc]
      cases k with
      | zero => exact slice_head (hf a) _
      | succ k =>
          rw [Nat.mul_succ, Nat.add_comm, slice_behind (hf a)]
          exact ih (Nat.lt_of_succ_lt_succ hk)

end

-- Whether things are left or not, the same byte comes next.
theorem head?_flatMap {α : Type} {f : α → Bytes} {b : UInt8}
    (hf : ∀ a after, (f a ++ after).head? = some b) (things : List α)
    {after : Bytes} (hafter : after.head? = some b) :
    (things.flatMap f ++ after).head? = some b := by
  cases things with
  | nil => exact hafter
  | cons a things =>
      rw [List.flatMap_cons, List.append_assoc]
      exact hf a _

-- ================================================================ strides

section

variable {f : Bytes → Bytes} (hf : ∀ piece, (f piece).length = piece.length)

include hf

/-- Treating pieces keeps the length of the whole if it keeps that of each. -/
theorem length_flatMap_keep (pieces : List Bytes) :
    (pieces.flatMap f).length = pieces.flatten.length := by
  induction pieces with
  | nil => rfl
  | cons piece pieces ih =>
      rw [List.flatMap_cons, List.length_append, hf, ih, List.flatten_cons,
        List.length_append]

/-- Pieces that keep their lengths are found again. -/
theorem pieces_flatMap {size : Nat} :
    ∀ {count : Nat} {data : Bytes}, data.length ≤ count * size →
      pieces size count ((pieces size count data).flatMap f)
        = (pieces size count data).map f := by
  intro count
  induction count with
  | zero => exact fun _ => rfl
  | succ count ih =>
      intro data hdata
      have hrest : (data.drop size).length ≤ count * size := by
        rw [List.length_drop]
        rw [Nat.succ_mul] at hdata
        omega
      have hlater : ((pieces size count (data.drop size)).flatMap f).length
          = data.length - size := by
        rw [length_flatMap_keep hf, flatten_pieces size count _ hrest,
          List.length_drop]
      have hfirst : (f (data.take size)).length = min size data.length := by
        rw [hf, List.length_take]
      have hcut : pieces size (count + 1) data
          = data.take size :: pieces size count (data.drop size) := rfl
      rw [hcut, List.flatMap_cons, List.map_cons, ← ih hrest, pieces]
      -- Either the first piece is whole, or there is nothing behind it.
      rcases Nat.le_total size data.length with hwhole | hshort
      · rw [Nat.min_eq_left hwhole] at hfirst
        rw [List.take_left' hfirst, List.drop_left' hfirst]
      · have hnone : (pieces size count (data.drop size)).flatMap f = [] :=
          List.eq_nil_of_length_eq_zero (hlater.trans (by omega))
        rw [hnone, List.append_nil, List.take_of_length_le (by omega),
          List.drop_of_length_le (by omega)]

/-- Treating the strides of data so that they keep their lengths, and cutting up
the result again, gives the treated strides. -/
theorem strides_flatMap {size : Nat} (hsize : 0 < size) (data : Bytes) :
    strides size ((strides size data).flatMap f)
      = (strides size data).map f := by
  have hlength : ((strides size data).flatMap f).length = data.length := by
    rw [length_flatMap_keep hf, flatten_strides size data hsize]
  have hreach : data.length
      ≤ (data.length + (size - 1)) / size * size := by
    have hdiv := Nat.lt_div_mul_add (a := data.length + (size - 1)) hsize
    omega
  unfold strides at hlength ⊢
  rw [hlength, pieces_flatMap hf hreach]

end

/-- The last stride has at least one byte. -/
theorem nil_notMem_strides {size : Nat} (hsize : 0 < size) (data : Bytes) :
    [] ∉ strides size data := by
  have hpieces : ∀ {count : Nat} {data : Bytes},
      count * size < data.length + size → [] ∉ pieces size count data := by
    intro count
    induction count with
    | zero => exact fun _ => List.not_mem_nil
    | succ count ih =>
        intro data hdata
        rw [Nat.succ_mul] at hdata
        rw [pieces, List.mem_cons, not_or]
        constructor
        · intro hnil
          have hlength := congrArg List.length hnil
          rw [List.length_nil, List.length_take] at hlength
          omega
        · refine ih ?_
          rw [List.length_drop]
          omega
  refine hpieces ?_
  have hdiv := Nat.div_mul_le_self (data.length + (size - 1)) size
  omega

-- ====================================================== pieces by number

variable {f : Nat → Bytes} {size count : Nat}

theorem length_flatMap_range (hf : ∀ k, k < count → (f k).length = size) :
    ((List.range count).flatMap f).length = count * size := by
  induction count with
  | zero => rw [Nat.zero_mul]; rfl
  | succ count ih =>
      rw [List.range_succ, List.flatMap_append, List.length_append,
        ih fun k hk => hf k (Nat.lt_succ_of_lt hk), List.flatMap_singleton,
        hf count (Nat.lt_succ_self count), Nat.succ_mul]

/-- Records that are all of one size are found at its multiples. -/
theorem slice_flatMap_range (hf : ∀ k, k < count → (f k).length = size)
    {k : Nat} (hk : k < count) :
    slice ((List.range count).flatMap f) (k * size) size = f k := by
  induction count with
  | zero => cases hk
  | succ count ih =>
      have hf' : ∀ k, k < count → (f k).length = size := fun k hk =>
        hf k (Nat.lt_succ_of_lt hk)
      have hlength := length_flatMap_range hf'
      rw [List.range_succ, List.flatMap_append, List.flatMap_singleton]
      rcases Nat.lt_succ_iff_lt_or_eq.mp hk with hlt | rfl
      · rw [slice_left, ih hf' hlt]
        rw [hlength, ← Nat.succ_mul]
        exact Nat.mul_le_mul_right size hlt
      · rw [← Nat.add_zero (k * size), slice_behind hlength]
        exact (congrArg (slice (f k) 0) (hf k hk).symm).trans List.take_length

end GameArchive.Bytes
