import MetalRuntime.DType
import MetalRuntime.Foundations.WordProducts
import MetalRuntime.Validate

/-!
# Buffer sizes

The size computation of `PyBuffer`: the number of elements of a shape and the number of their
bytes, each guarded against overflow. The guards are exact except for one kind of shape: one
that holds a zero behind extents that overflow is refused, although it has no elements.
-/

namespace MetalRuntime

open Foundations

/-- `PyBuffer`. -/
structure PyBuffer where
  shape : List SizeT
  dtype : DType
  buffer : Buffer
  deriving DecidableEq

/-- `nbytes`. -/
def PyBuffer.nbytes (b : PyBuffer) : SizeT := b.buffer.size

/-- The error of `checked_element_count`. -/
def elementCountOverflow : Failure :=
  .invalidArgument (ascii "buffer shape is too large: element count overflows")

/-- The error of `checked_byte_count`. -/
def byteSizeOverflow : Failure :=
  .invalidArgument (ascii "buffer shape is too large: byte size overflows")

/-- The loop body of `checked_element_count`. -/
def multiplyExtent (count dim : SizeT) : Except Failure SizeT := do
  rejectIf (dim ≠ 0 ∧ count > maxSize / dim) elementCountOverflow
  .ok (count * dim)

/-- `checked_element_count`. -/
def checkedElementCount (shape : List SizeT) : Except Failure SizeT :=
  shape.foldlM multiplyExtent 1

/-- `PyBuffer::checked_byte_count`. -/
def checkedByteCount (count : SizeT) (dtype : DType) : Except Failure SizeT := do
  rejectIf (count ≠ 0 ∧ UInt64.ofNat dtype.itemsize > maxSize / count) byteSizeOverflow
  .ok (count * UInt64.ofNat dtype.itemsize)

/-- The size that the constructor of `PyBuffer` allocates. -/
def bufferByteCount (shape : List SizeT) (dtype : DType) : Except Failure SizeT := do
  let count ← checkedElementCount shape
  checkedByteCount count dtype

/-- The extents of a shape as numbers. -/
def extents (shape : List SizeT) : List ℕ := shape.map UInt64.toNat

/-- The exact number of bytes of a shape. -/
def exactByteCount (shape : List SizeT) (dtype : DType) : ℕ :=
  (extents shape).prod * dtype.itemsize

/-- The computed size is exact: it is the number of bytes if that fits a word, and an error
exactly if it does not. -/
def SizeIsExact (shape : List SizeT) (dtype : DType) : Prop :=
  (exactByteCount shape dtype < wordSize →
    ∃ size, bufferByteCount shape dtype = .ok size ∧
      size.toNat = exactByteCount shape dtype) ∧
  ((∃ what, bufferByteCount shape dtype = .error (.invalidArgument what)) ↔
    wordSize ≤ exactByteCount shape dtype)

/-- The outcome does not depend on the order of the axes. -/
def SizeIgnoresOrder (shape : List SizeT) (dtype : DType) : Prop :=
  ∀ reordered : List SizeT, reordered.Perm shape →
    bufferByteCount reordered dtype = bufferByteCount shape dtype

/-- The loop body of `checked_element_count` is a checked product. -/
theorem multiplyExtent_eq (count dim : SizeT) :
    multiplyExtent count dim = (checkedMul count dim).elim (.error elementCountOverflow) .ok := by
  have hguard := gt_max_div_iff count dim
  by_cases hwraps : wordSize ≤ count.toNat * dim.toNat
  · rw [multiplyExtent, rejectIf, maxSize, if_pos (hguard.mpr hwraps), checkedMul,
      if_neg (Nat.not_lt.mpr hwraps)]
    rfl
  · rw [multiplyExtent, rejectIf, maxSize, if_neg fun h => hwraps (hguard.mp h), checkedMul,
      if_pos (Nat.lt_of_not_le hwraps)]
    rfl

/-- The number of elements is computed when the product in front of the first zero fits a
word, and is exact then. -/
theorem checkedElementCount_eq (shape : List SizeT) :
    checkedElementCount shape =
      if leadingProduct (extents shape) < wordSize then .ok (UInt64.ofNat (extents shape).prod)
      else .error elementCountOverflow := by
  have hloop : checkedElementCount shape =
      (checkedProduct 1 shape).elim (.error elementCountOverflow) .ok :=
    foldlM_eq_elim multiplyExtent_eq 1 shape
  rw [hloop, checkedProduct_eq, UInt64.toNat_one, Nat.one_mul, Nat.one_mul, ← extents]
  by_cases hfits : leadingProduct (extents shape) < wordSize
  · rw [if_pos hfits, if_pos hfits, Option.elim_some]
  · rw [if_neg hfits, if_neg hfits, Option.elim_none]

/-- The size of an element as a word. -/
theorem toNat_itemsize {dtype : DType} (h : (dtypeName dtype).isSome) :
    (UInt64.ofNat dtype.itemsize).toNat = dtype.itemsize :=
  toNat_ofNat_of_lt (lt_of_le_of_lt (DType.itemsize_le h) (by decide))

/-- The number of bytes is computed when it fits a word, and is exact then. -/
theorem checkedByteCount_eq (count : SizeT) {dtype : DType} (h : (dtypeName dtype).isSome) :
    checkedByteCount count dtype =
      if count.toNat * dtype.itemsize < wordSize then .ok (count * UInt64.ofNat dtype.itemsize)
      else .error byteSizeOverflow := by
  have hguard := gt_max_div_iff (UInt64.ofNat dtype.itemsize) count
  rw [toNat_itemsize h, Nat.mul_comm] at hguard
  by_cases hfits : count.toNat * dtype.itemsize < wordSize
  · have hpasses := fun hbad => Nat.not_le.mpr hfits (hguard.mp hbad)
    rw [checkedByteCount, rejectIf, maxSize, if_neg hpasses, if_pos hfits]
    rfl
  · rw [checkedByteCount, rejectIf, maxSize, if_pos (hguard.mpr (Nat.not_lt.mp hfits)),
      if_neg hfits]
    rfl

/-- The size of a buffer: exact, or the error of the guard that fails first. -/
theorem bufferByteCount_eq (shape : List SizeT) {dtype : DType} (h : (dtypeName dtype).isSome) :
    bufferByteCount shape dtype =
      if leadingProduct (extents shape) < wordSize then
        if exactByteCount shape dtype < wordSize then
          .ok (UInt64.ofNat (exactByteCount shape dtype))
        else .error byteSizeOverflow
      else .error elementCountOverflow := by
  rw [bufferByteCount, checkedElementCount_eq]
  by_cases hcount : leadingProduct (extents shape) < wordSize
  · have hprod := lt_of_le_of_lt (prod_le_leadingProduct (extents shape)) hcount
    rw [if_pos hcount, if_pos hcount]
    have hbytes := checkedByteCount_eq (UInt64.ofNat (extents shape).prod) h
    rw [toNat_ofNat_of_lt hprod, ← exactByteCount] at hbytes
    have hword : UInt64.ofNat (extents shape).prod * UInt64.ofNat dtype.itemsize =
        UInt64.ofNat (exactByteCount shape dtype) := by
      rw [exactByteCount, UInt64.ofNat_mul]
    rw [← hword, ← hbytes]
    rfl
  · rw [if_neg hcount, if_neg hcount]
    rfl

/-- The size is returned when the product in front of the first zero fits a word and so does
the number of bytes, which it then is. -/
theorem bufferByteCount_eq_ok {shape : List SizeT} {dtype : DType}
    (h : (dtypeName dtype).isSome) {size : SizeT} :
    bufferByteCount shape dtype = .ok size ↔
      leadingProduct (extents shape) < wordSize ∧ size.toNat = exactByteCount shape dtype := by
  rw [bufferByteCount_eq shape h]
  by_cases hcount : leadingProduct (extents shape) < wordSize
  · rw [if_pos hcount, and_iff_right hcount]
    by_cases hfits : exactByteCount shape dtype < wordSize
    · rw [if_pos hfits, Except.ok.injEq, ← UInt64.toNat_inj, toNat_ofNat_of_lt hfits]
      exact eq_comm
    · rw [if_neg hfits]
      have hlt := toNat_lt_wordSize size
      exact iff_of_false (fun hok => by cases hok) (by omega)
  · rw [if_neg hcount]
    exact iff_of_false (fun hok => by cases hok) fun hboth => hcount hboth.1

/-- The size is refused exactly when one of the guards fails. -/
theorem bufferByteCount_throws_iff {shape : List SizeT} {dtype : DType}
    (h : (dtypeName dtype).isSome) :
    (∃ what, bufferByteCount shape dtype = .error (.invalidArgument what)) ↔
      wordSize ≤ leadingProduct (extents shape) ∨ wordSize ≤ exactByteCount shape dtype := by
  rw [bufferByteCount_eq shape h]
  by_cases hcount : leadingProduct (extents shape) < wordSize
  · rw [if_pos hcount, or_iff_right (Nat.not_le.mpr hcount)]
    by_cases hfits : exactByteCount shape dtype < wordSize
    · rw [if_pos hfits]
      exact iff_of_false (fun hthrows => by cases hthrows.choose_spec) (Nat.not_le.mpr hfits)
    · rw [if_neg hfits]
      exact iff_of_true ⟨_, rfl⟩ (Nat.not_lt.mp hfits)
  · rw [if_neg hcount]
    exact iff_of_true ⟨_, rfl⟩ (Or.inl (Nat.not_lt.mp hcount))

/-- A zero extent is an extent that is the number zero. -/
theorem zero_mem_extents {shape : List SizeT} : 0 ∈ extents shape ↔ 0 ∈ shape := by
  rw [extents, List.mem_map]
  constructor
  · intro h
    obtain ⟨dim, hdim, hzero⟩ := h
    have hword : dim = 0 := UInt64.toNat_inj.mp hzero
    rwa [hword] at hdim
  · intro h
    exact ⟨0, h, rfl⟩

/-- A shape with a zero extent has no bytes. -/
theorem exactByteCount_lt_of_zero_mem {shape : List SizeT} (h : 0 ∈ shape) (dtype : DType) :
    exactByteCount shape dtype < wordSize := by
  rw [exactByteCount, prod_of_zero_mem (zero_mem_extents.mpr h), Nat.zero_mul]
  exact Nat.two_pow_pos 64

/-- The size of one shape is exact unless the extents in front of its first zero overflow. -/
theorem sizeIsExact_iff (shape : List SizeT) {dtype : DType} (h : (dtypeName dtype).isSome) :
    SizeIsExact shape dtype ↔ (0 ∈ shape → leadingProduct (extents shape) < wordSize) := by
  constructor
  · intro hexact hzero
    obtain ⟨size, hsize, -⟩ := hexact.1 (exactByteCount_lt_of_zero_mem hzero dtype)
    exact ((bufferByteCount_eq_ok h).mp hsize).1
  · intro hzero
    have hcount : exactByteCount shape dtype < wordSize →
        leadingProduct (extents shape) < wordSize := by
      intro hfits
      by_cases hmem : 0 ∈ shape
      · exact hzero hmem
      · rw [leadingProduct_of_not_mem fun h => hmem (zero_mem_extents.mp h)]
        exact lt_of_le_of_lt (Nat.le_mul_of_pos_right _ (DType.itemsize_pos h)) hfits
    refine ⟨?_, ?_⟩
    · intro hfits
      have hword := toNat_ofNat_of_lt hfits
      exact ⟨_, (bufferByteCount_eq_ok h).mpr ⟨hcount hfits, hword⟩, hword⟩
    · rw [bufferByteCount_throws_iff h]
      refine ⟨?_, Or.inr⟩
      intro hthrows
      by_contra hfits
      exact hthrows.elim (Nat.not_le.mpr (hcount (Nat.lt_of_not_le hfits))) hfits

/-- Reordering the axes keeps the number of bytes. -/
theorem exactByteCount_perm {shape reordered : List SizeT} (h : reordered.Perm shape)
    (dtype : DType) : exactByteCount reordered dtype = exactByteCount shape dtype := by
  rw [exactByteCount, exactByteCount, extents, extents, (h.map UInt64.toNat).prod_eq]

/-- The order of the axes is irrelevant when they hold no zero, or when the others fit a word. -/
theorem sizeIgnoresOrder {shape : List SizeT} {dtype : DType} (h : (dtypeName dtype).isSome)
    (hzero : 0 ∈ shape → nonzeroProduct (extents shape) < wordSize) :
    SizeIgnoresOrder shape dtype := by
  intro reordered hperm
  have hextents : (extents reordered).Perm (extents shape) := hperm.map UInt64.toNat
  have hleading : leadingProduct (extents reordered) < wordSize ↔
      leadingProduct (extents shape) < wordSize := by
    by_cases hmem : 0 ∈ shape
    · have hfits := hzero hmem
      have hsame := nonzeroProduct_perm hextents
      have hshape := leadingProduct_le_nonzeroProduct (extents shape)
      have hreordered := leadingProduct_le_nonzeroProduct (extents reordered)
      exact iff_of_true (by omega) (by omega)
    · have hshape : 0 ∉ extents shape := fun hin => hmem (zero_mem_extents.mp hin)
      rw [leadingProduct_of_not_mem hshape,
        leadingProduct_of_not_mem fun hin => hshape (hextents.mem_iff.mp hin), hextents.prod_eq]
  rw [bufferByteCount_eq reordered h, bufferByteCount_eq shape h, exactByteCount_perm hperm]
  simp only [hleading]

/-- A shape with its zeros moved behind the other extents. -/
theorem exists_zeros_last (shape : List SizeT) :
    ∃ reordered, reordered.Perm shape ∧
      leadingProduct (extents reordered) = nonzeroProduct (extents shape) := by
  refine ⟨_, List.filter_append_perm (fun dim => decide (dim.toNat ≠ 0)) shape, ?_⟩
  have hzeros : ∀ extent ∈ extents (shape.filter fun dim => !decide (dim.toNat ≠ 0)),
      extent = 0 := by
    intro extent hextent
    obtain ⟨dim, hdim, rfl⟩ := List.mem_map.mp hextent
    simpa using (List.mem_filter.mp hdim).2
  rw [← leadingProduct_filter_append hzeros, extents, List.map_append, extents, extents,
    List.filter_map]
  rfl

/-- For every shape and every supported element type, the size is exact in the order given
exactly when no extent is zero or the product of those in front of the first zero fits a word,
and exact whatever the order of the axes exactly when no extent is zero or the product of the
others fits a word. -/
theorem bufferByteCount_exact_iff (shape : List SizeT) {dtype : DType}
    (h : (dtypeName dtype).isSome) :
    (SizeIsExact shape dtype ↔ (0 ∈ shape → leadingProduct (extents shape) < wordSize)) ∧
    (SizeIsExact shape dtype ∧ SizeIgnoresOrder shape dtype ↔
      (0 ∈ shape → nonzeroProduct (extents shape) < wordSize)) := by
  refine ⟨sizeIsExact_iff shape h, ?_⟩
  constructor
  · intro hboth hzero
    obtain ⟨hexact, horder⟩ := hboth
    obtain ⟨size, hsize, -⟩ := hexact.1 (exactByteCount_lt_of_zero_mem hzero dtype)
    obtain ⟨reordered, hperm, hleading⟩ := exists_zeros_last shape
    rw [← horder reordered hperm, bufferByteCount_eq_ok h, hleading] at hsize
    exact hsize.1
  · intro hzero
    refine ⟨(sizeIsExact_iff shape h).mpr ?_, sizeIgnoresOrder h hzero⟩
    intro hmem
    exact lt_of_le_of_lt (leadingProduct_le_nonzeroProduct _) (hzero hmem)

/-- A shape without elements whose other extents fit a word. -/
theorem degenerate_axis_exact :
    SizeIsExact [4, 0, 3] ⟨DType.float, 32⟩ ∧ SizeIgnoresOrder [4, 0, 3] ⟨DType.float, 32⟩ :=
  (bufferByteCount_exact_iff [4, 0, 3] (by decide)).2.mpr (by decide)

/-- A shape without elements that is refused with its zero last and accepted with it first. -/
theorem zero_behind_overflow_refused :
    bufferByteCount [1099511627776, 1099511627776, 0] ⟨DType.uint, 8⟩ =
      .error elementCountOverflow ∧
    bufferByteCount [0, 1099511627776, 1099511627776] ⟨DType.uint, 8⟩ = .ok 0 ∧
    exactByteCount [1099511627776, 1099511627776, 0] ⟨DType.uint, 8⟩ = 0 ∧
    ¬ ∀ shape dtype, (dtypeName dtype).isSome →
      SizeIsExact shape dtype ∧ SizeIgnoresOrder shape dtype := by
  have hrefused : bufferByteCount [1099511627776, 1099511627776, 0] ⟨DType.uint, 8⟩ =
      .error elementCountOverflow := by decide
  refine ⟨hrefused, by decide, by decide, ?_⟩
  intro hall
  obtain ⟨size, hsize, -⟩ :=
    (hall [1099511627776, 1099511627776, 0] ⟨DType.uint, 8⟩ (by decide)).1.1 (by decide)
  rw [hrefused] at hsize
  cases hsize

end MetalRuntime
