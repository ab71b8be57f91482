import MetalRuntime.Validate

/-!
# Launch validation is exact

`LaunchIsValid` states the conditions on a launch in unbounded arithmetic. One lemma for
each check of `validate` turns its wrapping computation into the matching condition, and
`validate_eq_ok_iff` assembles them. The kernel's ceiling is bounded by `2 ^ 21`, far above
what Metal reports, so that the product of three components within it is a word.
-/

namespace MetalRuntime

open Foundations

/-- The condition on the direct or indirect grid, in unbounded arithmetic. -/
def DispatchIsValid (launch : Launch) (nonUniform : Bool) : Prop :=
  match launch.indirectGrid with
  | some buffer => 4 ∣ launch.indirectOffset.toNat ∧
      launch.indirectOffset.toNat + 12 ≤ buffer.size.toNat
  | none => nonUniform = true ∨
      (launch.threadgroup.x.toNat ∣ launch.grid.x.toNat ∧
        launch.threadgroup.y.toNat ∣ launch.grid.y.toNat ∧
        launch.threadgroup.z.toNat ∣ launch.grid.z.toNat)

/-- What `validate` demands of a launch with a pipeline, in unbounded arithmetic. -/
structure LaunchIsValid (launch : Launch) (pipeline : ComputePipeline) (nonUniform : Bool)
    (budget : SizeT) : Prop where
  grid : launch.indirectGrid.isSome ∨
    (0 < launch.grid.x.toNat ∧ 0 < launch.grid.y.toNat ∧ 0 < launch.grid.z.toNat)
  threadgroup : 0 < launch.threadgroup.x.toNat ∧ 0 < launch.threadgroup.y.toNat ∧
    0 < launch.threadgroup.z.toNat
  threads : launch.threadgroup.x.toNat * launch.threadgroup.y.toNat *
    launch.threadgroup.z.toNat ≤ pipeline.maxThreadsPerThreadgroup.toNat
  bindingCount : launch.buffers.toList.length + launch.scalars.toList.length ≤ 31
  bufferBindings : ∀ binding ∈ pipeline.bufferBindings,
    binding.index.toNat < launch.buffers.toList.length + launch.scalars.toList.length
  threadgroupBindings : ∀ binding ∈ pipeline.threadgroupBindings,
    binding.index.toNat < launch.threadgroupMemory.toList.length
  threadgroupMemory : pipeline.staticThreadgroupMemoryLength.toNat +
    (launch.threadgroupMemory.toList.map fun length => roundUp 16 length.toNat).sum ≤
      budget.toNat
  scalarSizes : ∀ scalar ∈ launch.scalars.toList, scalar.size.toNat ≤ 4096
  scalarElements : ∀ binding ∈ pipeline.bufferBindings, ∀ scalar,
    launch.buffers.toList.length ≤ binding.index.toNat →
    launch.scalars.toList[binding.index.toNat - launch.buffers.toList.length]? = some scalar →
    0 < binding.dataSize.toNat →
    0 < scalar.size.toNat ∧ binding.dataSize.toNat ∣ scalar.size.toNat
  bufferOffsets : ∀ binding ∈ launch.buffers.toList,
    binding.offset.toNat < binding.buffer.size.toNat ∨
      (binding.offset.toNat = 0 ∧ binding.buffer.size.toNat = 0)
  dispatch : DispatchIsValid launch nonUniform

/-- A word is zero exactly when it denotes zero. -/
private theorem eq_zero_iff_toNat (a : SizeT) : a = 0 ↔ a.toNat = 0 :=
  UInt64.toNat_inj.symm

/-- The rounding helper returns exactly the rounded length, when that length is a word. -/
theorem roundedThreadgroupLength_eq_ok {length rounded : SizeT} :
    roundedThreadgroupLength length = .ok rounded ↔
      roundUp 16 length.toNat < wordSize ∧ rounded.toNat = roundUp 16 length.toNat := by
  have hguard : ¬ length > maxSize - (threadgroupMemoryAlignment - 1) ↔
      length.toNat + 15 < wordSize := by
    simp only [gt_iff_lt, UInt64.lt_iff_toNat_lt, maxSize, threadgroupMemoryAlignment, wordSize,
      UInt64.reduceSub, UInt64.reduceToNat]
    omega
  have hfits : length.toNat + 15 < wordSize ↔ roundUp 16 length.toNat < wordSize := by
    simp only [roundUp, wordSize]
    omega
  rw [roundedThreadgroupLength, check_bind_eq_ok, rejectIf_eq_ok, hguard, hfits]
  refine and_congr_right fun hround => ?_
  have hexact := toNat_roundUp threadgroupMemoryAlignment length (by decide)
    (hfits.mpr hround)
  rw [Except.ok.injEq, ← UInt64.toNat_inj, hexact]
  exact eq_comm

/-- The grid check passes exactly for an indirect or nonzero grid. -/
theorem checkGrid_eq_ok (launch : Launch) :
    checkGrid launch = .ok () ↔ launch.indirectGrid.isSome ∨
      (0 < launch.grid.x.toNat ∧ 0 < launch.grid.y.toNat ∧ 0 < launch.grid.z.toNat) := by
  cases hindirect : launch.indirectGrid with
  | none =>
    simp only [checkGrid, hindirect, rejectIf_eq_ok, eq_zero_iff_toNat, Option.isNone_none,
      Option.isSome_none, Bool.false_eq_true, true_and, false_or]
    omega
  | some buffer => simp [checkGrid, hindirect]

/-- The threadgroup check passes exactly when the exact product is within the ceiling. -/
theorem checkThreadgroup_eq_ok (launch : Launch) (pipeline : ComputePipeline)
    (hceiling : pipeline.maxThreadsPerThreadgroup.toNat ≤ 2 ^ 21) :
    checkThreadgroup launch pipeline = .ok () ↔
      (0 < launch.threadgroup.x.toNat ∧ 0 < launch.threadgroup.y.toNat ∧
        0 < launch.threadgroup.z.toNat) ∧
      launch.threadgroup.x.toNat * launch.threadgroup.y.toNat * launch.threadgroup.z.toNat ≤
        pipeline.maxThreadsPerThreadgroup.toNat := by
  simp only [checkThreadgroup, check_bind_eq_ok, rejectIf_eq_ok, eq_zero_iff_toNat, not_or,
    gt_iff_lt, UInt64.lt_iff_toNat_lt, not_lt, Nat.pos_iff_ne_zero]
  refine and_congr_right fun hpositive => ?_
  obtain ⟨hx, hy, hz⟩ := hpositive
  constructor
  · rintro ⟨hxle, hyle, hzle, hvolume⟩
    rwa [Dim3.volume, toNat_mul_mul_of_le _ (hxle.trans hceiling) (hyle.trans hceiling)
      (hzle.trans hceiling) (by decide)] at hvolume
  · intro hproduct
    have hxy := Nat.le_mul_of_pos_right
      (launch.threadgroup.x.toNat * launch.threadgroup.y.toNat) (Nat.pos_of_ne_zero hz)
    have hxle := Nat.le_mul_of_pos_right launch.threadgroup.x.toNat (Nat.pos_of_ne_zero hy)
    have hyle := Nat.le_mul_of_pos_left launch.threadgroup.y.toNat (Nat.pos_of_ne_zero hx)
    have hzle := Nat.le_mul_of_pos_left launch.threadgroup.z.toNat
      (Nat.mul_pos (Nat.pos_of_ne_zero hx) (Nat.pos_of_ne_zero hy))
    refine ⟨by omega, by omega, by omega, ?_⟩
    rwa [Dim3.volume, toNat_mul_mul_of_le (2 ^ 21) (by omega) (by omega) (by omega)
      (by decide)]

/-- The coverage check passes exactly when every used argument is provided. -/
theorem checkBindings_eq_ok (launch : Launch) (pipeline : ComputePipeline) :
    checkBindings launch pipeline = .ok () ↔
      launch.buffers.toList.length + launch.scalars.toList.length ≤ 31 ∧
      (∀ binding ∈ pipeline.bufferBindings,
        binding.index.toNat < launch.buffers.toList.length + launch.scalars.toList.length) ∧
      ∀ binding ∈ pipeline.threadgroupBindings,
        binding.index.toNat < launch.threadgroupMemory.toList.length := by
  simp only [checkBindings, check_bind_eq_ok, rejectIf_eq_ok, forEach_eq_ok, gt_iff_lt, ge_iff_le,
    not_le, not_lt, UInt64.lt_iff_toNat_lt, UInt64.le_iff_toNat_le, StdVector.toNat_size_add_size,
    StdVector.toNat_size, UInt64.reduceToNat]

/-- The threadgroup loop returns exactly when the running total stays within the budget, and
then returns the exact total. -/
theorem addThreadgroupLengths_eq_ok {budget total result : SizeT} {lengths : List SizeT}
    (htotal : total.toNat ≤ budget.toNat) :
    addThreadgroupLengths budget total lengths = .ok result ↔
      total.toNat + (lengths.map fun length => roundUp 16 length.toNat).sum ≤ budget.toNat ∧
      result.toNat =
        total.toNat + (lengths.map fun length => roundUp 16 length.toNat).sum := by
  induction lengths generalizing total with
  | nil =>
    simp only [addThreadgroupLengths, Except.ok.injEq, List.map_nil, List.sum_nil, Nat.add_zero,
      htotal, true_and, ← UInt64.toNat_inj]
    exact eq_comm
  | cons length rest ih =>
    have hbudget := toNat_lt_wordSize budget
    simp only [addThreadgroupLengths, bind_eq_ok_iff (ε := Failure) (β := SizeT),
      check_bind_eq_ok, rejectIf_eq_ok, roundedThreadgroupLength_eq_ok, List.map_cons,
      List.sum_cons, not_or, gt_iff_lt, UInt64.lt_iff_toNat_lt, Nat.not_lt,
      UInt64.toNat_sub_of_le _ _ (UInt64.le_iff_toNat_le.mpr htotal)]
    constructor
    · rintro ⟨rounded, ⟨hfits, hrounded⟩, ⟨-, hroom⟩, hrest⟩
      have hsum : (total + rounded).toNat = total.toNat + rounded.toNat :=
        toNat_add_of_lt (by omega)
      rw [ih (by omega), hsum, hrounded] at hrest
      omega
    · rintro ⟨hfits, hresult⟩
      have hround : roundUp 16 length.toNat < wordSize := by omega
      have hexact : (UInt64.ofNat (roundUp 16 length.toNat)).toNat = roundUp 16 length.toNat := by
        rw [UInt64.toNat_ofNat']
        exact Nat.mod_eq_of_lt hround
      have hsum : (total + UInt64.ofNat (roundUp 16 length.toNat)).toNat =
          total.toNat + roundUp 16 length.toNat := by
        rw [toNat_add_of_lt] <;> omega
      refine ⟨UInt64.ofNat (roundUp 16 length.toNat), ⟨hround, hexact⟩, ⟨htotal, by omega⟩, ?_⟩
      rw [ih (by omega), hsum]
      omega

/-- A total already over the budget passes the loop only when there is no length to add. -/
theorem addThreadgroupLengths_over_budget {budget total result : SizeT} {lengths : List SizeT}
    (htotal : budget.toNat < total.toNat)
    (hok : addThreadgroupLengths budget total lengths = .ok result) : result = total := by
  cases lengths with
  | nil =>
    simp only [addThreadgroupLengths, Except.ok.injEq] at hok
    exact hok.symm
  | cons length rest =>
    simp only [addThreadgroupLengths, bind_eq_ok_iff (ε := Failure) (β := SizeT),
      check_bind_eq_ok, rejectIf_eq_ok, not_or, gt_iff_lt, UInt64.lt_iff_toNat_lt] at hok
    obtain ⟨rounded, -, ⟨hguard, -⟩, -⟩ := hok
    exact absurd htotal hguard

/-- The budget check passes exactly when static and rounded dynamic memory fit together. -/
theorem checkThreadgroupMemory_eq_ok (launch : Launch) (pipeline : ComputePipeline)
    (budget : SizeT) :
    checkThreadgroupMemory launch pipeline budget = .ok () ↔
      pipeline.staticThreadgroupMemoryLength.toNat +
        (launch.threadgroupMemory.toList.map fun length => roundUp 16 length.toNat).sum ≤
          budget.toNat := by
  simp only [checkThreadgroupMemory, bind_eq_ok_iff (ε := Failure) (β := SizeT), rejectIf_eq_ok,
    gt_iff_lt, UInt64.lt_iff_toNat_lt, Nat.not_lt]
  by_cases hstatic : pipeline.staticThreadgroupMemoryLength.toNat ≤ budget.toNat
  · constructor
    · rintro ⟨total, hloop, -⟩
      exact ((addThreadgroupLengths_eq_ok hstatic).mp hloop).1
    · intro hfits
      have hbudget := toNat_lt_wordSize budget
      have htotal := UInt64.toNat_ofNat_of_lt (lt_of_le_of_lt hfits hbudget)
      refine ⟨_, (addThreadgroupLengths_eq_ok hstatic).mpr ⟨hfits, htotal⟩, ?_⟩
      rwa [htotal]
  · constructor
    · rintro ⟨total, hloop, hle⟩
      rw [addThreadgroupLengths_over_budget (Nat.lt_of_not_le hstatic) hloop] at hle
      exact absurd hle hstatic
    · omega

/-- Past the buffers, the position among the scalars is an exact difference. -/
theorem toNat_scalarPosition {launch : Launch} {index : SizeT}
    (hindex : ¬ index < launch.buffers.size) :
    (index - launch.buffers.size).toNat = index.toNat - launch.buffers.toList.length := by
  rw [UInt64.lt_iff_toNat_lt, Nat.not_lt] at hindex
  rw [UInt64.toNat_sub_of_le _ _ (UInt64.le_iff_toNat_le.mpr hindex), StdVector.toNat_size]

/-- The element check of one used argument passes exactly when a scalar bound to it holds
whole elements, given that the launch provides the argument. -/
theorem checkScalarElements_eq_ok {launch : Launch} {pipeline : ComputePipeline}
    {binding : BindingInfo}
    (hcovered : binding.index.toNat <
      launch.buffers.toList.length + launch.scalars.toList.length) :
    checkScalarElements launch pipeline binding = .ok () ↔
      ∀ scalar, launch.buffers.toList.length ≤ binding.index.toNat →
        launch.scalars.toList[binding.index.toNat - launch.buffers.toList.length]? = some scalar →
        0 < binding.dataSize.toNat →
        0 < scalar.size.toNat ∧ binding.dataSize.toNat ∣ scalar.size.toNat := by
  unfold checkScalarElements
  split
  · rename_i hskip
    rw [UInt64.lt_iff_toNat_lt, StdVector.toNat_size, eq_zero_iff_toNat] at hskip
    simp only [true_iff]
    intro scalar hindex _ hsize
    omega
  · rename_i hskip
    rw [not_or] at hskip
    have hposition := toNat_scalarPosition hskip.1
    rw [UInt64.lt_iff_toNat_lt, StdVector.toNat_size, eq_zero_iff_toNat, Nat.not_lt] at hskip
    obtain ⟨hindex, hsize⟩ := hskip
    have hlt : (binding.index - launch.buffers.size).toNat < launch.scalars.toList.length := by
      omega
    simp only [StdVector.get_of_lt hlt, bind_eq_ok_iff (ε := Failure) (β := Scalar),
      Except.ok.injEq, exists_eq_left', rejectIf_eq_ok, ← hposition,
      List.getElem?_eq_getElem hlt, Option.some.injEq, forall_eq', hindex, true_imp_iff,
      Nat.pos_of_ne_zero hsize, UInt64.lt_iff_toNat_lt, eq_zero_iff_toNat, UInt64.toNat_mod,
      ne_eq, not_or, not_not, Nat.not_lt, Nat.dvd_iff_mod_eq_zero]
    constructor
    · rintro ⟨hle, hmod⟩
      exact ⟨lt_of_lt_of_le (Nat.pos_of_ne_zero hsize) hle, hmod⟩
    · rintro ⟨hpos, hmod⟩
      exact ⟨Nat.le_of_dvd hpos (Nat.dvd_of_mod_eq_zero hmod), hmod⟩

/-- The scalar checks pass exactly when every scalar fits `setBytes` and its argument. -/
theorem checkScalars_eq_ok {launch : Launch} {pipeline : ComputePipeline}
    (hcovered : ∀ binding ∈ pipeline.bufferBindings,
      binding.index.toNat < launch.buffers.toList.length + launch.scalars.toList.length) :
    checkScalars launch pipeline = .ok () ↔
      (∀ scalar ∈ launch.scalars.toList, scalar.size.toNat ≤ 4096) ∧
      ∀ binding ∈ pipeline.bufferBindings, ∀ scalar,
        launch.buffers.toList.length ≤ binding.index.toNat →
        launch.scalars.toList[binding.index.toNat - launch.buffers.toList.length]? = some scalar →
        0 < binding.dataSize.toNat →
        0 < scalar.size.toNat ∧ binding.dataSize.toNat ∣ scalar.size.toNat := by
  simp only [checkScalars, check_bind_eq_ok, forEach_eq_ok, rejectIf_eq_ok, gt_iff_lt,
    UInt64.lt_iff_toNat_lt, Nat.not_lt, maxInlineScalarBytes, UInt64.reduceToNat]
  refine and_congr_right fun _ => ?_
  constructor
  · intro h binding hbinding
    exact (checkScalarElements_eq_ok (hcovered binding hbinding)).mp (h binding hbinding)
  · intro h binding hbinding
    exact (checkScalarElements_eq_ok (hcovered binding hbinding)).mpr (h binding hbinding)

/-- One offset passes exactly when it is inside its buffer, or both are zero. -/
theorem checkBufferOffset_eq_ok (position : ℕ) (binding : BufferBinding) :
    checkBufferOffset position binding = .ok () ↔
      binding.offset.toNat < binding.buffer.size.toNat ∨
        (binding.offset.toNat = 0 ∧ binding.buffer.size.toNat = 0) := by
  simp only [checkBufferOffset, rejectIf_eq_ok, ge_iff_le, UInt64.le_iff_toNat_le,
    eq_zero_iff_toNat]
  omega

/-- The offset loop passes exactly when every offset is inside its buffer. -/
theorem checkBufferOffsets_eq_ok (launch : Launch) :
    checkBufferOffsets launch = .ok () ↔ ∀ binding ∈ launch.buffers.toList,
      binding.offset.toNat < binding.buffer.size.toNat ∨
        (binding.offset.toNat = 0 ∧ binding.buffer.size.toNat = 0) := by
  simp only [checkBufferOffsets, forEach_eq_ok, checkBufferOffset_eq_ok]
  constructor
  · intro h binding hbinding
    obtain ⟨i, hi, rfl⟩ := List.getElem_of_mem hbinding
    exact h (launch.buffers.toList[i], i) (List.mk_mem_zipIdx_iff_getElem?.mpr
      (List.getElem?_eq_getElem hi))
  · rintro h ⟨binding, position⟩ hentry
    exact h binding (List.fst_mem_of_mem_zipIdx hentry)

/-- The last check passes exactly for a valid indirect range or an evenly divided grid. -/
theorem checkDispatch_eq_ok {launch : Launch} {nonUniform : Bool} :
    checkDispatch launch nonUniform = .ok () ↔ DispatchIsValid launch nonUniform := by
  cases hindirect : launch.indirectGrid with
  | some buffer =>
    simp only [checkDispatch, DispatchIsValid, hindirect, rejectIf_eq_ok, not_or, not_not,
      gt_iff_lt, ne_eq, UInt64.lt_iff_toNat_lt, Nat.not_lt, eq_zero_iff_toNat, UInt64.toNat_mod,
      indirectArgumentsSize]
    constructor
    · rintro ⟨hmod, hle, hroom⟩
      rw [UInt64.toNat_sub_of_le _ _ (UInt64.le_iff_toNat_le.mpr hle)] at hroom
      simp only [UInt64.reduceMul, UInt64.reduceToNat] at hmod hroom
      omega
    · rintro ⟨hdvd, hfits⟩
      have hle : launch.indirectOffset.toNat ≤ buffer.size.toNat := by omega
      rw [UInt64.toNat_sub_of_le _ _ (UInt64.le_iff_toNat_le.mpr hle)]
      simp only [UInt64.reduceMul, UInt64.reduceToNat]
      omega
  | none =>
    simp only [checkDispatch, DispatchIsValid, hindirect, rejectIf_eq_ok, ne_eq,
      eq_zero_iff_toNat, UInt64.toNat_mod, Nat.dvd_iff_mod_eq_zero]
    cases nonUniform with
    | true => simp
    | false => simp

/-- `validate` returns exactly when the pipeline is set and each check passes. -/
theorem validate_eq_ok_checks (launch : Launch) (nonUniform : Bool) (budget : SizeT) :
    validate launch nonUniform budget = .ok () ↔
      ∃ pipeline, launch.pipeline = some pipeline ∧ checkGrid launch = .ok () ∧
        checkThreadgroup launch pipeline = .ok () ∧ checkBindings launch pipeline = .ok () ∧
        checkThreadgroupMemory launch pipeline budget = .ok () ∧
        checkScalars launch pipeline = .ok () ∧ checkBufferOffsets launch = .ok () ∧
        checkDispatch launch nonUniform = .ok () := by
  cases hpipeline : launch.pipeline with
  | none => simp [validate, hpipeline]
  | some pipeline =>
    simp only [validate, hpipeline, check_bind_eq_ok, Option.some.injEq, exists_eq_left']

/-- `validate` accepts exactly the valid launches: every wrapping computation it makes is
exact where its result matters. -/
theorem validate_eq_ok_iff (launch : Launch) (nonUniform : Bool) (budget : SizeT)
    (hceiling : ∀ pipeline, launch.pipeline = some pipeline →
      pipeline.maxThreadsPerThreadgroup.toNat ≤ 2 ^ 21) :
    validate launch nonUniform budget = .ok () ↔
      ∃ pipeline, launch.pipeline = some pipeline ∧
        LaunchIsValid launch pipeline nonUniform budget := by
  rw [validate_eq_ok_checks]
  refine exists_congr fun pipeline => and_congr_right fun hpipeline => ?_
  rw [checkGrid_eq_ok, checkThreadgroup_eq_ok launch pipeline (hceiling pipeline hpipeline),
    checkBindings_eq_ok, checkThreadgroupMemory_eq_ok, checkBufferOffsets_eq_ok,
    checkDispatch_eq_ok]
  constructor
  · rintro ⟨hgrid, ⟨htg, hthreads⟩, ⟨hcount, hbuffers, hgroups⟩, hmemory, hscalars, hoffsets,
      hdispatch⟩
    obtain ⟨hsizes, helements⟩ := (checkScalars_eq_ok hbuffers).mp hscalars
    exact ⟨hgrid, htg, hthreads, hcount, hbuffers, hgroups, hmemory, hsizes, helements,
      hoffsets, hdispatch⟩
  · intro h
    exact ⟨h.grid, ⟨h.threadgroup, h.threads⟩,
      ⟨h.bindingCount, h.bufferBindings, h.threadgroupBindings⟩, h.threadgroupMemory,
      (checkScalars_eq_ok h.bufferBindings).mpr ⟨h.scalarSizes, h.scalarElements⟩,
      h.bufferOffsets, h.dispatch⟩

/-- The rounding helper throws nothing but `std::invalid_argument`. -/
theorem roundedThreadgroupLength_failsOnly (length : SizeT) :
    FailsOnly Failure.IsInvalidArgument (roundedThreadgroupLength length) :=
  (failsOnly_rejectIf ⟨_, rfl⟩).bind fun _ _ => failsOnly_ok _ _

/-- The threadgroup loop throws nothing but `std::invalid_argument`. -/
theorem addThreadgroupLengths_failsOnly (budget total : SizeT) (lengths : List SizeT) :
    FailsOnly Failure.IsInvalidArgument (addThreadgroupLengths budget total lengths) := by
  induction lengths generalizing total with
  | nil => exact failsOnly_ok _ _
  | cons length rest ih =>
    refine (roundedThreadgroupLength_failsOnly length).bind fun rounded _ => ?_
    exact (failsOnly_rejectIf ⟨_, rfl⟩).bind fun _ _ => ih _

/-- The element check of a provided argument reads inside the scalars. -/
theorem checkScalarElements_failsOnly {launch : Launch} {pipeline : ComputePipeline}
    {binding : BindingInfo}
    (hcovered : binding.index.toNat <
      launch.buffers.toList.length + launch.scalars.toList.length) :
    FailsOnly Failure.IsInvalidArgument (checkScalarElements launch pipeline binding) := by
  unfold checkScalarElements
  split
  · exact failsOnly_ok _ _
  · rename_i hskip
    rw [not_or] at hskip
    have hposition := toNat_scalarPosition hskip.1
    rw [UInt64.lt_iff_toNat_lt, StdVector.toNat_size, Nat.not_lt] at hskip
    refine FailsOnly.bind ?_ fun scalar _ => failsOnly_rejectIf ⟨_, rfl⟩
    rw [StdVector.get_of_lt (by omega)]
    exact failsOnly_ok _ _

/-- `validate` throws nothing but `std::invalid_argument`; in particular it never reads past
the end of the scalars. -/
theorem validate_failsOnly (launch : Launch) (nonUniform : Bool) (budget : SizeT) :
    FailsOnly Failure.IsInvalidArgument (validate launch nonUniform budget) := by
  unfold validate
  split
  · exact failsOnly_error ⟨_, rfl⟩
  · rename_i pipeline hpipeline
    refine (failsOnly_rejectIf ⟨_, rfl⟩).bind fun _ _ => ?_
    refine FailsOnly.bind ?threadgroup fun _ _ => ?_
    case threadgroup =>
      exact (failsOnly_rejectIf ⟨_, rfl⟩).bind fun _ _ => failsOnly_rejectIf ⟨_, rfl⟩
    refine FailsOnly.bind ?bindings fun _ hbindings => ?_
    case bindings =>
      refine (failsOnly_rejectIf ⟨_, rfl⟩).bind fun _ _ => ?_
      exact (failsOnly_forEach fun _ _ => failsOnly_rejectIf ⟨_, rfl⟩).bind fun _ _ =>
        failsOnly_forEach fun _ _ => failsOnly_rejectIf ⟨_, rfl⟩
    refine FailsOnly.bind ?memory fun _ _ => ?_
    case memory =>
      exact (addThreadgroupLengths_failsOnly _ _ _).bind fun _ _ => failsOnly_rejectIf ⟨_, rfl⟩
    refine FailsOnly.bind ?scalars fun _ _ => ?_
    case scalars =>
      have hcovered := ((checkBindings_eq_ok launch pipeline).mp hbindings).2.1
      exact (failsOnly_forEach fun _ _ => failsOnly_rejectIf ⟨_, rfl⟩).bind fun _ _ =>
        failsOnly_forEach fun binding hbinding =>
          checkScalarElements_failsOnly (hcovered binding hbinding)
    refine (failsOnly_forEach fun _ _ => failsOnly_rejectIf ⟨_, rfl⟩).bind fun _ _ => ?_
    unfold checkDispatch
    split
    · exact failsOnly_rejectIf ⟨_, rfl⟩
    · exact failsOnly_rejectIf ⟨_, rfl⟩

/-- A kernel with one used buffer of 4-byte elements and no static threadgroup memory. -/
def addOnePipeline : ComputePipeline where
  pipeline := ⟨1, 1024, 32, 0⟩
  label := ascii "add_one"
  bufferBindings := [{ index := 0, name := ascii "data", dataSize := 4 }]
  threadgroupBindings := []

/-- A launch of that kernel over four elements of a 16-byte buffer. -/
def addOneLaunch : Launch where
  pipeline := some addOnePipeline
  buffers := ⟨[⟨⟨⟨1, 65536, 16⟩, 16⟩, 0⟩], by decide⟩
  grid := { x := 4 }
  threadgroup := { x := 4 }

/-- A kernel with a used buffer, a used scalar and a used threadgroup argument. -/
def scaleTilePipeline : ComputePipeline where
  pipeline := ⟨2, 1024, 32, 256⟩
  label := ascii "scale_tile"
  bufferBindings := [{ index := 0, name := ascii "data", dataSize := 4 },
    { index := 1, name := ascii "factors", dataSize := 4 }]
  threadgroupBindings := [{ index := 0, name := ascii "tile" }]

/-- A launch of that kernel over ten elements in threadgroups of four, with two factors and a tile
of 100 bytes. -/
def scaleTileLaunch : Launch where
  pipeline := some scaleTilePipeline
  buffers := ⟨[⟨⟨⟨1, 65536, 48⟩, 48⟩, 8⟩], by decide⟩
  scalars := ⟨[⟨140000, 8⟩], by decide⟩
  threadgroupMemory := ⟨[100], by decide⟩
  grid := { x := 10 }
  threadgroup := { x := 4 }

/-- The launch is accepted, so it is valid in unbounded arithmetic. -/
theorem scaleTileLaunch_isValid : ∃ pipeline, scaleTileLaunch.pipeline = some pipeline ∧
    LaunchIsValid scaleTileLaunch pipeline true 32768 := by
  refine (validate_eq_ok_iff scaleTileLaunch true 32768 ?_).mp (by decide)
  intro pipeline hpipeline
  cases hpipeline
  decide

end MetalRuntime
