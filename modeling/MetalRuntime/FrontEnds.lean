import MetalRuntime.CSessionMoves
import MetalRuntime.Prepare
import MetalRuntime.WrappedBuffers

/-!
# Two front ends over one runtime

The Python module and the C API describe launches differently, and check them at different places:
`prepare` leaves offsets to `validate`, and `build_launch` compares them with the range that was
wrapped. On requests that mean the same launch the two record the same commands, and report what
they reject under corresponding names.
-/

namespace MetalRuntime

open Foundations

/-- A launch as the callers of both front ends mean it; the runtime may choose the threadgroup. -/
structure LaunchRequest where
  pipeline : ComputePipeline
  grid : Dim3
  threadgroup : Option Dim3
  buffers : StdVector BufferBinding
  scalars : StdVector Scalar
  threadgroupMemory : StdVector SizeT

/-- The launch that is meant. -/
def LaunchRequest.launch (request : LaunchRequest) : Launch where
  pipeline := some request.pipeline
  buffers := request.buffers
  scalars := request.scalars
  threadgroupMemory := request.threadgroupMemory
  grid := request.grid
  threadgroup := request.threadgroup.getD (request.pipeline.defaultThreadgroup request.grid)

/-- Python arguments that mean a request. -/
structure LaunchParams.Means (params : LaunchParams) (request : LaunchRequest) : Prop where
  pipeline : params.kernel.pipeline = request.pipeline
  grid : ∃ extent, params.grid = .extent extent ∧
    toDim3 extent (ascii "grid") = .ok request.grid
  indirectOffset : params.indirectOffset = 0
  threadgroup : params.threadgroup.map (toDim3 · (ascii "threadgroup")) =
    request.threadgroup.map .ok
  buffers : params.buffers.map (fun arg =>
      arg.buffer.map fun buffer => (⟨buffer.buffer, arg.offset⟩ : BufferBinding)) =
    request.buffers.toList.map some
  scalars : params.scalars.map (fun array =>
      (⟨array.address, UInt64.ofNat array.nbytes⟩ : Scalar)) = request.scalars.toList
  dtypes : ∀ array ∈ params.scalars, ∃ dtype, fromDlpack array.dtype = .ok dtype
  threadgroupMemory : params.threadgroupMemory = request.threadgroupMemory

/-- A C array with a count holds these elements. -/
def ArrayHolds {α : Type} (array : Option (ℕ → α)) (count : SizeT) (elements : List α) : Prop :=
  elements.length = count.toNat ∧
    ∀ i a, elements[i]? = some a → ∃ values, array = some values ∧ values i = a

/-- `build_launch` accepts an offset into a wrapped range. -/
def MRBuffer.Accepts (buffer : MRBuffer) (offset : SizeT) : Prop :=
  ¬ ((offset ≥ buffer.logicalSize ∧ ¬ (offset = 0 ∧ buffer.logicalSize = 0)) ∨
    offset > maxSize - buffer.externalOffset)

instance MRBuffer.decidableAccepts (buffer : MRBuffer) (offset : SizeT) :
    Decidable (buffer.Accepts offset) :=
  inferInstanceAs (Decidable (¬ _))

/-- The exception of `build_launch` for an offset that it does not accept. -/
def Failure.IsOffsetError (failure : Failure) : Prop :=
  ∃ who i offset logicalSize, failure = .invalidArgument (who ++ ascii ": buffers[" ++ decimal i ++
    ascii "] offset " ++ toText offset ++ ascii " is out of bounds for a logical buffer of " ++
    toText logicalSize ++ ascii " bytes")

/-- A wrapped range without padding around it. -/
def MRBuffer.IsWhole (buffer : MRBuffer) : Prop :=
  buffer.externalOffset = 0 ∧ buffer.logicalSize = buffer.buffer.size

/-- The binding that an offset into a wrapped range means. -/
def bindingAt (range : MRBuffer × SizeT) : BufferBinding :=
  ⟨range.1.buffer, range.2 + range.1.externalOffset⟩

/-- A descriptor that means a request. Python has no padding: a wrapped range is a whole buffer, or
the offset lies inside it. -/
structure MRLaunchDesc.Means (desc : MRLaunchDesc) (request : LaunchRequest) : Prop where
  pipeline : desc.pipeline = some request.pipeline
  grid : desc.grid = request.grid
  threadgroup : match request.threadgroup with
    | none => desc.threadgroup.x = 0
    | some threadgroup => desc.threadgroup = threadgroup ∧ threadgroup.x ≠ 0
  buffers : ∃ ranges : List (MRBuffer × SizeT),
    ArrayHolds desc.buffers desc.bufferCount (ranges.map fun range => some range.1) ∧
    ArrayHolds desc.bufferOffsets desc.bufferCount (ranges.map Prod.snd) ∧
    request.buffers.toList = ranges.map bindingAt ∧
    ∀ range ∈ ranges, range.1.IsWhole ∨ range.1.Accepts range.2
  scalars : ArrayHolds desc.scalars desc.scalarCount (request.scalars.toList.map Scalar.data)
  scalarSizes : ArrayHolds desc.scalarSizes desc.scalarCount
    (request.scalars.toList.map Scalar.size)
  nonNull : ∀ scalar ∈ request.scalars.toList, scalar.data ≠ 0
  threadgroupMemory : ArrayHolds desc.threadgroupMemory desc.threadgroupMemoryCount
    request.threadgroupMemory.toList
  fits : ArrayFits desc.bufferCount ∧ ArrayFits desc.scalarCount ∧
    ArrayFits desc.threadgroupMemoryCount

section Loops

variable {α β : Type}

/-- A loop over the indices of a list that yields the element at each index. -/
theorem mapM_range_eq_ok {body : ℕ → Except Failure β} {count : ℕ} {elements : List β}
    (hlength : elements.length = count)
    (hbody : ∀ i b, elements[i]? = some b → body i = .ok b) :
    (List.range count).mapM body = .ok elements := by
  rw [mapM_eq_ok_iff, List.forall₂_iff_get]
  refine ⟨by rw [List.length_range, hlength], fun i hi hlt => ?_⟩
  rw [List.get_eq_getElem, List.getElem_range]
  exact hbody i _ (List.getElem?_eq_getElem hlt)

/-- Filling a vector with the elements of one. -/
theorem StdVector.ofList_toList (v : StdVector α) : StdVector.ofList v.toList = .ok v :=
  dif_pos v.size_le

/-- Reading an array at an index of its elements. -/
theorem ArrayHolds.element {array : Option (ℕ → α)} {count : SizeT} {elements : List α}
    (h : ArrayHolds array count elements) {i : ℕ} {a : α} (ha : elements[i]? = some a) :
    element array i = .ok a := by
  obtain ⟨values, rfl, rfl⟩ := h.2 i a ha
  rfl

/-- An array with elements is not null. -/
theorem ArrayHolds.not_isNone {array : Option (ℕ → α)} {count : SizeT} {elements : List α}
    (h : ArrayHolds array count elements) (hcount : count ≠ 0) : array.isNone = false := by
  have hpos : 0 < elements.length := by
    rw [h.1, Nat.pos_iff_ne_zero]
    exact fun hzero => hcount (UInt64.toNat_inj.mp hzero)
  obtain ⟨values, rfl, -⟩ := h.2 0 _ (List.getElem?_eq_getElem hpos)
  rfl

end Loops

section Python

variable {params : LaunchParams} {request : LaunchRequest}

/-- A scalar of a supported element type passes its check. -/
theorem checkScalarDtype_of_fromDlpack {dt : DLDataType} {dtype : DType}
    (h : fromDlpack dt = .ok dtype) (position : ℕ) : checkScalarDtype dt position = .ok () := by
  obtain ⟨rfl, hname⟩ := fromDlpack_eq_ok.mp h
  rw [checkScalarDtype, check_bind_eq_ok, rejectIf_eq_ok, h]
  refine ⟨?_, rfl⟩
  rintro ⟨hcode, hbits, -⟩
  have heq : dtype = ⟨DType.float, 64⟩ := by
    cases dtype
    cases hcode
    cases hbits
    rfl
  rw [heq] at hname
  exact absurd hname (by decide)

/-- The grid and the threadgroup that were asked for are prepared. -/
theorem prepareGrid_of_means (h : params.Means request) (prepared : PreparedLaunch) :
    prepareGrid params prepared = .ok { prepared with launch := { prepared.launch with
      grid := request.grid
      threadgroup := request.launch.threadgroup } } := by
  obtain ⟨extent, hgrid, hdims⟩ := h.grid
  have hthreadgroup := h.threadgroup
  rw [prepareGrid, hgrid]
  cases hgiven : params.threadgroup with
  | none =>
    rw [hgiven] at hthreadgroup
    have hnone : request.threadgroup = none := Option.map_eq_none_iff.mp hthreadgroup.symm
    simp only [h.indirectOffset, hdims, Option.elim_none]
    rw [LaunchRequest.launch, hnone, h.pipeline]
    rfl
  | some given =>
    rw [hgiven] at hthreadgroup
    obtain ⟨threadgroup, hsome, hgivenDims⟩ := Option.map_eq_some_iff.mp hthreadgroup.symm
    simp only [h.indirectOffset, hdims, Option.elim_some, ← hgivenDims]
    rw [LaunchRequest.launch, hsome]
    rfl

/-- The buffers that were given are prepared. -/
theorem prepareBuffers_of_means (h : params.Means request) (prepared : PreparedLaunch) :
    ∃ keepalive, prepareBuffers params prepared = .ok { prepared with
      launch := { prepared.launch with buffers := request.buffers }
      keepalive } := by
  have hbuffers : ∀ (args : List BufferArg) (bindings : List BufferBinding),
      args.map (fun arg =>
        arg.buffer.map fun buffer => (⟨buffer.buffer, arg.offset⟩ : BufferBinding)) =
          bindings.map some →
      ∃ bound : List (PyBufferObject × SizeT), List.Forall₂ (fun (arg : BufferArg) entry =>
          arg.buffer = some entry.1 ∧ arg.offset = entry.2) args bound ∧
        bound.map (fun entry => (⟨entry.1.buffer, entry.2⟩ : BufferBinding)) = bindings := by
    intro args
    induction args with
    | nil =>
      intro bindings hmap
      have hnil : bindings = [] := List.map_eq_nil_iff.mp hmap.symm
      exact ⟨[], List.Forall₂.nil, hnil.symm⟩
    | cons arg args ih =>
      intro bindings hmap
      cases bindings with
      | nil => cases hmap
      | cons binding bindings =>
        obtain ⟨hhead, htail⟩ := List.cons.inj hmap
        obtain ⟨bound, hbound, hrest⟩ := ih bindings htail
        obtain ⟨buffer, hbuffer, rfl⟩ := Option.map_eq_some_iff.mp hhead
        refine ⟨(buffer, arg.offset) :: bound, List.Forall₂.cons ?_ hbound, ?_⟩
        · exact ⟨hbuffer, rfl⟩
        · rw [List.map_cons, hrest]
  obtain ⟨bound, hbound, hbindings⟩ := hbuffers _ _ h.buffers
  refine ⟨prepared.keepalive ++ bound.map fun entry => entry.1.object, ?_⟩
  rw [prepareBuffers, bind_eq_ok_iff]
  refine ⟨bound, mapM_eq_ok_iff.mpr (hbound.imp ?_), ?_⟩
  · intro arg entry hentry
    rw [hentry.1, hentry.2]
  rw [hbindings, StdVector.ofList_toList]
  rfl

/-- The scalars that were given are prepared. -/
theorem prepareScalars_of_means (h : params.Means request) (prepared : PreparedLaunch)
    (hscalars : prepared.scalars = params.scalars) :
    prepareScalars prepared = .ok { prepared with
      launch := { prepared.launch with scalars := request.scalars } } := by
  have hchecked : prepared.scalars.zipIdx.mapM (fun entry => (do
      checkScalarDtype entry.1.dtype entry.2
      .ok ⟨entry.1.address, UInt64.ofNat entry.1.nbytes⟩ : Except Failure Scalar)) =
        .ok request.scalars.toList := by
    rw [mapM_eq_ok_iff, List.forall₂_iff_get, hscalars, ← h.scalars]
    refine ⟨by rw [List.length_zipIdx, List.length_map], fun i hi hlt => ?_⟩
    rw [List.length_map] at hlt
    obtain ⟨dtype, hdtype⟩ := h.dtypes _ (List.getElem_mem hlt)
    simp only [List.get_eq_getElem, List.getElem_zipIdx, List.getElem_map]
    rw [checkScalarDtype_of_fromDlpack hdtype]
    rfl
  rw [prepareScalars, hchecked, bind_eq_ok_iff]
  exact ⟨_, rfl, by rw [StdVector.ofList_toList]; rfl⟩

/-- `prepare` makes the launch that is meant. -/
theorem prepare_of_means (h : params.Means request) :
    ∃ prepared, prepare params = .ok prepared ∧ prepared.launch = request.launch := by
  obtain ⟨keepalive, hbuffers⟩ := prepareBuffers_of_means h
    { launch := {
        pipeline := some params.kernel.pipeline
        threadgroupMemory := params.threadgroupMemory
        grid := request.grid
        threadgroup := request.launch.threadgroup }
      keepalive := [params.kernel.object]
      scalars := params.scalars }
  refine ⟨⟨request.launch, keepalive, params.scalars⟩, ?_, rfl⟩
  rw [prepare, prepareGrid_of_means h, bind_eq_ok_iff]
  refine ⟨_, rfl, bind_eq_ok_iff.mpr ⟨_, hbuffers, ?_⟩⟩
  rw [prepareScalars_of_means h _ rfl, LaunchRequest.launch, h.pipeline, h.threadgroupMemory]

end Python

section C

variable {desc : MRLaunchDesc} {request : LaunchRequest} {who : ByteString}

/-- The check of the buffer loop on one range. -/
theorem bindBuffer_of_holds {ranges : List (MRBuffer × SizeT)}
    (hbuffers : ArrayHolds desc.buffers desc.bufferCount (ranges.map fun range => some range.1))
    (hoffsets : ArrayHolds desc.bufferOffsets desc.bufferCount (ranges.map Prod.snd))
    {i : ℕ} {range : MRBuffer × SizeT} (hrange : ranges[i]? = some range)
    {binding : BufferBinding} : bindBuffer who desc i = .ok binding ↔
      range.1.Accepts range.2 ∧ binding = bindingAt range := by
  have hbuffer : element desc.buffers i = .ok (some range.1) :=
    hbuffers.element (by rw [List.getElem?_map, hrange]; rfl)
  have hoffset : element desc.bufferOffsets i = .ok range.2 :=
    hoffsets.element (by rw [List.getElem?_map, hrange]; rfl)
  rw [bindBuffer, hbuffer]
  change (element desc.bufferOffsets i >>= _) = _ ↔ _
  rw [hoffset]
  change (rejectIf _ _ >>= _) = _ ↔ _
  rw [check_bind_eq_ok, rejectIf_eq_ok, Except.ok.injEq, eq_comm (a := binding)]
  rfl

/-- The scalar loop of `build_launch`. -/
theorem bindScalars_of_means (h : desc.Means request) :
    (List.range desc.scalarCount.toNat).mapM (bindScalar who desc) =
      .ok request.scalars.toList := by
  refine mapM_range_eq_ok ?_ fun i scalar hscalar => ?_
  · rw [← h.scalars.1, List.length_map]
  · have hdata : element desc.scalars i = .ok scalar.data :=
      h.scalars.element (by rw [List.getElem?_map, hscalar]; rfl)
    have hsize : element desc.scalarSizes i = .ok scalar.size :=
      h.scalarSizes.element (by rw [List.getElem?_map, hscalar]; rfl)
    rw [bindScalar, hdata, bind_eq_ok_iff]
    refine ⟨_, rfl, ?_⟩
    rw [check_bind_eq_ok, rejectIf_eq_ok, hsize]
    exact ⟨h.nonNull scalar (List.mem_of_getElem? hscalar), rfl⟩

/-- The threadgroup of `build_launch`, which a zero width leaves to the runtime. -/
theorem threadgroup_of_means (h : desc.Means request) :
    (if desc.threadgroup.x = 0 then request.pipeline.defaultThreadgroup desc.grid
      else desc.threadgroup) = request.launch.threadgroup := by
  have hmeans := h.threadgroup
  rw [LaunchRequest.launch, h.grid]
  cases hgiven : request.threadgroup with
  | none =>
    rw [hgiven] at hmeans
    rw [if_pos hmeans]
    rfl
  | some threadgroup =>
    rw [hgiven] at hmeans
    rw [hmeans.1, if_neg hmeans.2]
    rfl

/-- `build_launch` makes the launch that is meant if it accepts every offset. -/
theorem buildLaunch_of_accepts (h : desc.Means request) {ranges : List (MRBuffer × SizeT)}
    (hbuffers : ArrayHolds desc.buffers desc.bufferCount (ranges.map fun range => some range.1))
    (hoffsets : ArrayHolds desc.bufferOffsets desc.bufferCount (ranges.map Prod.snd))
    (hranges : request.buffers.toList = ranges.map bindingAt)
    (haccepts : ∀ range ∈ ranges, range.1.Accepts range.2) :
    buildLaunch (some desc) who = .ok request.launch := by
  have hbindings : (List.range desc.bufferCount.toNat).mapM (bindBuffer who desc) =
      .ok request.buffers.toList := by
    refine mapM_range_eq_ok ?_ fun i binding hbinding => ?_
    · rw [hranges, List.length_map, ← hoffsets.1, List.length_map]
    · rw [hranges, List.getElem?_map] at hbinding
      obtain ⟨range, hrange, rfl⟩ := Option.map_eq_some_iff.mp hbinding
      exact (bindBuffer_of_holds hbuffers hoffsets hrange).mpr
        ⟨haccepts range (List.mem_of_getElem? hrange), rfl⟩
  have hlengths : (List.range desc.threadgroupMemoryCount.toNat).mapM
      (element desc.threadgroupMemory) = .ok request.threadgroupMemory.toList :=
    mapM_range_eq_ok h.threadgroupMemory.1 fun i length hlength =>
      h.threadgroupMemory.element hlength
  unfold buildLaunch
  simp only [h.pipeline, check_bind_eq_ok, rejectIf_eq_ok, hbindings, bindScalars_of_means h,
    hlengths]
  refine ⟨?_, ?_, ?_, ?_⟩
  · rintro ⟨hcount, hnull | hnull⟩
    · rw [hbuffers.not_isNone hcount] at hnull
      cases hnull
    · rw [hoffsets.not_isNone hcount] at hnull
      cases hnull
  · rintro ⟨hcount, hnull | hnull⟩
    · rw [h.scalars.not_isNone hcount] at hnull
      cases hnull
    · rw [h.scalarSizes.not_isNone hcount] at hnull
      cases hnull
  · rintro ⟨hcount, hnull⟩
    rw [h.threadgroupMemory.not_isNone hcount] at hnull
    cases hnull
  · refine bind_eq_ok_iff.mpr ⟨_, rfl, bind_eq_ok_iff.mpr
      ⟨_, StdVector.ofList_toList _, bind_eq_ok_iff.mpr ⟨_, rfl, bind_eq_ok_iff.mpr
        ⟨_, StdVector.ofList_toList _, bind_eq_ok_iff.mpr ⟨_, rfl, bind_eq_ok_iff.mpr
          ⟨_, StdVector.ofList_toList _, ?_⟩⟩⟩⟩⟩⟩
    rw [threadgroup_of_means h, h.grid]
    rfl

/-- An offset that a whole buffer does not accept is refused by `validate` too. -/
theorem validate_fails_of_not_accepts {range : MRBuffer × SizeT} (hwhole : range.1.IsWhole)
    (hrefused : ¬ range.1.Accepts range.2) (hmem : bindingAt range ∈ request.buffers.toList)
    (nonUniform : Bool) (budget : SizeT) :
    ∃ what, validate request.launch nonUniform budget = .error (.invalidArgument what) := by
  cases hvalid : validate request.launch nonUniform budget with
  | error failure =>
    obtain ⟨what, rfl⟩ := validate_failsOnly _ _ _ failure hvalid
    exact ⟨what, rfl⟩
  | ok _ =>
    obtain ⟨pipeline, -, -, -, -, -, -, hoffsets, -⟩ := (validate_eq_ok_checks _ _ _).mp hvalid
    obtain ⟨i, hi⟩ := List.mem_iff_getElem?.mp hmem
    have hentry : (bindingAt range, i) ∈ request.launch.buffers.toList.zipIdx :=
      List.mk_mem_zipIdx_iff_getElem?.mpr hi
    have hcheck := forEach_eq_ok.mp hoffsets _ hentry
    rw [checkBufferOffset, rejectIf_eq_ok] at hcheck
    obtain ⟨hoffset, hsize⟩ := hwhole
    refine absurd ?_ hrefused
    rintro (hbad | hwraps)
    · refine hcheck ?_
      rw [bindingAt, hoffset, ← hsize, UInt64.add_zero]
      exact hbad
    · have hmax : (maxSize - 0).toNat + 1 = wordSize := by decide
      have hword := toNat_lt_wordSize range.2
      rw [hoffset, gt_iff_lt, UInt64.lt_iff_toNat_lt] at hwraps
      omega

/-- All that `build_launch` refuses in a descriptor that means a request is an offset. -/
theorem buildLaunch_fails_at_offset (h : desc.Means request) {ranges : List (MRBuffer × SizeT)}
    (hbuffers : ArrayHolds desc.buffers desc.bufferCount (ranges.map fun range => some range.1))
    (hoffsets : ArrayHolds desc.bufferOffsets desc.bufferCount (ranges.map Prod.snd)) :
    FailsOnly Failure.IsOffsetError (buildLaunch (some desc) who) := by
  obtain ⟨hbufferCount, hscalarCount, hlengthCount⟩ := h.fits
  have hpasses : ∀ {bad : Prop} [Decidable bad] {error : Failure}, ¬ bad →
      FailsOnly Failure.IsOffsetError (rejectIf bad error) := by
    intro bad _ error hgood failure hfailure
    rw [rejectIf, if_neg hgood] at hfailure
    cases hfailure
  have hpresent : ∀ {α : Type} {array : Option (ℕ → α)} {count : SizeT} {elements : List α},
      ArrayHolds array count elements → count ≠ 0 → ¬ array.isNone := by
    intro α array count elements hholds hcount hnull
    rw [hholds.not_isNone hcount] at hnull
    cases hnull
  unfold buildLaunch
  simp only [h.pipeline]
  refine FailsOnly.bind (hpasses ?_) fun _ _ => ?_
  · rintro ⟨hcount, hnull | hnull⟩
    · exact hpresent hbuffers hcount hnull
    · exact hpresent hoffsets hcount hnull
  refine FailsOnly.bind (hpasses ?_) fun _ _ => ?_
  · rintro ⟨hcount, hnull | hnull⟩
    · exact hpresent h.scalars hcount hnull
    · exact hpresent h.scalarSizes hcount hnull
  refine FailsOnly.bind (hpasses ?_) fun _ _ => ?_
  · exact fun hboth => hpresent h.threadgroupMemory hboth.1 hboth.2
  refine failsOnly_collect hbufferCount (fun i hi => ?_) fun buffers => ?_
  · have hlt : i < ranges.length := by rwa [← List.length_map (f := Prod.snd), hoffsets.1]
    have hrange := List.getElem?_eq_getElem hlt
    have hbuffer : element desc.buffers i = .ok (some ranges[i].1) :=
      hbuffers.element (by rw [List.getElem?_map, hrange]; rfl)
    have hoffset : element desc.bufferOffsets i = .ok ranges[i].2 :=
      hoffsets.element (by rw [List.getElem?_map, hrange]; rfl)
    rw [bindBuffer, hbuffer]
    change FailsOnly _ (element desc.bufferOffsets i >>= _)
    rw [hoffset]
    change FailsOnly _ (rejectIf _ _ >>= _)
    exact (failsOnly_rejectIf ⟨who, i, _, _, rfl⟩).bind fun _ _ => failsOnly_ok _ _
  refine failsOnly_collect hscalarCount (fun i hi => ?_) fun scalars => ?_
  · intro failure hfailure
    obtain ⟨scalar, hscalar, -⟩ := getElem?_of_mapM (bindScalars_of_means h)
      (List.getElem?_range hi)
    cases hscalar.symm.trans hfailure
  refine failsOnly_collect hlengthCount (fun i hi => ?_) fun lengths => failsOnly_ok _ _
  have hlt : i < request.threadgroupMemory.toList.length := by rwa [h.threadgroupMemory.1]
  rw [h.threadgroupMemory.element (List.getElem?_eq_getElem hlt)]
  exact failsOnly_ok _ _

/-- `build_launch` makes the launch that is meant, or it refuses an offset and `validate` refuses
that launch as well. -/
theorem buildLaunch_of_means (h : desc.Means request) (who : ByteString) :
    buildLaunch (some desc) who = .ok request.launch ∨
    (∃ thrown, buildLaunch (some desc) who = .error thrown ∧ thrown.IsOffsetError) ∧
      ∀ nonUniform budget, ∃ what,
        validate request.launch nonUniform budget = .error (.invalidArgument what) := by
  obtain ⟨ranges, hbuffers, hoffsets, hranges, hwhole⟩ := h.buffers
  by_cases haccepts : ∀ range ∈ ranges, range.1.Accepts range.2
  · exact Or.inl (buildLaunch_of_accepts h hbuffers hoffsets hranges haccepts)
  · rw [not_forall] at haccepts
    obtain ⟨range, hrefused⟩ := haccepts
    obtain ⟨hmem, hrefused⟩ := Classical.not_imp.mp hrefused
    have hbinding : bindingAt range ∈ request.buffers.toList := by
      rw [hranges]
      exact List.mem_map_of_mem hmem
    refine Or.inr ⟨?_, validate_fails_of_not_accepts
      ((hwhole range hmem).resolve_right hrefused) hrefused hbinding⟩
    cases hbuild : buildLaunch (some desc) who with
    | ok launch =>
      obtain ⟨i, hi⟩ := List.mem_iff_getElem?.mp hmem
      have hlt : i < desc.bufferCount.toNat := by
        rw [← hoffsets.1, List.length_map]
        exact (List.getElem?_eq_some_iff.mp hi).1
      obtain ⟨binding, hbound, -⟩ := bindBuffer_of_buildLaunch hbuild hlt
      exact absurd ((bindBuffer_of_holds hbuffers hoffsets hi).mp hbound).1 hrefused
    | error failure =>
      exact ⟨failure, rfl, buildLaunch_fails_at_offset h hbuffers hoffsets failure hbuild⟩

end C

/-- `wait`; the GPU finishes with the given result if it has not yet. -/
def waitFor (result : GpuResult) : BatchMethod Unit := do
  CommandBatch.commitLocked
  modify fun world => world.finished (world.gpu.getD result)
  CommandBatch.waitUntilCompleted
  CommandBatch.waitFinish

/-- A call on a batch, with its arguments in both front ends. -/
inductive FrontCall
  | add (params : LaunchParams) (desc : MRLaunchDesc)
  | commit
  | wait (result : GpuResult)

namespace FrontCall

/-- The arguments in both front ends mean the same. -/
def Means : FrontCall → Prop
  | .add params desc => ∃ request, params.Means request ∧ desc.Means request
  | .commit => True
  | .wait _ => True

/-- The call through `Batch`. -/
def python : FrontCall → BatchMethod Unit
  | .add params _ => do
    let prepared ← Method.ofExcept (prepare params)
    CommandBatch.add prepared.launch
  | .commit => CommandBatch.commit
  | .wait result => waitFor result

/-- The call through the C API. -/
def c : FrontCall → BatchMethod Unit
  | .add _ desc => do
    let launch ← Method.ofExcept (buildLaunch (some desc) (ascii "mr_batch_add"))
    CommandBatch.add launch
  | .commit => CommandBatch.commit
  | .wait result => waitFor result

end FrontCall

/-- What a call returns or throws, and whether its batch was closed before. -/
structure FrontStep where
  closed : Bool
  outcome : Except Failure Unit

/-- Calls through one front end. -/
def frontStep (method : FrontCall → BatchMethod Unit) (world : BatchWorld) (call : FrontCall) :
    Option (FrontStep × BatchWorld) :=
  let (outcome, after) := (method call).exec world
  some (⟨world.batch.committed, outcome⟩, after)

/-- The status of the C API and the Python exception that tell a caller the same. -/
def MRStatus.Reports : MRStatus → PyExceptionClass → Prop
  | .errorNoDevice, .deviceError => True
  | .errorCompile, .compileError => True
  | .errorCompile, .pipelineBuildError => True
  | .errorFunctionNotFound, .functionNotFoundError => True
  | .errorDispatch, .dispatchError => True
  | .errorInvalidArgument, .valueError => True
  | .errorAllocation, .memoryError => True
  | _, _ => False

/-- The Python exception for a failure. -/
def Failure.pyClass (failure : Failure) : Option PyExceptionClass :=
  failure.exceptionClass.bind pyException

/-- Two front ends report failures under corresponding names. -/
def Corresponds (thrown raised : Failure) : Prop :=
  ∃ status cls, thrown.status = some status ∧ raised.pyClass = some cls ∧ status.Reports cls

/-- Two front ends agree on a call. The C API checks offsets before it looks at the batch, so on a
closed batch it may report the offset where Python reports that the batch is closed. -/
structure FrontStep.Agrees (c python : FrontStep) : Prop where
  closed : c.closed = python.closed
  success : c.outcome = .ok () ↔ python.outcome = .ok ()
  failure : ∀ thrown raised, c.outcome = .error thrown → python.outcome = .error raised →
    Corresponds thrown raised ∨
      c.closed = true ∧ thrown.IsOffsetError ∧ raised.pyClass = some .dispatchError

section Agreement

variable {world : BatchWorld}

/-- An offset that both refuse is a `ValueError` in Python. -/
theorem corresponds_of_offsetError {thrown : Failure} (h : thrown.IsOffsetError)
    (text : ByteString) : Corresponds thrown (.invalidArgument text) := by
  obtain ⟨who, i, offset, logicalSize, rfl⟩ := h
  exact ⟨.errorInvalidArgument, .valueError, rfl, rfl, trivial⟩

/-- A failure that a call on a batch throws has the same name in both front ends. -/
theorem corresponds_of_gives {failure : Failure} {device : DeviceAnswer}
    (h : failure.Gives device [.ok, .errorInvalidArgument, .errorDispatch]) :
    Corresponds failure failure := by
  obtain ⟨status, hmem, hstatus⟩ := h.status
  have hnames : ∀ failure : Failure, ∀ status ∈ [MRStatus.ok, .errorInvalidArgument,
      .errorDispatch], failure.status = some status → ∃ cls, failure.pyClass = some cls ∧
        status.Reports cls := by
    intro failure status hmem hstatus
    cases failure with
    | invalidArgument =>
      cases hstatus
      exact ⟨.valueError, rfl, trivial⟩
    | dispatchError =>
      cases hstatus
      exact ⟨.dispatchError, rfl, trivial⟩
    | _ =>
      cases hstatus <;> exact absurd hmem (by decide)
  obtain ⟨cls, hcls, hreports⟩ := hnames failure status hmem hstatus
  exact ⟨status, cls, hstatus, hcls, hreports⟩

/-- Equal outcomes agree. -/
theorem agrees_self {outcome : Except Failure Unit} (closed : Bool)
    (h : FailsOnly (fun failure => Corresponds failure failure) outcome) :
    FrontStep.Agrees ⟨closed, outcome⟩ ⟨closed, outcome⟩ where
  closed := rfl
  success := Iff.rfl
  failure := by
    intro thrown raised hthrown hraised
    cases hthrown.symm.trans hraised
    exact Or.inl (h thrown hthrown)

/-- A batch that is open or committed. -/
def BatchWorld.Good (world : BatchWorld) : Prop := MRBatch.Good ⟨world, []⟩

/-- A `commit` leaves a batch committed. -/
theorem exec_commit_of_good (h : world.Good) :
    ∃ after commands, CommandBatch.commitLocked.exec world = (.ok (), after) ∧
      Lifecycle after .committed commands := by
  rcases h with ⟨commands, hopen⟩ | ⟨commands, hcommitted⟩
  · exact ⟨_, commands, hopen.exec_commitLocked, hopen.commit⟩
  · exact ⟨world, commands, hcommitted.exec_commitLocked_of_committed, hcommitted⟩

/-- A `wait` leaves a batch committed and throws only `DispatchError`. -/
theorem exec_waitFor_of_good (h : world.Good) (result : GpuResult) :
    ∃ outcome after, (waitFor result).exec world = (outcome, after) ∧ after.Good ∧
      FailsOnly (fun failure => Corresponds failure failure) outcome := by
  obtain ⟨committed, commands, hcommit, hlife⟩ := exec_commit_of_good h
  obtain ⟨outcome, after, hrest, hafter, houtcome⟩ :=
    (hlife.finished (committed.gpu.getD result)).exec_waitRest
  refine ⟨outcome, after, ?_, Or.inr ⟨commands, hafter⟩, ?_⟩
  · rw [waitFor, Method.exec_bind, hcommit, Method.andThen_ok, Method.exec_bind,
      Method.exec_modify, Method.andThen_ok]
    exact hrest
  · intro failure hfailure
    rcases houtcome with rfl | ⟨what, rfl⟩
    · cases hfailure
    · cases hfailure
      exact ⟨.errorDispatch, .dispatchError, rfl, rfl, trivial⟩

/-- An `add` keeps a batch open or committed. -/
theorem exec_add_of_good (h : world.Good) (launch : Launch) :
    ∃ outcome after, (CommandBatch.add launch).exec world = (outcome, after) ∧ after.Good ∧
      FailsOnly (fun failure => Corresponds failure failure) outcome := by
  rcases exec_add_cases h launch with ⟨after, commands, hexec, -, hopen⟩ |
    ⟨failure, hexec, hgives⟩
  · exact ⟨_, after, hexec, Or.inl ⟨commands, hopen⟩, failsOnly_ok _ _⟩
  · exact ⟨_, world, hexec, h, failsOnly_error (corresponds_of_gives (hgives .found))⟩

/-- An `add` of a launch that `validate` refuses changes nothing; it throws what `validate` throws,
or that the batch is closed. -/
theorem exec_add_of_invalid (h : world.Good) {launch : Launch}
    (hinvalid : ∀ nonUniform budget, ∃ what,
      validate launch nonUniform budget = .error (.invalidArgument what)) :
    ∃ raised, (CommandBatch.add launch).exec world = (.error raised, world) ∧
      (raised.IsInvalidArgument ∨
        world.batch.committed = true ∧ raised.pyClass = some .dispatchError) := by
  rcases h with ⟨commands, hopen⟩ | ⟨commands, hcommitted⟩
  · obtain ⟨what, hreject⟩ :=
      hinvalid world.batch.nonUniform world.batch.maxThreadgroupMemory
    exact ⟨_, hopen.exec_add_of_rejected hreject, Or.inl ⟨what, rfl⟩⟩
  · obtain ⟨message, hadd⟩ := hcommitted.exec_add_of_closed (by decide) launch
    exact ⟨_, hadd, Or.inr ⟨by simpa using hcommitted.committed, rfl⟩⟩

/-- A call through either front end leaves the same batch behind, and they agree on it. -/
theorem call_agrees (h : world.Good) {call : FrontCall} (hmeans : call.Means) :
    ∃ thrown raised after, call.c.exec world = (thrown, after) ∧
      call.python.exec world = (raised, after) ∧ after.Good ∧
      FrontStep.Agrees ⟨world.batch.committed, thrown⟩ ⟨world.batch.committed, raised⟩ := by
  cases call with
  | add params desc =>
    obtain ⟨request, hparams, hdesc⟩ := hmeans
    obtain ⟨prepared, hprepare, hlaunch⟩ := prepare_of_means hparams
    have hpython : (FrontCall.add params desc).python.exec world =
        (CommandBatch.add request.launch).exec world := by
      rw [FrontCall.python, Method.exec_bind, Method.exec_ofExcept, hprepare, Method.andThen_ok,
        hlaunch]
    rcases buildLaunch_of_means hdesc (ascii "mr_batch_add") with
      hbuild | ⟨⟨thrown, hbuild, hoffset⟩, hinvalid⟩
    · obtain ⟨outcome, after, hexec, hgood, hfails⟩ := exec_add_of_good h request.launch
      refine ⟨outcome, outcome, after, ?_, hpython.trans hexec, hgood, agrees_self _ hfails⟩
      rw [FrontCall.c, Method.exec_bind, Method.exec_ofExcept, hbuild, Method.andThen_ok, hexec]
    · obtain ⟨raised, hexec, hraised⟩ := exec_add_of_invalid h hinvalid
      refine ⟨.error thrown, .error raised, world, ?_, hpython.trans hexec, h, ⟨rfl, ?_, ?_⟩⟩
      · rw [FrontCall.c, Method.exec_bind, Method.exec_ofExcept, hbuild, Method.andThen_error]
      · exact iff_of_false (by simp) (by simp)
      · rintro _ _ ⟨⟩ ⟨⟩
        rcases hraised with ⟨text, rfl⟩ | ⟨hclosed, hclass⟩
        · exact Or.inl (corresponds_of_offsetError hoffset text)
        · exact Or.inr ⟨hclosed, hoffset, hclass⟩
  | commit =>
    obtain ⟨after, commands, hexec, hlife⟩ := exec_commit_of_good h
    exact ⟨_, _, after, hexec, hexec, Or.inr ⟨commands, hlife⟩,
      agrees_self _ (failsOnly_ok _ _)⟩
  | wait result =>
    obtain ⟨outcome, after, hexec, hgood, hfails⟩ := exec_waitFor_of_good h result
    exact ⟨outcome, outcome, after, hexec, hexec, hgood, agrees_self _ hfails⟩

end Agreement

/-- `run` and `mr_dispatch`: a launch in a batch of its own, or none if the launch or the batch
cannot be made. -/
def runOnce (build : Except Failure Launch) (device : DeviceAnswer) (rt : Runtime)
    (commandBuffer encoder : Option ℕ) (result : GpuResult) :
    Except Failure (Except Failure Unit × BatchWorld) := do
  let launch ← build
  device.runtime
  let world ← CommandBatch.create rt commandBuffer encoder
  .ok ((dispatch launch result).exec world)

/-- Nothing was committed: `validate` refuses the launch, or there is no batch to put it into. -/
def RunRefused (outcome : Except Failure (Except Failure Unit × BatchWorld)) : Prop :=
  (∃ text world, outcome = .ok (.error (.invalidArgument text), world) ∧
    world.batch.committed = false ∧ world.calls = []) ∨
  ∃ raised, outcome = .error raised ∧
    (raised.pyClass = some .deviceError ∨ raised.pyClass = some .dispatchError)

/-- A launch that `validate` refuses is refused. -/
theorem runOnce_refused {launch : Launch} (hinvalid : ∀ nonUniform budget, ∃ text,
      validate launch nonUniform budget = .error (.invalidArgument text))
    (device : DeviceAnswer) (rt : Runtime) (commandBuffer encoder : Option ℕ)
    (result : GpuResult) :
    RunRefused (runOnce (.ok launch) device rt commandBuffer encoder result) := by
  cases device with
  | noDevice => exact Or.inr ⟨_, rfl, Or.inl rfl⟩
  | noQueue => exact Or.inr ⟨_, rfl, Or.inl rfl⟩
  | found =>
    have hruns : runOnce (.ok launch) .found rt commandBuffer encoder result =
        (CommandBatch.create rt commandBuffer encoder >>= fun world =>
          .ok ((dispatch launch result).exec world)) := rfl
    rw [hruns]
    rcases create_cases rt commandBuffer encoder with ⟨world, hcreate, hlife⟩ | ⟨what, hcreate⟩
    · obtain ⟨text, hreject⟩ := hinvalid world.batch.nonUniform world.batch.maxThreadgroupMemory
      refine Or.inl ⟨text, world, ?_, by simpa using hlife.committed, hlife.calls⟩
      rw [hcreate, bind_eq_ok_iff]
      refine ⟨world, rfl, ?_⟩
      rw [dispatch, Method.exec_bind, hlife.exec_add_of_rejected hreject, Method.andThen_error]
    · rw [hcreate]
      exact Or.inr ⟨_, rfl, Or.inr rfl⟩

/-- A request that one front end runs at once, the other runs alike; or both refuse it, and the C
API names an offset. With a device, a command buffer and an encoder, Python gets as far as `add`. -/
theorem runOnce_agrees {params : LaunchParams} {desc : MRLaunchDesc} {request : LaunchRequest}
    (hparams : params.Means request) (hdesc : desc.Means request) (device : DeviceAnswer)
    (rt : Runtime) (commandBuffer encoder : Option ℕ) (result : GpuResult) :
    let python := runOnce ((prepare params).map PreparedLaunch.launch) device rt commandBuffer
      encoder result
    let c := runOnce (buildLaunch (some desc) (ascii "mr_dispatch")) device rt commandBuffer
      encoder result
    (device = .found → commandBuffer.isSome → encoder.isSome →
      ∃ outcome world, python = .ok (outcome, world)) ∧
    (python = c ∨ (∃ thrown, c = .error thrown ∧ thrown.IsOffsetError) ∧ RunRefused python) := by
  obtain ⟨prepared, hprepare, hlaunch⟩ := prepare_of_means hparams
  have hpython : (prepare params).map PreparedLaunch.launch = .ok request.launch := by
    rw [hprepare, ← hlaunch]
    rfl
  simp only [hpython]
  refine ⟨?_, ?_⟩
  · rintro rfl hcommandBuffer hencoder
    obtain ⟨commandBuffer, rfl⟩ := Option.isSome_iff_exists.mp hcommandBuffer
    obtain ⟨encoder, rfl⟩ := Option.isSome_iff_exists.mp hencoder
    exact ⟨_, _, rfl⟩
  rcases buildLaunch_of_means hdesc (ascii "mr_dispatch") with
    hbuild | ⟨⟨thrown, hbuild, hoffset⟩, hinvalid⟩
  · rw [hbuild]
    exact Or.inl rfl
  · rw [hbuild]
    exact Or.inr ⟨⟨thrown, rfl, hoffset⟩,
      runOnce_refused hinvalid device rt commandBuffer encoder result⟩

/-- On every batch and over every sequence of calls whose arguments mean the same in both, the
Python module and the C API leave the same batch with the same recorded commands behind, return
from the same calls, and report the others under corresponding names. A single launch they run
alike, or both refuse without committing anything, also where there is no device or no batch. -/
theorem front_ends_agree {rt : Runtime} {commandBuffer encoder : Option ℕ} {start : BatchWorld}
    (hcreate : CommandBatch.create rt commandBuffer encoder = .ok start) {calls : List FrontCall}
    (hmeans : ∀ call ∈ calls, call.Means) :
    (∃ thrown raised after, runSchedule (frontStep FrontCall.c) start calls = some (thrown, after) ∧
      runSchedule (frontStep FrontCall.python) start calls = some (raised, after) ∧
      List.Forall₂ FrontStep.Agrees thrown raised) ∧
    ∀ params desc request device rt commandBuffer encoder result,
      params.Means request → desc.Means request →
      let python := runOnce ((prepare params).map PreparedLaunch.launch) device rt commandBuffer
        encoder result
      let c := runOnce (buildLaunch (some desc) (ascii "mr_dispatch")) device rt commandBuffer
        encoder result
      (device = .found → commandBuffer.isSome → encoder.isSome →
        ∃ outcome world, python = .ok (outcome, world)) ∧
      (python = c ∨ (∃ thrown, c = .error thrown ∧ thrown.IsOffsetError) ∧
        RunRefused python) := by
  refine ⟨?_, fun params desc request device rt commandBuffer encoder result hparams hdesc =>
    runOnce_agrees hparams hdesc device rt commandBuffer encoder result⟩
  obtain ⟨hlife, -⟩ := CommandBatch.create_lifecycle hcreate
  have hgood : start.Good := Or.inl ⟨[], hlife⟩
  clear hcreate hlife
  induction calls generalizing start with
  | nil => exact ⟨[], [], start, rfl, rfl, List.Forall₂.nil⟩
  | cons call calls ih =>
    obtain ⟨thrown, raised, after, hc, hpython, hafter, hagrees⟩ :=
      call_agrees hgood (hmeans call List.mem_cons_self)
    obtain ⟨thrown', raised', final, hrestC, hrestPython, hrest⟩ :=
      ih (fun later hlater => hmeans later (List.mem_cons_of_mem call hlater)) hafter
    refine ⟨⟨start.batch.committed, thrown⟩ :: thrown',
      ⟨start.batch.committed, raised⟩ :: raised', final, ?_, ?_, List.Forall₂.cons hagrees hrest⟩
    · refine (runSchedule_cons_iff _ _ _ _ _ _).mpr ⟨_, after, thrown', ?_, hrestC, rfl⟩
      rw [frontStep, hc]
    · refine (runSchedule_cons_iff _ _ _ _ _ _).mpr ⟨_, after, raised', ?_, hrestPython, rfl⟩
      rw [frontStep, hpython]

/-- Sixteen bytes of device memory. -/
def sixteenBytes : Buffer := ⟨⟨1, 65536, 16⟩, 16⟩

/-- A launch on those bytes from an offset on. -/
def offsetRequest (offset : SizeT) : LaunchRequest where
  pipeline := addOnePipeline
  grid := { x := 4 }
  threadgroup := none
  buffers := ⟨[⟨sixteenBytes, offset⟩], (by decide : 1 ≤ maxVectorSize)⟩
  scalars := .empty
  threadgroupMemory := .empty

/-- The launch in Python. -/
def offsetParams (offset : SizeT) : LaunchParams where
  kernel := ⟨10, addOnePipeline⟩
  grid := .extent (.size 4)
  buffers := [.pair (some ⟨⟨[4], ⟨DType.float, 32⟩, sixteenBytes⟩, 11⟩) offset]

/-- The launch in C. -/
def offsetDesc (offset : SizeT) : MRLaunchDesc where
  pipeline := some addOnePipeline
  buffers := some fun _ => some ⟨sixteenBytes, 65536, 0, true, 16⟩
  bufferOffsets := some fun _ => offset
  bufferCount := 1
  scalars := none
  scalarSizes := none
  scalarCount := 0
  threadgroupMemory := none
  threadgroupMemoryCount := 0
  grid := { x := 4 }
  threadgroup := { x := 0 }

/-- Both mean the request. -/
theorem offset_means (offset : SizeT) :
    (offsetParams offset).Means (offsetRequest offset) ∧
      (offsetDesc offset).Means (offsetRequest offset) := by
  have hempty : ∀ {α : Type}, ArrayHolds (none : Option (ℕ → α)) 0 [] :=
    ⟨rfl, fun i a h => by cases h⟩
  have hone : ∀ {α : Type} (a : α), ArrayHolds (some fun _ => a) 1 [a] := by
    refine fun a => ⟨rfl, fun i b hb => ⟨_, rfl, ?_⟩⟩
    exact (List.mem_singleton.mp (List.mem_of_getElem? hb)).symm
  have hfits : ArrayFits 1 ∧ ArrayFits 0 ∧ ArrayFits 0 := by decide
  refine ⟨⟨rfl, ⟨.size 4, rfl, rfl⟩, rfl, rfl, rfl, rfl, ?_, rfl⟩,
    ⟨rfl, rfl, rfl, ⟨[(⟨sixteenBytes, 65536, 0, true, 16⟩, offset)], hone _, hone _, ?_, ?_⟩,
      hempty, hempty, ?_, hempty, hfits⟩⟩
  · exact fun array harray => absurd harray List.not_mem_nil
  · rw [List.map_singleton, bindingAt, UInt64.add_zero]
    rfl
  · exact List.forall_mem_singleton.mpr (Or.inl ⟨rfl, rfl⟩)
  · exact fun scalar hscalar => absurd hscalar List.not_mem_nil

/-- The front ends agree on a launch, on one past the end of its buffer, and after the commit. -/
theorem offset_calls_agree : ∃ start thrown raised after,
    CommandBatch.create ⟨true, 32768⟩ (some 5) (some 6) = .ok start ∧
    runSchedule (frontStep FrontCall.c) start
      [.add (offsetParams 4) (offsetDesc 4), .add (offsetParams 16) (offsetDesc 16), .commit,
        .add (offsetParams 4) (offsetDesc 4)] = some (thrown, after) ∧
    runSchedule (frontStep FrontCall.python) start
      [.add (offsetParams 4) (offsetDesc 4), .add (offsetParams 16) (offsetDesc 16), .commit,
        .add (offsetParams 4) (offsetDesc 4)] = some (raised, after) ∧
    List.Forall₂ FrontStep.Agrees thrown raised ∧
    after.calls.length = 5 := by
  have hcreate : CommandBatch.create ⟨true, 32768⟩ (some 5) (some 6) = .ok _ := rfl
  have hmeans : ∀ call ∈ [FrontCall.add (offsetParams 4) (offsetDesc 4),
      .add (offsetParams 16) (offsetDesc 16), .commit, .add (offsetParams 4) (offsetDesc 4)],
      call.Means := by
    simp only [List.forall_mem_cons, FrontCall.Means, true_and]
    exact ⟨⟨_, offset_means 4⟩, ⟨_, offset_means 16⟩, ⟨_, offset_means 4⟩, List.forall_mem_nil _⟩
  obtain ⟨⟨thrown, raised, after, hc, hpython, hagrees⟩, -⟩ := front_ends_agree hcreate hmeans
  refine ⟨_, thrown, raised, after, hcreate, hc, hpython, hagrees, ?_⟩
  cases hc
  rfl

end MetalRuntime
