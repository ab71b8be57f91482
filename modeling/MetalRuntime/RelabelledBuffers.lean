import MetalRuntime.ArrayBuffers
import MetalRuntime.Foundations.Runs
import MetalRuntime.LaunchValidity

/-!
# Relabelled buffers

A buffer of an array has one size, computed from its shape, from the array that filled it and
from its allocation. As long as all of them agree, a copy writes every byte of the buffer and
none beyond it, and an exported array holds those bytes under another name.
-/

namespace MetalRuntime

open Foundations

/-- The stored extents are those of the array. -/
theorem UploadArray.extents_words (array : UploadArray) : extents array.words = array.shape := by
  have hword : ∀ extent ∈ array.shape, (UInt64.ofNat extent).toNat = extent :=
    fun extent h => toNat_ofNat_of_lt (array.extents_lt extent h)
  rw [extents, words, List.map_map]
  exact (List.map_congr_left hword).trans (List.map_id' _)

/-- An array has as many bytes as a buffer of its shape, for an element type of its width. -/
theorem UploadArray.nbytes_eq {array : UploadArray} {dtype : DType}
    (h : array.dtype.itemsize = dtype.itemsize) :
    array.nbytes = exactByteCount array.words dtype := by
  rw [HostArray.nbytes, HostArray.size, ← List.prod_eq_foldl, exactByteCount,
    array.extents_words, h]

/-- An array has as many bytes as it says. -/
theorem UploadArray.length_data_eq (array : UploadArray) : array.data.length = array.nbytes :=
  array.length_data

/-- The element size of an exported array. -/
@[simp] theorem toDlpack_itemsize (dtype : DType) :
    (toDlpack dtype).itemsize = dtype.itemsize := by
  simp [toDlpack, DLDataType.itemsize, DType.itemsize]

/-- A resolved element type is supported and as wide as the elements of the array. -/
theorem resolveDtype_eq_ok {array : HostArray} {overrideName : Option ByteString} {dtype : DType}
    (h : resolveDtype array overrideName = .ok dtype) :
    (dtypeName dtype).isSome ∧ array.dtype.itemsize = dtype.itemsize := by
  cases overrideName with
  | none => exact ⟨(fromDlpack_eq_ok.mp h).2, itemsize_of_fromDlpack h⟩
  | some name =>
    obtain ⟨requested, hrequested, hrest⟩ := bind_eq_ok_iff.mp h
    simp only [check_bind_eq_ok, rejectIf_eq_ok, ne_eq, not_not] at hrest
    obtain ⟨-, hwidth, hsame⟩ := hrest
    cases hsame
    exact ⟨supported_of_dtypeFromName hrequested, hwidth⟩

/-- An exported array is accepted under every name of its width. -/
theorem resolveDtype_of_toDlpack {array : HostArray} {out dtype : DType} {name : ByteString}
    (harray : array.dtype = toDlpack out) (hname : dtypeName dtype = some name)
    (hwidth : out.itemsize = dtype.itemsize) :
    resolveDtype array (some name) = .ok dtype := by
  refine bind_eq_ok_iff.mpr ⟨dtype, dtypeFromName_eq_ok.mpr hname, ?_⟩
  simp only [check_bind_eq_ok, rejectIf_eq_ok, ne_eq, not_not]
  exact ⟨by rw [harray]; rfl, by rw [harray, toDlpack_itemsize, hwidth], trivial⟩

/-- `dtype_from_name` throws only `std::invalid_argument`. -/
theorem dtypeFromName_failsOnly (name : ByteString) :
    FailsOnly Failure.IsInvalidArgument (dtypeFromName name) := by
  unfold dtypeFromName
  split
  · exact failsOnly_ok _ _
  · split <;> exact failsOnly_error ⟨_, rfl⟩

/-- `resolve_dtype` throws only `std::invalid_argument`. -/
theorem resolveDtype_failsOnly (array : HostArray) (overrideName : Option ByteString) :
    FailsOnly Failure.IsInvalidArgument (resolveDtype array overrideName) := by
  cases overrideName with
  | none => exact fromDlpack_failsOnly array.dtype
  | some name =>
    refine FailsOnly.bind (dtypeFromName_failsOnly name) fun requested _ => ?_
    refine FailsOnly.bind (failsOnly_rejectIf ⟨_, rfl⟩) fun _ _ => ?_
    refine FailsOnly.bind (failsOnly_rejectIf ⟨_, rfl⟩) fun _ _ => ?_
    exact failsOnly_ok _ _

/-- Only the name `bfloat16` stands for a type of that code. -/
theorem eq_bfloat16_of_code {name : ByteString} {dtype : DType}
    (h : dtypeFromName name = .ok dtype) (hcode : dtype.code = DType.bfloat) :
    name = ascii "bfloat16" := by
  obtain ⟨entry, hentry, rfl, rfl⟩ := exists_entry_of_dtypeFromName h
  have hall : ∀ entry ∈ dtypeEntries, entry.dtype.code = DType.bfloat →
      entry.name = ascii "bfloat16" := by decide
  exact hall entry hentry hcode

namespace TypedBuffer

/-- The invariant of a buffer: the type is supported, the size belongs to the shape and the
type, and the allocation has that size, or one byte for an empty buffer. -/
structure WellFormed (b : TypedBuffer) : Prop where
  supported : (dtypeName b.dtype).isSome
  sized : bufferByteCount b.shape b.dtype = .ok b.nbytes
  allocated : b.buffer.handle.length = max b.nbytes 1
  length_contents : b.contents.length = b.buffer.handle.length.toNat

/-- The size is the exact number of bytes. -/
theorem WellFormed.nbytes_eq {b : TypedBuffer} (h : b.WellFormed) :
    b.nbytes.toNat = exactByteCount b.shape b.dtype :=
  ((bufferByteCount_eq_ok h.supported).mp h.sized).2

/-- The bytes of the elements lie inside the allocation. -/
theorem WellFormed.nbytes_le {b : TypedBuffer} (h : b.WellFormed) :
    b.nbytes.toNat ≤ b.contents.length := by
  rw [h.length_contents, h.allocated, UInt64.toNat_max]
  exact Nat.le_max_left _ _

/-- Overwrite the contents from the start. -/
def fill (b : TypedBuffer) (source : ByteString) : TypedBuffer :=
  { b with contents := source ++ b.contents.drop source.length }

/-- Filling a buffer keeps the invariant. -/
theorem WellFormed.fill {b : TypedBuffer} (h : b.WellFormed) {source : ByteString}
    (hlength : source.length = b.nbytes.toNat) : (b.fill source).WellFormed := by
  refine ⟨h.supported, h.sized, h.allocated, ?_⟩
  have hle := h.nbytes_le
  have hcontents : (b.fill source).contents.length = b.contents.length := by
    rw [TypedBuffer.fill, List.length_append, List.length_drop]
    omega
  rw [hcontents]
  exact h.length_contents

/-- A filled buffer holds what it was filled with. -/
theorem bytes_fill {b : TypedBuffer} {source : ByteString}
    (hlength : source.length = b.nbytes.toNat) : (b.fill source).bytes = source :=
  List.take_left' hlength

/-- Copying as many bytes as the buffer has fills it. -/
theorem WellFormed.memcpy_eq {b : TypedBuffer} (h : b.WellFormed) {source : ByteString}
    {count : ℕ} (hcount : count = b.nbytes.toNat) (hlength : source.length = b.nbytes.toNat) :
    memcpy b.contents source count = .ok (b.fill source).contents := by
  have hle := h.nbytes_le
  rw [memcpy, if_pos ⟨by omega, by omega⟩, List.take_of_length_le (by omega), TypedBuffer.fill,
    hcount, hlength]

/-- An allocation that succeeds is a buffer of the shape and the type. -/
theorem allocate_wellFormed {host : Host} {memory : Memory} {shape : List SizeT} {dtype : DType}
    (hdtype : (dtypeName dtype).isSome) {b : TypedBuffer}
    (h : allocate host memory shape dtype = .ok b) :
    b.WellFormed ∧ b.shape = shape ∧ b.dtype = dtype := by
  obtain ⟨size, hsize, hrest⟩ := bind_eq_ok_iff.mp h
  obtain ⟨buffer, hbuffer, hok⟩ := bind_eq_ok_iff.mp hrest
  cases hok
  unfold Buffer.create at hbuffer
  split at hbuffer
  · cases hbuffer
    exact ⟨⟨hdtype, hsize, rfl, Memory.length_read _ _ _⟩, rfl, rfl⟩
  · cases hbuffer

/-- An array is uploaded by filling the allocation for its shape and its resolved type. -/
theorem ofArray_eq {host : Host} {memory : Memory} {array : UploadArray}
    {overrideName : Option ByteString} {dtype : DType} {b : TypedBuffer}
    (hdtype : resolveDtype array.toHostArray overrideName = .ok dtype)
    (hb : allocate host memory array.words dtype = .ok b) :
    array.nbytes = b.nbytes.toNat ∧
      ofArray host memory array overrideName = .ok (array.nbytes, b.fill array.data) := by
  obtain ⟨hsupported, hwidth⟩ := resolveDtype_eq_ok hdtype
  obtain ⟨hwell, hshape, hsame⟩ := allocate_wellFormed hsupported hb
  have hcount : array.nbytes = b.nbytes.toNat := by
    rw [hwell.nbytes_eq, hshape, hsame, array.nbytes_eq hwidth]
  have hcopy := hwell.memcpy_eq hcount (array.length_data_eq.trans hcount)
  refine ⟨hcount, bind_eq_ok_iff.mpr ⟨dtype, hdtype, ?_⟩⟩
  exact bind_eq_ok_iff.mpr ⟨b, hb, bind_eq_ok_iff.mpr ⟨_, hcopy, rfl⟩⟩

/-- The element type of an incoming array passes exactly if it is the own one. -/
theorem checkDtype_eq_ok {b : TypedBuffer} {incoming : DType} :
    b.checkDtype incoming = .ok () ↔ incoming = b.dtype := by
  by_cases hsame : incoming = b.dtype
  · rw [checkDtype, if_neg (not_not.mpr hsame)]
    exact iff_of_true rfl hsame
  · rw [checkDtype, if_pos hsame]
    refine iff_of_false ?_ hsame
    intro h
    obtain ⟨_, -, hrest⟩ := bind_eq_ok_iff.mp h
    obtain ⟨_, -, hthrow⟩ := bind_eq_ok_iff.mp hrest
    cases hthrow

/-- The checks of `copy_from` pass exactly for the element type and the size of the buffer. -/
theorem checkIncoming_eq_ok {b : TypedBuffer} {array : UploadArray}
    {overrideName : Option ByteString} :
    b.checkIncoming array overrideName = .ok () ↔
      resolveDtype array.toHostArray overrideName = .ok b.dtype ∧
        array.nbytes = b.nbytes.toNat := by
  simp only [checkIncoming, bind_eq_ok_iff, rejectIf_eq_ok, ne_eq, not_not]
  constructor
  · intro h
    obtain ⟨incoming, hincoming, ⟨⟩, hsame, hcount⟩ := h
    rw [checkDtype_eq_ok.mp hsame] at hincoming
    exact ⟨hincoming, hcount⟩
  · intro h
    exact ⟨b.dtype, h.1, (), checkDtype_eq_ok.mpr rfl, h.2⟩

/-- The name of a supported element type. -/
theorem dtypeText_of_isSome {dtype : DType} (h : (dtypeName dtype).isSome) :
    ∃ name, dtypeText dtype = .ok name := by
  obtain ⟨name, hname⟩ := Option.isSome_iff_exists.mp h
  exact ⟨name, by rw [dtypeText, hname]⟩

/-- On a buffer of a supported type, the checks of `copy_from` throw only
`std::invalid_argument`. -/
theorem checkIncoming_failsOnly {b : TypedBuffer} (h : (dtypeName b.dtype).isSome)
    (array : UploadArray) (overrideName : Option ByteString) :
    FailsOnly Failure.IsInvalidArgument (b.checkIncoming array overrideName) := by
  refine FailsOnly.bind (resolveDtype_failsOnly _ _) fun incoming hincoming => ?_
  refine FailsOnly.bind ?_ fun _ _ => failsOnly_rejectIf ⟨_, rfl⟩
  obtain ⟨incomingText, hincomingText⟩ := dtypeText_of_isSome (resolveDtype_eq_ok hincoming).1
  obtain ⟨ownText, hownText⟩ := dtypeText_of_isSome h
  rw [checkDtype, hincomingText, hownText]
  split
  · exact failsOnly_error ⟨_, rfl⟩
  · exact failsOnly_ok _ _

/-- `copy_from` fills the buffer, or throws and leaves it alone. -/
theorem WellFormed.exec_copyFrom {b : TypedBuffer} (h : b.WellFormed) (array : UploadArray)
    (overrideName : Option ByteString) :
    (copyFrom array overrideName).exec b =
      match b.checkIncoming array overrideName with
      | .error failure => (.error failure, b)
      | .ok () => (.ok array.nbytes, b.fill array.data) := by
  simp only [copyFrom, Method.exec_bind, Method.exec_get, Method.andThen_ok, Method.exec_ofExcept]
  cases hcheck : b.checkIncoming array overrideName with
  | error failure => rfl
  | ok =>
    have hcount := (checkIncoming_eq_ok.mp hcheck).2
    rw [h.memcpy_eq hcount (array.length_data_eq.trans hcount)]
    rfl

/-- An allocation succeeds when the size does and the device has the memory. -/
theorem allocate_eq {host : Host} {shape : List SizeT} {dtype : DType} {size : SizeT}
    (hsize : bufferByteCount shape dtype = .ok size) {id : ℕ} {contents : SizeT}
    (hbuffer : host.newBuffer (max size 1) = some (id, contents)) (memory : Memory) :
    ∃ b, allocate host memory shape dtype = .ok b ∧ b.nbytes = size := by
  have hcreate : Buffer.create host size = .ok ⟨⟨id, contents, max size 1⟩, size⟩ := by
    rw [Buffer.create, hbuffer]
  exact ⟨_, bind_eq_ok_iff.mpr ⟨size, hsize, bind_eq_ok_iff.mpr ⟨_, hcreate, rfl⟩⟩, rfl⟩

/-- The contents seen as elements of the own width are the bytes of the buffer. -/
theorem WellFormed.view_eq {b : TypedBuffer} (h : b.WellFormed) {out : DType}
    (hwidth : out.itemsize = b.dtype.itemsize) :
    ∃ array, b.view (toDlpack out) = .ok array ∧ array.dtype = toDlpack out ∧
      array.shape = extents b.shape ∧ array.data = b.bytes := by
  have hcount : (extents b.shape).foldl (· * ·) 1 * (toDlpack out).itemsize = b.nbytes.toNat := by
    rw [← List.prod_eq_foldl, toDlpack_itemsize, hwidth, ← exactByteCount, h.nbytes_eq]
  have hle := h.nbytes_le
  rw [← hcount] at hle
  refine ⟨_, dif_pos hle, rfl, rfl, ?_⟩
  exact congrArg b.contents.take hcount

/-- `to_numpy` under every name of the same width but `bfloat16` exports the bytes. -/
theorem WellFormed.toNumpy_eq {b : TypedBuffer} (h : b.WellFormed) {name : ByteString}
    {out : DType} (hname : dtypeFromName name = .ok out)
    (hwidth : out.itemsize = b.dtype.itemsize) (hbfloat : name ≠ ascii "bfloat16") :
    ∃ array, b.toNumpy (some name) = .ok array ∧ array.dtype = toDlpack out ∧
      array.shape = extents b.shape ∧ array.data = b.bytes := by
  obtain ⟨array, hview, hrest⟩ := h.view_eq hwidth
  have hexport : b.exportDtype (some name) = .ok out := by
    refine bind_eq_ok_iff.mpr ⟨out, hname, ?_⟩
    rw [check_bind_eq_ok, rejectIf_eq_ok]
    exact ⟨not_not.mpr hwidth, rfl⟩
  refine ⟨array, ?_, hrest⟩
  rw [toNumpy, hexport]
  simp only
  rw [if_neg fun hcode => hbfloat (eq_bfloat16_of_code hname hcode)]
  exact hview

end TypedBuffer

/-- The extents that an exported array gives back. -/
theorem UploadArray.words_eq {array : UploadArray} {shape : List SizeT}
    (h : array.shape = extents shape) : array.words = shape := by
  have hword : ∀ dim : SizeT, UInt64.ofNat dim.toNat = dim := fun dim => UInt64.ofNat_toNat
  rw [words, h, extents, List.map_map]
  exact (List.map_congr_left fun dim _ => hword dim).trans (List.map_id' _)

/-- An exported array, uploaded again under the own element type of its buffer, makes a buffer
of the same shape, type and bytes wherever the device has the memory. -/
theorem TypedBuffer.WellFormed.upload_again {b : TypedBuffer} (h : b.WellFormed)
    {array : UploadArray} {out : DType} (hdtype : array.dtype = toDlpack out)
    (hwidth : out.itemsize = b.dtype.itemsize) (hshape : array.shape = extents b.shape)
    (hdata : array.data = b.bytes) {own : ByteString} (hown : dtypeName b.dtype = some own)
    {host : Host} {id : ℕ} {contents : SizeT}
    (hbuffer : host.newBuffer (max b.nbytes 1) = some (id, contents)) (memory : Memory) :
    ∃ again, TypedBuffer.ofArray host memory array (some own) = .ok (b.nbytes.toNat, again) ∧
      again.shape = b.shape ∧ again.dtype = b.dtype ∧ again.bytes = b.bytes := by
  have hresolve := resolveDtype_of_toDlpack hdtype hown hwidth
  have hsized := h.sized
  rw [← UploadArray.words_eq hshape] at hsized
  obtain ⟨fresh, hfresh, hsize⟩ := TypedBuffer.allocate_eq hsized hbuffer memory
  obtain ⟨hcount, hmade⟩ := TypedBuffer.ofArray_eq hresolve hfresh
  obtain ⟨-, hfreshShape, hfreshDtype⟩ := TypedBuffer.allocate_wellFormed h.supported hfresh
  rw [hsize] at hcount
  rw [hcount] at hmade
  refine ⟨_, hmade, hfreshShape.trans (UploadArray.words_eq hshape), hfreshDtype, ?_⟩
  rw [TypedBuffer.bytes_fill, hdata]
  rw [array.length_data_eq, hcount, hsize]

/-- A buffer that was made from an array has its shape, its resolved type and its bytes. -/
theorem TypedBuffer.ofArray_spec {host : Host} {memory : Memory} {array : UploadArray}
    {overrideName : Option ByteString} {made : ℕ × TypedBuffer}
    (h : TypedBuffer.ofArray host memory array overrideName = .ok made) :
    made.2.WellFormed ∧ made.2.shape = array.words ∧
      resolveDtype array.toHostArray overrideName = .ok made.2.dtype ∧
      made.1 = made.2.nbytes.toNat ∧ made.2.bytes = array.data := by
  obtain ⟨dtype, hdtype, hrest⟩ := bind_eq_ok_iff.mp h
  obtain ⟨b, hb, -⟩ := bind_eq_ok_iff.mp hrest
  obtain ⟨hwell, hshape, hsame⟩ :=
    TypedBuffer.allocate_wellFormed (resolveDtype_eq_ok hdtype).1 hb
  obtain ⟨hcount, hmade⟩ := TypedBuffer.ofArray_eq hdtype hb
  have hlength := array.length_data_eq.trans hcount
  cases hmade.symm.trans h
  exact ⟨hwell.fill hlength, hshape, hdtype.trans (congrArg Except.ok hsame.symm), hcount,
    TypedBuffer.bytes_fill hlength⟩

/-- A buffer that was made by clearing an allocation holds zeros. -/
theorem TypedBuffer.zeros_spec {host : Host} {memory : Memory} {shape : List SizeT}
    {name : ByteString} {made : TypedBuffer}
    (h : TypedBuffer.zeros host memory shape name = .ok made) :
    made.WellFormed ∧ made.shape = shape ∧ dtypeFromName name = .ok made.dtype ∧
      ∀ byte ∈ made.bytes, byte = 0 := by
  obtain ⟨dtype, hdtype, hrest⟩ := bind_eq_ok_iff.mp h
  obtain ⟨b, hb, hcleared⟩ := bind_eq_ok_iff.mp hrest
  have hsupported := supported_of_dtypeFromName hdtype
  obtain ⟨hwell, hshape, hsame⟩ := TypedBuffer.allocate_wellFormed hsupported hb
  have hlength : (List.replicate b.nbytes.toNat (0 : UInt8)).length = b.nbytes.toNat :=
    List.length_replicate
  have hmade : made = b.fill (List.replicate b.nbytes.toNat 0) := by
    rw [memsetZero, hwell.memcpy_eq rfl hlength] at hcleared
    cases hcleared
    rfl
  rw [hmade, TypedBuffer.bytes_fill hlength]
  refine ⟨hwell.fill hlength, hshape, hdtype.trans (congrArg Except.ok hsame.symm), ?_⟩
  intro byte hbyte
  exact List.eq_of_mem_replicate hbyte

/-- A buffer that was made has the shape and the type that were asked for, and a size that its
construction copied or cleared completely. -/
theorem BufferSource.build_spec {host : Host} {memory : Memory} {source : BufferSource}
    {copied : Option ℕ} {b : TypedBuffer} (h : source.build host memory = .ok (copied, b)) :
    b.WellFormed ∧ b.shape = source.shape ∧ source.dtype = .ok b.dtype ∧
      (∀ count, copied = some count → count = b.nbytes.toNat) ∧ source.Wrote b.bytes := by
  cases source with
  | upload array overrideName =>
    obtain ⟨made, hmade, heq⟩ := map_eq_ok_iff.mp h
    cases heq
    obtain ⟨hwell, hshape, hdtype, hcount, hbytes⟩ := TypedBuffer.ofArray_spec hmade
    refine ⟨hwell, hshape, hdtype, ?_, hbytes⟩
    intro count hsome
    cases hsome
    exact hcount
  | zeros shape name =>
    obtain ⟨made, hmade, heq⟩ := map_eq_ok_iff.mp h
    cases heq
    obtain ⟨hwell, hshape, hdtype, hbytes⟩ := TypedBuffer.zeros_spec hmade
    exact ⟨hwell, hshape, hdtype, fun _ hnone => (by cases hnone), hbytes⟩
  | empty shape name =>
    obtain ⟨made, hmade, heq⟩ := map_eq_ok_iff.mp h
    cases heq
    obtain ⟨dtype, hdtype, hb⟩ := bind_eq_ok_iff.mp hmade
    have hsupported := supported_of_dtypeFromName hdtype
    obtain ⟨hwell, hshape, hsame⟩ := TypedBuffer.allocate_wellFormed hsupported hb
    exact ⟨hwell, hshape, hdtype.trans (congrArg Except.ok hsame.symm),
      fun _ hnone => (by cases hnone), trivial⟩

/-- An allocation fails for its size or for want of memory. -/
theorem TypedBuffer.allocate_failsOnly (host : Host) (memory : Memory) (shape : List SizeT)
    {dtype : DType} (h : (dtypeName dtype).isSome) :
    Defined (TypedBuffer.allocate host memory shape dtype) := by
  refine FailsOnly.bind ?_ fun size _ => FailsOnly.bind ?_ fun buffer _ => failsOnly_ok _ _
  · intro failure hfailure hundefined
    rw [bufferByteCount_eq shape h] at hfailure
    split at hfailure
    · split at hfailure <;> cases hfailure
      cases hundefined
    · cases hfailure
      cases hundefined
  · unfold Buffer.create
    split
    · exact failsOnly_ok _ _
    · exact failsOnly_error (by simp)

/-- No construction copies or clears past an end. -/
theorem BufferSource.build_failsOnly (host : Host) (memory : Memory) (source : BufferSource) :
    Defined (source.build host memory) := by
  have hname : ∀ name, Defined (dtypeFromName name) := fun name =>
    defined_of_failsOnly (dtypeFromName_failsOnly name)
  cases source with
  | upload array overrideName =>
    refine FailsOnly.map (FailsOnly.bind ?_ fun dtype hdtype => ?_) _
    · exact defined_of_failsOnly (resolveDtype_failsOnly _ _)
    · have hallocate := TypedBuffer.allocate_failsOnly host memory array.words
        (resolveDtype_eq_ok hdtype).1
      refine hallocate.bind fun b hb => FailsOnly.bind ?_ fun contents _ => failsOnly_ok _ _
      obtain ⟨hwell, -⟩ := TypedBuffer.allocate_wellFormed (resolveDtype_eq_ok hdtype).1 hb
      have hcount := (TypedBuffer.ofArray_eq hdtype hb).1
      rw [hwell.memcpy_eq hcount (array.length_data_eq.trans hcount)]
      exact failsOnly_ok _ _
  | zeros shape name =>
    refine FailsOnly.map ((hname name).bind fun dtype hdtype => ?_) _
    have hsupported := supported_of_dtypeFromName hdtype
    have hallocate := TypedBuffer.allocate_failsOnly host memory shape hsupported
    refine hallocate.bind fun b hb => FailsOnly.bind ?_ fun contents _ => failsOnly_ok _ _
    obtain ⟨hwell, -⟩ := TypedBuffer.allocate_wellFormed hsupported hb
    rw [memsetZero, hwell.memcpy_eq rfl List.length_replicate]
    exact failsOnly_ok _ _
  | empty shape name =>
    refine FailsOnly.map ((hname name).bind fun dtype hdtype => ?_) _
    exact TypedBuffer.allocate_failsOnly host memory shape (supported_of_dtypeFromName hdtype)

/-- What one call of `copy_from` does: it throws and changes nothing, or it fills the buffer
with an array of the same type and size. -/
theorem copyStep_cases {b b' : TypedBuffer} {call : CopyCall} {outcome : Except Failure ℕ}
    (h : b.WellFormed) (hstep : copyStep b call = some (outcome, b')) :
    (∃ failure, outcome = .error failure ∧ failure.IsInvalidArgument ∧ b' = b) ∨
    (outcome = .ok b.nbytes.toNat ∧ b' = b.fill call.array.data ∧
      call.array.data.length = b.nbytes.toNat) := by
  rw [copyStep, h.exec_copyFrom, Option.some.injEq] at hstep
  cases hcheck : b.checkIncoming call.array call.overrideName with
  | error failure =>
    rw [hcheck] at hstep
    cases hstep
    exact Or.inl ⟨failure, rfl,
      TypedBuffer.checkIncoming_failsOnly h.supported _ _ failure hcheck, rfl⟩
  | ok =>
    have hcount := (TypedBuffer.checkIncoming_eq_ok.mp hcheck).2
    rw [hcheck, hcount] at hstep
    cases hstep
    exact Or.inr ⟨rfl, rfl, call.array.length_data_eq.trans hcount⟩

/-- What calls of `copy_from` keep: the invariant, and all of the buffer but its bytes. -/
structure TypedBuffer.Refilled (start b : TypedBuffer) : Prop where
  wellFormed : b.WellFormed
  shape : b.shape = start.shape
  dtype : b.dtype = start.dtype
  buffer : b.buffer = start.buffer

/-- One call keeps it, shows the size of the buffer if it copies, and replaces the bytes then. -/
theorem copyStep_refilled {start b b' : TypedBuffer} {call : CopyCall}
    {outcome : Except Failure ℕ} (h : start.Refilled b)
    (hstep : copyStep b call = some (outcome, b')) :
    start.Refilled b' ∧ b'.bytes = (call.written outcome).getD b.bytes ∧
      (∀ count, outcome = .ok count → count = start.nbytes.toNat) ∧
      ∀ failure, outcome = .error failure → failure.IsInvalidArgument := by
  have hsize : b.nbytes = start.nbytes := congrArg Buffer.size h.buffer
  rcases copyStep_cases h.wellFormed hstep with
    ⟨failure, rfl, hfailure, rfl⟩ | ⟨rfl, rfl, hlength⟩
  · refine ⟨h, rfl, ?_, ?_⟩
    · intro count hcount
      cases hcount
    · intro other hother
      cases hother
      exact hfailure
  · refine ⟨⟨h.wellFormed.fill hlength, h.shape, h.dtype, h.buffer⟩,
      TypedBuffer.bytes_fill hlength, ?_, ?_⟩
    · intro count hcount
      cases hcount
      rw [hsize]
    · intro other hother
      cases hother

/-- Every sequence of calls runs to its end, keeps all of the buffer but its bytes, copies as
many bytes as the buffer has or throws `std::invalid_argument`, and leaves what was written
last. -/
theorem copyRun_refilled {start : TypedBuffer} (h : start.WellFormed) (calls : List CopyCall) :
    ∃ outcomes b, runSchedule copyStep start calls = some (outcomes, b) ∧ start.Refilled b ∧
      b.bytes = lastWritten start.bytes calls outcomes ∧
      ∀ outcome ∈ outcomes, (∀ count, outcome = .ok count → count = start.nbytes.toNat) ∧
        ∀ failure, outcome = .error failure → failure.IsInvalidArgument := by
  have henabled : ∀ b call, (copyStep b call).isSome := fun _ _ => rfl
  obtain ⟨outcomes, b, hrun⟩ := runSchedule_isSome henabled start calls
  have hstart : start.Refilled start := ⟨h, rfl, rfl, rfl⟩
  refine ⟨outcomes, b, hrun, ?_, ?_, ?_⟩
  · exact runSchedule_invariant start.Refilled
      (fun _ _ _ _ hs hstep => (copyStep_refilled hs hstep).1) hstart hrun
  · refine runSchedule_last start.Refilled TypedBuffer.bytes CopyCall.written ?_ hstart hrun
    intro s call outcome s' hs hstep
    obtain ⟨hrefilled, hbytes, -⟩ := copyStep_refilled hs hstep
    exact ⟨hbytes, hrefilled⟩
  · refine runSchedule_observed start.Refilled _ ?_ hstart hrun
    intro s call outcome s' hs hstep
    obtain ⟨hrefilled, -, hshown⟩ := copyStep_refilled hs hstep
    exact ⟨hshown, hrefilled⟩

/-- For every buffer that was made, and every sequence of calls of `copy_from`: the size is the
exact number of bytes of the shape and the type, and the allocation has it, or one byte for an
empty buffer; every `memcpy` copied exactly that many; the bytes are those written last, and a
call that fails throws `std::invalid_argument` and changes nothing. Under every name of the
width of the elements but `bfloat16`, `to_numpy` returns the shape and the bytes, and this array
makes an equal buffer when uploaded under the own type, wherever the device has the memory. -/
theorem relabelling_keeps_bytes {host : Host} {memory : Memory} {source : BufferSource}
    {copied : Option ℕ} {start : TypedBuffer}
    (hbuilt : source.build host memory = .ok (copied, start)) (calls : List CopyCall) :
    ∃ outcomes b, runSchedule copyStep start calls = some (outcomes, b) ∧
      (b.shape = source.shape ∧ source.dtype = .ok b.dtype ∧
        b.nbytes.toNat = exactByteCount b.shape b.dtype ∧
        b.buffer.handle.length = max b.nbytes 1) ∧
      (∀ count, copied = some count ∨ Except.ok count ∈ outcomes →
        count = exactByteCount b.shape b.dtype) ∧
      (source.Wrote start.bytes ∧ b.bytes = lastWritten start.bytes calls outcomes) ∧
      (∀ failure, Except.error failure ∈ outcomes → failure.IsInvalidArgument) ∧
      (∀ call failure b', copyStep b call = some (.error failure, b') → b' = b) ∧
      ∀ name out, dtypeFromName name = .ok out → out.itemsize = b.dtype.itemsize →
        name ≠ ascii "bfloat16" →
        ∃ array own, b.toNumpy (some name) = .ok array ∧ array.shape = extents b.shape ∧
          array.data = b.bytes ∧ dtypeName b.dtype = some own ∧
          ∀ (host' : Host) (memory' : Memory) id contents,
            host'.newBuffer (max b.nbytes 1) = some (id, contents) →
            ∃ again, TypedBuffer.ofArray host' memory' array (some own) =
                .ok (exactByteCount b.shape b.dtype, again) ∧
              again.shape = b.shape ∧ again.dtype = b.dtype ∧ again.bytes = b.bytes := by
  obtain ⟨hwell, hshape, hdtype, hcopied, hwrote⟩ := source.build_spec hbuilt
  obtain ⟨outcomes, b, hrun, hrefilled, hbytes, hshown⟩ := copyRun_refilled hwell calls
  have hexact := hrefilled.wellFormed.nbytes_eq
  have hsize : start.nbytes.toNat = exactByteCount b.shape b.dtype := by
    rw [← hexact]
    exact congrArg (fun buffer => buffer.size.toNat) hrefilled.buffer.symm
  refine ⟨outcomes, b, hrun, ⟨hrefilled.shape.trans hshape, ?_, hexact,
    hrefilled.wellFormed.allocated⟩, ?_, ⟨hwrote, hbytes⟩, ?_, ?_, ?_⟩
  · rw [hdtype, hrefilled.dtype]
  · intro count hcount
    rcases hcount with hfirst | hlater
    · exact (hcopied count hfirst).trans hsize
    · exact ((hshown _ hlater).1 count rfl).trans hsize
  · intro failure hfailure
    exact (hshown _ hfailure).2 failure rfl
  · intro call failure b' hstep
    rcases copyStep_cases hrefilled.wellFormed hstep with ⟨_, -, -, hsame⟩ | ⟨hok, -⟩
    · exact hsame
    · cases hok
  · intro name out hname hwidth hbfloat
    obtain ⟨array, harray, hexported, hextents, hdata⟩ :=
      hrefilled.wellFormed.toNumpy_eq hname hwidth hbfloat
    obtain ⟨own, hown⟩ := Option.isSome_iff_exists.mp hrefilled.wellFormed.supported
    refine ⟨array, own, harray, hextents, hdata, hown, ?_⟩
    intro host' memory' id contents hbuffer
    rw [← hexact]
    exact hrefilled.wellFormed.upload_again hexported hwidth hextents hdata hown hbuffer memory'

/-- A device that always allocates, at one address. -/
def sharedHost : Host where
  pageSize := 16384
  vmRegion := fun _ => none
  newBuffer := fun _ => some (0, 4096)
  newBufferNoCopy := fun _ _ => none

/-- A buffer of no elements has an allocation of one byte, and its array cannot be uploaded again
once the device has no memory left. -/
theorem empty_buffer_takes_one_byte :
    (∃ b, (BufferSource.zeros [0] (ascii "uint8")).build sharedHost (fun _ => 0) = .ok (none, b) ∧
      exactByteCount b.shape b.dtype = 0 ∧ b.buffer.handle.length = 1 ∧
      ∃ array, b.toNumpy (some (ascii "uint8")) = .ok array ∧
        TypedBuffer.ofArray { sharedHost with newBuffer := fun _ => none } (fun _ => 0) array
            (some (ascii "uint8")) =
          .error (.allocation (ascii "failed to allocate Metal buffer of 0 bytes"))) ∧
    ¬ ∀ (source : BufferSource) copied b, source.build sharedHost (fun _ => 0) = .ok (copied, b) →
      b.buffer.handle.length.toNat = exactByteCount b.shape b.dtype := by
  refine ⟨⟨_, rfl, by decide, rfl, _, rfl, rfl⟩, ?_⟩
  intro hall
  have hlength := hall (.zeros [0] (ascii "uint8")) none _ rfl
  exact absurd hlength (by decide)

/-- Two `uint16` numbers, given by their bytes and by a shape. -/
def bitsArray (a b c d : UInt8) (shape : List ℕ) (hshape : shape.foldl (· * ·) 1 = 2)
    (hextents : ∀ extent ∈ shape, extent < wordSize) : UploadArray where
  dtype := ⟨DType.uint, 16, 1⟩
  shape
  address := 0
  data := [a, b, c, d]
  length_data := by rw [hshape]; rfl
  extents_lt := hextents

/-- The bits of the `bfloat16` numbers 1 and 2.5. -/
def firstBits : UploadArray := bitsArray 0x80 0x3F 0x20 0x40 [2] rfl (by decide)

/-- The bits of the `bfloat16` numbers 100 and 1, in another shape. -/
def laterBits : UploadArray := bitsArray 0xC8 0x42 0x80 0x3F [1, 2] rfl (by decide)

/-- A `bfloat16` buffer, refilled once under its own type and once, in vain, without. -/
theorem bfloat16_bits_kept :
    ∃ copied start, (BufferSource.upload firstBits (some (ascii "bfloat16"))).build sharedHost
        (fun _ => 0) = .ok (copied, start) ∧
      ∃ outcomes b, runSchedule copyStep start
          [⟨laterBits, some (ascii "bfloat16")⟩, ⟨firstBits, none⟩] = some (outcomes, b) ∧
        b.bytes = laterBits.data ∧
        ∃ array, b.toNumpy (some (ascii "uint16")) = .ok array ∧ array.data = b.bytes := by
  have hbuilt : (BufferSource.upload firstBits (some (ascii "bfloat16"))).build sharedHost
      (fun _ => 0) = .ok (_, _) := rfl
  obtain ⟨outcomes, b, hrun, ⟨-, hdtype, -⟩, -, ⟨-, hbytes⟩, -, -, hexport⟩ :=
    relabelling_keeps_bytes hbuilt [⟨laterBits, some (ascii "bfloat16")⟩, ⟨firstBits, none⟩]
  have hresolved : (BufferSource.upload firstBits (some (ascii "bfloat16"))).dtype =
      .ok ⟨DType.bfloat, 16⟩ := rfl
  have hwidth : b.dtype = ⟨DType.bfloat, 16⟩ := Except.ok.inj (hdtype.symm.trans hresolved)
  obtain ⟨array, -, harray, -, hdata, -⟩ :=
    hexport (ascii "uint16") ⟨DType.uint, 16⟩ rfl (by rw [hwidth]; rfl) (by decide)
  refine ⟨_, _, hbuilt, outcomes, b, hrun, ?_, array, harray, hdata⟩
  cases hrun
  exact hbytes

end MetalRuntime
