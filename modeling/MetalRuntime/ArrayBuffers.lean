import MetalRuntime.BufferSizes
import MetalRuntime.CApi
import MetalRuntime.Foundations.Methods
import MetalRuntime.HostArrays

/-!
# Buffers of arrays

`PyBuffer` with its constructors, `copy_from` and `to_numpy`. An explicit element type relabels
the bytes of an array without changing them, so every one of these functions has to check the
width of the elements where it does not compute with it.
-/

namespace MetalRuntime

open Foundations

/-- `dtype_from_name`. -/
def dtypeFromName (name : ByteString) : Except Failure DType :=
  match dtypeEntries.find? fun entry => name = entry.name with
  | some entry => .ok entry.dtype
  | none =>
    if name = ascii "float64" ∨ name = ascii "double" then .error (.invalidArgument float64Message)
    else .error (.invalidArgument (ascii "unsupported dtype '" ++ name ++ ascii "'; supported: " ++
      supportedDtypeNames))

/-- `to_dlpack`. -/
def toDlpack (dtype : DType) : DLDataType := ⟨dtype.code, dtype.bits, 1⟩

/-- A name stands for the type of its row. -/
theorem exists_entry_of_dtypeFromName {name : ByteString} {dtype : DType}
    (h : dtypeFromName name = .ok dtype) :
    ∃ entry ∈ dtypeEntries, entry.name = name ∧ entry.dtype = dtype := by
  unfold dtypeFromName at h
  split at h
  · next entry hentry =>
    cases h
    have hname : name = entry.name := by simpa using List.find?_some hentry
    exact ⟨entry, List.mem_of_find?_eq_some hentry, hname.symm, rfl⟩
  · split at h <;> cases h

/-- The first row with the name or the type of a row is that row. -/
theorem find_dtypeEntry {entry : DTypeEntry} (h : entry ∈ dtypeEntries) :
    dtypeName entry.dtype = some entry.name ∧
      (dtypeEntries.find? fun row => entry.name = row.name).map DTypeEntry.dtype =
        some entry.dtype := by
  have hall : ∀ entry ∈ dtypeEntries, dtypeName entry.dtype = some entry.name ∧
      (dtypeEntries.find? fun row => entry.name = row.name).map DTypeEntry.dtype =
        some entry.dtype := by decide
  exact hall entry h

/-- The names of the supported types are exactly the names that are accepted. -/
theorem dtypeFromName_eq_ok {name : ByteString} {dtype : DType} :
    dtypeFromName name = .ok dtype ↔ dtypeName dtype = some name := by
  constructor
  · intro h
    obtain ⟨entry, hentry, rfl, rfl⟩ := exists_entry_of_dtypeFromName h
    exact (find_dtypeEntry hentry).1
  · intro h
    obtain ⟨entry, hentry, hfind, rfl⟩ := exists_dtypeEntry (Option.isSome_of_eq_some h)
    rw [dtypeName, hfind, Option.map_some, Option.some.injEq] at h
    obtain ⟨row, hrow, hdtype⟩ := Option.map_eq_some_iff.mp (find_dtypeEntry hentry).2
    rw [dtypeFromName, ← h, hrow, ← hdtype]

/-- A name stands for a supported type. -/
theorem supported_of_dtypeFromName {name : ByteString} {dtype : DType}
    (h : dtypeFromName name = .ok dtype) : (dtypeName dtype).isSome :=
  Option.isSome_of_eq_some (dtypeFromName_eq_ok.mp h)

/-- A `HostArray` whose extents are words, as they are where a shape is read. -/
structure UploadArray extends HostArray where
  extents_lt : ∀ extent ∈ shape, extent < wordSize

/-- The extents as `PyBuffer` stores them. -/
def UploadArray.words (array : UploadArray) : List SizeT := array.shape.map UInt64.ofNat

/-- `resolve_dtype`: an explicit name reinterprets the bytes. -/
def resolveDtype (array : HostArray) (overrideName : Option ByteString) : Except Failure DType :=
  match overrideName with
  | none => fromDlpack array.dtype
  | some name => do
    let requested ← dtypeFromName name
    rejectIf (array.dtype.lanes ≠ 1)
      (.invalidArgument (ascii "vector dtypes are not supported; pass a scalar dtype"))
    rejectIf (array.dtype.itemsize ≠ requested.itemsize)
      (.invalidArgument (ascii "dtype '" ++ name ++ ascii "' is " ++ decimal requested.itemsize ++
        ascii " bytes per element, but the array is " ++ decimal array.dtype.itemsize ++
        ascii "; reinterpreting bytes cannot change element width, so .view() the array to a " ++
        ascii "matching width first"))
    .ok requested

/-- `memcpy` to the start of an allocation; to copy past either end is undefined. -/
def memcpy (destination source : ByteString) (count : ℕ) : Except Failure ByteString :=
  if count ≤ destination.length ∧ count ≤ source.length then
    .ok (source.take count ++ destination.drop count)
  else .error .undefinedBehavior

/-- `memset` of the start of an allocation to zero. -/
def memsetZero (destination : ByteString) (count : ℕ) : Except Failure ByteString :=
  memcpy destination (List.replicate count 0) count

/-- A `PyBuffer` with the bytes behind `contents()`. -/
structure TypedBuffer extends PyBuffer where
  contents : ByteString

namespace TypedBuffer

/-- The bytes of the elements. -/
def bytes (b : TypedBuffer) : ByteString := b.contents.take b.nbytes.toNat

/-- `dtype`; a null pointer must not be read. -/
def dtypeText (dtype : DType) : Except Failure ByteString :=
  match dtypeName dtype with
  | some name => .ok name
  | none => .error .undefinedBehavior

/-- The private constructor of `PyBuffer`, once `runtime()` has found a device and before it fills
the allocation, which holds what the memory held. -/
def allocate (host : Host) (memory : Memory) (shape : List SizeT) (dtype : DType) :
    Except Failure TypedBuffer := do
  let size ← bufferByteCount shape dtype
  let buffer ← Buffer.create host size
  .ok ⟨⟨shape, dtype, buffer⟩,
    memory.read buffer.contents.toNat buffer.handle.length.toNat⟩

/-- `PyBuffer(array, dtype)`, with the number of bytes copied. -/
def ofArray (host : Host) (memory : Memory) (array : UploadArray)
    (overrideName : Option ByteString) : Except Failure (ℕ × TypedBuffer) := do
  let dtype ← resolveDtype array.toHostArray overrideName
  let buffer ← allocate host memory array.words dtype
  let contents ← memcpy buffer.contents array.data array.nbytes
  .ok (array.nbytes, { buffer with contents })

/-- `PyBuffer::zeros`. -/
def zeros (host : Host) (memory : Memory) (shape : List SizeT) (name : ByteString) :
    Except Failure TypedBuffer := do
  let dtype ← dtypeFromName name
  let buffer ← allocate host memory shape dtype
  let contents ← memsetZero buffer.contents buffer.nbytes.toNat
  .ok { buffer with contents }

/-- `PyBuffer::empty`. -/
def empty (host : Host) (memory : Memory) (shape : List SizeT) (name : ByteString) :
    Except Failure TypedBuffer := do
  let dtype ← dtypeFromName name
  allocate host memory shape dtype

/-- The check of `copy_from` that the incoming element type is the own one. -/
def checkDtype (b : TypedBuffer) (incoming : DType) : Except Failure Unit :=
  if incoming ≠ b.dtype then do
    let incomingText ← dtypeText incoming
    let ownText ← dtypeText b.dtype
    .error (.invalidArgument (ascii "copy_from(): array resolves to dtype '" ++ incomingText ++
      ascii "', but this buffer holds '" ++ ownText ++
      ascii "'; pass dtype=... to relabel, or match the array dtype"))
  else .ok ()

/-- The checks of `copy_from`: the element type must be the same, and the number of bytes. -/
def checkIncoming (b : TypedBuffer) (array : UploadArray) (overrideName : Option ByteString) :
    Except Failure Unit := do
  let incoming ← resolveDtype array.toHostArray overrideName
  b.checkDtype incoming
  rejectIf (array.nbytes ≠ b.nbytes.toNat)
    (.invalidArgument (ascii "copy_from(): array has " ++ decimal array.nbytes ++
      ascii " bytes, but this buffer holds " ++ toText b.nbytes ++
      ascii "; copy_from cannot resize an allocation"))

/-- `copy_from`, returning the number of bytes copied. -/
def copyFrom (array : UploadArray) (overrideName : Option ByteString) :
    Method TypedBuffer Failure ℕ := do
  let b ← get
  Method.ofExcept (b.checkIncoming array overrideName)
  let contents ← Method.ofExcept (memcpy b.contents array.data array.nbytes)
  set { b with contents }
  pure array.nbytes

end TypedBuffer

/-- How `to_numpy` fails: an exception of the standard library, or `nb::type_error`. -/
inductive ExportFailure
  | thrown (failure : Failure)
  | typeError (what : ByteString)

namespace TypedBuffer

/-- The element type that `to_numpy` exports. -/
def exportDtype (b : TypedBuffer) (name : Option ByteString) : Except Failure DType :=
  match name with
  | none => .ok b.dtype
  | some name => do
    let out ← dtypeFromName name
    rejectIf (out.itemsize ≠ b.dtype.itemsize)
      (.invalidArgument (ascii "dtype '" ++ name ++ ascii "' is " ++ decimal out.itemsize ++
        ascii " bytes per element, but this buffer holds " ++ decimal b.dtype.itemsize ++
        ascii "-byte elements"))
    .ok out

/-- The extents of a shape are words. -/
theorem extents_lt (shape : List SizeT) : ∀ extent ∈ extents shape, extent < wordSize := by
  intro extent hextent
  obtain ⟨dim, -, rfl⟩ := List.mem_map.mp hextent
  exact toNat_lt_wordSize dim

/-- The array that shares the contents of a buffer; its elements must lie inside them. -/
def view (b : TypedBuffer) (dtype : DLDataType) : Except ExportFailure UploadArray :=
  let count := (extents b.shape).foldl (· * ·) 1 * dtype.itemsize
  if h : count ≤ b.contents.length then .ok {
    dtype
    shape := extents b.shape
    address := b.buffer.contents
    data := b.contents.take count
    length_data := List.length_take_of_le h
    extents_lt := extents_lt b.shape }
  else .error (.thrown .undefinedBehavior)

/-- `to_numpy`. -/
def toNumpy (b : TypedBuffer) (name : Option ByteString) : Except ExportFailure UploadArray :=
  match b.exportDtype name with
  | .error failure => .error (.thrown failure)
  | .ok out =>
    if out.code = DType.bfloat then
      .error (.typeError (
        ascii "to_numpy(): NumPy has no native bfloat16 dtype. Read the bytes back with " ++
        ascii "to_numpy(dtype='uint16'), which ml_dtypes can .view() as bfloat16."))
    else b.view (toDlpack out)

end TypedBuffer

/-- The ways to make a buffer. -/
inductive BufferSource
  | upload (array : UploadArray) (overrideName : Option ByteString)
  | zeros (shape : List SizeT) (name : ByteString)
  | empty (shape : List SizeT) (name : ByteString)

namespace BufferSource

/-- The shape that is asked for. -/
def shape : BufferSource → List SizeT
  | .upload array _ => array.words
  | .zeros shape _ => shape
  | .empty shape _ => shape

/-- The element type that is asked for. -/
def dtype : BufferSource → Except Failure DType
  | .upload array overrideName => resolveDtype array.toHostArray overrideName
  | .zeros _ name => dtypeFromName name
  | .empty _ name => dtypeFromName name

/-- Make the buffer, with the number of bytes that `memcpy` copied if there was one. -/
def build (host : Host) (memory : Memory) :
    BufferSource → Except Failure (Option ℕ × TypedBuffer)
  | .upload array overrideName =>
    (TypedBuffer.ofArray host memory array overrideName).map fun made => (some made.1, made.2)
  | .zeros shape name =>
    (TypedBuffer.zeros host memory shape name).map fun made => (none, made)
  | .empty shape name =>
    (TypedBuffer.empty host memory shape name).map fun made => (none, made)

/-- The bytes that the construction writes; an empty buffer is left as it comes. -/
def Wrote (bytes : ByteString) : BufferSource → Prop
  | .upload array _ => bytes = array.data
  | .zeros _ _ => ∀ byte ∈ bytes, byte = 0
  | .empty _ _ => True

end BufferSource

/-- The arguments of a call of `copy_from`. -/
structure CopyCall where
  array : UploadArray
  overrideName : Option ByteString

/-- One call of `copy_from`, with its outcome. -/
def copyStep (b : TypedBuffer) (call : CopyCall) : Option (Except Failure ℕ × TypedBuffer) :=
  some ((TypedBuffer.copyFrom call.array call.overrideName).exec b)

/-- What a call writes: the bytes of its array, unless it throws. -/
def CopyCall.written (call : CopyCall) (outcome : Except Failure ℕ) : Option ByteString :=
  match outcome with
  | .ok _ => some call.array.data
  | .error _ => none

/-- The bytes of the last call that did not throw, or else those at the start. -/
def lastWritten (start : ByteString) (calls : List CopyCall) (outcomes : List (Except Failure ℕ)) :
    ByteString :=
  ((calls.zip outcomes).filterMap fun entry => entry.1.written entry.2).getLast?.getD start

end MetalRuntime
