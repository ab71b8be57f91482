import MetalRuntime.DType

/-!
# Arrays from Python

What the bindings read of a contiguous host array, and the element type they take it to
have. An array whose element type they accept has one lane and as many bytes as its elements
need.
-/

namespace MetalRuntime

open Foundations

/-- `nb::dlpack::dtype`. -/
structure DLDataType where
  code : UInt8
  bits : UInt8
  lanes : UInt16
  deriving DecidableEq

/-- The size of an element, computed in `uint32_t` and too small to wrap. -/
def DLDataType.itemsize (dt : DLDataType) : ℕ := (dt.bits.toNat * dt.lanes.toNat + 7) / 8

/-- `supported_dtype_names`. -/
def supportedDtypeNames : ByteString :=
  dtypeEntries.foldl (fun out entry =>
    (if out = [] then out else out ++ ascii ", ") ++ entry.name) []

/-- The message for a `float64` array. -/
def float64Message : ByteString :=
  ascii "dtype 'float64' is not supported: Metal has no double-precision type. " ++
    ascii "Convert with .astype(numpy.float32) before uploading."

/-- `from_dlpack`. -/
def fromDlpack (dt : DLDataType) : Except Failure DType := do
  rejectIf (dt.lanes ≠ 1)
    (.invalidArgument (ascii "vector dtypes are not supported; pass a scalar dtype"))
  let out : DType := ⟨dt.code, dt.bits⟩
  if dtypeName out = none then
    if out.code = DType.float ∧ out.bits = 64 then .error (.invalidArgument float64Message)
    else .error (.invalidArgument (ascii "unsupported array dtype (DLPack code " ++
      decimal out.code.toNat ++ ascii ", " ++ decimal out.bits.toNat ++
      ascii " bits); supported: " ++ supportedDtypeNames))
  else .ok out

/-- An element type is accepted exactly when it has one lane and is supported. -/
theorem fromDlpack_eq_ok {dt : DLDataType} {dtype : DType} :
    fromDlpack dt = .ok dtype ↔
      dt = ⟨dtype.code, dtype.bits, 1⟩ ∧ (dtypeName dtype).isSome := by
  obtain ⟨code, bits, lanes⟩ := dt
  obtain ⟨code', bits'⟩ := dtype
  simp only [fromDlpack, check_bind_eq_ok, rejectIf_eq_ok, ne_eq, not_not, DLDataType.mk.injEq]
  constructor
  · intro h
    obtain ⟨hlanes, hname⟩ := h
    split at hname
    · split at hname <;> cases hname
    · cases hname
      exact ⟨⟨rfl, rfl, hlanes⟩, Option.ne_none_iff_isSome.mp ‹_›⟩
  · intro h
    obtain ⟨⟨rfl, rfl, hlanes⟩, hname⟩ := h
    exact ⟨hlanes, by rw [if_neg (Option.ne_none_iff_isSome.mpr hname)]⟩

/-- `from_dlpack` throws only `std::invalid_argument`. -/
theorem fromDlpack_failsOnly (dt : DLDataType) :
    FailsOnly Failure.IsInvalidArgument (fromDlpack dt) := by
  refine FailsOnly.bind (failsOnly_rejectIf ⟨_, rfl⟩) fun _ _ => ?_
  dsimp only
  split
  · split <;> exact failsOnly_error ⟨_, rfl⟩
  · exact failsOnly_ok _ _

/-- An accepted element type has the size of the supported one. -/
theorem itemsize_of_fromDlpack {dt : DLDataType} {dtype : DType}
    (h : fromDlpack dt = .ok dtype) : dt.itemsize = dtype.itemsize := by
  obtain ⟨rfl, -⟩ := fromDlpack_eq_ok.mp h
  simp [DLDataType.itemsize, DType.itemsize]

/-- `HostArray`: a read-only contiguous array in host memory, with its address and its bytes. -/
structure HostArray where
  dtype : DLDataType
  shape : List ℕ
  address : SizeT
  data : ByteString
  length_data : data.length = shape.foldl (· * ·) 1 * dtype.itemsize
  deriving DecidableEq

/-- The number of elements; an array without dimensions has one. -/
def HostArray.size (array : HostArray) : ℕ := array.shape.foldl (· * ·) 1

/-- `nbytes`. -/
def HostArray.nbytes (array : HostArray) : ℕ := array.size * array.dtype.itemsize

/-- The bytes of an array with one element of an accepted type. -/
theorem HostArray.length_of_scalar {array : HostArray} {dtype : DType} (hsize : array.size = 1)
    (h : fromDlpack array.dtype = .ok dtype) : array.data.length = dtype.itemsize := by
  rw [array.length_data, ← HostArray.size, hsize, one_mul, itemsize_of_fromDlpack h]

/-- `check_scalar_dtype`. -/
def checkScalarDtype (dt : DLDataType) (position : ℕ) : Except Failure Unit := do
  rejectIf (dt.code = DType.float ∧ dt.bits = 64 ∧ dt.lanes = 1)
    (.invalidArgument (ascii "scalars[" ++ decimal position ++
      ascii "] is a float64, numpy's default: Metal has no double-precision type, and a kernel " ++
      ascii "expecting a 4-byte scalar would silently read half of it. Pass an explicit width, " ++
      ascii "e.g. numpy.float32(value)."))
  match fromDlpack dt with
  | .ok _ => .ok ()
  | .error (.invalidArgument what) =>
    .error (.invalidArgument (ascii "scalars[" ++ decimal position ++ ascii "]: " ++ what))
  | .error failure => .error failure

/-- A scalar is accepted, or refused with a message. -/
theorem checkScalarDtype_defined (dt : DLDataType) (position : ℕ) :
    Defined (checkScalarDtype dt position) := by
  refine (failsOnly_rejectIf (by simp)).bind fun _ _ => ?_
  split
  · exact failsOnly_ok _ _
  · exact failsOnly_error (by simp)
  · next failure _ hfailure =>
    exact failsOnly_error (fromDlpack_failsOnly dt _ hfailure).ne_undefinedBehavior

end MetalRuntime
