import MetalRuntime.Values

/-!
# Element types

`DType` of `dtype.h`, the tables of its names, and the scalar Metal types that a function
constant can have. Every supported element type is at most eight bytes wide.
-/

namespace MetalRuntime

open Foundations

/-- `DType`: an element type as DLPack's code and width in bits. -/
@[ext] structure DType where
  code : UInt8
  bits : UInt8
  deriving DecidableEq

namespace DType

/-- `DType::Int`. -/
def int : UInt8 := 0

/-- `DType::UInt`. -/
def uint : UInt8 := 1

/-- `DType::Float`. -/
def float : UInt8 := 2

/-- `DType::Bfloat`. -/
def bfloat : UInt8 := 4

/-- `DType::Bool`. -/
def bool : UInt8 := 6

/-- `itemsize`; the sum is computed in `int` and does not wrap. -/
def itemsize (dtype : DType) : ℕ := (dtype.bits.toNat + 7) / 8

end DType

/-- A row of `kEntries`: the name, the MSL name and the element type. -/
structure DTypeEntry where
  name : ByteString
  mslName : ByteString
  dtype : DType

/-- `kEntries`. -/
def dtypeEntries : List DTypeEntry :=
  [⟨ascii "bool", ascii "bool", ⟨DType.bool, 8⟩⟩,
    ⟨ascii "int8", ascii "char", ⟨DType.int, 8⟩⟩,
    ⟨ascii "int16", ascii "short", ⟨DType.int, 16⟩⟩,
    ⟨ascii "int32", ascii "int", ⟨DType.int, 32⟩⟩,
    ⟨ascii "int64", ascii "long", ⟨DType.int, 64⟩⟩,
    ⟨ascii "uint8", ascii "uchar", ⟨DType.uint, 8⟩⟩,
    ⟨ascii "uint16", ascii "ushort", ⟨DType.uint, 16⟩⟩,
    ⟨ascii "uint32", ascii "uint", ⟨DType.uint, 32⟩⟩,
    ⟨ascii "uint64", ascii "ulong", ⟨DType.uint, 64⟩⟩,
    ⟨ascii "float16", ascii "half", ⟨DType.float, 16⟩⟩,
    ⟨ascii "float32", ascii "float", ⟨DType.float, 32⟩⟩,
    ⟨ascii "bfloat16", ascii "bfloat", ⟨DType.bfloat, 16⟩⟩]

/-- The first row of the table for an element type. -/
def dtypeEntry (dtype : DType) : Option DTypeEntry :=
  dtypeEntries.find? fun entry => dtype = entry.dtype

/-- `dtype_name`; `none` for an unsupported type. -/
def dtypeName (dtype : DType) : Option ByteString := (dtypeEntry dtype).map DTypeEntry.name

/-- `msl_type_name`; `none` for an unsupported type. -/
def mslTypeName (dtype : DType) : Option ByteString := (dtypeEntry dtype).map DTypeEntry.mslName

/-- A supported element type is the type of a row. -/
theorem exists_dtypeEntry {dtype : DType} (h : (dtypeName dtype).isSome) :
    ∃ entry ∈ dtypeEntries, dtypeEntry dtype = some entry ∧ entry.dtype = dtype := by
  rw [dtypeName, Option.isSome_map] at h
  obtain ⟨entry, hentry⟩ := Option.isSome_iff_exists.mp h
  have hdtype : dtype = entry.dtype := by simpa using List.find?_some hentry
  exact ⟨entry, List.mem_of_find?_eq_some hentry, hentry, hdtype.symm⟩

/-- A supported element type is at most eight bytes wide. -/
theorem DType.itemsize_le {dtype : DType} (h : (dtypeName dtype).isSome) : dtype.itemsize ≤ 8 := by
  obtain ⟨entry, hentry, -, rfl⟩ := exists_dtypeEntry h
  have hall : ∀ entry ∈ dtypeEntries, entry.dtype.itemsize ≤ 8 := by decide
  exact hall entry hentry

/-- A supported element type has at least one byte. -/
theorem DType.itemsize_pos {dtype : DType} (h : (dtypeName dtype).isSome) : 0 < dtype.itemsize := by
  obtain ⟨entry, hentry, -, rfl⟩ := exists_dtypeEntry h
  have hall : ∀ entry ∈ dtypeEntries, 0 < entry.dtype.itemsize := by decide
  exact hall entry hentry

/-- `MTL::DataType`: the scalar types, and any other by its number. -/
inductive MTLDataType
  | bool
  | char
  | short
  | int
  | long
  | uchar
  | ushort
  | uint
  | ulong
  | half
  | float
  | bfloat
  | other (raw : ℕ)
  deriving DecidableEq

/-- `kConstantTypes`: the scalar MSL types a function constant can have. -/
def constantTypes : List (MTLDataType × DType) :=
  [(.bool, ⟨DType.bool, 8⟩), (.char, ⟨DType.int, 8⟩), (.short, ⟨DType.int, 16⟩),
    (.int, ⟨DType.int, 32⟩), (.long, ⟨DType.int, 64⟩), (.uchar, ⟨DType.uint, 8⟩),
    (.ushort, ⟨DType.uint, 16⟩), (.uint, ⟨DType.uint, 32⟩), (.ulong, ⟨DType.uint, 64⟩),
    (.half, ⟨DType.float, 16⟩), (.float, ⟨DType.float, 32⟩), (.bfloat, ⟨DType.bfloat, 16⟩)]

/-- `constant_dtype`. -/
def constantDtype (type : MTLDataType) : Option DType :=
  (constantTypes.find? fun entry => entry.1 = type).map Prod.snd

/-- Every type that a constant can have is a supported element type. -/
theorem mslTypeName_of_constantDtype {type : MTLDataType} {dtype : DType}
    (h : constantDtype type = some dtype) :
    (mslTypeName dtype).isSome ∧ (dtypeName dtype).isSome := by
  obtain ⟨entry, hentry, rfl⟩ := Option.map_eq_some_iff.mp h
  have hall : ∀ entry ∈ constantTypes,
      (mslTypeName entry.2).isSome ∧ (dtypeName entry.2).isSome := by decide
  exact hall entry (List.mem_of_find?_eq_some hentry)

end MetalRuntime
