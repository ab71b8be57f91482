import MetalRuntime.Foundations.DecimalText
import MetalRuntime.Foundations.Guards
import MetalRuntime.Foundations.WordArithmetic

/-!
# Values shared by the whole runtime

`size_t` is a wrapping 64-bit word, `std::string` is a byte string, and a `std::vector`
is a list no longer than a vector can be. A call either returns or fails; a failure is an
exception of `errors.h` or the standard library with its `what()` text, or undefined
behaviour, which the proofs must exclude.
-/

namespace MetalRuntime

open Foundations

/-- `size_t`, `uintptr_t` and `NS::UInteger` on the 64-bit targets of the runtime. -/
abbrev SizeT := UInt64

/-- A `std::string`: arbitrary bytes, not necessarily text. -/
abbrev ByteString := List UInt8

/-- `std::to_string` of an unsigned integer. -/
def toText (n : SizeT) : ByteString := decimal n.toNat

/-- How a call ends when it does not return. -/
inductive Failure
  | invalidArgument (what : ByteString)
  | noDevice (what : ByteString)
  | dispatchError (what : ByteString)
  | compileError (what : ByteString)
  | functionNotFound (what : ByteString)
  | pipelineBuild (what : ByteString)
  | allocation (what : ByteString)
  | outOfRange
  | lengthError
  /-- A null dereference or an access past the end of a container. -/
  | undefinedBehavior
  deriving DecidableEq

/-- The failure is a `std::invalid_argument`. -/
def Failure.IsInvalidArgument (failure : Failure) : Prop :=
  ∃ what, failure = .invalidArgument what

/-- `std::invalid_argument` is an exception. -/
theorem Failure.IsInvalidArgument.ne_undefinedBehavior {failure : Failure}
    (h : failure.IsInvalidArgument) : failure ≠ .undefinedBehavior := by
  obtain ⟨what, rfl⟩ := h
  intro hundefined
  cases hundefined

/-- The call has no undefined behavior. -/
abbrev Defined {α : Type*} (x : Except Failure α) : Prop := FailsOnly (· ≠ .undefinedBehavior) x

/-- A call that throws nothing but `std::invalid_argument` has none. -/
theorem defined_of_failsOnly {α : Type*} {x : Except Failure α}
    (h : FailsOnly Failure.IsInvalidArgument x) : Defined x :=
  h.mono fun _ hinvalid => hinvalid.ne_undefinedBehavior

/-- `std::vector::max_size` is bounded by the largest signed pointer difference. -/
def maxVectorSize : ℕ := 2 ^ 63 - 1

/-- A `std::vector`; its size is within `max_size`, so the sum of two sizes does not wrap. -/
structure StdVector (α : Type*) where
  toList : List α
  size_le : toList.length ≤ maxVectorSize

namespace StdVector

variable {α : Type*}

/-- `std::vector::size`. -/
def size (v : StdVector α) : SizeT := UInt64.ofNat v.toList.length

/-- The size is the number of elements. -/
@[simp] theorem toNat_size (v : StdVector α) : v.size.toNat = v.toList.length := by
  have h := v.size_le
  rw [size, UInt64.toNat_ofNat', Nat.mod_eq_of_lt]
  simp only [maxVectorSize] at h
  omega

/-- The sizes of two vectors add without wrapping. -/
theorem toNat_size_add_size {β : Type*} (v : StdVector α) (w : StdVector β) :
    (v.size + w.size).toNat = v.toList.length + w.toList.length := by
  have hv := v.size_le
  have hw := w.size_le
  rw [toNat_add_of_lt] <;> simp only [toNat_size, wordSize, maxVectorSize] at *
  omega

/-- `operator[]`: an index past the end is undefined behaviour. -/
def get (v : StdVector α) (index : SizeT) : Except Failure α :=
  match v.toList[index.toNat]? with
  | some a => .ok a
  | none => .error .undefinedBehavior

/-- An index below the size reads its element. -/
theorem get_of_lt {v : StdVector α} {index : SizeT} (h : index.toNat < v.toList.length) :
    v.get index = .ok v.toList[index.toNat] := by
  rw [get, List.getElem?_eq_getElem h]

/-- Fill a vector; more elements than it can hold throw `std::length_error`. -/
def ofList (elements : List α) : Except Failure (StdVector α) :=
  if h : elements.length ≤ maxVectorSize then .ok ⟨elements, h⟩ else .error .lengthError

/-- Filling a vector may only throw. -/
theorem ofList_defined (elements : List α) : Defined (ofList elements) := by
  unfold ofList
  split
  · exact failsOnly_ok _ _
  · exact failsOnly_error (by simp)

/-- A vector that was filled holds the elements. -/
theorem toList_of_ofList {elements : List α} {v : StdVector α} (h : ofList elements = .ok v) :
    v.toList = elements := by
  unfold ofList at h
  split at h
  · cases h
    rfl
  · cases h

/-- The vector without elements. -/
def empty : StdVector α := ⟨[], Nat.zero_le _⟩

end StdVector

/-- A `std::map` from strings, as iteration sees it: in strictly increasing order of the
keys, so that equal maps are equal lists. -/
structure StdMap (V : Type*) where
  entries : List (ByteString × V)
  sorted : (entries.map Prod.fst).Pairwise (· < ·)

namespace StdMap

variable {V : Type*}

/-- `std::map::find`. -/
def find (map : StdMap V) (key : ByteString) : Option V :=
  (map.entries.find? fun entry => entry.1 = key).map Prod.snd

/-- A key is found with its own value, as keys are distinct. -/
theorem find_eq_some_iff {map : StdMap V} {key : ByteString} {value : V} :
    map.find key = some value ↔ (key, value) ∈ map.entries := by
  obtain ⟨entries, hsorted⟩ := map
  simp only [find]
  induction entries with
  | nil => simp
  | cons entry rest ih =>
    obtain ⟨hfirst, hrest⟩ := List.pairwise_cons.mp hsorted
    by_cases hkey : entry.1 = key
    · subst hkey
      have hother : (entry.1, value) ∉ rest := by
        intro hmem
        exact Std.ne_of_lt (hfirst _ (List.mem_map_of_mem hmem)) rfl
      rw [List.find?_cons_of_pos (by simp), Option.map_some, Option.some.injEq, List.mem_cons,
        or_iff_left hother, Prod.ext_iff]
      simp [eq_comm]
    · have hne : (key, value) ≠ entry := fun heq => hkey (congrArg Prod.fst heq.symm)
      rw [List.find?_cons_of_neg (by simpa using hkey), ih hrest, List.mem_cons,
        or_iff_right hne]

/-- The map without entries. -/
def empty : StdMap V := ⟨[], List.Pairwise.nil⟩

end StdMap

/-- `describe(NS::Error*)`: Metal may return no error at all. -/
def describe (error : Option ByteString) : ByteString := error.getD (ascii "unknown error")

/-- `to_ns_string`, given which byte strings Foundation accepts as UTF-8. -/
def toNsString (isUtf8 : ByteString → Bool) (s what : ByteString) : Except Failure ByteString := do
  rejectIf (0 ∈ s) (.invalidArgument (what ++ ascii " contains a NUL byte"))
  rejectIf (isUtf8 s = false) (.invalidArgument (what ++ ascii " is not valid UTF-8"))
  .ok s

/-- A string that is converted at all is converted unchanged. -/
theorem toNsString_eq_ok {isUtf8 : ByteString → Bool} {s what converted : ByteString} :
    toNsString isUtf8 s what = .ok converted ↔ 0 ∉ s ∧ isUtf8 s = true ∧ converted = s := by
  simp only [toNsString, check_bind_eq_ok, rejectIf_eq_ok, Except.ok.injEq, Bool.not_eq_false]
  exact and_congr_right fun _ => and_congr_right fun _ => eq_comm

/-- A conversion of text throws nothing but `std::invalid_argument`. -/
theorem toNsString_failsOnly (isUtf8 : ByteString → Bool) (s what : ByteString) :
    FailsOnly Failure.IsInvalidArgument (toNsString isUtf8 s what) :=
  (failsOnly_rejectIf ⟨_, rfl⟩).bind fun _ _ =>
    (failsOnly_rejectIf ⟨_, rfl⟩).bind fun _ _ => failsOnly_ok _ _

end MetalRuntime
