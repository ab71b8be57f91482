import MetalRuntime.Foundations.SortedMatching
import MetalRuntime.HostArrays
import MetalRuntime.PipelineCache

/-!
# Constants from Python

`parse_constants` turns a dictionary into the constants that the pipeline key is made of. It
sorts them by name, so the order of insertion is lost; nothing else is. Hence two dictionaries
give one key for one function name exactly when they hold the same constants.
-/

namespace MetalRuntime

open Foundations

/-- A Python object as the checks of `parse_constants` see it, in their order: a `float` is
given by its bits, and an array is whatever converts to a host array. -/
inductive PyValue
  | bool (value : Bool)
  | int (value : ℤ)
  | float (bits : UInt64)
  | array (array : HostArray)
  | other
  deriving DecidableEq

/-- A dictionary in its order of insertion. A key is given by its UTF-8 bytes, or is no string
that has any. -/
structure PyDict where
  entries : List (Option ByteString × PyValue)
  distinct : (entries.map Prod.fst).Pairwise fun key other => key = none ∨ key ≠ other

/-- How a binding ends when it does not return. -/
inductive BindingFailure
  /-- `nb::cast_error`. -/
  | castError
  | thrown (failure : Failure)
  deriving DecidableEq

/-- The bytes that `parse_constants` copies from a scalar, and zeros up to eight. -/
def HostArray.scalarBytes (array : HostArray) (dtype : DType) : ByteString :=
  array.data.take dtype.itemsize ++ List.replicate (8 - dtype.itemsize) 0

/-- The bytes of a scalar of an accepted type. -/
theorem HostArray.scalarBytes_eq {array : HostArray} {dtype : DType} (hsize : array.size = 1)
    (h : fromDlpack array.dtype = .ok dtype) :
    (array.scalarBytes dtype).length = 8 ∧
      (array.scalarBytes dtype).take dtype.itemsize = array.data := by
  have hlength := HostArray.length_of_scalar hsize h
  have hfits := DType.itemsize_le (fromDlpack_eq_ok.mp h).2
  rw [scalarBytes, List.take_of_length_le hlength.le]
  refine ⟨?_, List.take_left' hlength⟩
  rw [List.length_append, List.length_replicate, hlength]
  omega

/-- The exact scalar of an array with one element. -/
def HostArray.exactScalar (array : HostArray) (hsize : array.size = 1) :
    Except Failure ExactScalar :=
  match h : fromDlpack array.dtype with
  | .error failure => .error failure
  | .ok dtype => .ok ⟨dtype, array.scalarBytes dtype, (HostArray.scalarBytes_eq hsize h).1,
      (fromDlpack_eq_ok.mp h).2⟩

/-- An array becomes a scalar of its own type that holds its bytes. -/
theorem HostArray.of_exactScalar {array : HostArray} {hsize : array.size = 1}
    {scalar : ExactScalar} (h : array.exactScalar hsize = .ok scalar) :
    array.dtype = ⟨scalar.dtype.code, scalar.dtype.bits, 1⟩ ∧
      scalar.bytes.take scalar.dtype.itemsize = array.data := by
  unfold HostArray.exactScalar at h
  split at h
  · cases h
  · next dtype hdtype =>
    cases h
    exact ⟨(fromDlpack_eq_ok.mp hdtype).1, (HostArray.scalarBytes_eq hsize hdtype).2⟩

/-- The part of the loop body of `parse_constants` that reads the value. -/
def parseValue (name : ByteString) : PyValue → Except Failure ConstantValue
  | .bool value => .ok (.bool value)
  | .int value =>
    if -2 ^ 63 ≤ value ∧ value < 2 ^ 63 then .ok (.int (Int64.ofInt value))
    else .error (.invalidArgument (ascii "function constant '" ++ name ++
      ascii "' is out of range for a signed 64-bit integer; for a larger 'ulong' " ++
      ascii "constant, pass numpy.uint64(value)"))
  | .float bits => .ok (.double bits)
  | .array array =>
    if hsize : array.size = 1 then (array.exactScalar hsize).map .exact
    else .error (.invalidArgument (ascii "function constant '" ++ name ++
      ascii "' must be a bool, int, float, or a single numpy scalar"))
  | .other => .error (.invalidArgument (ascii "function constant '" ++ name ++
      ascii "' must be a bool, int, float, or a single numpy scalar"))

/-- The loop body of `parse_constants`. -/
def parseConstant (entry : Option ByteString × PyValue) :
    Except BindingFailure FunctionConstant :=
  match entry.1 with
  | none => .error .castError
  | some name =>
    match parseValue name entry.2 with
    | .error failure => .error (.thrown failure)
    | .ok value => .ok ⟨name, value⟩

/-- `std::sort` by name; names are distinct, so there is one sorted order. -/
def sortByName (constants : List FunctionConstant) : List FunctionConstant :=
  constants.mergeSort fun c c' => c.name ≤ c'.name

/-- `parse_constants`. -/
def parseConstants (constants : PyDict) : Except BindingFailure (List FunctionConstant) := do
  let out ← constants.entries.mapM parseConstant
  .ok (sortByName out)

/-- A value is read, or refused with a message. -/
theorem parseValue_defined (name : ByteString) (value : PyValue) :
    Defined (parseValue name value) := by
  cases value with
  | bool value => exact failsOnly_ok _ _
  | int value =>
    simp only [parseValue]
    split
    · exact failsOnly_ok _ _
    · exact failsOnly_error (by simp)
  | float bits => exact failsOnly_ok _ _
  | array array =>
    simp only [parseValue]
    split
    · refine FailsOnly.map ?_ _
      unfold HostArray.exactScalar
      split
      · next failure hfailure =>
        exact failsOnly_error (fromDlpack_failsOnly _ _ hfailure).ne_undefinedBehavior
      · exact failsOnly_ok _ _
    · exact failsOnly_error (by simp)
  | other => exact failsOnly_error (by simp)

/-- `parse_constants` returns constants or throws. -/
theorem parseConstants_defined (constants : PyDict) :
    FailsOnly (· ≠ .thrown .undefinedBehavior) (parseConstants constants) := by
  refine (failsOnly_mapM fun entry _ => ?_).bind fun out _ => failsOnly_ok _ _
  unfold parseConstant
  split
  · exact failsOnly_error (by simp)
  · split
    · next failure hfailure =>
      refine failsOnly_error fun hundefined => ?_
      cases hundefined
      exact parseValue_defined _ entry.2 _ hfailure rfl
    · exact failsOnly_ok _ _

/-- Two values of a dictionary that mean the same constant: the same kind and value, a
`float` by its bits and an array by its type and the bytes of one element. -/
def PyValue.Same : PyValue → PyValue → Prop
  | .array scalar, .array scalar' => scalar.dtype = scalar'.dtype ∧
      scalar.data.take scalar.dtype.itemsize = scalar'.data.take scalar'.dtype.itemsize
  | value, value' => value = value'

/-- Two dictionaries that hold the same constants, in whatever order. -/
def PyDict.SameConstants (dict dict' : PyDict) : Prop :=
  (∀ entry ∈ dict.entries, ∃ entry' ∈ dict'.entries,
    entry.1 = entry'.1 ∧ entry.2.Same entry'.2) ∧
  ∀ entry' ∈ dict'.entries, ∃ entry ∈ dict.entries,
    entry.1 = entry'.1 ∧ entry.2.Same entry'.2

/-- The kinds of Python values and of constants correspond, and parsing keeps the value. -/
inductive Parsed : PyValue → ConstantValue → Prop
  | bool (value : Bool) : Parsed (.bool value) (.bool value)
  | int (value : Int64) : Parsed (.int value.toInt) (.int value)
  | double (bits : UInt64) : Parsed (.float bits) (.double bits)
  | exact (array : HostArray) (scalar : ExactScalar)
      (dtype : array.dtype = ⟨scalar.dtype.code, scalar.dtype.bits, 1⟩)
      (size : array.dtype.itemsize = scalar.dtype.itemsize)
      (bytes : scalar.bytes.take scalar.dtype.itemsize = array.data) :
      Parsed (.array array) (.exact scalar)

/-- A value that is read is read as it is. -/
theorem parsed_of_parseValue {name : ByteString} {value : PyValue} {constant : ConstantValue}
    (h : parseValue name value = .ok constant) : Parsed value constant := by
  cases value with
  | bool b =>
    cases h
    exact Parsed.bool b
  | int v =>
    simp only [parseValue] at h
    split at h
    · next hrange =>
      cases h
      have hv : (Int64.ofInt v).toInt = v := Int64.toInt_ofInt_of_le hrange.1 hrange.2
      have hparsed := Parsed.int (Int64.ofInt v)
      rwa [hv] at hparsed
    · cases h
  | float bits =>
    cases h
    exact Parsed.double bits
  | array array =>
    simp only [parseValue] at h
    split at h
    · next hsize =>
      cases hscalar : array.exactScalar hsize with
      | error failure =>
        rw [hscalar] at h
        cases h
      | ok scalar =>
        rw [hscalar] at h
        cases h
        obtain ⟨hdtype, hbytes⟩ := HostArray.of_exactScalar hscalar
        have hitem : array.dtype.itemsize = scalar.dtype.itemsize := by
          simp [hdtype, DLDataType.itemsize, DType.itemsize]
        exact Parsed.exact array scalar hdtype hitem hbytes
    · cases h
  | other => cases h

/-- Parsing neither confuses values nor tells equal ones apart. -/
theorem Parsed.same_iff {value value' : PyValue} {constant constant' : ConstantValue}
    (h : Parsed value constant) (h' : Parsed value' constant') :
    constant.Same constant' ↔ value.Same value' := by
  cases h with
  | bool b => cases h' <;> simp [ConstantValue.Same, PyValue.Same]
  | int v => cases h' <;> simp [ConstantValue.Same, PyValue.Same, Int64.toInt_inj]
  | double bits => cases h' <;> simp [ConstantValue.Same, PyValue.Same]
  | exact array scalar hdtype hsize hbytes =>
    cases h' with
    | exact array' scalar' hdtype' hsize' hbytes' =>
      have htype : scalar.dtype = scalar'.dtype ↔ array.dtype = array'.dtype := by
        rw [hdtype, hdtype', DType.ext_iff]
        simp
      simp only [ConstantValue.Same, PyValue.Same, htype]
      rw [hsize, hsize', ← hbytes, ← hbytes', List.take_take, List.take_take, min_self, min_self]
    | _ => simp [ConstantValue.Same, PyValue.Same]

/-- An entry that is read has a name, and its value is read as it is. -/
theorem parseConstant_eq_ok {entry : Option ByteString × PyValue} {c : FunctionConstant}
    (h : parseConstant entry = .ok c) : entry.1 = some c.name ∧ Parsed entry.2 c.value := by
  obtain ⟨key, value⟩ := entry
  cases key with
  | none => cases h
  | some name =>
    cases hvalue : parseValue name value with
    | error failure =>
      simp only [parseConstant, hvalue] at h
      cases h
    | ok constant =>
      simp only [parseConstant, hvalue] at h
      cases h
      exact ⟨rfl, parsed_of_parseValue hvalue⟩

/-- Two constants are the same exactly when the entries they were read from are. -/
theorem same_iff_of_parseConstant {entry entry' : Option ByteString × PyValue}
    {c c' : FunctionConstant} (h : parseConstant entry = .ok c)
    (h' : parseConstant entry' = .ok c') :
    c.Same c' ↔ entry.1 = entry'.1 ∧ entry.2.Same entry'.2 := by
  obtain ⟨hname, hvalue⟩ := parseConstant_eq_ok h
  obtain ⟨hname', hvalue'⟩ := parseConstant_eq_ok h'
  rw [FunctionConstant.Same, hname, hname', Option.some.injEq, hvalue.same_iff hvalue']

/-- Sorting constants with distinct names sorts them strictly and keeps them all. -/
theorem sortByName_sorted {constants : List FunctionConstant}
    (hdistinct : (constants.map FunctionConstant.name).Nodup) :
    (sortByName constants).Pairwise (fun c c' => c.name < c'.name) ∧
      ∀ c, c ∈ sortByName constants ↔ c ∈ constants := by
  have hperm : (sortByName constants).Perm constants := List.mergeSort_perm _ _
  have htrans : ∀ a b c : FunctionConstant, decide (a.name ≤ b.name) = true →
      decide (b.name ≤ c.name) = true → decide (a.name ≤ c.name) = true := by
    intro a b c hab hbc
    rw [decide_eq_true_eq] at hab hbc ⊢
    exact List.le_trans hab hbc
  have htotal : ∀ a b : FunctionConstant,
      (decide (a.name ≤ b.name) || decide (b.name ≤ a.name)) = true := by
    intro a b
    rw [Bool.or_eq_true, decide_eq_true_eq, decide_eq_true_eq]
    exact List.le_total _ _
  have hsorted : (sortByName constants).Pairwise fun c c' => ¬ c'.name < c.name :=
    (List.pairwise_mergeSort htrans htotal constants).imp fun h => of_decide_eq_true h
  refine ⟨strictly_sorted hsorted ?_, fun c => hperm.mem_iff⟩
  exact (hperm.map FunctionConstant.name).nodup_iff.mpr hdistinct

/-- The entries of a dictionary that is read have the names of the constants. -/
theorem keys_eq_names {entries : List (Option ByteString × PyValue)}
    {constants : List FunctionConstant}
    (h : List.Forall₂ (fun entry c => parseConstant entry = .ok c) entries constants) :
    entries.map Prod.fst = constants.map fun c => some c.name := by
  induction h with
  | nil => rfl
  | cons hhead _ ih => rw [List.map_cons, List.map_cons, ih, (parseConstant_eq_ok hhead).1]

/-- The names of the constants read from a dictionary are distinct. -/
theorem distinct_names {dict : PyDict} {constants : List FunctionConstant}
    (h : List.Forall₂ (fun entry c => parseConstant entry = .ok c) dict.entries constants) :
    (constants.map FunctionConstant.name).Nodup := by
  have hdistinct := dict.distinct
  rw [keys_eq_names h, List.pairwise_map] at hdistinct
  refine List.pairwise_map.mpr (hdistinct.imp ?_)
  intro c c' hne hname
  exact hne.elim (fun hnone => by cases hnone) fun hne => hne (congrArg some hname)

/-- The constants of an accepted dictionary: one for each entry, strictly sorted by name. -/
theorem parseConstants_eq_ok {dict : PyDict} {constants : List FunctionConstant}
    (h : parseConstants dict = .ok constants) :
    constants.Pairwise (fun c c' => c.name < c'.name) ∧
      (∀ entry ∈ dict.entries, ∃ c ∈ constants, parseConstant entry = .ok c) ∧
      ∀ c ∈ constants, ∃ entry ∈ dict.entries, parseConstant entry = .ok c := by
  obtain ⟨out, hout, hsorted⟩ := bind_eq_ok_iff.mp h
  cases hsorted
  have hread := mapM_eq_ok_iff.mp hout
  obtain ⟨hstrict, hmem⟩ := sortByName_sorted (distinct_names hread)
  obtain ⟨hentries, hconstants⟩ := partners_of_forall₂ hread
  refine ⟨hstrict, ?_, ?_⟩
  · intro entry hentry
    obtain ⟨c, hc, hparse⟩ := hentries entry hentry
    exact ⟨c, (hmem c).mpr hc, hparse⟩
  · intro c hc
    exact hconstants c ((hmem c).mp hc)

/-- The constants of two dictionaries agree in order exactly when the dictionaries hold the
same ones. -/
theorem constants_same_iff {dict dict' : PyDict} {constants constants' : List FunctionConstant}
    (h : parseConstants dict = .ok constants) (h' : parseConstants dict' = .ok constants') :
    List.Forall₂ FunctionConstant.Same constants constants' ↔ dict.SameConstants dict' := by
  obtain ⟨hstrict, hread, hfrom⟩ := parseConstants_eq_ok h
  obtain ⟨hstrict', hread', hfrom'⟩ := parseConstants_eq_ok h'
  constructor
  · intro hsame
    obtain ⟨hright, hleft⟩ := partners_of_forall₂ hsame
    refine ⟨?_, ?_⟩
    · intro entry hentry
      obtain ⟨c, hc, hparse⟩ := hread entry hentry
      obtain ⟨c', hc', hcc'⟩ := hright c hc
      obtain ⟨entry', hentry', hparse'⟩ := hfrom' c' hc'
      exact ⟨entry', hentry', (same_iff_of_parseConstant hparse hparse').mp hcc'⟩
    · intro entry' hentry'
      obtain ⟨c', hc', hparse'⟩ := hread' entry' hentry'
      obtain ⟨c, hc, hcc'⟩ := hleft c' hc'
      obtain ⟨entry, hentry, hparse⟩ := hfrom c hc
      exact ⟨entry, hentry, (same_iff_of_parseConstant hparse hparse').mp hcc'⟩
  · intro hsame
    refine forall₂_of_sorted (fun c c' hcc' => hcc'.1) hstrict hstrict' ?_ ?_
    · intro c hc
      obtain ⟨entry, hentry, hparse⟩ := hfrom c hc
      obtain ⟨entry', hentry', heq⟩ := hsame.1 entry hentry
      obtain ⟨c', hc', hparse'⟩ := hread' entry' hentry'
      exact ⟨c', hc', (same_iff_of_parseConstant hparse hparse').mpr heq⟩
    · intro c' hc'
      obtain ⟨entry', hentry', hparse'⟩ := hfrom' c' hc'
      obtain ⟨entry, hentry, heq⟩ := hsame.2 entry' hentry'
      obtain ⟨c, hc, hparse⟩ := hread entry hentry
      exact ⟨c, hc, (same_iff_of_parseConstant hparse hparse').mpr heq⟩

/-- For every two names, made of any bytes, and every two accepted dictionaries, the pipeline
keys are equal exactly when the names are and the dictionaries hold the same constants. -/
theorem parsed_keys_eq_iff {dict dict' : PyDict} {constants constants' : List FunctionConstant}
    (h : parseConstants dict = .ok constants) (h' : parseConstants dict' = .ok constants')
    (name name' : ByteString) :
    pipelineKey name constants = pipelineKey name' constants' ↔
      name = name' ∧ dict.SameConstants dict' := by
  rw [← constants_same_iff h h']
  constructor
  · intro hkeys
    exact pipelineKey_inj hkeys
  · intro hsame
    rw [hsame.1]
    exact pipelineKey_congr name' hsame.2

/-- A dictionary with a name that looks like the text of a key. -/
def tileDict : PyDict :=
  ⟨[(some (ascii "1:k=I3"), .bool true), (some (ascii "k"), .int 3)], by decide⟩

/-- The same constants, inserted in the other order. -/
def reversedTileDict : PyDict :=
  ⟨[(some (ascii "k"), .int 3), (some (ascii "1:k=I3"), .bool true)], by decide⟩

/-- The order of insertion does not reach the key. -/
theorem reversed_tile_same_key : ∃ constants constants',
    parseConstants tileDict = .ok constants ∧ parseConstants reversedTileDict = .ok constants' ∧
    (pipelineKey (ascii "tile") constants = pipelineKey (ascii "tile") constants' ↔
      ascii "tile" = ascii "tile" ∧ tileDict.SameConstants reversedTileDict) ∧
    tileDict.SameConstants reversedTileDict := by
  have hsame : tileDict.SameConstants reversedTileDict := by
    simp [PyDict.SameConstants, tileDict, reversedTileDict, PyValue.Same]
  have h : parseConstants tileDict = .ok _ := rfl
  have h' : parseConstants reversedTileDict = .ok _ := rfl
  exact ⟨_, _, h, h', parsed_keys_eq_iff h h' (ascii "tile") (ascii "tile"), hsame⟩

end MetalRuntime
