import MetalRuntime.IntegerConstants
import MetalRuntime.ParsedConstants

/-!
# Constants from NumPy scalars

A NumPy scalar given as a function constant is to have the declared type exactly.
`parse_constants` recognizes a scalar by its not being a `bool`, an `int` or a `float`, and
`numpy.float64` is a `float`: it is parsed as a Python number and rounded to a declared `float`.
Every other scalar, and every other declared type, is treated as intended.
-/

namespace MetalRuntime

open Foundations

/-- A NumPy scalar that converts to a host array, which has no dimensions then. `float64` says
whether its type is `numpy.float64`, the only one that subclasses a Python number type. -/
structure NumpyElement where
  dtype : DLDataType
  address : SizeT
  data : ByteString
  length_data : data.length = dtype.itemsize
  float64 : Bool
  dtype_of_float64 : float64 = true → dtype = ⟨DType.float, 64, 1⟩

/-- A NumPy scalar. Some types, such as `numpy.datetime64`, have no host array. -/
inductive NumpyScalar
  | convertible (element : NumpyElement)
  | unconvertible

/-- The host array of a scalar. -/
def NumpyElement.array (element : NumpyElement) : HostArray where
  dtype := element.dtype
  shape := []
  address := element.address
  data := element.data
  length_data := by rw [element.length_data, List.foldl_nil, Nat.one_mul]

/-- What the checks of `parse_constants` see of a scalar: `isinstance` goes by the type, so a
`numpy.float64` is the `float` with its bits. -/
def NumpyScalar.pyValue : NumpyScalar → PyValue
  | .convertible element =>
    if element.float64 then .float (UInt64.ofNat (littleEndian element.data))
    else .array element.array
  | .unconvertible => .other

/-- The scalar has exactly the element type of the declared type. -/
def NumpyScalar.HasType (scalar : NumpyScalar) (declared : MTLDataType) : Prop :=
  ∃ element dtype, scalar = .convertible element ∧ constantDtype declared = some dtype ∧
    element.dtype = ⟨dtype.code, dtype.bits, 1⟩

/-- The scalar is a `numpy.float64`. -/
def NumpyScalar.IsFloat64 (scalar : NumpyScalar) : Prop :=
  ∃ element, scalar = .convertible element ∧ element.float64 = true

/-- The bytes set for the constant under a key: `parse_constants` on the dictionary, and
`coerce` on the constant of that name. -/
def constantBytes (conversions : FloatConversions) (dict : PyDict) (key : Option ByteString)
    (declared : MTLDataType) : Except BindingFailure ByteString := do
  let constants ← parseConstants dict
  match constants.find? fun c => some c.name = key with
  | none => .error (.thrown .outOfRange)
  | some c =>
    match coerce conversions c declared with
    | .error failure => .error (.thrown failure)
    | .ok bytes => .ok (bytes.take declared.size)

/-- A scalar in a dictionary is set only as what it is: success means that it has the declared
type and that its own bytes are set, without that type an error is raised, and with it the
constant is set unless the dictionary is refused. -/
structure SetExactly (conversions : FloatConversions) (dict : PyDict) (key : Option ByteString)
    (scalar : NumpyScalar) (declared : MTLDataType) : Prop where
  exact : ∀ bytes, constantBytes conversions dict key declared = .ok bytes →
    ∃ element, scalar = .convertible element ∧ scalar.HasType declared ∧ bytes = element.data
  rejects : ¬ scalar.HasType declared →
    ∃ failure, constantBytes conversions dict key declared = .error failure
  accepts : scalar.HasType declared → ∀ constants, parseConstants dict = .ok constants →
    ∃ bytes, constantBytes conversions dict key declared = .ok bytes

/-- Constants sorted strictly by name have no two of one name. -/
theorem eq_of_name_eq {constants : List FunctionConstant}
    (hsorted : constants.Pairwise fun c c' => c.name < c'.name) {c c' : FunctionConstant}
    (h : c ∈ constants) (h' : c' ∈ constants) (hname : c.name = c'.name) : c = c' := by
  induction hsorted with
  | nil => exact absurd h List.not_mem_nil
  | cons hfirst _ ih =>
    rcases List.mem_cons.mp h with rfl | hrest
    · rcases List.mem_cons.mp h' with rfl | hrest'
      · rfl
      · exact absurd hname (Std.ne_of_lt (hfirst c' hrest'))
    · rcases List.mem_cons.mp h' with rfl | hrest'
      · exact absurd hname.symm (Std.ne_of_lt (hfirst c hrest))
      · exact ih hrest hrest'

/-- In an accepted dictionary, the constant under the key of an entry is read from that entry. -/
theorem constantBytes_eq (conversions : FloatConversions) {dict : PyDict}
    {constants : List FunctionConstant} (h : parseConstants dict = .ok constants)
    {key : Option ByteString} {value : PyValue} (hentry : (key, value) ∈ dict.entries)
    (declared : MTLDataType) :
    ∃ c, parseConstant (key, value) = .ok c ∧
      constantBytes conversions dict key declared =
        match coerce conversions c declared with
        | .error failure => .error (.thrown failure)
        | .ok bytes => .ok (bytes.take declared.size) := by
  obtain ⟨hsorted, hread, -⟩ := parseConstants_eq_ok h
  obtain ⟨c, hc, hparse⟩ := hread _ hentry
  have hkey : key = some c.name := (parseConstant_eq_ok hparse).1
  have hfind : constants.find? (fun c => some c.name = key) = some c := by
    cases hfound : constants.find? fun c => some c.name = key with
    | none =>
      have hnone := List.find?_eq_none.mp hfound c hc
      simp [hkey] at hnone
    | some c' =>
      have hname : some c'.name = key := by simpa using List.find?_some hfound
      rw [hkey] at hname
      rw [eq_of_name_eq hsorted (List.mem_of_find?_eq_some hfound) hc (Option.some.inj hname)]
  refine ⟨c, hparse, ?_⟩
  rw [constantBytes, h]
  simp only [bind, Except.bind, hfind]

/-- A Python float is accepted for the type `float` only. -/
theorem coerce_double (conversions : FloatConversions) (name : ByteString) (bits : UInt64)
    {declared : MTLDataType} (h : declared ≠ .float) :
    ∃ failure, coerce conversions ⟨name, .double bits⟩ declared = .error failure := by
  cases htarget : constantDtype declared with
  | none => exact ⟨_, by simp only [coerce, htarget]; rfl⟩
  | some target =>
    obtain ⟨mslName, hname⟩ :=
      Option.isSome_iff_exists.mp (mslTypeName_of_constantDtype htarget).1
    by_cases hhalf : declared = .half
    · exact ⟨_, by simp only [coerce, htarget, hname, if_pos hhalf]; rfl⟩
    · exact ⟨_, by simp only [coerce, htarget, hname, if_neg hhalf, if_pos h]; rfl⟩

/-- A scalar of another type than the declared one, when an error is raised. -/
theorem setExactly_of_not_hasType {conversions : FloatConversions} {dict : PyDict}
    {key : Option ByteString} {scalar : NumpyScalar} {declared : MTLDataType}
    (htype : ¬ scalar.HasType declared)
    (h : ∃ failure, constantBytes conversions dict key declared = .error failure) :
    SetExactly conversions dict key scalar declared := by
  refine ⟨?_, fun _ => h, fun hsame => absurd hsame htype⟩
  intro bytes hbytes
  obtain ⟨failure, hfailure⟩ := h
  rw [hfailure] at hbytes
  cases hbytes

/-- A scalar in a dictionary that is refused. -/
theorem setExactly_of_refused (conversions : FloatConversions) {dict : PyDict}
    (h : ∀ constants, parseConstants dict ≠ .ok constants) (key : Option ByteString)
    (scalar : NumpyScalar) (declared : MTLDataType) :
    SetExactly conversions dict key scalar declared := by
  cases hparse : parseConstants dict with
  | ok constants => exact absurd hparse (h constants)
  | error failure =>
    have herror : constantBytes conversions dict key declared = .error failure := by
      rw [constantBytes, hparse]
      rfl
    refine ⟨?_, fun _ => ⟨failure, herror⟩, fun _ constants hok => absurd hok (h constants)⟩
    intro bytes hbytes
    rw [herror] at hbytes
    cases hbytes

/-- A dictionary with an entry that cannot be read is refused. -/
theorem parseConstants_of_unread {dict : PyDict} {entry : Option ByteString × PyValue}
    (hentry : entry ∈ dict.entries) (hunread : ∀ c, parseConstant entry ≠ .ok c)
    (constants : List FunctionConstant) : parseConstants dict ≠ .ok constants := by
  intro h
  obtain ⟨-, hread, -⟩ := parseConstants_eq_ok h
  obtain ⟨c, -, hc⟩ := hread entry hentry
  exact hunread c hc

/-- No declared type has the element type of a `numpy.float64`. -/
theorem not_hasType_of_float64 {scalar : NumpyScalar} (h : scalar.IsFloat64)
    (declared : MTLDataType) : ¬ scalar.HasType declared := by
  intro htype
  obtain ⟨element, rfl, hfloat64⟩ := h
  obtain ⟨_, dtype, hsame, hdeclared, hdtype⟩ := htype
  cases hsame
  rw [element.dtype_of_float64 hfloat64, DLDataType.mk.injEq] at hdtype
  obtain ⟨entry, hentry, rfl⟩ := Option.map_eq_some_iff.mp hdeclared
  have hall : ∀ entry ∈ constantTypes, ¬ (DType.float = entry.2.code ∧ 64 = entry.2.bits) := by
    decide
  exact hall entry (List.mem_of_find?_eq_some hentry) ⟨hdtype.1, hdtype.2.1⟩

/-- A `numpy.float64` is rejected for every type but `float`. -/
theorem setExactly_of_float64 (conversions : FloatConversions) {dict : PyDict}
    {key : Option ByteString} {bits : UInt64} (hentry : (key, .float bits) ∈ dict.entries)
    {scalar : NumpyScalar} (hfloat64 : scalar.IsFloat64) {declared : MTLDataType}
    (hdeclared : declared ≠ .float) : SetExactly conversions dict key scalar declared := by
  cases hparse : parseConstants dict with
  | error failure => exact setExactly_of_refused conversions (by simp [hparse]) key scalar declared
  | ok constants =>
    obtain ⟨c, hc, hbytes⟩ := constantBytes_eq conversions hparse hentry declared
    obtain ⟨name, value⟩ := c
    cases (parseConstant_eq_ok hc).2
    obtain ⟨failure, hfailure⟩ := coerce_double conversions name bits hdeclared
    exact setExactly_of_not_hasType (not_hasType_of_float64 hfloat64 declared)
      ⟨_, by rw [hbytes, hfailure]⟩

/-- A scalar that is parsed as an array is set exactly. -/
theorem setExactly_of_array (conversions : FloatConversions) {dict : PyDict}
    {key : Option ByteString} {element : NumpyElement}
    (hentry : (key, .array element.array) ∈ dict.entries) (declared : MTLDataType) :
    SetExactly conversions dict key (.convertible element) declared := by
  cases hparse : parseConstants dict with
  | error failure => exact setExactly_of_refused conversions (by simp [hparse]) key _ declared
  | ok constants =>
    obtain ⟨c, hc, hbytes⟩ := constantBytes_eq conversions hparse hentry declared
    obtain ⟨name, value⟩ := c
    cases (parseConstant_eq_ok hc).2 with
    | exact _ scalar hdtype hsize hdata =>
      by_cases htype : constantDtype declared = some scalar.dtype
      · have hwidth : declared.size = scalar.dtype.itemsize := by
          rw [MTLDataType.size, htype]
          rfl
        have hsame : (NumpyScalar.convertible element).HasType declared :=
          ⟨element, scalar.dtype, rfl, htype, hdtype⟩
        rw [coerce_exact_of_eq conversions name htype, hwidth] at hbytes
        simp only [hdata] at hbytes
        refine ⟨?_, fun hother => absurd hsame hother, fun _ _ _ => ⟨_, hbytes⟩⟩
        intro bytes hset
        rw [hbytes] at hset
        cases hset
        exact ⟨element, rfl, hsame, rfl⟩
      · obtain ⟨what, hwhat⟩ := coerce_exact_of_ne conversions name htype
        refine setExactly_of_not_hasType ?_ ⟨_, by rw [hbytes, hwhat]⟩
        intro hsame
        obtain ⟨_, dtype, helement, hdeclared, hother⟩ := hsame
        cases helement
        have hequal : scalar.dtype = dtype := by
          rw [show element.dtype = _ from hdtype, DLDataType.mk.injEq] at hother
          exact DType.ext hother.1 hother.2.1
        exact htype (hdeclared.trans (congrArg some hequal.symm))

/-- A dictionary with one entry. -/
def PyDict.single (key : Option ByteString) (value : PyValue) : PyDict :=
  ⟨[(key, value)], List.pairwise_singleton _ _⟩

/-- A Python float is set for a declared `float` as its conversion. -/
theorem constantBytes_single_float (conversions : FloatConversions) (name : ByteString)
    (bits : UInt64) :
    constantBytes conversions (.single (some name) (.float bits)) (some name) .float =
      .ok ((toBytes 4 (conversions.ofDouble bits).toUInt64).take 4) := by
  have hread : (PyDict.single (some name) (.float bits)).entries.mapM parseConstant =
      .ok [⟨name, .double bits⟩] := rfl
  have hparse : parseConstants (.single (some name) (.float bits)) =
      .ok [⟨name, .double bits⟩] := by
    rw [parseConstants, hread]
    exact congrArg Except.ok (List.mergeSort_singleton _)
  obtain ⟨c, hc, hbytes⟩ :=
    constantBytes_eq conversions hparse (List.mem_singleton_self _) .float
  cases hc
  exact hbytes

/-- For every key, every NumPy scalar and every declared type, the scalar is set exactly, in
every dictionary that holds it under the key, except when the key is a string, the scalar is
a `numpy.float64` and the declared type is `float`. -/
theorem numpy_scalars_set_exactly_iff (conversions : FloatConversions) (key : Option ByteString)
    (scalar : NumpyScalar) (declared : MTLDataType) :
    (∀ dict : PyDict, (key, scalar.pyValue) ∈ dict.entries →
      SetExactly conversions dict key scalar declared) ↔
    ¬ (key.isSome ∧ scalar.IsFloat64 ∧ declared = .float) := by
  constructor
  · intro hall hfloat
    obtain ⟨hkey, hfloat64, rfl⟩ := hfloat
    obtain ⟨name, rfl⟩ := Option.isSome_iff_exists.mp hkey
    have hrejects := (hall (.single (some name) scalar.pyValue)
      (List.mem_singleton_self _)).rejects (not_hasType_of_float64 hfloat64 .float)
    obtain ⟨element, rfl, helement⟩ := hfloat64
    simp only [NumpyScalar.pyValue, helement, if_true, constantBytes_single_float] at hrejects
    obtain ⟨failure, hfailure⟩ := hrejects
    cases hfailure
  · intro hfloat dict hentry
    cases scalar with
    | unconvertible =>
      refine setExactly_of_refused conversions (parseConstants_of_unread hentry ?_) key _ declared
      intro c hc
      cases (parseConstant_eq_ok hc).2
    | convertible element =>
      cases hfloat64 : element.float64 with
      | false =>
        simp only [NumpyScalar.pyValue, hfloat64] at hentry
        exact setExactly_of_array conversions hentry declared
      | true =>
        have hscalar : (NumpyScalar.convertible element).IsFloat64 := ⟨element, rfl, hfloat64⟩
        simp only [NumpyScalar.pyValue, hfloat64, if_true] at hentry
        cases key with
        | none =>
          refine setExactly_of_refused conversions (parseConstants_of_unread hentry ?_) _ _ _
          intro c hc
          cases (parseConstant_eq_ok hc).1
        | some name =>
          have hdeclared : declared ≠ .float := fun heq => hfloat ⟨rfl, hscalar, heq⟩
          exact setExactly_of_float64 conversions hentry hscalar hdeclared

/-- The scalar `numpy.float64(0.1)`. -/
def tenth : NumpyElement where
  dtype := ⟨DType.float, 64, 1⟩
  address := 0
  data := [0x9A, 0x99, 0x99, 0x99, 0x99, 0x99, 0xB9, 0x3F]
  length_data := by decide
  float64 := true
  dtype_of_float64 := fun _ => rfl

/-- The dictionary that gives a scalar under the name `SCALE`. -/
def scaleDict (scalar : NumpyScalar) : PyDict := .single (some (ascii "SCALE")) scalar.pyValue

/-- Given for a declared `float`, it is rounded to four bytes and accepted. -/
theorem tenth_rounded :
    constantBytes hostConversions (scaleDict (.convertible tenth)) (some (ascii "SCALE")) .float =
      .ok ((toBytes 4 (hostConversions.ofDouble 0x3FB999999999999A).toUInt64).take 4) ∧
    ¬ (NumpyScalar.convertible tenth).HasType .float ∧
    ¬ SetExactly hostConversions (scaleDict (.convertible tenth)) (some (ascii "SCALE"))
      (.convertible tenth) .float := by
  have hset : constantBytes hostConversions (scaleDict (.convertible tenth))
      (some (ascii "SCALE")) .float =
        .ok ((toBytes 4 (hostConversions.ofDouble 0x3FB999999999999A).toUInt64).take 4) :=
    constantBytes_single_float hostConversions (ascii "SCALE") 0x3FB999999999999A
  have htype := not_hasType_of_float64 ⟨tenth, rfl, rfl⟩ .float
  refine ⟨hset, htype, ?_⟩
  intro hexact
  obtain ⟨failure, hfailure⟩ := hexact.rejects htype
  rw [hset] at hfailure
  cases hfailure

end MetalRuntime
