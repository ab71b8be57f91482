import MetalRuntime.DType
import MetalRuntime.Foundations.DelimitedText
import MetalRuntime.Foundations.Methods
import MetalRuntime.Launch

/-!
# Specialized functions and pipelines

Function constants, their coercion to the declared MSL types, `create_specialized` with the calls
that it makes on Metal, in order, and the constructor of `ComputePipeline`. The compiled Metal
library is a parameter: its lookup, its specialization and its pipeline build are functions of
their arguments.
-/

namespace MetalRuntime

open Foundations

/-- `FunctionConstant::ExactScalar`; every caller has checked that the type is supported. -/
structure ExactScalar where
  dtype : DType
  bytes : ByteString
  length_bytes : bytes.length = 8
  supported : (dtypeName dtype).isSome
  deriving DecidableEq

/-- The value of a function constant; a `double` is given by its bits. -/
inductive ConstantValue
  | bool (value : Bool)
  | int (value : Int64)
  | double (bits : UInt64)
  | exact (scalar : ExactScalar)
  deriving DecidableEq

/-- `FunctionConstant`. -/
structure FunctionConstant where
  name : ByteString
  value : ConstantValue
  deriving DecidableEq

/-- The C++ conversions to `float`, on bit patterns. -/
structure FloatConversions where
  ofDouble : UInt64 → UInt32
  ofInt64 : Int64 → UInt32

/-- The conversions of the machine that runs the model. -/
def hostConversions : FloatConversions where
  ofDouble := fun bits => (Float.ofBits bits).toFloat32.toBits
  ofInt64 := fun v => v.toFloat32.toBits

/-- `to_bytes` of a value of the given size: little-endian, padded to eight bytes. -/
def toBytes (size : ℕ) (bits : UInt64) : ByteString :=
  (List.range 8).map fun i => if i < size then (bits >>> UInt64.ofNat (8 * i)).toUInt8 else 0

/-- `fits` of `int_to_bytes`: the limits of a signed type are compared as `int64_t`, and the upper
one of an unsigned type as `uint64_t`. -/
def fitsInteger (signed : Bool) (size : ℕ) (v : Int64) : Bool :=
  if signed then
    Int64.ofInt (-2 ^ (8 * size - 1)) ≤ v ∧ v ≤ Int64.ofInt (2 ^ (8 * size - 1) - 1)
  else 0 ≤ v ∧ v.toUInt64 ≤ UInt64.ofNat (2 ^ (8 * size) - 1)

/-- `int_to_bytes` for an integer type of the given signedness and size. -/
def intToBytes (signed : Bool) (size : ℕ) (v : Int64) (name mslName : ByteString) :
    Except Failure ByteString := do
  rejectIf (¬ fitsInteger signed size v)
    (.compileError (ascii "function constant '" ++ name ++ ascii "' = " ++ signedDecimal v.toInt ++
      ascii " is out of range for declared type '" ++ mslName ++ ascii "'"))
  .ok (toBytes size v.toUInt64)

/-- The integer types a Python `int` coerces to: signedness and size. -/
def integerType : MTLDataType → Option (Bool × ℕ)
  | .char => some (true, 1)
  | .short => some (true, 2)
  | .int => some (true, 4)
  | .long => some (true, 8)
  | .uchar => some (false, 1)
  | .ushort => some (false, 2)
  | .uint => some (false, 4)
  | .ulong => some (false, 8)
  | _ => none

/-- The number in the message for an unsupported type. -/
def MTLDataType.raw : MTLDataType → ℕ
  | .other raw => raw
  | _ => 0

/-- The error of `coerce` for a value that does not fit the declared type. -/
def typeError (name mslName what : ByteString) : Failure :=
  .compileError (ascii "function constant '" ++ name ++ ascii "' is declared as '" ++ mslName ++
    ascii "', but the value is " ++ what)

/-- `coerce`: the bytes of one provided constant as its declared MSL type. -/
def coerce (conversions : FloatConversions) (c : FunctionConstant) (declared : MTLDataType) :
    Except Failure ByteString :=
  match constantDtype declared with
  | none => .error (.compileError (ascii "function constant '" ++ c.name ++
      ascii "' has an unsupported MSL type (MTLDataType " ++ decimal declared.raw ++
      ascii "); only scalar constants are supported"))
  | some target =>
    match mslTypeName target with
    | none => .error .undefinedBehavior
    | some mslName =>
      match c.value with
      | .exact scalar =>
        if scalar.dtype ≠ target then
          match dtypeName scalar.dtype with
          | none => .error .undefinedBehavior
          | some name => .error (typeError c.name mslName (ascii "a '" ++ name ++ ascii "' scalar"))
        else .ok scalar.bytes
      | .bool value =>
        if declared ≠ .bool then .error (typeError c.name mslName (ascii "a Python bool"))
        else .ok (toBytes 1 (if value then 1 else 0))
      | .double bits =>
        if declared = .half then
          .error (typeError c.name mslName (ascii "a Python float; pass numpy.float16(value)"))
        else if declared ≠ .float then .error (typeError c.name mslName (ascii "a Python float"))
        else .ok (toBytes 4 (conversions.ofDouble bits).toUInt64)
      | .int v =>
        match integerType declared with
        | some (signed, size) => intToBytes signed size v c.name mslName
        | none =>
          if declared = .float then .ok (toBytes 4 (conversions.ofInt64 v).toUInt64)
          else .error (typeError c.name mslName (ascii "a Python int"))

/-- `DeclaredConstant`. -/
structure DeclaredConstant where
  type : MTLDataType
  required : Bool
  deriving DecidableEq

/-- A call of `setConstantValue`: it reads as many bytes as the type has. -/
structure ConstantSetting where
  bytes : ByteString
  type : MTLDataType
  name : ByteString
  deriving DecidableEq

/-- The size of a scalar Metal type. -/
def MTLDataType.size (type : MTLDataType) : ℕ := (constantDtype type).elim 0 DType.itemsize

/-- The kind of a binding that reflection reports. -/
inductive MTLBindingType
  | buffer
  | threadgroupMemory
  | other
  deriving DecidableEq

/-- `MTL::Binding`. -/
structure MTLBinding where
  index : SizeT
  name : ByteString
  type : MTLBindingType
  isUsed : Bool
  bufferDataSize : SizeT
  deriving DecidableEq

/-- A compiled Metal library and its device, with what Metal and Foundation do for them. A
failure may come without an `NS::Error`. -/
structure MTLLibrary (Function : Type) where
  isUtf8 : ByteString → Bool
  newFunction : ByteString → Option Function
  functionConstants : Function → StdMap DeclaredConstant
  newSpecializedFunction : ByteString → List ConstantSetting → Except (Option ByteString) Function
  newComputePipelineState : Function →
    Except (Option ByteString) (MTLComputePipelineState × Option (List MTLBinding))

variable {Function : Type}

/-- Append a quoted name to a comma-separated list. -/
def appendQuoted (text name : ByteString) : ByteString :=
  text ++ (if text = [] then ascii "'" else ascii ", '") ++ name ++ ascii "'"

/-- The required constants that are not provided, for the message. -/
def missingConstants (declared : StdMap DeclaredConstant) (constants : List FunctionConstant) :
    ByteString :=
  declared.entries.foldl (fun missing entry =>
    let provided := constants.any fun c => c.name = entry.1
    if entry.2.required ∧ ¬ provided then appendQuoted missing entry.1 else missing) []

/-- The provided constants that are not declared, for the message. -/
def unknownConstants (declared : StdMap DeclaredConstant) (constants : List FunctionConstant) :
    ByteString :=
  constants.foldl (fun unknown c =>
    if (declared.find c.name).isNone then appendQuoted unknown c.name else unknown) []

/-- The check that constants are provided exactly as declared. -/
def checkConstants (name missing unknown : ByteString) : Except Failure Unit :=
  rejectIf (missing ≠ [] ∨ unknown ≠ [])
    (.compileError (
      (if missing ≠ [] then ascii "MSL function '" ++ name ++
          ascii "' requires function constant(s) " ++ missing ++
          ascii ", but they were not set; pass values via Kernel(..., constants=\x7b...\x7d)"
        else []) ++
      (if unknown ≠ [] then (if missing ≠ [] then ascii "; additionally, " else []) ++
          ascii "constant(s) " ++ unknown ++ ascii " do not exist in MSL function '" ++ name ++
          ascii "'"
        else [])))

/-- The loop body that sets one constant. -/
def setConstant (metal : MTLLibrary Function) (conversions : FloatConversions)
    (declared : StdMap DeclaredConstant) (c : FunctionConstant) :
    Except Failure ConstantSetting :=
  match declared.find c.name with
  | none => .error .outOfRange
  | some constant => do
    let bytes ← coerce conversions c constant.type
    let name ← toNsString metal.isUtf8 c.name (ascii "function constant name")
    .ok ⟨bytes.take constant.type.size, constant.type, name⟩

/-- A call that `create_specialized` makes on Metal objects. -/
inductive SpecializationCall
  | newFunction (name : ByteString)
  | setConstantValue (setting : ConstantSetting)
  | newSpecializedFunction (name : ByteString)
  deriving DecidableEq

/-- A method that records its calls. -/
abbrev SpecializationMethod := Method (List SpecializationCall) Failure

/-- Record a call. -/
def recordCall (call : SpecializationCall) : SpecializationMethod Unit :=
  modify fun calls => calls ++ [call]

/-- The loop that sets the constants; each is coerced and converted before it is set. -/
def setConstants (metal : MTLLibrary Function) (conversions : FloatConversions)
    (declared : StdMap DeclaredConstant) :
    List FunctionConstant → SpecializationMethod (List ConstantSetting)
  | [] => pure []
  | c :: rest => do
    let setting ← Method.ofExcept (setConstant metal conversions declared c)
    recordCall (.setConstantValue setting)
    let settings ← setConstants metal conversions declared rest
    pure (setting :: settings)

/-- The last part of `create_specialized`: Metal specializes the function with the values. -/
def specialize (metal : MTLLibrary Function) (name fnName : ByteString)
    (values : List ConstantSetting) : Except Failure Function :=
  match metal.newSpecializedFunction fnName values with
  | .ok fn => .ok fn
  | .error error => .error (.compileError (ascii "failed to specialize MSL function '" ++
      name ++ ascii "' with the given constants: " ++ describe error))

/-- `create_specialized` with the calls it makes. -/
def createSpecializedCalls (metal : MTLLibrary Function) (conversions : FloatConversions)
    (name : ByteString) (constants : List FunctionConstant) : SpecializationMethod Function := do
  let fnName ← Method.ofExcept (toNsString metal.isUtf8 name (ascii "function name"))
  recordCall (.newFunction fnName)
  match metal.newFunction fnName with
  | none => throw (.functionNotFound (ascii "no such MSL function: " ++ name))
  | some probe =>
    let declared := metal.functionConstants probe
    if declared.entries.isEmpty ∧ constants.isEmpty then pure probe
    else do
      Method.ofExcept (checkConstants name (missingConstants declared constants)
        (unknownConstants declared constants))
      let values ← setConstants metal conversions declared constants
      recordCall (.newSpecializedFunction fnName)
      Method.ofExcept (specialize metal name fnName values)

/-- `create_specialized`. -/
def createSpecialized (metal : MTLLibrary Function) (conversions : FloatConversions)
    (name : ByteString) (constants : List FunctionConstant) : Except Failure Function :=
  ((createSpecializedCalls metal conversions name constants).exec []).1

/-- The constructor of `ComputePipeline`, which keeps the used bindings of the reflection. -/
def ComputePipeline.create (metal : MTLLibrary Function) (function : Function)
    (label : ByteString) : Except Failure ComputePipeline :=
  match metal.newComputePipelineState function with
  | .error error =>
    .error (.pipelineBuild (ascii "failed to build compute pipeline: " ++ describe error))
  | .ok (pipeline, reflection) =>
    let used := (reflection.getD []).filter MTLBinding.isUsed
    .ok {
      pipeline, label
      bufferBindings := (used.filter fun binding => binding.type = .buffer).map fun binding =>
        ⟨binding.index, binding.name, binding.bufferDataSize⟩
      threadgroupBindings :=
        (used.filter fun binding => binding.type = .threadgroupMemory).map fun binding =>
          ⟨binding.index, binding.name, 0⟩ }

/-- Recording a call returns. -/
@[simp] theorem exec_recordCall (call : SpecializationCall) (calls : List SpecializationCall) :
    (recordCall call).exec calls = (.ok (), calls ++ [call]) := rfl

/-- The loop that sets the constants returns what the coercions return; when one of them
throws, the constants before it have been set. -/
theorem exec_setConstants (metal : MTLLibrary Function) (conversions : FloatConversions)
    (declared : StdMap DeclaredConstant) (constants : List FunctionConstant)
    (calls : List SpecializationCall) :
    ∃ settings, (setConstants metal conversions declared constants).exec calls =
        (constants.mapM (setConstant metal conversions declared),
          calls ++ settings.map .setConstantValue) ∧
      ∀ values, constants.mapM (setConstant metal conversions declared) = .ok values →
        settings = values := by
  induction constants generalizing calls with
  | nil =>
    refine ⟨[], ?_, fun values hvalues => by cases hvalues; rfl⟩
    rw [List.map_nil, List.append_nil]
    rfl
  | cons c rest ih =>
    rw [setConstants, List.mapM_cons, Method.exec_bind, Method.exec_ofExcept]
    cases setConstant metal conversions declared c with
    | error failure =>
      refine ⟨[], ?_, fun values hvalues => by cases hvalues⟩
      rw [List.map_nil, List.append_nil]
      rfl
    | ok setting =>
      obtain ⟨settings, hexec, hvalues⟩ := ih (calls ++ [.setConstantValue setting])
      refine ⟨setting :: settings, ?_, ?_⟩
      · rw [Method.andThen_ok, Method.exec_bind, exec_recordCall, Method.andThen_ok,
          Method.exec_bind, hexec, List.map_cons, List.append_assoc, List.singleton_append]
        cases rest.mapM (setConstant metal conversions declared) <;> rfl
      · intro values hok
        obtain ⟨first, hfirst, hrest⟩ := bind_eq_ok_iff.mp hok
        obtain ⟨others, hothers, hpure⟩ := bind_eq_ok_iff.mp hrest
        cases hfirst
        cases hpure
        rw [hvalues others hothers]

/-- What `create_specialized` returns, without the calls it makes. -/
theorem createSpecialized_eq (metal : MTLLibrary Function) (conversions : FloatConversions)
    (name : ByteString) (constants : List FunctionConstant) :
    createSpecialized metal conversions name constants =
      toNsString metal.isUtf8 name (ascii "function name") >>= fun fnName =>
        match metal.newFunction fnName with
        | none => .error (.functionNotFound (ascii "no such MSL function: " ++ name))
        | some probe =>
          let declared := metal.functionConstants probe
          if declared.entries.isEmpty ∧ constants.isEmpty then .ok probe
          else
            checkConstants name (missingConstants declared constants)
                (unknownConstants declared constants) >>= fun _ =>
              constants.mapM (setConstant metal conversions declared) >>=
                specialize metal name fnName := by
  rw [createSpecialized, createSpecializedCalls, Method.exec_bind, Method.exec_ofExcept]
  cases toNsString metal.isUtf8 name (ascii "function name") with
  | error failure => rfl
  | ok fnName =>
    rw [Method.andThen_ok, Method.exec_bind, exec_recordCall, Method.andThen_ok]
    change _ = (match metal.newFunction fnName with | none => _ | some probe => _)
    cases metal.newFunction fnName with
    | none => rfl
    | some probe =>
      dsimp only
      split
      · rfl
      · rw [Method.exec_bind, Method.exec_ofExcept]
        cases checkConstants name (missingConstants (metal.functionConstants probe) constants)
            (unknownConstants (metal.functionConstants probe) constants) with
        | error failure => rfl
        | ok _ =>
          obtain ⟨settings, hexec, -⟩ := exec_setConstants metal conversions
            (metal.functionConstants probe) constants ([] ++ [.newFunction fnName])
          rw [Method.andThen_ok, Method.exec_bind, hexec]
          change _ = (constants.mapM _ >>= _)
          cases constants.mapM (setConstant metal conversions (metal.functionConstants probe)) with
          | error failure => rfl
          | ok values =>
            rw [Method.andThen_ok, Method.exec_bind, exec_recordCall, Method.andThen_ok,
              Method.exec_ofExcept]
            rfl

/-- Every type has a name in the message of a failed coercion. -/
theorem coerce_defined (conversions : FloatConversions) (c : FunctionConstant)
    (declared : MTLDataType) : Defined (coerce conversions c declared) := by
  cases htarget : constantDtype declared with
  | none =>
    simp only [coerce, htarget]
    exact failsOnly_error (by simp)
  | some target =>
    obtain ⟨mslName, hmslName⟩ :=
      Option.isSome_iff_exists.mp (mslTypeName_of_constantDtype htarget).1
    simp only [coerce, htarget, hmslName]
    cases c.value with
    | exact scalar =>
      obtain ⟨name, hname⟩ := Option.isSome_iff_exists.mp scalar.supported
      simp only [hname]
      split
      · exact failsOnly_error (by simp [typeError])
      · exact failsOnly_ok _ _
    | bool value =>
      dsimp only
      split
      · exact failsOnly_error (by simp [typeError])
      · exact failsOnly_ok _ _
    | double bits =>
      dsimp only
      split
      · exact failsOnly_error (by simp [typeError])
      · split
        · exact failsOnly_error (by simp [typeError])
        · exact failsOnly_ok _ _
    | int v =>
      dsimp only
      split
      · exact (failsOnly_rejectIf (by simp)).bind fun _ _ => failsOnly_ok _ _
      · split
        · exact failsOnly_ok _ _
        · exact failsOnly_error (by simp [typeError])

/-- The loop body looks a constant up before it uses it. -/
theorem setConstant_defined (metal : MTLLibrary Function) (conversions : FloatConversions)
    (declared : StdMap DeclaredConstant) (c : FunctionConstant) :
    Defined (setConstant metal conversions declared c) := by
  unfold setConstant
  split
  · exact failsOnly_error (by simp)
  · refine (coerce_defined conversions c _).bind fun bytes _ => ?_
    refine (defined_of_failsOnly (toNsString_failsOnly _ _ _)).bind fun _ _ => ?_
    exact failsOnly_ok _ _

/-- `create_specialized` returns a function or throws. -/
theorem createSpecialized_defined (metal : MTLLibrary Function) (conversions : FloatConversions)
    (name : ByteString) (constants : List FunctionConstant) :
    Defined (createSpecialized metal conversions name constants) := by
  rw [createSpecialized_eq]
  refine (defined_of_failsOnly (toNsString_failsOnly _ _ _)).bind fun _ _ => ?_
  split
  · exact failsOnly_error (by simp)
  · dsimp only
    split
    · exact failsOnly_ok _ _
    · refine (failsOnly_rejectIf (by simp)).bind fun _ _ => ?_
      refine (failsOnly_mapM fun c _ => setConstant_defined metal conversions _ c).bind
        fun values _ => ?_
      unfold specialize
      split
      · exact failsOnly_ok _ _
      · exact failsOnly_error (by simp)

/-- The constructor of `ComputePipeline` builds or throws. -/
theorem ComputePipeline.create_defined (metal : MTLLibrary Function) (function : Function)
    (label : ByteString) : Defined (ComputePipeline.create metal function label) := by
  unfold ComputePipeline.create
  split
  · exact failsOnly_error (by simp)
  · exact failsOnly_ok _ _

/-- The values of two constants that nothing in the runtime tells apart: equal, except that
the bytes of a scalar beyond its size do not count. -/
def ConstantValue.Same : ConstantValue → ConstantValue → Prop
  | .exact scalar, .exact other => scalar.dtype = other.dtype ∧
      scalar.bytes.take scalar.dtype.itemsize = other.bytes.take other.dtype.itemsize
  | value, other => value = other

/-- Two constants with one name and the same value. -/
def FunctionConstant.Same (c other : FunctionConstant) : Prop :=
  c.name = other.name ∧ c.value.Same other.value

/-- A scalar of the declared type is copied. -/
theorem coerce_exact_of_eq (conversions : FloatConversions) (name : ByteString)
    {scalar : ExactScalar} {type : MTLDataType} (h : constantDtype type = some scalar.dtype) :
    coerce conversions ⟨name, .exact scalar⟩ type = .ok scalar.bytes := by
  obtain ⟨mslName, hname⟩ := Option.isSome_iff_exists.mp (mslTypeName_of_constantDtype h).1
  simp only [coerce, h, hname, ne_eq, not_true_eq_false, if_false]

/-- The outcome of coercing an exact scalar is decided by its type: an error that does not
mention the bytes, or the bytes themselves. -/
theorem coerce_exact (conversions : FloatConversions) (name : ByteString) (dtype : DType)
    (type : MTLDataType) :
    (∃ failure, ∀ scalar : ExactScalar, scalar.dtype = dtype →
      coerce conversions ⟨name, .exact scalar⟩ type = .error failure) ∨
    (constantDtype type = some dtype ∧ ∀ scalar : ExactScalar, scalar.dtype = dtype →
      coerce conversions ⟨name, .exact scalar⟩ type = .ok scalar.bytes) := by
  cases htarget : constantDtype type with
  | none => exact Or.inl ⟨_, fun scalar _ => by simp only [coerce, htarget]; rfl⟩
  | some target =>
    obtain ⟨mslName, hmslName⟩ :=
      Option.isSome_iff_exists.mp (mslTypeName_of_constantDtype htarget).1
    by_cases hsame : dtype = target
    · subst hsame
      refine Or.inr ⟨rfl, ?_⟩
      intro scalar hscalar
      exact coerce_exact_of_eq conversions name (htarget.trans (congrArg some hscalar.symm))
    · cases hname : dtypeName dtype with
      | none =>
        refine Or.inl ⟨.undefinedBehavior, ?_⟩
        intro scalar hscalar
        simp only [coerce, htarget, hmslName, hscalar, ne_eq, hsame, not_false_eq_true, if_true,
          hname]
      | some dtypeText =>
        refine Or.inl ⟨typeError name mslName (ascii "a '" ++ dtypeText ++ ascii "' scalar"), ?_⟩
        intro scalar hscalar
        simp only [coerce, htarget, hmslName, hscalar, ne_eq, hsame, not_false_eq_true, if_true,
          hname]

/-- Constants with the same value are set the same way. -/
theorem setConstant_congr (metal : MTLLibrary Function) (conversions : FloatConversions)
    (declared : StdMap DeclaredConstant) {c other : FunctionConstant} (h : c.Same other) :
    setConstant metal conversions declared c = setConstant metal conversions declared other := by
  obtain ⟨name, value⟩ := c
  obtain ⟨name', value'⟩ := other
  obtain ⟨hname, hvalue⟩ := h
  cases hname
  cases value with
  | exact scalar =>
    cases value' with
    | exact scalar' =>
      obtain ⟨hdtype, hbytes⟩ := hvalue
      simp only [setConstant]
      cases declared.find name with
      | none => rfl
      | some constant =>
        rcases coerce_exact conversions name scalar.dtype constant.type with
          ⟨failure, hfailure⟩ | ⟨htype, hok⟩
        · simp only [hfailure scalar rfl, hfailure scalar' hdtype.symm]
        · have hsize : constant.type.size = scalar.dtype.itemsize := by
            rw [MTLDataType.size, htype]
            rfl
          have hsize' : constant.type.size = scalar'.dtype.itemsize := by rw [hsize, hdtype]
          rw [← hsize, ← hsize'] at hbytes
          simp only [hok scalar rfl, hok scalar' hdtype.symm, bind, Except.bind, hbytes]
    | _ => cases hvalue
  | bool b => cases value' <;> cases hvalue; rfl
  | int v => cases value' <;> cases hvalue; rfl
  | double bits => cases value' <;> cases hvalue; rfl

/-- Requests with one name and the same constants are specialized the same way. -/
theorem createSpecialized_congr (metal : MTLLibrary Function) (conversions : FloatConversions)
    (name : ByteString) {constants others : List FunctionConstant}
    (h : List.Forall₂ FunctionConstant.Same constants others) :
    createSpecialized metal conversions name constants =
      createSpecialized metal conversions name others := by
  have hnames : constants.map FunctionConstant.name = others.map FunctionConstant.name := by
    induction h with
    | nil => rfl
    | cons hhead _ ih => rw [List.map_cons, List.map_cons, hhead.1, ih]
  have hempty : constants.isEmpty = others.isEmpty := by
    cases h <;> rfl
  have hmissing : ∀ declared, missingConstants declared constants =
      missingConstants declared others := by
    intro declared
    have hany : ∀ key,
        (constants.any fun c => c.name = key) = others.any fun c => c.name = key := by
      intro key
      have hmap := congrArg (List.any · fun n => decide (n = key)) hnames
      rw [List.any_map, List.any_map] at hmap
      exact hmap
    simp only [missingConstants, hany]
  have hunknown : ∀ declared, unknownConstants declared constants =
      unknownConstants declared others := by
    intro declared
    have hmap := congrArg (List.foldl (fun unknown n =>
      if (declared.find n).isNone then appendQuoted unknown n else unknown) []) hnames
    rw [List.foldl_map, List.foldl_map] at hmap
    exact hmap
  have hvalues : ∀ declared, constants.mapM (setConstant metal conversions declared) =
      others.mapM (setConstant metal conversions declared) := by
    intro declared
    clear hnames hempty hmissing hunknown
    induction h with
    | nil => rfl
    | cons hhead _ ih => rw [List.mapM_cons, List.mapM_cons, setConstant_congr _ _ _ hhead, ih]
  simp only [createSpecialized_eq, hempty, hmissing, hunknown, hvalues]

/-- A library with one function, which requires one integer constant. -/
def scaleMetal : MTLLibrary (ByteString × List ConstantSetting) where
  isUtf8 := fun _ => true
  newFunction := fun name => if name = ascii "scale" then some (name, []) else none
  functionConstants := fun _ => ⟨[(ascii "k", ⟨.int, true⟩)], List.pairwise_singleton _ _⟩
  newSpecializedFunction := fun name values => .ok (name, values)
  newComputePipelineState := fun _ => .ok (⟨1, 1024, 32, 0⟩, some [])

end MetalRuntime
