import MetalRuntime.Specialization

/-!
# Function-constant validation is exact

Metal takes an unset or a misspelled constant without complaint, so `create_specialized` is
all that stands between a wrong set of constants and a kernel that reads an undefined value.
The calls that it makes on Metal say what it has set when it throws.
-/

namespace MetalRuntime

open Foundations

variable {Function : Type}

/-- The required constants that are not provided. -/
def missingNames (declared : StdMap DeclaredConstant) (constants : List FunctionConstant) :
    List ByteString :=
  (declared.entries.filter fun entry =>
    entry.2.required ∧ ¬ constants.any fun c => c.name = entry.1).map Prod.fst

/-- The provided constants that are not declared. -/
def unknownNames (declared : StdMap DeclaredConstant) (constants : List FunctionConstant) :
    List ByteString :=
  (constants.filter fun c => (declared.find c.name).isNone).map FunctionConstant.name

/-- Names in quotes, separated by commas. -/
def quotedNames (names : List ByteString) : ByteString :=
  (ascii ", ").intercalate (names.map fun name => ascii "'" ++ name ++ ascii "'")

/-- The message about constants that are not provided as declared. -/
def mismatchText (name : ByteString) (missing unknown : List ByteString) : ByteString :=
  (if missing ≠ [] then ascii "MSL function '" ++ name ++
      ascii "' requires function constant(s) " ++ quotedNames missing ++
      ascii ", but they were not set; pass values via Kernel(..., constants=\x7b...\x7d)"
    else []) ++
  (if unknown ≠ [] then (if missing ≠ [] then ascii "; additionally, " else []) ++
      ascii "constant(s) " ++ quotedNames unknown ++ ascii " do not exist in MSL function '" ++
      name ++ ascii "'"
    else [])

/-- Appending names one by one to a list that is not empty. -/
private theorem foldl_appendQuoted (names : List ByteString) {text : ByteString}
    (htext : text ≠ []) : names.foldl appendQuoted text =
      text ++ names.flatMap fun name => ascii ", '" ++ name ++ ascii "'" := by
  induction names generalizing text with
  | nil => simp
  | cons name rest ih =>
    rw [List.foldl_cons, ih (by simp [appendQuoted, htext]), List.flatMap_cons, appendQuoted,
      if_neg htext]
    simp only [List.append_assoc]

/-- Words with a separator between them: each but the first is preceded by it. -/
private theorem intercalate_cons (separator first : ByteString) (rest : List ByteString) :
    separator.intercalate (first :: rest) = first ++ rest.flatMap (separator ++ ·) := by
  induction rest generalizing first with
  | nil => simp
  | cons second rest ih =>
    rw [List.intercalate_cons_cons, ih, List.flatMap_cons, List.append_assoc, List.append_assoc]

/-- The text that the scans build is the list of the names in quotes. -/
theorem foldl_appendQuoted_nil (names : List ByteString) :
    names.foldl appendQuoted [] = quotedNames names := by
  cases names with
  | nil => rfl
  | cons name rest =>
    have hfirst : appendQuoted [] name = ascii "'" ++ name ++ ascii "'" := rfl
    have hquote : ascii ", '" = ascii ", " ++ ascii "'" := by decide
    rw [List.foldl_cons, hfirst, foldl_appendQuoted rest (by simp [ascii]), quotedNames,
      List.map_cons,
      intercalate_cons, List.flatMap_map, hquote]
    simp only [List.append_assoc]

/-- The quoted list is empty only when there is no name. -/
theorem quotedNames_eq_nil_iff (names : List ByteString) : quotedNames names = [] ↔ names = [] := by
  cases names with
  | nil => exact iff_of_true rfl rfl
  | cons name rest =>
    refine iff_of_false ?_ (List.cons_ne_nil name rest)
    rw [quotedNames, List.map_cons, intercalate_cons]
    simp [ascii]

/-- The scan of the declared constants builds the text of the missing names. -/
theorem missingConstants_eq (declared : StdMap DeclaredConstant)
    (constants : List FunctionConstant) :
    missingConstants declared constants = quotedNames (missingNames declared constants) := by
  rw [← foldl_appendQuoted_nil, missingNames, List.foldl_map, List.foldl_filter]
  simp only [missingConstants, decide_eq_true_eq]

/-- The scan of the provided constants builds the text of the unknown names. -/
theorem unknownConstants_eq (declared : StdMap DeclaredConstant)
    (constants : List FunctionConstant) :
    unknownConstants declared constants = quotedNames (unknownNames declared constants) := by
  rw [← foldl_appendQuoted_nil, unknownNames, List.foldl_map, List.foldl_filter]
  rfl

/-- The check throws exactly for a missing or an unknown name, and names all of them. -/
theorem checkConstants_eq (name : ByteString) (missing unknown : List ByteString) :
    checkConstants name (quotedNames missing) (quotedNames unknown) =
      rejectIf (missing ≠ [] ∨ unknown ≠ [])
        (.compileError (mismatchText name missing unknown)) := by
  simp only [checkConstants, mismatchText, ne_eq, quotedNames_eq_nil_iff]

/-- A name is missing when its constant is required and not provided. -/
theorem mem_missingNames {declared : StdMap DeclaredConstant} {constants : List FunctionConstant}
    {key : ByteString} : key ∈ missingNames declared constants ↔
      ∃ constant, declared.find key = some constant ∧ constant.required ∧
        ∀ c ∈ constants, c.name ≠ key := by
  simp only [missingNames, List.mem_map, List.mem_filter, Prod.exists, StdMap.find_eq_some_iff,
    decide_eq_true_eq, List.any_eq_true, not_exists, not_and]
  constructor
  · intro h
    obtain ⟨name, constant, ⟨hmem, hrequired, hprovided⟩, rfl⟩ := h
    exact ⟨constant, hmem, hrequired, hprovided⟩
  · intro h
    obtain ⟨constant, hmem, hrequired, hprovided⟩ := h
    exact ⟨key, constant, ⟨hmem, hrequired, hprovided⟩, rfl⟩

/-- A name is unknown when it is provided and not declared. -/
theorem mem_unknownNames {declared : StdMap DeclaredConstant} {constants : List FunctionConstant}
    {key : ByteString} : key ∈ unknownNames declared constants ↔
      (∃ c ∈ constants, c.name = key) ∧ declared.find key = none := by
  simp only [unknownNames, List.mem_map, List.mem_filter, Option.isNone_iff_eq_none]
  constructor
  · intro h
    obtain ⟨c, ⟨hmem, hnone⟩, rfl⟩ := h
    exact ⟨⟨c, hmem, rfl⟩, hnone⟩
  · intro h
    obtain ⟨⟨c, hmem, rfl⟩, hnone⟩ := h
    exact ⟨c, ⟨hmem, hnone⟩, rfl⟩

/-- The constants are provided as declared: every required one, no other, and each with a value
of its declared type. -/
structure ProvidedAsDeclared (conversions : FloatConversions)
    (declared : StdMap DeclaredConstant) (constants : List FunctionConstant) : Prop where
  required : ∀ key constant, declared.find key = some constant → constant.required →
    ∃ c ∈ constants, c.name = key
  known : ∀ c ∈ constants, ∃ constant, declared.find c.name = some constant
  coercible : ∀ c ∈ constants, ∀ constant, declared.find c.name = some constant →
    ∃ bytes, coerce conversions c constant.type = .ok bytes

/-- No name is missing or unknown exactly when the names are provided as declared. -/
theorem names_match_iff {declared : StdMap DeclaredConstant} {constants : List FunctionConstant} :
    (missingNames declared constants = [] ∧ unknownNames declared constants = []) ↔
      (∀ key constant, declared.find key = some constant → constant.required →
        ∃ c ∈ constants, c.name = key) ∧
      ∀ c ∈ constants, ∃ constant, declared.find c.name = some constant := by
  simp only [List.eq_nil_iff_forall_not_mem, mem_missingNames, mem_unknownNames]
  refine and_congr ?_ ?_
  · refine forall_congr' fun key => ?_
    push Not
    rfl
  · constructor
    · intro h c hc
      exact Option.ne_none_iff_exists'.mp fun hnone => h c.name ⟨⟨c, hc, rfl⟩, hnone⟩
    · intro h key hunknown
      obtain ⟨⟨c, hc, rfl⟩, hnone⟩ := hunknown
      obtain ⟨constant, hconstant⟩ := h c hc
      rw [hnone] at hconstant
      cases hconstant

/-- The setting of a constant: its coerced bytes under its declared type and its own name. -/
def SetsConstant (conversions : FloatConversions) (declared : StdMap DeclaredConstant)
    (c : FunctionConstant) (setting : ConstantSetting) : Prop :=
  ∃ constant bytes, declared.find c.name = some constant ∧
    coerce conversions c constant.type = .ok bytes ∧
    setting = ⟨bytes.take constant.type.size, constant.type, c.name⟩

/-- A constant whose name Foundation converts is set when it is declared and coercible. -/
theorem setConstant_eq_ok {metal : MTLLibrary Function} {conversions : FloatConversions}
    {declared : StdMap DeclaredConstant} {c : FunctionConstant} {setting : ConstantSetting}
    (hnames : ∀ entry ∈ declared.entries, 0 ∉ entry.1 ∧ metal.isUtf8 entry.1 = true) :
    setConstant metal conversions declared c = .ok setting ↔
      SetsConstant conversions declared c setting := by
  unfold setConstant SetsConstant
  cases hfind : declared.find c.name with
  | none => simp
  | some constant =>
    obtain ⟨hnul, hutf8⟩ := hnames _ (StdMap.find_eq_some_iff.mp hfind)
    have hconvert : toNsString metal.isUtf8 c.name (ascii "function constant name") = .ok c.name :=
      toNsString_eq_ok.mpr ⟨hnul, hutf8, rfl⟩
    simp only [bind_eq_ok_iff (ε := Failure), hconvert, Except.ok.injEq, exists_eq_left',
      Option.some.injEq, exists_and_left]
    exact exists_congr fun bytes => and_congr_right fun _ => eq_comm

/-- What `create_specialized` does for an existing function: how it ends, and the calls it
makes on Metal. -/
inductive SpecializationCase (metal : MTLLibrary Function) (conversions : FloatConversions)
    (name : ByteString) (constants : List FunctionConstant) (probe : Function) :
    Except Failure Function → List SpecializationCall → Prop
  /-- Nothing is declared and nothing is provided: the function found is returned. -/
  | shortcut (hdeclared : (metal.functionConstants probe).entries = []) (hnone : constants = []) :
      SpecializationCase metal conversions name constants probe (.ok probe) [.newFunction name]
  /-- Names are missing or unknown: nothing is set. -/
  | rejected (hmismatch : missingNames (metal.functionConstants probe) constants ≠ [] ∨
        unknownNames (metal.functionConstants probe) constants ≠ []) :
      SpecializationCase metal conversions name constants probe
        (.error (.compileError (mismatchText name
          (missingNames (metal.functionConstants probe) constants)
          (unknownNames (metal.functionConstants probe) constants)))) [.newFunction name]
  /-- A value does not fit its declared type. -/
  | uncoercible (settings : List ConstantSetting) (failure : Failure)
      (hmatch : missingNames (metal.functionConstants probe) constants = [] ∧
        unknownNames (metal.functionConstants probe) constants = [])
      (hfailure : constants.mapM (setConstant metal conversions (metal.functionConstants probe)) =
        .error failure) :
      SpecializationCase metal conversions name constants probe (.error failure)
        (.newFunction name :: settings.map .setConstantValue)
  /-- Every constant is set, and Metal specializes the function. -/
  | specialized (settings : List ConstantSetting) (result : Except Failure Function)
      (hmatch : missingNames (metal.functionConstants probe) constants = [] ∧
        unknownNames (metal.functionConstants probe) constants = [])
      (hsettings : constants.mapM (setConstant metal conversions (metal.functionConstants probe)) =
        .ok settings) :
      SpecializationCase metal conversions name constants probe result
        (.newFunction name :: settings.map .setConstantValue ++ [.newSpecializedFunction name])

section Cases

variable {metal : MTLLibrary Function} {name : ByteString} {probe : Function}
  (conversions : FloatConversions) (constants : List FunctionConstant)

/-- The loop that sets the constants and the specialization are one of the last two cases. -/
theorem specialize_cases
    (hmatch : missingNames (metal.functionConstants probe) constants = [] ∧
      unknownNames (metal.functionConstants probe) constants = []) :
    ∃ result calls,
      (do
        let values ← setConstants metal conversions (metal.functionConstants probe) constants
        recordCall (.newSpecializedFunction name)
        Method.ofExcept (specialize metal name name values) : SpecializationMethod Function).exec
          [.newFunction name] = (result, calls) ∧
      SpecializationCase metal conversions name constants probe result calls := by
  obtain ⟨settings, hexec, hsettings⟩ := exec_setConstants metal conversions
    (metal.functionConstants probe) constants [.newFunction name]
  rw [Method.exec_bind, hexec]
  cases hvalues :
    constants.mapM (setConstant metal conversions (metal.functionConstants probe)) with
  | error failure => exact ⟨_, _, rfl, .uncoercible settings failure hmatch hvalues⟩
  | ok values =>
    rw [hsettings values hvalues]
    refine ⟨_, _, ?_, .specialized values (specialize metal name name values) hmatch hvalues⟩
    rw [Method.andThen_ok, Method.exec_bind, exec_recordCall, Method.andThen_ok,
      Method.exec_ofExcept]
    rfl

/-- The checks on the names and what follows them are one of the cases. -/
theorem checked_cases :
    ∃ result calls,
      (do
        Method.ofExcept (checkConstants name
          (missingConstants (metal.functionConstants probe) constants)
          (unknownConstants (metal.functionConstants probe) constants))
        let values ← setConstants metal conversions (metal.functionConstants probe) constants
        recordCall (.newSpecializedFunction name)
        Method.ofExcept (specialize metal name name values) : SpecializationMethod Function).exec
          [.newFunction name] = (result, calls) ∧
      SpecializationCase metal conversions name constants probe result calls := by
  rw [missingConstants_eq, unknownConstants_eq, checkConstants_eq, Method.exec_bind,
    Method.exec_ofExcept]
  by_cases hmismatch : missingNames (metal.functionConstants probe) constants ≠ [] ∨
      unknownNames (metal.functionConstants probe) constants ≠ []
  · rw [rejectIf, if_pos hmismatch]
    exact ⟨_, _, rfl, .rejected hmismatch⟩
  · rw [rejectIf, if_neg hmismatch]
    rw [not_or, not_not, not_not] at hmismatch
    exact specialize_cases conversions constants hmismatch

/-- `create_specialized` of an existing function is one of the cases. -/
theorem createSpecializedCalls_cases (hname : 0 ∉ name ∧ metal.isUtf8 name = true)
    (hprobe : metal.newFunction name = some probe) :
    ∃ result calls, (createSpecializedCalls metal conversions name constants).exec [] =
        (result, calls) ∧
      SpecializationCase metal conversions name constants probe result calls := by
  have hconvert : toNsString metal.isUtf8 name (ascii "function name") = .ok name :=
    toNsString_eq_ok.mpr ⟨hname.1, hname.2, rfl⟩
  rw [createSpecializedCalls, hconvert, Method.exec_bind, Method.exec_ofExcept,
    Method.andThen_ok, Method.exec_bind, exec_recordCall, Method.andThen_ok, hprobe]
  by_cases hempty : (metal.functionConstants probe).entries.isEmpty ∧ constants.isEmpty
  · simp only [if_pos hempty]
    exact ⟨_, _, rfl, .shortcut (List.isEmpty_iff.mp hempty.1) (List.isEmpty_iff.mp hempty.2)⟩
  · simp only [if_neg hempty]
    exact checked_cases conversions constants

end Cases

/-- `create_specialized` has passed its own checks: it returns, or it has reached Metal's
specialization. -/
def PassesChecks (result : Except Failure Function) (calls : List SpecializationCall) : Prop :=
  (∃ fn, result = .ok fn) ∨ ∃ fnName, .newSpecializedFunction fnName ∈ calls

/-- A run that threw before it reached Metal's specialization has not passed. -/
theorem not_passesChecks (failure : Failure) (name : ByteString)
    (settings : List ConstantSetting) :
    ¬ PassesChecks (.error failure : Except Failure Function)
      (.newFunction name :: settings.map .setConstantValue) := by
  simp [PassesChecks]

/-- The loop that sets the constants returns exactly when every constant is declared and
coercible, and then has set each of them. -/
theorem mapM_setConstant_eq_ok {metal : MTLLibrary Function} {conversions : FloatConversions}
    {declared : StdMap DeclaredConstant} {constants : List FunctionConstant}
    {settings : List ConstantSetting}
    (hnames : ∀ entry ∈ declared.entries, 0 ∉ entry.1 ∧ metal.isUtf8 entry.1 = true) :
    constants.mapM (setConstant metal conversions declared) = .ok settings ↔
      List.Forall₂ (SetsConstant conversions declared) constants settings := by
  simp only [mapM_eq_ok_iff, setConstant_eq_ok hnames]

/-- Constants that are all declared and coercible can be set. -/
theorem exists_settings {conversions : FloatConversions} {declared : StdMap DeclaredConstant}
    {constants : List FunctionConstant} (h : ProvidedAsDeclared conversions declared constants) :
    ∃ settings, List.Forall₂ (SetsConstant conversions declared) constants settings := by
  have hset : ∀ c ∈ constants, ∃ setting, SetsConstant conversions declared c setting := by
    intro c hc
    obtain ⟨constant, hconstant⟩ := h.known c hc
    obtain ⟨bytes, hbytes⟩ := h.coercible c hc constant hconstant
    exact ⟨_, constant, bytes, hconstant, hbytes, rfl⟩
  clear h
  induction constants with
  | nil => exact ⟨[], .nil⟩
  | cons c rest ih =>
    obtain ⟨setting, hsetting⟩ := hset c List.mem_cons_self
    obtain ⟨settings, hsettings⟩ :=
      ih fun other hother => hset other (List.mem_cons_of_mem c hother)
    exact ⟨setting :: settings, .cons hsetting hsettings⟩

/-- Settings carry the names of their constants. -/
theorem map_name_settings {conversions : FloatConversions} {declared : StdMap DeclaredConstant}
    {constants : List FunctionConstant} {settings : List ConstantSetting}
    (h : List.Forall₂ (SetsConstant conversions declared) constants settings) :
    settings.map ConstantSetting.name = constants.map FunctionConstant.name := by
  induction h with
  | nil => rfl
  | cons hhead _ ih =>
    obtain ⟨constant, bytes, -, -, rfl⟩ := hhead
    rw [List.map_cons, List.map_cons, ih]

/-- Names that match and constants that were set are constants provided as declared. -/
theorem providedAsDeclared_of_settings {conversions : FloatConversions}
    {declared : StdMap DeclaredConstant} {constants : List FunctionConstant}
    {settings : List ConstantSetting}
    (hmatch : missingNames declared constants = [] ∧ unknownNames declared constants = [])
    (h : List.Forall₂ (SetsConstant conversions declared) constants settings) :
    ProvidedAsDeclared conversions declared constants := by
  obtain ⟨hrequired, hknown⟩ := names_match_iff.mp hmatch
  refine ⟨hrequired, hknown, ?_⟩
  intro c hc constant hconstant
  obtain ⟨i, hi, rfl⟩ := List.getElem_of_mem hc
  have hlength := h.length_eq
  obtain ⟨other, bytes, hother, hbytes, -⟩ := h.get hi (by omega)
  rw [List.get_eq_getElem, hconstant] at hother
  cases hother
  exact ⟨bytes, hbytes⟩

/-- A required constant is among the settings, under its declared type. -/
theorem exists_setting_of_required {conversions : FloatConversions}
    {declared : StdMap DeclaredConstant} {constants : List FunctionConstant}
    {settings : List ConstantSetting}
    (h : List.Forall₂ (SetsConstant conversions declared) constants settings)
    {c : FunctionConstant} (hc : c ∈ constants) {constant : DeclaredConstant}
    (hconstant : declared.find c.name = some constant) :
    ∃ setting ∈ settings, setting.name = c.name ∧ setting.type = constant.type := by
  induction h with
  | nil => cases hc
  | cons hhead _ ih =>
    rcases List.mem_cons.mp hc with rfl | hrest
    · obtain ⟨other, bytes, hother, -, rfl⟩ := hhead
      rw [hconstant] at hother
      cases hother
      exact ⟨_, List.mem_cons_self, rfl, rfl⟩
    · obtain ⟨setting, hsetting, hname⟩ := ih hrest
      exact ⟨setting, List.mem_cons_of_mem _ hsetting, hname⟩

/-- For every existing function, all declared constants and all provided ones with distinct
names: `create_specialized` passes its checks exactly when the constants are provided as
declared. Then it returns the function found, as nothing was declared or provided, or it has
set exactly the provided constants, each under its own name and declared type, and every
required one among them. For a missing or an unknown name it throws before setting
anything, and names all of them. -/
theorem constant_validation_exact {metal : MTLLibrary Function} {name : ByteString}
    {probe : Function} (conversions : FloatConversions)
    (hname : 0 ∉ name ∧ metal.isUtf8 name = true)
    (hprobe : metal.newFunction name = some probe)
    (hnames : ∀ entry ∈ (metal.functionConstants probe).entries,
      0 ∉ entry.1 ∧ metal.isUtf8 entry.1 = true)
    {constants : List FunctionConstant}
    (hdistinct : (constants.map FunctionConstant.name).Nodup) :
    ∃ result calls,
      (createSpecializedCalls metal conversions name constants).exec [] = (result, calls) ∧
      createSpecialized metal conversions name constants = result ∧
      (PassesChecks result calls ↔
        ProvidedAsDeclared conversions (metal.functionConstants probe) constants) ∧
      (PassesChecks result calls →
        (result = .ok probe ∧ calls = [.newFunction name] ∧
          (metal.functionConstants probe).entries = [] ∧ constants = []) ∨
        ∃ settings, calls = .newFunction name :: settings.map .setConstantValue ++
            [.newSpecializedFunction name] ∧
          List.Forall₂ (SetsConstant conversions (metal.functionConstants probe)) constants
            settings ∧
          (settings.map ConstantSetting.name).Nodup ∧
          ∀ key constant, (metal.functionConstants probe).find key = some constant →
            constant.required → ∃ setting ∈ settings, setting.name = key ∧
              setting.type = constant.type) ∧
      (missingNames (metal.functionConstants probe) constants ≠ [] ∨
          unknownNames (metal.functionConstants probe) constants ≠ [] →
        result = .error (.compileError (mismatchText name
          (missingNames (metal.functionConstants probe) constants)
          (unknownNames (metal.functionConstants probe) constants))) ∧
        calls = [.newFunction name]) ∧
      (∀ key, key ∈ missingNames (metal.functionConstants probe) constants ↔
        ∃ constant, (metal.functionConstants probe).find key = some constant ∧
          constant.required ∧ ∀ c ∈ constants, c.name ≠ key) ∧
      ∀ key, key ∈ unknownNames (metal.functionConstants probe) constants ↔
        (∃ c ∈ constants, c.name = key) ∧ (metal.functionConstants probe).find key = none := by
  obtain ⟨result, calls, hexec, hcase⟩ :=
    createSpecializedCalls_cases conversions constants hname hprobe
  have hresult : createSpecialized metal conversions name constants = result :=
    congrArg Prod.fst hexec
  refine ⟨result, calls, hexec, hresult, ?_, ?_, ?_, fun _ => mem_missingNames,
    fun _ => mem_unknownNames⟩
  · cases hcase with
    | shortcut hdeclared hnone =>
      refine iff_of_true (Or.inl ⟨probe, rfl⟩) ?_
      rw [hnone]
      refine providedAsDeclared_of_settings ?_ List.Forall₂.nil
      rw [missingNames, hdeclared]
      exact ⟨rfl, rfl⟩
    | rejected hmismatch =>
      refine iff_of_false (not_passesChecks _ name []) ?_
      intro hprovided
      have hmatch := names_match_iff.mpr ⟨hprovided.required, hprovided.known⟩
      exact hmismatch.elim (fun h => h hmatch.1) (fun h => h hmatch.2)
    | uncoercible settings failure hmatch hfailure =>
      refine iff_of_false (not_passesChecks failure name settings) ?_
      intro hprovided
      obtain ⟨values, hvalues⟩ := exists_settings hprovided
      rw [(mapM_setConstant_eq_ok hnames).mpr hvalues] at hfailure
      cases hfailure
    | specialized settings result hmatch hsettings =>
      refine iff_of_true (Or.inr ⟨name, by simp⟩) ?_
      exact providedAsDeclared_of_settings hmatch ((mapM_setConstant_eq_ok hnames).mp hsettings)
  · intro hpasses
    cases hcase with
    | shortcut hdeclared hnone => exact Or.inl ⟨rfl, rfl, hdeclared, hnone⟩
    | rejected => exact absurd hpasses (not_passesChecks _ name [])
    | uncoercible settings failure => exact absurd hpasses (not_passesChecks failure name settings)
    | specialized settings result hmatch hsettings =>
      have hset := (mapM_setConstant_eq_ok hnames).mp hsettings
      refine Or.inr ⟨settings, rfl, hset, ?_, ?_⟩
      · rw [map_name_settings hset]
        exact hdistinct
      · intro key constant hconstant hrequired
        obtain ⟨c, hc, rfl⟩ := (names_match_iff.mp hmatch).1 key constant hconstant hrequired
        exact exists_setting_of_required hset hc hconstant
  · intro hmismatch
    have hnot (hmatch : missingNames (metal.functionConstants probe) constants = [] ∧
        unknownNames (metal.functionConstants probe) constants = []) : False :=
      hmismatch.elim (fun h => h hmatch.1) (fun h => h hmatch.2)
    cases hcase with
    | shortcut hdeclared hnone =>
      rw [hnone, missingNames, hdeclared] at hnot
      exact (hnot ⟨rfl, rfl⟩).elim
    | rejected => exact ⟨rfl, rfl⟩
    | uncoercible settings failure hmatch => exact (hnot hmatch).elim
    | specialized settings result hmatch => exact (hnot hmatch).elim

/-- With its one required constant set to 3, the function is specialized. -/
theorem scale_passes_checks :
    createSpecialized scaleMetal hostConversions (ascii "scale") [⟨ascii "k", .int 3⟩] =
      .ok (ascii "scale", [⟨[3, 0, 0, 0], .int, ascii "k"⟩]) ∧
    ProvidedAsDeclared hostConversions (scaleMetal.functionConstants (ascii "scale", []))
      [⟨ascii "k", .int 3⟩] := by
  have hresult : createSpecialized scaleMetal hostConversions (ascii "scale")
    [⟨ascii "k", .int 3⟩] = .ok (ascii "scale", [⟨[3, 0, 0, 0], .int, ascii "k"⟩]) := rfl
  obtain ⟨result, calls, -, hsame, hiff, -⟩ := @constant_validation_exact _ scaleMetal
    (ascii "scale") (ascii "scale", []) hostConversions (by decide) rfl (by decide)
    [⟨ascii "k", .int 3⟩] (by decide)
  exact ⟨hresult, hiff.mp (Or.inl ⟨_, hsame.symm.trans hresult⟩)⟩

end MetalRuntime
