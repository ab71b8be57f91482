import MetalRuntime.CachedBuilds
import MetalRuntime.Foundations.DelimitedText

/-!
# The library cache

`CompileOptions`, its cache key and the constructor of `Library`, and `library_for` as an
instance of the protocol of a cache filled outside its lock. The key length-prefixes every
string, so it determines the source and the options, and a cached library was compiled from
exactly what the caller asked for.
-/

namespace MetalRuntime

open Foundations

/-- `MathMode`. -/
inductive MathMode
  | safe
  | relaxed
  | fast
  deriving DecidableEq

/-- `(int)(math_mode)`. -/
def MathMode.toInt : MathMode → ℕ
  | .safe => 0
  | .relaxed => 1
  | .fast => 2

/-- `CompileOptions`; the defines are preprocessor macros. -/
structure CompileOptions where
  mathMode : MathMode := .fast
  defines : StdMap ByteString := .empty

/-- What the loop of `cache_key` appends for one macro. -/
def defineKey (entry : ByteString × ByteString) : ByteString :=
  ascii ";" ++ lengthPrefixed entry.1 ++ (ascii "=" ++ lengthPrefixed entry.2)

/-- `CompileOptions::cache_key`. -/
def CompileOptions.cacheKey (options : CompileOptions) : ByteString :=
  ascii "math=" ++ decimal options.mathMode.toInt ++ options.defines.entries.flatMap defineKey

/-- The key that `library_for` computes. -/
def libraryKey (source : ByteString) (options : CompileOptions) : ByteString :=
  lengthPrefixed options.cacheKey ++ source

/-- Every math mode has its own number. -/
theorem MathMode.toInt_injective : Function.Injective MathMode.toInt := by
  intro mode other h
  cases mode <;> cases other <;> first | rfl | cases h

/-- What is appended for a macro begins with a semicolon. -/
theorem defineKey_delimits (entry : ByteString × ByteString) : Delimits (defineKey entry) :=
  ⟨_, _, rfl, by decide⟩

/-- What is appended for a macro can be read back. -/
theorem defineKey_append_inj {entry other : ByteString × ByteString} {t u : ByteString}
    (h : defineKey entry ++ t = defineKey other ++ u) : entry = other ∧ t = u := by
  simp only [defineKey, List.append_assoc] at h
  obtain ⟨hname, hrest⟩ := lengthPrefixed_append_inj (List.append_cancel_left h)
  obtain ⟨hvalue, htail⟩ := lengthPrefixed_append_inj (List.append_cancel_left hrest)
  exact ⟨Prod.ext hname hvalue, htail⟩

/-- The cache key determines the options. -/
theorem CompileOptions.cacheKey_injective : Function.Injective CompileOptions.cacheKey := by
  intro options other h
  have hstarts : ∀ options : CompileOptions,
      StartsWithoutDigit (options.defines.entries.flatMap defineKey) := by
    intro options
    cases options.defines.entries with
    | nil => exact startsWithoutDigit_nil
    | cons entry rest => exact (defineKey_delimits entry).startsWithoutDigit _
  simp only [cacheKey, List.append_assoc] at h
  obtain ⟨hmode, hdefines⟩ := decimal_append_inj (hstarts options) (hstarts other)
    (List.append_cancel_left h)
  have hentries := flatMap_append_inj defineKey_delimits
    (fun _ _ _ _ _ _ => defineKey_append_inj) hdefines
  rw [List.forall₂_eq_eq_eq] at hentries
  obtain ⟨mode, ⟨entries, sorted⟩⟩ := options
  obtain ⟨mode', ⟨entries', sorted'⟩⟩ := other
  cases MathMode.toInt_injective hmode
  cases hentries
  rfl

/-- The key of a library determines its source and its options. -/
theorem libraryKey_injective {source source' : ByteString} {options options' : CompileOptions}
    (h : libraryKey source options = libraryKey source' options') :
    source = source' ∧ options = options' := by
  obtain ⟨hkey, hsource⟩ := lengthPrefixed_append_inj h
  exact ⟨hsource, CompileOptions.cacheKey_injective hkey⟩

/-- For every two sources and all options, made of any bytes and any number of macros, the keys
are equal exactly when the sources, the math modes and the define maps are. -/
theorem libraryKey_eq_iff (source source' : ByteString) (options options' : CompileOptions) :
    libraryKey source options = libraryKey source' options' ↔
      source = source' ∧ options.mathMode = options'.mathMode ∧
        options.defines = options'.defines := by
  constructor
  · intro h
    obtain ⟨hsource, hoptions⟩ := libraryKey_injective h
    exact ⟨hsource, congrArg CompileOptions.mathMode hoptions,
      congrArg CompileOptions.defines hoptions⟩
  · intro h
    obtain ⟨hsource, hmode, hdefines⟩ := h
    rw [libraryKey, libraryKey, CompileOptions.cacheKey, CompileOptions.cacheKey, hsource, hmode,
      hdefines]

/-- What compilation depends on besides its arguments: which strings Foundation converts, and
which options the system knows. -/
structure Platform where
  isUtf8 : ByteString → Bool
  macOS15 : Bool
  macOS26 : Bool

/-- How the compiler is told the math mode: `setMathMode`, or the legacy boolean. -/
inductive MathSetting
  | mathMode (mode : MathMode)
  | fastMathEnabled (enabled : Bool)
  deriving DecidableEq

/-- `MTL::CompileOptions` as `build_options` fills it. -/
structure MTLCompileOptions where
  languageVersion4 : Bool
  math : MathSetting
  preprocessorMacros : List (ByteString × ByteString)
  deriving DecidableEq

/-- The math setting of `build_options`. -/
def mathSetting (platform : Platform) (mode : MathMode) : MathSetting :=
  if platform.macOS15 then .mathMode mode else .fastMathEnabled (mode ≠ .safe)

/-- The conversion of one macro in `build_options`. -/
def toMacro (platform : Platform) (entry : ByteString × ByteString) :
    Except Failure (ByteString × ByteString) := do
  let name ← toNsString platform.isUtf8 entry.1 (ascii "preprocessor macro name")
  let value ← toNsString platform.isUtf8 entry.2 (ascii "preprocessor macro value")
  .ok (name, value)

/-- `build_options`. -/
def buildOptions (platform : Platform) (options : CompileOptions) :
    Except Failure MTLCompileOptions := do
  let macros ← options.defines.entries.mapM (toMacro platform)
  .ok ⟨platform.macOS26, mathSetting platform options.mathMode, macros⟩

/-- A compiled `Library`: what `newLibrary` was given. -/
structure Library where
  source : ByteString
  options : MTLCompileOptions
  deriving DecidableEq

/-- A request to `library_for`. -/
structure LibraryRequest where
  source : ByteString
  options : CompileOptions

/-- How `newLibrary` ends: with a library, or with nil and perhaps an error. -/
abbrev CompileResult := Option (Option ByteString)

/-- The constructor of `Library`, given how `newLibrary` ends. -/
def Library.create (platform : Platform) (request : LibraryRequest) (result : CompileResult) :
    Except Failure Library := do
  let source ← toNsString platform.isUtf8 request.source (ascii "MSL source")
  let options ← buildOptions platform request.options
  match result with
  | none => .ok ⟨source, options⟩
  | some error => .error (.compileError (ascii "MSL compile error: " ++ describe error))

/-- A compilation returns a library or throws. -/
theorem Library.create_defined (platform : Platform) (request : LibraryRequest)
    (result : CompileResult) : Defined (Library.create platform request result) := by
  have htext : ∀ s what, Defined (toNsString platform.isUtf8 s what) := fun s what =>
    defined_of_failsOnly (toNsString_failsOnly platform.isUtf8 s what)
  refine (htext _ _).bind fun source _ => FailsOnly.bind ?options fun options _ => ?_
  case options =>
    refine (failsOnly_mapM fun entry _ => ?_).bind fun macros _ => failsOnly_ok _ _
    exact (htext _ _).bind fun name _ => (htext _ _).bind fun value _ => failsOnly_ok _ _
  split
  · exact failsOnly_ok _ _
  · exact failsOnly_error (by simp)

/-- `library_for` as a builder. -/
def libraryBuilder (platform : Platform) : Builder LibraryRequest CompileResult Library where
  key := fun request => libraryKey request.source request.options
  build := Library.create platform

/-- A library was compiled from the source, the math mode and the macros of a request. -/
structure Library.CompiledFrom (platform : Platform) (library : Library)
    (request : LibraryRequest) : Prop where
  source : library.source = request.source
  math : library.options.math = mathSetting platform request.options.mathMode
  macros : library.options.preprocessorMacros = request.options.defines.entries

/-- A conversion that returns what it is given leaves a list as it is. -/
theorem mapM_eq_of_returns_argument {α : Type} {convert : α → Except Failure α}
    (hconvert : ∀ a b, convert a = .ok b → b = a) {elements converted : List α}
    (h : elements.mapM convert = .ok converted) : converted = elements := by
  have hsame : List.Forall₂ Eq elements converted :=
    (mapM_eq_ok_iff.mp h).imp fun a b hb => (hconvert a b hb).symm
  rw [List.forall₂_eq_eq_eq] at hsame
  exact hsame.symm

/-- A macro is converted unchanged. -/
theorem toMacro_eq {platform : Platform} {entry converted : ByteString × ByteString}
    (h : toMacro platform entry = .ok converted) : converted = entry := by
  obtain ⟨name, hname, hrest⟩ := bind_eq_ok_iff.mp h
  obtain ⟨value, hvalue, hpair⟩ := bind_eq_ok_iff.mp hrest
  obtain ⟨-, -, rfl⟩ := toNsString_eq_ok.mp hname
  obtain ⟨-, -, rfl⟩ := toNsString_eq_ok.mp hvalue
  cases hpair
  rfl

/-- A library that was constructed was compiled from its request. -/
theorem Library.create_compiledFrom {platform : Platform} {request : LibraryRequest}
    {result : CompileResult} {library : Library}
    (h : Library.create platform request result = .ok library) :
    library.CompiledFrom platform request := by
  obtain ⟨source, hsource, hrest⟩ := bind_eq_ok_iff.mp h
  obtain ⟨options, hoptions, hresult⟩ := bind_eq_ok_iff.mp hrest
  obtain ⟨macros, hmacros, hok⟩ := bind_eq_ok_iff.mp hoptions
  obtain ⟨-, -, rfl⟩ := toNsString_eq_ok.mp hsource
  have heq := mapM_eq_of_returns_argument (fun _ _ => toMacro_eq) hmacros
  cases hok
  cases result with
  | none =>
    cases hresult
    exact ⟨rfl, rfl, heq⟩
  | some error => cases hresult

/-- Library keys separate requests. -/
theorem libraryBuilder_separates (platform : Platform) : (libraryBuilder platform).Separates := by
  intro request other h
  obtain ⟨hsource, hoptions⟩ := libraryKey_injective h
  cases request
  cases other
  cases hsource
  cases hoptions
  rfl

/-- The library cache under races, from an empty cache of any limit over every schedule of
calls, limit changes and clears. What a call returns was compiled from its own request; a
section that throws, or after which its call goes on, leaves the entries as they were; and
two calls with one request obtain the same library if its key is neither evicted nor cleared
between the steps at which they obtain it. -/
theorem library_cache_under_races (platform : Platform) (limit : ℕ)
    {events : List (CacheEvent LibraryRequest CompileResult)}
    {observations : List (CacheShown LibraryRequest Library)}
    {s : CacheSystem LibraryRequest Library}
    (hrun : runSchedule (CacheSystem.step (libraryBuilder platform)) (.initial limit) events =
      some (observations, s)) :
    (∀ call request returned, .ended call request (.ok returned) ∈ observations →
      ∃ object, returned = some object ∧ object.content.CompiledFrom platform request) ∧
    (∀ call request failure, .ended call request (.error failure) ∈ observations →
      ∃ result, Library.create platform request result = .error failure) ∧
    (∀ event call request failure s',
      s.step (libraryBuilder platform) event = some (.ended call request (.error failure), s') →
      s'.cache.entries = s.cache.entries) ∧
    (∀ event s', s.step (libraryBuilder platform) event = some (.continued, s') →
      s'.cache.entries = s.cache.entries) ∧
    (∀ event₁ between event₂ observed s₁ s₂ s₃ call₁ call₂ request object₁ object₂,
      s.step (libraryBuilder platform) event₁ =
        some (.ended call₁ request (.ok (some object₁)), s₁) →
      runSchedule (CacheSystem.step (libraryBuilder platform)) s₁ between =
        some (observed, s₂) →
      CacheSystem.PresentThroughout (libraryBuilder platform)
        (libraryKey request.source request.options) s₁ between →
      s₂.step (libraryBuilder platform) event₂ =
        some (.ended call₂ request (.ok (some object₂)), s₃) →
      object₁ = object₂) := by
  have hinitial := CacheSystem.initial_invariant (libraryBuilder platform) limit
  have hfaithful := CacheSystem.run_faithful (libraryBuilder_separates platform) hinitial hrun
  obtain ⟨reference, hinv⟩ := CacheSystem.run_invariant hinitial hrun
  refine ⟨?_, ?_, ?_, ?_, ?_⟩
  · intro call request returned hshown
    obtain ⟨object, result, hreturned, hbuild⟩ := hfaithful _ hshown
    exact ⟨object, hreturned, Library.create_compiledFrom hbuild⟩
  · intro call request failure hshown
    exact hfaithful _ hshown
  · intro event call request failure s' hstep
    exact congrArg LruCache.entries (CacheSystem.cache_of_thrown hstep)
  · intro event s' hstep
    exact CacheSystem.entries_of_continued hstep
  · intro event₁ between event₂ observed s₁ s₂ s₃ call₁ call₂ request object₁ object₂ hfirst
      hbetween hpresent hsecond
    exact CacheSystem.same_object hinv rfl rfl hfirst hbetween hpresent hsecond

/-- A platform on which every string is text. -/
def currentPlatform : Platform := ⟨fun _ => true, true, true⟩

/-- A small library with one macro. -/
def macroRequest : LibraryRequest where
  source := ascii "kernel void f() \x7b\x7d"
  options := { defines := ⟨[(ascii "N", ascii "4")], List.pairwise_singleton _ _⟩ }

/-- Two calls both miss and both compile, and obtain the library of the first insertion. -/
theorem racing_calls_share_library : ∃ observations s s₁ s₂ object₁ object₂,
    runSchedule (CacheSystem.step (libraryBuilder currentPlatform)) (.initial 256)
      [.lookup 0 macroRequest, .lookup 1 macroRequest, .build 0 none, .build 1 none] =
      some (observations, s) ∧
    s.step (libraryBuilder currentPlatform) (.insert 0) =
      some (.ended 0 macroRequest (.ok (some object₁)), s₁) ∧
    s₁.step (libraryBuilder currentPlatform) (.insert 1) =
      some (.ended 1 macroRequest (.ok (some object₂)), s₂) ∧ object₁ = object₂ := by
  have hrun : runSchedule (CacheSystem.step (libraryBuilder currentPlatform)) (.initial 256)
    [.lookup 0 macroRequest, .lookup 1 macroRequest, .build 0 none, .build 1 none] =
    some (_, _) := rfl
  refine ⟨_, _, _, _, _, _, hrun, rfl, rfl, ?_⟩
  exact (library_cache_under_races currentPlatform 256 hrun).2.2.2.2 (.insert 0) [] (.insert 1)
    [] _ _ _ 0 1 macroRequest _ _ rfl rfl rfl rfl

end MetalRuntime
