import MetalRuntime.LibraryCache
import MetalRuntime.ParsedConstants

/-!
# Kernels built through two caches

The constructor of `Kernel` goes through two caches filled outside their locks: `library_for`
on the one library cache of the runtime, then `pipeline_for` on the cache inside the library
it got. Any number of constructors run here, interleaved section by section with changes of
the cache limit and with clearing. Whatever they do to each other, each ends as a compilation
and a specialization of its own would, and none waits for another.
-/

namespace MetalRuntime

open Foundations

/-- The request of a call in progress. -/
def CallPhase.request? {Request Content : Type} : CallPhase Request Content → Option Request
  | .building request => some request
  | .built request _ => some request
  | _ => none

/-- The call that a step belongs to. -/
def CacheEvent.call? {Request Choice : Type} : CacheEvent Request Choice → Option ℕ
  | .lookup call _ => some call
  | .build call _ => some call
  | .insert call => some call
  | _ => none

/-- The sections that a call in progress has left at most. -/
def CallPhase.remaining {Request Content : Type} : CallPhase Request Content → ℕ
  | .building _ => 2
  | .built _ _ => 1
  | _ => 0

/-- A call in progress has a section left. -/
theorem CallPhase.remaining_pos {Request Content : Type} {phase : CallPhase Request Content}
    {request : Request} (h : phase.request? = some request) : 0 < phase.remaining := by
  cases phase with
  | building _ => exact Nat.two_pos
  | built _ _ => exact Nat.one_pos
  | notStarted => cases h
  | ended => cases h

namespace CacheSystem

variable {Request Choice Content : Type} {builder : Builder Request Choice Content}
  {s s' : CacheSystem Request Content} {event : CacheEvent Request Choice}
  {shown : CacheShown Request Content} {call : ℕ} {request : Request}

/-- A section of a call ends it, or leaves it one phase further with its request. -/
theorem step_own (hstep : s.step builder event = some (shown, s')) (hcall : event.call? = some call)
    (hrequest : event = .lookup call request ∨ (s.calls call).request? = some request) :
    (∃ outcome, shown = .ended call request outcome) ∨
      shown = .continued ∧ (event = .lookup call request ∧ s'.calls call = .building request ∨
        s.calls call = .building request ∧ ∃ object, s'.calls call = .built request object) := by
  cases event with
  | lookup other asked =>
    cases hcall
    cases hphase : s.calls call with
    | notStarted =>
      have hasked : asked = request := by
        rcases hrequest with hevent | hrequest
        · cases hevent
          rfl
        · rw [hphase] at hrequest
          cases hrequest
      subst hasked
      simp only [step, hphase, performLookup, Option.some.injEq] at hstep
      split at hstep
      · cases hstep
        exact Or.inl ⟨_, rfl⟩
      · cases hstep
        exact Or.inl ⟨_, rfl⟩
      · cases hstep
        exact Or.inr ⟨rfl, Or.inl ⟨rfl, Function.update_self _ _ _⟩⟩
    | _ => simp [step, hphase] at hstep
  | build other choice =>
    cases hcall
    cases hphase : s.calls call with
    | building asked =>
      simp only [hphase, CallPhase.request?, Option.some.injEq, reduceCtorEq, false_or] at hrequest
      subst hrequest
      simp only [step, hphase, performBuild, Option.some.injEq] at hstep
      split at hstep
      · cases hstep
        exact Or.inl ⟨_, rfl⟩
      · cases hstep
        exact Or.inr ⟨rfl, Or.inr ⟨rfl, _, Function.update_self _ _ _⟩⟩
    | _ => simp [step, hphase] at hstep
  | insert other =>
    cases hcall
    cases hphase : s.calls call with
    | built asked object =>
      simp only [hphase, CallPhase.request?, Option.some.injEq, reduceCtorEq, false_or] at hrequest
      subst hrequest
      simp only [step, hphase, performInsert, Option.some.injEq] at hstep
      split at hstep
      · cases hstep
        exact Or.inl ⟨_, rfl⟩
      · cases hstep
        exact Or.inl ⟨_, rfl⟩
    | _ => simp [step, hphase] at hstep
  | setLimit limit => cases hcall
  | clear => cases hcall

/-- A call that is looked up has not started. -/
theorem notStarted_of_lookup (hstep : s.step builder (.lookup call request) = some (shown, s')) :
    s.calls call = .notStarted := by
  cases hphase : s.calls call with
  | notStarted => rfl
  | _ => simp [step, hphase] at hstep

/-- A call that goes on has two sections left at most, and fewer than before if it was in
progress. -/
theorem step_progress (hstep : s.step builder event = some (shown, s'))
    (hcall : event.call? = some call)
    (hrequest : event = .lookup call request ∨ (s.calls call).request? = some request) :
    (∃ outcome, shown = .ended call request outcome) ∨
      shown = .continued ∧ (s'.calls call).request? = some request ∧
        (s'.calls call).remaining ≤ 2 ∧
        ((s.calls call).request? = some request →
          (s'.calls call).remaining < (s.calls call).remaining) := by
  refine (step_own hstep hcall hrequest).imp_right fun hcontinued => ?_
  obtain ⟨rfl, hmoved⟩ := hcontinued
  refine ⟨rfl, ?_⟩
  rcases hmoved with ⟨rfl, hbuilding⟩ | ⟨hbuilding, object, hbuilt⟩
  · rw [hbuilding, notStarted_of_lookup hstep]
    exact ⟨rfl, le_rfl, fun hnone => nomatch hnone⟩
  · rw [hbuilding, hbuilt]
    exact ⟨rfl, Nat.le_succ 1, fun _ => Nat.one_lt_two⟩

/-- A step leaves every other call where it stands. -/
theorem calls_of_ne (hstep : s.step builder event = some (shown, s')) {other : ℕ}
    (hother : event.call? ≠ some other) : s'.calls other = s.calls other := by
  have hmoved : ∀ {call : ℕ} {phase : CallPhase Request Content},
      s'.calls = Function.update s.calls call phase → event.call? = some call →
        s'.calls other = s.calls other := by
    intro call phase hcalls hcall
    rw [hcalls, Function.update_of_ne]
    intro hsame
    exact hother (hsame ▸ hcall)
  cases event with
  | lookup call asked =>
    cases hphase : s.calls call with
    | notStarted =>
      simp only [step, hphase, performLookup, Option.some.injEq] at hstep
      split at hstep <;> cases hstep <;> exact hmoved rfl rfl
    | _ => simp [step, hphase] at hstep
  | build call choice =>
    cases hphase : s.calls call with
    | building asked =>
      simp only [step, hphase, performBuild, Option.some.injEq] at hstep
      split at hstep <;> cases hstep <;> exact hmoved rfl rfl
    | _ => simp [step, hphase] at hstep
  | insert call =>
    cases hphase : s.calls call with
    | built asked object =>
      simp only [step, hphase, performInsert, Option.some.injEq] at hstep
      split at hstep <;> cases hstep <;> exact hmoved rfl rfl
    | _ => simp [step, hphase] at hstep
  | setLimit limit =>
    simp only [step] at hstep
    split at hstep <;> cases hstep <;> rfl
  | clear =>
    cases Option.some.inj hstep
    rfl

/-- A call in progress can go on. -/
theorem step_enabled (builder : Builder Request Choice Content) (choice : Choice)
    (hrequest : (s.calls call).request? = some request) :
    ∃ event shown s', (event = .build call choice ∨ event = .insert call) ∧
      s.step builder event = some (shown, s') := by
  cases hphase : s.calls call with
  | building asked =>
    exact ⟨.build call choice, _, _, Or.inl rfl, by simp only [step, hphase]; rfl⟩
  | built asked object => exact ⟨.insert call, _, _, Or.inr rfl, by simp only [step, hphase]; rfl⟩
  | notStarted =>
    rw [hphase] at hrequest
    cases hrequest
  | ended =>
    rw [hphase] at hrequest
    cases hrequest

/-- A call that has not started can start. -/
theorem step_lookup_enabled (builder : Builder Request Choice Content) (request : Request)
    (hphase : s.calls call = .notStarted) :
    ∃ shown s', s.step builder (.lookup call request) = some (shown, s') := by
  exact ⟨_, _, by simp only [step, hphase]; rfl⟩

end CacheSystem

/-- `kDefaultLibraryCacheLimit`. -/
def kDefaultLibraryCacheLimit : ℕ := 256

/-- `Library::kMaxCachedPipelines`. -/
def kMaxCachedPipelines : ℕ := 128

/-- The arguments of `Kernel(...)`. -/
structure KernelRequest where
  mslSource : ByteString
  functionName : ByteString
  mathMode : MathMode
  defines : StdMap ByteString
  constants : PyDict

/-- What the constructor asks `library_for`. -/
def KernelRequest.library (request : KernelRequest) : LibraryRequest :=
  ⟨request.mslSource, ⟨request.mathMode, request.defines⟩⟩

/-- `PyKernel`, as its constructor sets it. -/
structure PyKernel where
  mathMode : MathMode
  library : Shared Library
  pipeline : Shared ComputePipeline

/-- Where a constructor stands: inside `library_for`, between its two calls, or inside
`pipeline_for` of the library it holds. -/
inductive KernelPhase
  | notStarted
  | inLibraryFor (request : KernelRequest)
  | holdsLibrary (request : KernelRequest) (library : Shared Library)
  | inPipelineFor (request : KernelRequest) (library : Shared Library)
  | ended

/-- The library cache, the pipeline cache inside each library, and the constructors. -/
structure KernelSystem where
  libraries : CacheSystem LibraryRequest Library
  pipelines : Shared Library → CacheSystem PipelineRequest ComputePipeline
  calls : ℕ → KernelPhase

/-- A section of some constructor, or a change of the library cache. -/
inductive KernelEvent
  | lookupLibrary (call : ℕ) (request : KernelRequest)
  | compileLibrary (call : ℕ) (result : CompileResult)
  | insertLibrary (call : ℕ)
  | lookupPipeline (call : ℕ)
  | buildPipeline (call : ℕ)
  | insertPipeline (call : ℕ)
  | setLibraryCacheLimit (limit : ℕ)
  | clearLibraryCache

/-- What a section shows. -/
inductive KernelShown
  | ended (call : ℕ) (request : KernelRequest) (outcome : Except BindingFailure PyKernel)
  | continued
  | administered

/-- What Metal makes of a compiled library, and the machine's conversions to `float`. -/
structure KernelPlatform (MTLFunction : Type) where
  platform : Platform
  metal : Library → MTLLibrary MTLFunction
  conversions : FloatConversions

variable {MTLFunction : Type}

/-- `pipeline_for` on a library as a builder. -/
def KernelPlatform.pipelines (host : KernelPlatform MTLFunction) (library : Shared Library) :
    Builder PipelineRequest Unit ComputePipeline :=
  pipelineBuilder (host.metal library.content) host.conversions

namespace KernelSystem

/-- No library and no constructor yet; every library will start with an empty cache. -/
def initial : KernelSystem :=
  ⟨.initial kDefaultLibraryCacheLimit, fun _ => .initial kMaxCachedPipelines, fun _ => .notStarted⟩

/-- The state after a constructor moved on. -/
def moveTo (s : KernelSystem) (call : ℕ) (phase : KernelPhase) : KernelSystem :=
  { s with calls := Function.update s.calls call phase }

/-- A constructor that ends. -/
def finish (s : KernelSystem) (call : ℕ) (request : KernelRequest)
    (outcome : Except BindingFailure PyKernel) : KernelShown × KernelSystem :=
  (.ended call request outcome, s.moveTo call .ended)

/-- How the constructor goes on after a section of `library_for`. -/
def afterLibrarySection (s : KernelSystem) (call : ℕ) (request : KernelRequest) :
    CacheShown LibraryRequest Library → KernelShown × KernelSystem
  | .ended _ _ (.ok (some library)) => (.continued, s.moveTo call (.holdsLibrary request library))
  -- `library_->pipeline_for` on a null pointer.
  | .ended _ _ (.ok none) => s.finish call request (.error (.thrown .undefinedBehavior))
  | .ended _ _ (.error failure) => s.finish call request (.error (.thrown failure))
  | _ => (.continued, s.moveTo call (.inLibraryFor request))

/-- A section of `library_for` inside a constructor. -/
def librarySection (host : KernelPlatform MTLFunction) (s : KernelSystem) (call : ℕ)
    (request : KernelRequest) (event : CacheEvent LibraryRequest CompileResult) :
    Option (KernelShown × KernelSystem) :=
  match s.libraries.step (libraryBuilder host.platform) event with
  | none => none
  | some (shown, libraries) => some ({ s with libraries }.afterLibrarySection call request shown)

/-- How the constructor goes on after a section of `pipeline_for`. -/
def afterPipelineSection (s : KernelSystem) (call : ℕ) (request : KernelRequest)
    (library : Shared Library) :
    CacheShown PipelineRequest ComputePipeline → KernelShown × KernelSystem
  | .ended _ _ (.ok (some pipeline)) =>
    s.finish call request (.ok ⟨request.mathMode, library, pipeline⟩)
  -- A kernel without a pipeline.
  | .ended _ _ (.ok none) => s.finish call request (.error (.thrown .undefinedBehavior))
  | .ended _ _ (.error failure) => s.finish call request (.error (.thrown failure))
  | _ => (.continued, s.moveTo call (.inPipelineFor request library))

/-- A section of `pipeline_for` inside a constructor. -/
def pipelineSection (host : KernelPlatform MTLFunction) (s : KernelSystem) (call : ℕ)
    (request : KernelRequest) (library : Shared Library)
    (event : CacheEvent PipelineRequest Unit) : Option (KernelShown × KernelSystem) :=
  match (s.pipelines library).step (host.pipelines library) event with
  | none => none
  | some (shown, cache) =>
    some ({ s with pipelines := Function.update s.pipelines library cache }.afterPipelineSection
      call request library shown)

/-- A change of the library cache by `set_library_cache_limit` or `clear_library_cache`. -/
def administer (host : KernelPlatform MTLFunction) (s : KernelSystem)
    (event : CacheEvent LibraryRequest CompileResult) : Option (KernelShown × KernelSystem) :=
  match s.libraries.step (libraryBuilder host.platform) event with
  | none => none
  | some (_, libraries) => some (.administered, { s with libraries })

/-- The next state after an event, if the event can happen. -/
def step (host : KernelPlatform MTLFunction) (s : KernelSystem) :
    KernelEvent → Option (KernelShown × KernelSystem)
  | .lookupLibrary call request =>
    match s.calls call with
    | .notStarted => s.librarySection host call request (.lookup call request.library)
    | _ => none
  | .compileLibrary call result =>
    match s.calls call with
    | .inLibraryFor request => s.librarySection host call request (.build call result)
    | _ => none
  | .insertLibrary call =>
    match s.calls call with
    | .inLibraryFor request => s.librarySection host call request (.insert call)
    | _ => none
  | .lookupPipeline call =>
    match s.calls call with
    | .holdsLibrary request library =>
      match parseConstants request.constants with
      | .error failure => some (s.finish call request (.error failure))
      | .ok constants => s.pipelineSection host call request library
          (.lookup call ⟨request.functionName, constants⟩)
    | _ => none
  | .buildPipeline call =>
    match s.calls call with
    | .inPipelineFor request library => s.pipelineSection host call request library (.build call ())
    | _ => none
  | .insertPipeline call =>
    match s.calls call with
    | .inPipelineFor request library => s.pipelineSection host call request library (.insert call)
    | _ => none
  | .setLibraryCacheLimit limit => s.administer host (.setLimit limit)
  | .clearLibraryCache => s.administer host .clear

end KernelSystem

/-- What a kernel is made of, whichever objects hold it. -/
structure KernelContents where
  mathMode : MathMode
  library : Library
  pipeline : ComputePipeline

/-- The contents of the members of a kernel. -/
def PyKernel.contents (kernel : PyKernel) : KernelContents :=
  ⟨kernel.mathMode, kernel.library.content, kernel.pipeline.content⟩

/-- `Kernel(...)` without caches, given how its own compilation ends. -/
def freshKernel (host : KernelPlatform MTLFunction) (request : KernelRequest)
    (result : CompileResult) : Except BindingFailure KernelContents := do
  let library ← (Library.create host.platform request.library result).mapError .thrown
  let constants ← parseConstants request.constants
  let pipeline ← (buildPipeline (host.metal library) host.conversions
    ⟨request.functionName, constants⟩).mapError .thrown
  .ok ⟨request.mathMode, library, pipeline⟩

/-- `Kernel(...)` without caches returns or throws. -/
theorem freshKernel_defined (host : KernelPlatform MTLFunction) (request : KernelRequest)
    (result : CompileResult) :
    FailsOnly (· ≠ .thrown .undefinedBehavior) (freshKernel host request result) := by
  have hthrown : ∀ {α : Type} {x : Except Failure α}, Defined x →
      FailsOnly (· ≠ .thrown .undefinedBehavior) (x.mapError BindingFailure.thrown) := by
    intro α x hdefined
    cases x with
    | ok a => exact failsOnly_ok _ _
    | error failure =>
      refine failsOnly_error fun hundefined => ?_
      exact hdefined failure rfl (BindingFailure.thrown.inj hundefined)
  refine (hthrown (Library.create_defined _ _ _)).bind fun library _ => ?_
  refine (parseConstants_defined request.constants).bind fun constants _ => ?_
  exact (hthrown (buildPipeline_defined _ _ _)).bind fun pipeline _ => failsOnly_ok _ _

/-- What a section shows agrees with a construction without caches. -/
def KernelShown.Faithful (host : KernelPlatform MTLFunction) : KernelShown → Prop
  | .ended _ request outcome =>
    ∃ result, outcome.map PyKernel.contents = freshKernel host request result
  | _ => True

section Fresh

variable {host : KernelPlatform MTLFunction} {request : KernelRequest} {result : CompileResult}
  {library : Library} {constants : List FunctionConstant}

/-- A construction whose compilation throws throws that. -/
theorem freshKernel_of_create_error {failure : Failure}
    (hcreate : Library.create host.platform request.library result = .error failure) :
    freshKernel host request result = .error (.thrown failure) := by
  rw [freshKernel, hcreate]
  rfl

/-- A construction whose constants are rejected throws that, after it compiled. -/
theorem freshKernel_of_parse_error {failure : BindingFailure}
    (hcreate : Library.create host.platform request.library result = .ok library)
    (hparse : parseConstants request.constants = .error failure) :
    freshKernel host request result = .error failure := by
  rw [freshKernel, hcreate, hparse]
  rfl

/-- Otherwise the construction ends as the build of its pipeline does. -/
theorem freshKernel_of_parse
    (hcreate : Library.create host.platform request.library result = .ok library)
    (hparse : parseConstants request.constants = .ok constants) :
    freshKernel host request result =
      ((buildPipeline (host.metal library) host.conversions
        ⟨request.functionName, constants⟩).mapError .thrown).map
          (KernelContents.mk request.mathMode library) := by
  rw [freshKernel, hcreate, hparse]
  rfl

end Fresh

/-- What the phase of a constructor says about its calls of the two caches. -/
def KernelPhase.Agrees (host : KernelPlatform MTLFunction)
    (inLibraries : CallPhase LibraryRequest Library)
    (inPipelines : Shared Library → CallPhase PipelineRequest ComputePipeline) :
    KernelPhase → Prop
  | .notStarted => inLibraries = .notStarted ∧ ∀ library, inPipelines library = .notStarted
  | .inLibraryFor request => inLibraries.request? = some request.library ∧
      ∀ library, inPipelines library = .notStarted
  | .holdsLibrary request library =>
    (∃ result, Library.create host.platform request.library result = .ok library.content) ∧
      ∀ other, inPipelines other = .notStarted
  | .inPipelineFor request library =>
    (∃ result, Library.create host.platform request.library result = .ok library.content) ∧
      ∃ constants, parseConstants request.constants = .ok constants ∧
        (inPipelines library).request? = some ⟨request.functionName, constants⟩
  | .ended => True

/-- The sections that a constructor has left at most. -/
def KernelPhase.remaining (inLibraries : CallPhase LibraryRequest Library)
    (inPipelines : Shared Library → CallPhase PipelineRequest ComputePipeline) :
    KernelPhase → ℕ
  | .notStarted => 6
  | .inLibraryFor _ => 3 + inLibraries.remaining
  | .holdsLibrary _ _ => 3
  | .inPipelineFor _ library => (inPipelines library).remaining
  | .ended => 0

/-- The constructor that an event belongs to. -/
def KernelEvent.call? : KernelEvent → Option ℕ
  | .lookupLibrary call _ => some call
  | .compileLibrary call _ => some call
  | .insertLibrary call => some call
  | .lookupPipeline call => some call
  | .buildPipeline call => some call
  | .insertPipeline call => some call
  | _ => none

namespace KernelSystem

/-- The sections that a constructor has left at most. -/
def remaining (s : KernelSystem) (call : ℕ) : ℕ :=
  (s.calls call).remaining (s.libraries.calls call) fun library =>
    (s.pipelines library).calls call

variable {host : KernelPlatform MTLFunction} {s s' : KernelSystem} {event : KernelEvent}
  {shown : KernelShown} {call : ℕ} {request : KernelRequest} {library : Shared Library}

/-- The invariant of the system: both levels of caches keep theirs, and each constructor stands
in them where its phase says. -/
structure Sound (host : KernelPlatform MTLFunction) (s : KernelSystem) : Prop where
  libraries : ∃ reference,
    CacheSystem.Invariant (libraryBuilder host.platform) s.libraries reference
  pipelines : ∀ library, ∃ reference,
    CacheSystem.Invariant (host.pipelines library) (s.pipelines library) reference
  calls : ∀ call, (s.calls call).Agrees host (s.libraries.calls call) fun library =>
    (s.pipelines library).calls call

/-- The initial state satisfies the invariant. -/
theorem initial_sound (host : KernelPlatform MTLFunction) : Sound host initial where
  libraries := ⟨_, CacheSystem.initial_invariant _ _⟩
  pipelines := fun _ => ⟨_, CacheSystem.initial_invariant _ _⟩
  calls := fun _ => ⟨rfl, fun _ => rfl⟩

/-- After a section of `library_for`, one constructor has moved on. -/
theorem sound_of_libraries (h : Sound host s)
    {libraries : CacheSystem LibraryRequest Library}
    {libraryEvent : CacheEvent LibraryRequest CompileResult}
    {libraryShown : CacheShown LibraryRequest Library}
    (hstep : s.libraries.step (libraryBuilder host.platform) libraryEvent =
      some (libraryShown, libraries))
    (hcall : libraryEvent.call? = some call) {phase : KernelPhase}
    (hphase : phase.Agrees host (libraries.calls call) fun library =>
      (s.pipelines library).calls call) :
    Sound host ({ s with libraries }.moveTo call phase) := by
  obtain ⟨reference, hinv⟩ := h.libraries
  obtain ⟨next, hnext, -⟩ := CacheSystem.step_invariant hinv hstep
  refine ⟨⟨next, hnext⟩, h.pipelines, ?_⟩
  intro other
  by_cases hother : other = call
  · subst hother
    simpa only [moveTo, Function.update_self] using hphase
  · have hsame : libraries.calls other = s.libraries.calls other := by
      apply CacheSystem.calls_of_ne hstep
      rw [hcall]
      exact fun heq => hother (Option.some.inj heq).symm
    simp only [moveTo, Function.update_of_ne hother, hsame]
    exact h.calls other

/-- So it has after a section of `pipeline_for`. -/
theorem sound_of_pipelines (h : Sound host s)
    {cache : CacheSystem PipelineRequest ComputePipeline}
    {pipelineEvent : CacheEvent PipelineRequest Unit}
    {pipelineShown : CacheShown PipelineRequest ComputePipeline}
    (hstep : (s.pipelines library).step (host.pipelines library) pipelineEvent =
      some (pipelineShown, cache))
    (hcall : pipelineEvent.call? = some call) {phase : KernelPhase}
    (hphase : phase.Agrees host (s.libraries.calls call) fun other =>
      (Function.update s.pipelines library cache other).calls call) :
    Sound host ({ s with pipelines := Function.update s.pipelines library cache }.moveTo
      call phase) := by
  obtain ⟨reference, hinv⟩ := h.pipelines library
  obtain ⟨next, hnext, -⟩ := CacheSystem.step_invariant hinv hstep
  refine ⟨h.libraries, ?_, ?_⟩
  · intro other
    by_cases hother : other = library
    · subst hother
      refine ⟨next, ?_⟩
      simpa only [moveTo, Function.update_self] using hnext
    · simpa only [moveTo, Function.update_of_ne hother] using h.pipelines other
  · intro other
    by_cases hother : other = call
    · subst hother
      simpa only [moveTo, Function.update_self] using hphase
    · have hsame : ∀ held, (Function.update s.pipelines library cache held).calls other =
          (s.pipelines held).calls other := by
        intro held
        by_cases hheld : held = library
        · subst hheld
          rw [Function.update_self]
          apply CacheSystem.calls_of_ne hstep
          rw [hcall]
          exact fun heq => hother (Option.some.inj heq).symm
        · rw [Function.update_of_ne hheld]
      simp only [moveTo, Function.update_of_ne hother, hsame]
      exact h.calls other

/-- What a section of a constructor shows and leaves behind. -/
structure Advances (host : KernelPlatform MTLFunction) (s : KernelSystem) (call : ℕ)
    (shown : KernelShown) (s' : KernelSystem) : Prop where
  faithful : shown.Faithful host
  sound : Sound host s'
  started : s'.calls call ≠ .notStarted
  remaining : s'.remaining call < s.remaining call

/-- A constructor advances when it moves on to a phase that leaves less to do. -/
theorem Advances.of_moveTo {mid : KernelSystem} {phase : KernelPhase}
    (hfaithful : shown.Faithful host) (hsound : Sound host (mid.moveTo call phase))
    (hstarted : phase ≠ .notStarted)
    (hremaining : (phase.remaining (mid.libraries.calls call) fun library =>
      (mid.pipelines library).calls call) < s.remaining call) :
    Advances host s call shown (mid.moveTo call phase) := by
  have hphase : (mid.moveTo call phase).calls call = phase := Function.update_self _ _ _
  refine ⟨hfaithful, hsound, ?_, ?_⟩
  · rwa [hphase]
  · rwa [KernelSystem.remaining, hphase]

/-- A section of `library_for` shows nothing or throws what a compilation of the constructor's
own request throws. -/
theorem librarySection_advances (h : Sound host s)
    {libraryEvent : CacheEvent LibraryRequest CompileResult}
    (hsection : s.librarySection host call request libraryEvent = some (shown, s'))
    (hcall : libraryEvent.call? = some call)
    (hstart : libraryEvent = .lookup call request.library ∧ s.calls call = .notStarted ∨
      s.calls call = .inLibraryFor request) : Advances host s call shown s' := by
  have hagrees := h.calls call
  have hidle : ∀ library, (s.pipelines library).calls call = .notStarted := by
    rcases hstart with ⟨-, hphase⟩ | hphase
    · rw [hphase] at hagrees
      exact hagrees.2
    · rw [hphase] at hagrees
      exact hagrees.2
  have hrequest : libraryEvent = .lookup call request.library ∨
      (s.libraries.calls call).request? = some request.library := by
    rcases hstart with ⟨hevent, -⟩ | hphase
    · exact Or.inl hevent
    · rw [hphase] at hagrees
      exact Or.inr hagrees.1
  have hleft : 3 < s.remaining call := by
    rw [KernelSystem.remaining]
    rcases hstart with ⟨-, hphase⟩ | hphase
    · rw [hphase]
      exact Nat.lt_of_sub_eq_succ rfl
    · rw [hphase] at hagrees ⊢
      exact Nat.lt_add_of_pos_right (CallPhase.remaining_pos hagrees.1)
  rw [librarySection] at hsection
  split at hsection
  · cases hsection
  · next libraryShown libraries hstep =>
    obtain ⟨reference, hinv⟩ := h.libraries
    have hfaithful := CacheSystem.faithful_of_step (libraryBuilder_separates host.platform) hinv
      hstep
    rcases CacheSystem.step_progress hstep hcall hrequest with
      ⟨outcome, rfl⟩ | ⟨rfl, hasked, hatMost, hfewer⟩
    · cases outcome with
      | error failure =>
        obtain ⟨result, hcreate⟩ := hfaithful
        cases hsection
        exact .of_moveTo ⟨result, (freshKernel_of_create_error hcreate).symm⟩
          (sound_of_libraries h hstep hcall trivial) nofun (Nat.zero_lt_of_lt hleft)
      | ok returned =>
        obtain ⟨library, result, rfl, hcreate⟩ := hfaithful
        cases hsection
        exact .of_moveTo trivial
          (sound_of_libraries h hstep hcall ⟨⟨result, hcreate⟩, hidle⟩) nofun hleft
    · cases hsection
      have hremaining : 3 + (libraries.calls call).remaining < s.remaining call := by
        rw [KernelSystem.remaining]
        rcases hstart with ⟨-, hphase⟩ | hphase
        · rw [hphase, KernelPhase.remaining]
          exact Nat.add_lt_add_left (Nat.lt_succ_of_le hatMost) 3
        · rw [hphase] at hagrees ⊢
          exact Nat.add_lt_add_left (hfewer hagrees.1) 3
      exact .of_moveTo trivial (sound_of_libraries h hstep hcall ⟨hasked, hidle⟩) nofun hremaining

/-- A section of `pipeline_for` shows nothing, or ends the constructor as one without caches. -/
theorem pipelineSection_advances (h : Sound host s)
    {pipelineEvent : CacheEvent PipelineRequest Unit} {constants : List FunctionConstant}
    {result : CompileResult}
    (hsection : s.pipelineSection host call request library pipelineEvent = some (shown, s'))
    (hcall : pipelineEvent.call? = some call)
    (hcreate : Library.create host.platform request.library result = .ok library.content)
    (hparse : parseConstants request.constants = .ok constants)
    (hstart : pipelineEvent = .lookup call ⟨request.functionName, constants⟩ ∧
        s.calls call = .holdsLibrary request library ∨
      s.calls call = .inPipelineFor request library ∧
        ((s.pipelines library).calls call).request? = some ⟨request.functionName, constants⟩) :
    Advances host s call shown s' := by
  have hrequest : pipelineEvent = .lookup call ⟨request.functionName, constants⟩ ∨
      ((s.pipelines library).calls call).request? = some ⟨request.functionName, constants⟩ :=
    hstart.imp And.left And.right
  have hleft : 0 < s.remaining call := by
    rw [KernelSystem.remaining]
    rcases hstart with ⟨-, hphase⟩ | ⟨hphase, hinside⟩
    · rw [hphase]
      exact Nat.succ_pos 2
    · rw [hphase]
      exact CallPhase.remaining_pos hinside
  have hfresh := freshKernel_of_parse hcreate hparse
  rw [pipelineSection] at hsection
  split at hsection
  · cases hsection
  · next pipelineShown cache hstep =>
    obtain ⟨reference, hinv⟩ := h.pipelines library
    have hfaithful := CacheSystem.faithful_of_step (pipelineBuilder_separates _ _) hinv hstep
    rcases CacheSystem.step_progress hstep hcall hrequest with
      ⟨outcome, rfl⟩ | ⟨rfl, hasked, hatMost, hfewer⟩
    · have hshown : shown.Faithful host ∧ s' = { s with
          pipelines := Function.update s.pipelines library cache }.moveTo call .ended := by
        cases outcome with
        | error failure =>
          obtain ⟨_, hbuild⟩ := hfaithful
          change buildPipeline _ _ _ = _ at hbuild
          cases hsection
          refine ⟨⟨result, ?_⟩, rfl⟩
          rw [hfresh, hbuild]
          rfl
        | ok returned =>
          obtain ⟨pipeline, _, rfl, hbuild⟩ := hfaithful
          change buildPipeline _ _ _ = _ at hbuild
          cases hsection
          refine ⟨⟨result, ?_⟩, rfl⟩
          rw [hfresh, hbuild]
          rfl
      obtain ⟨hfaithful, rfl⟩ := hshown
      exact .of_moveTo hfaithful (sound_of_pipelines h hstep hcall trivial) nofun hleft
    · cases hsection
      have hcache : (Function.update s.pipelines library cache library).calls call =
          cache.calls call := by rw [Function.update_self]
      have hremaining : (cache.calls call).remaining < s.remaining call := by
        rw [KernelSystem.remaining]
        rcases hstart with ⟨-, hphase⟩ | ⟨hphase, hinside⟩
        · rw [hphase]
          exact Nat.lt_succ_of_le hatMost
        · rw [hphase]
          exact hfewer hinside
      rw [← hcache] at hasked hremaining
      exact .of_moveTo trivial (sound_of_pipelines h hstep hcall
        ⟨⟨result, hcreate⟩, constants, hparse, hasked⟩) nofun hremaining

/-- Every section of a constructor shows something faithful, keeps the invariant and brings the
constructor closer to its end. -/
theorem step_advances (h : Sound host s) (hstep : s.step host event = some (shown, s'))
    (hcall : event.call? = some call) : Advances host s call shown s' := by
  have hagrees := h.calls call
  cases event with
  | lookupLibrary other request =>
    cases hcall
    cases hphase : s.calls call with
    | notStarted =>
      simp only [step, hphase] at hstep
      exact librarySection_advances h hstep rfl (Or.inl ⟨rfl, hphase⟩)
    | _ => simp [step, hphase] at hstep
  | compileLibrary other result =>
    cases hcall
    cases hphase : s.calls call with
    | inLibraryFor request =>
      simp only [step, hphase] at hstep
      exact librarySection_advances h hstep rfl (Or.inr hphase)
    | _ => simp [step, hphase] at hstep
  | insertLibrary other =>
    cases hcall
    cases hphase : s.calls call with
    | inLibraryFor request =>
      simp only [step, hphase] at hstep
      exact librarySection_advances h hstep rfl (Or.inr hphase)
    | _ => simp [step, hphase] at hstep
  | lookupPipeline other =>
    cases hcall
    cases hphase : s.calls call with
    | holdsLibrary request library =>
      rw [hphase] at hagrees
      obtain ⟨⟨result, hcreate⟩, hidle⟩ := hagrees
      simp only [step, hphase] at hstep
      split at hstep
      · next failure hparse =>
        cases hstep
        have hsound : Sound host (s.moveTo call .ended) := by
          refine ⟨h.libraries, h.pipelines, fun other => ?_⟩
          by_cases hother : other = call
          · subst hother
            simp only [moveTo, Function.update_self, KernelPhase.Agrees]
          · simpa only [moveTo, Function.update_of_ne hother] using h.calls other
        refine .of_moveTo ⟨result, (freshKernel_of_parse_error hcreate hparse).symm⟩ hsound
          nofun ?_
        rw [KernelSystem.remaining, hphase]
        exact Nat.succ_pos 2
      · next constants hparse =>
        exact pipelineSection_advances h hstep rfl hcreate hparse (Or.inl ⟨rfl, hphase⟩)
    | _ => simp [step, hphase] at hstep
  | buildPipeline other =>
    cases hcall
    cases hphase : s.calls call with
    | inPipelineFor request library =>
      rw [hphase] at hagrees
      obtain ⟨⟨result, hcreate⟩, constants, hparse, hinside⟩ := hagrees
      simp only [step, hphase] at hstep
      exact pipelineSection_advances h hstep rfl hcreate hparse (Or.inr ⟨hphase, hinside⟩)
    | _ => simp [step, hphase] at hstep
  | insertPipeline other =>
    cases hcall
    cases hphase : s.calls call with
    | inPipelineFor request library =>
      rw [hphase] at hagrees
      obtain ⟨⟨result, hcreate⟩, constants, hparse, hinside⟩ := hagrees
      simp only [step, hphase] at hstep
      exact pipelineSection_advances h hstep rfl hcreate hparse (Or.inr ⟨hphase, hinside⟩)
    | _ => simp [step, hphase] at hstep
  | setLibraryCacheLimit limit => cases hcall
  | clearLibraryCache => cases hcall

/-- Changing the library cache keeps the invariant. -/
theorem administer_sound (h : Sound host s)
    {libraryEvent : CacheEvent LibraryRequest CompileResult}
    (hadminister : s.administer host libraryEvent = some (shown, s'))
    (hcall : libraryEvent.call? = none) : shown.Faithful host ∧ Sound host s' := by
  rw [administer] at hadminister
  split at hadminister
  · cases hadminister
  · next libraryShown libraries hstep =>
    cases hadminister
    obtain ⟨reference, hinv⟩ := h.libraries
    obtain ⟨next, hnext, -⟩ := CacheSystem.step_invariant hinv hstep
    refine ⟨trivial, ⟨next, hnext⟩, h.pipelines, ?_⟩
    intro call
    have hsame : libraries.calls call = s.libraries.calls call := by
      apply CacheSystem.calls_of_ne hstep
      rw [hcall]
      exact fun hsome => by cases hsome
    simpa only [hsame] using h.calls call

/-- Every step shows something faithful and keeps the invariant. -/
theorem step_sound (h : Sound host s) (hstep : s.step host event = some (shown, s')) :
    shown.Faithful host ∧ Sound host s' := by
  cases hcall : event.call? with
  | some call =>
    have hadvances := step_advances h hstep hcall
    exact ⟨hadvances.faithful, hadvances.sound⟩
  | none =>
    cases event with
    | setLibraryCacheLimit limit => exact administer_sound h hstep rfl
    | clearLibraryCache =>
      have hclear : s.administer host .clear = some (shown, s') := hstep
      exact administer_sound h hclear rfl
    | _ => cases hcall

/-- A section of `library_for` is one of its constructor. -/
theorem librarySection_of_step (call : ℕ) (request : KernelRequest)
    {libraryEvent : CacheEvent LibraryRequest CompileResult}
    {libraryShown : CacheShown LibraryRequest Library}
    {libraries : CacheSystem LibraryRequest Library}
    (hstep : s.libraries.step (libraryBuilder host.platform) libraryEvent =
      some (libraryShown, libraries)) :
    s.librarySection host call request libraryEvent =
      some ({ s with libraries }.afterLibrarySection call request libraryShown) := by
  rw [librarySection, hstep]

/-- A section of `pipeline_for` is one of its constructor. -/
theorem pipelineSection_of_step (call : ℕ) (request : KernelRequest)
    {pipelineEvent : CacheEvent PipelineRequest Unit}
    {pipelineShown : CacheShown PipelineRequest ComputePipeline}
    {cache : CacheSystem PipelineRequest ComputePipeline}
    (hstep : (s.pipelines library).step (host.pipelines library) pipelineEvent =
      some (pipelineShown, cache)) :
    s.pipelineSection host call request library pipelineEvent =
      some ({ s with
        pipelines := Function.update s.pipelines library cache }.afterPipelineSection call
          request library pipelineShown) := by
  rw [pipelineSection, hstep]

/-- A constructor in progress can go on. -/
theorem own_enabled (h : Sound host s) (hstarted : s.calls call ≠ .notStarted)
    (hended : s.calls call ≠ .ended) :
    ∃ event result, event.call? = some call ∧ s.step host event = some result := by
  have hagrees := h.calls call
  cases hphase : s.calls call with
  | notStarted => exact absurd hphase hstarted
  | ended => exact absurd hphase hended
  | inLibraryFor request =>
    rw [hphase] at hagrees
    obtain ⟨libraryEvent, libraryShown, libraries, hevent, hstep⟩ :=
      CacheSystem.step_enabled (libraryBuilder host.platform) none hagrees.1
    have hsection := librarySection_of_step call request hstep
    rcases hevent with rfl | rfl
    · exact ⟨.compileLibrary call none, _, rfl, by simpa only [step, hphase] using hsection⟩
    · exact ⟨.insertLibrary call, _, rfl, by simpa only [step, hphase] using hsection⟩
  | holdsLibrary request library =>
    rw [hphase] at hagrees
    cases hparse : parseConstants request.constants with
    | error failure =>
      exact ⟨.lookupPipeline call, s.finish call request (.error failure), rfl,
        by simp only [step, hphase, hparse]⟩
    | ok constants =>
      obtain ⟨pipelineShown, cache, hstep⟩ := CacheSystem.step_lookup_enabled
        (host.pipelines library) ⟨request.functionName, constants⟩ (hagrees.2 library)
      have hsection := pipelineSection_of_step call request hstep
      exact ⟨.lookupPipeline call, _, rfl, by simpa only [step, hphase, hparse] using hsection⟩
  | inPipelineFor request library =>
    rw [hphase] at hagrees
    obtain ⟨-, constants, -, hinside⟩ := hagrees
    obtain ⟨pipelineEvent, pipelineShown, cache, hevent, hstep⟩ :=
      CacheSystem.step_enabled (host.pipelines library) () hinside
    have hsection := pipelineSection_of_step call request hstep
    rcases hevent with rfl | rfl
    · exact ⟨.buildPipeline call, _, rfl, by simpa only [step, hphase] using hsection⟩
    · exact ⟨.insertPipeline call, _, rfl, by simpa only [step, hphase] using hsection⟩

/-- A constructor without sections left has ended. -/
theorem ended_of_remaining (h : Sound host s) (hstarted : s.calls call ≠ .notStarted)
    (hleft : s.remaining call = 0) : s.calls call = .ended := by
  have hagrees := h.calls call
  rw [KernelSystem.remaining] at hleft
  cases hphase : s.calls call with
  | notStarted => exact absurd hphase hstarted
  | inLibraryFor request =>
    rw [hphase] at hleft
    exact absurd hleft (by simp [KernelPhase.remaining])
  | holdsLibrary request library =>
    rw [hphase] at hleft
    exact absurd hleft (Nat.succ_ne_zero 2)
  | inPipelineFor request library =>
    rw [hphase] at hleft hagrees
    obtain ⟨-, constants, -, hinside⟩ := hagrees
    exact absurd hleft (CallPhase.remaining_pos hinside).ne'
  | ended => rfl

/-- A constructor in progress ends after few more sections of its own. -/
theorem finishes (h : Sound host s) (hstarted : s.calls call ≠ .notStarted) :
    ∃ events observations s', runSchedule (step host) s events = some (observations, s') ∧
      s'.calls call = .ended ∧ events.length ≤ s.remaining call ∧
        ∀ event ∈ events, event.call? = some call := by
  have hstep : ∀ s, Sound host s ∧ s.calls call ≠ .notStarted → s.remaining call ≠ 0 →
      ∃ event shown s', event.call? = some call ∧ s.step host event = some (shown, s') ∧
        (Sound host s' ∧ s'.calls call ≠ .notStarted) ∧
          s'.remaining call < s.remaining call := by
    rintro s ⟨h, hstarted⟩ hleft
    have hended : s.calls call ≠ .ended := by
      intro hended
      rw [KernelSystem.remaining, hended] at hleft
      exact hleft rfl
    obtain ⟨event, ⟨shown, middle⟩, hcall, hnext⟩ := own_enabled h hstarted hended
    have hadvances := step_advances h hnext hcall
    exact ⟨event, shown, middle, hcall, hnext, ⟨hadvances.sound, hadvances.started⟩,
      hadvances.remaining⟩
  obtain ⟨events, observations, s', hrun, ⟨hsound, hlater⟩, hdone, hlength, hown⟩ :=
    runSchedule_drains _ (fun event : KernelEvent => event.call? = some call)
      (fun s : KernelSystem => s.remaining call) hstep ⟨h, hstarted⟩
  exact ⟨events, observations, s', hrun, ended_of_remaining hsound hlater hdone, hlength, hown⟩

/-- A constructor that has started has at most five sections left. -/
theorem remaining_le (hstarted : s.calls call ≠ .notStarted) : s.remaining call ≤ 5 := by
  have hcall : ∀ {Request Content : Type} (phase : CallPhase Request Content),
      phase.remaining ≤ 2 := by
    intro Request Content phase
    cases phase <;> simp [CallPhase.remaining]
  rw [KernelSystem.remaining]
  cases hphase : s.calls call with
  | notStarted => exact absurd hphase hstarted
  | inLibraryFor request => exact Nat.add_le_add_left (hcall _) 3
  | holdsLibrary request library => exact Nat.le_of_sub_eq_zero rfl
  | inPipelineFor request library => exact (hcall _).trans (Nat.le_of_sub_eq_zero rfl)
  | ended => exact Nat.zero_le 5

end KernelSystem

/-- Over every interleaving of `Kernel` constructors with changes and clearing of the library
cache: each constructor that ends has what a compilation and a specialization of its own
arguments give, without any cache, or throws what they throw, and follows no null pointer; and
each that is in progress can end by at most five more sections of its own. -/
theorem kernels_agree_with_fresh (host : KernelPlatform MTLFunction) {events : List KernelEvent}
    {observations : List KernelShown} {s : KernelSystem}
    (hrun : runSchedule (KernelSystem.step host) .initial events = some (observations, s)) :
    (∀ call request outcome, .ended call request outcome ∈ observations →
      outcome ≠ .error (.thrown .undefinedBehavior) ∧
        ∃ result, outcome.map PyKernel.contents = freshKernel host request result) ∧
    ∀ call, s.calls call ≠ .notStarted → ∃ later shown s',
      runSchedule (KernelSystem.step host) s later = some (shown, s') ∧
        s'.calls call = .ended ∧ later.length ≤ 5 ∧ ∀ event ∈ later, event.call? = some call := by
  have hinitial := KernelSystem.initial_sound host
  have hsound : KernelSystem.Sound host s := by
    refine runSchedule_invariant (KernelSystem.Sound host) ?_ hinitial hrun
    intro s event shown s' h hstep
    exact (KernelSystem.step_sound h hstep).2
  refine ⟨?_, ?_⟩
  · intro call request outcome hshown
    have hfaithful : KernelShown.Faithful host (.ended call request outcome) := by
      refine runSchedule_observed (KernelSystem.Sound host) (KernelShown.Faithful host) ?_ hinitial
        hrun _ hshown
      intro s event shown s' h hstep
      exact KernelSystem.step_sound h hstep
    obtain ⟨result, hresult⟩ := hfaithful
    refine ⟨?_, result, hresult⟩
    rintro rfl
    exact freshKernel_defined host request result _ hresult.symm rfl
  · intro call hstarted
    obtain ⟨later, shown, s', hlater, hended, hlength, hown⟩ :=
      KernelSystem.finishes hsound hstarted
    exact ⟨later, shown, s', hlater, hended,
      hlength.trans (KernelSystem.remaining_le hstarted), hown⟩

/-- A host on which every library has one function, which requires one integer constant. -/
def scaleHost : KernelPlatform (ByteString × List ConstantSetting) :=
  ⟨currentPlatform, fun _ => scaleMetal, hostConversions⟩

/-- A kernel of that function. -/
def scaleKernel : KernelRequest where
  mslSource := ascii "kernel void scale() \x7b\x7d"
  functionName := ascii "scale"
  mathMode := .fast
  defines := .empty
  constants := ⟨[(some (ascii "k"), .int 3)], by decide⟩

/-- Two constructors of one kernel; the library is evicted between the calls of the first. -/
def scaleEvents : List KernelEvent :=
  [.lookupLibrary 0 scaleKernel, .compileLibrary 0 none, .insertLibrary 0, .clearLibraryCache,
    .lookupLibrary 1 scaleKernel, .lookupPipeline 0, .compileLibrary 1 none, .buildPipeline 0,
    .insertPipeline 0]

/-- The first ends as it would without caches, and the second can end. -/
theorem scale_agrees_with_fresh : ∃ observations s outcome,
    runSchedule (KernelSystem.step scaleHost) .initial scaleEvents = some (observations, s) ∧
    observations[8]? = some (.ended 0 scaleKernel outcome) ∧
    outcome ≠ .error (.thrown .undefinedBehavior) ∧
    (∃ result, outcome.map PyKernel.contents = freshKernel scaleHost scaleKernel result) ∧
    ∃ later shown s', runSchedule (KernelSystem.step scaleHost) s later = some (shown, s') ∧
      s'.calls 1 = .ended ∧ later.length ≤ 5 ∧ ∀ event ∈ later, event.call? = some 1 := by
  -- The sort of the constants is not structurally recursive.
  obtain ⟨observations, s, outcome, hrun, hlast, hstarted⟩ : ∃ observations s outcome,
      runSchedule (KernelSystem.step scaleHost) .initial scaleEvents = some (observations, s) ∧
      observations[8]? = some (.ended 0 scaleKernel outcome) ∧
      s.calls 1 = .inLibraryFor scaleKernel :=
    ⟨_, _, _, by with_unfolding_all rfl, by with_unfolding_all rfl, by with_unfolding_all rfl⟩
  obtain ⟨hfresh, hfinish⟩ := kernels_agree_with_fresh scaleHost hrun
  obtain ⟨hdefined, hsame⟩ := hfresh 0 scaleKernel outcome (List.mem_of_getElem? hlast)
  exact ⟨observations, s, outcome, hrun, hlast, hdefined, hsame,
    hfinish 1 (fun hphase => by cases hstarted.symm.trans hphase)⟩

end MetalRuntime
