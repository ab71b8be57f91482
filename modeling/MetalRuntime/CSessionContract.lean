import MetalRuntime.CSessionMoves

/-!
# The contract of the C API

Over every sequence of calls: each entry point returns a status of its own and never the one for
unknown exceptions, a missing device is reported only while `runtime()` finds none, a refused call
changes nothing that the caller could notice, a call leaves the objects behind all other handles
alone, and behind a handle that `mr_get_pipeline` gave out there is, until it is released, what an
uncached build on its library gives, whatever becomes of the library and of its cache.
-/

namespace MetalRuntime

open Foundations

variable {MTLFunction : Type} {host : CPlatform MTLFunction}

/-- The library that a call is about. -/
def CCall.library? : CCall → Option ℕ
  | .releaseLibrary library => library
  | .getPipeline library _ _ => library
  | _ => none

/-- The batch that a call is about. -/
def CCall.batch? : CCall → Option ℕ
  | .batchAdd batch _ => batch
  | .batchCommit batch => batch
  | .batchWait batch _ => batch
  | .releaseBatch batch => batch
  | .gpuFinishes batch _ => some batch
  | _ => none

/-- A call gives out a new handle, and its object is there. -/
def CStep.Creates (step : CStep) (handle : ℕ) : Prop :=
  match step.call with
  | .compileLibrary _ _ _ _ => step.before.libraries.live handle = none ∧
      (step.after.libraries.live handle).isSome
  | .getPipeline _ _ _ => step.before.pipelines.live handle = none ∧
      (step.after.pipelines.live handle).isSome
  | .wrapBuffer _ _ _ _ => step.before.buffers.live handle = none ∧
      (step.after.buffers.live handle).isSome
  | .batchCreate _ _ _ => step.before.batches.live handle = none ∧
      (step.after.batches.live handle).isSome
  | _ => False

/-- What the caller of an entry point relies on. -/
structure CStep.KeepsContract (host : CPlatform MTLFunction) (step : CStep) : Prop where
  status : ∃ result, mrGuard host.standardText step.outcome = some result ∧
    result.status ∈ step.call.statuses ∧ (result.errMsg = none ↔ result.status = .ok)
  noDevice : ∀ failure, step.outcome = .error failure → failure.status = some .errorNoDevice →
    step.before.device.runtime = .error failure
  device : step.before.device = .found → step.after.device = .found
  created : ∀ handle, step.outcome = .ok (.handle handle) → step.Creates handle
  refusal : ∀ failure, step.outcome = .error failure → failure.status ≠ some .errorDispatch →
    step.after.memory = step.before.memory ∧ step.after.pipelines = step.before.pipelines ∧
      step.after.buffers = step.before.buffers ∧ step.after.batches = step.before.batches ∧
      step.after.queue = step.before.queue ∧ step.after.device = step.before.device
  libraries : ∀ handle found, step.before.libraries.live handle = some found →
    step.call.library? ≠ some handle → step.after.libraries.live handle = some found
  /-- A lookup may change the cache of its library, and nothing else of it. -/
  lookup : ∀ handle found, step.before.libraries.live handle = some found →
    step.call ≠ .releaseLibrary (some handle) →
      ∃ now, step.after.libraries.live handle = some now ∧ now.library = found.library
  pipelines : ∀ handle found, step.before.pipelines.live handle = some found →
    step.call ≠ .releasePipeline (some handle) →
      step.after.pipelines.live handle = some found
  buffers : ∀ handle found, step.before.buffers.live handle = some found →
    step.call ≠ .releaseBuffer (some handle) → step.after.buffers.live handle = some found
  batches : ∀ handle found, step.before.batches.live handle = some found →
    step.call.batch? ≠ some handle → step.after.batches.live handle = some found

/-- `mr_guard` returns the status of what the body throws. -/
theorem mrGuard_error {α : Type} (standardText : ExceptionClass → ByteString) (failure : Failure) :
    mrGuard standardText (.error failure : Except Failure α) =
      failure.status.map fun status => ⟨status, some (failure.what standardText)⟩ := by
  cases failure <;> rfl

/-- No handler of `mr_guard` returns `MR_OK`. -/
theorem status_ne_ok (failure : Failure) : failure.status ≠ some .ok := by
  intro h
  cases failure <;> cases h

/-- Every entry point may return `MR_OK`. -/
theorem ok_mem_statuses (call : CCall) : .ok ∈ call.statuses := by
  cases call <;> exact List.mem_cons_self

section Moves

variable {s s' : CSession} {call : CCall} {outcome : Except Failure COut} {handle : ℕ}

/-- What a call returns or throws is among its statuses. -/
theorem gives_of_move (hmove : CMove host s call outcome s') :
    ∀ failure, outcome = .error failure → failure.Gives s.device call.statuses := by
  have hends : WaitOutcome outcome → .errorDispatch ∈ call.statuses → ∀ failure,
      outcome = .error failure → failure.Gives s.device call.statuses := by
    intro h hmem failure hfailure
    rcases h with rfl | ⟨what, rfl⟩
    · cases hfailure
    · cases hfailure
      exact gives_of_status .errorDispatch hmem rfl (by decide)
  intro failure hfailure
  cases hmove with
  | refused gives =>
    cases hfailure
    exact gives
  | pipelineFailed live same good gives =>
    cases hfailure
    exact gives
  | dispatched builds ends => exact hends ends (List.mem_of_elem_eq_true rfl) failure hfailure
  | waited live committed ends =>
    exact hends ends (List.mem_of_elem_eq_true rfl) failure hfailure
  | _ => cases hfailure

/-- A handle that a call gives out is the next one of its table. -/
theorem creates_of_move (hinv : s.Invariant host) (hmove : CMove host s call outcome s')
    (houtcome : outcome = .ok (.handle handle)) :
    CStep.Creates ⟨s, call, outcome, s'⟩ handle := by
  have hnew : ∀ {α : Type} {table : Handles α} {object : α}, table.Bounded →
      table.live table.next = none ∧ ((table.create object).live table.next).isSome := by
    intro α table object hbounded
    refine ⟨hbounded _ le_rfl, ?_⟩
    rw [Handles.live_create_self]
    rfl
  have hends : ∀ {outcome : Except Failure COut}, WaitOutcome outcome →
      outcome ≠ .ok (.handle handle) := by
    rintro outcome (rfl | ⟨what, rfl⟩) h <;> cases h
  cases hmove with
  | answered noHandle => exact absurd (Except.ok.inj houtcome) (noHandle handle)
  | dispatched builds ends => exact absurd houtcome (hends ends)
  | waited live committed ends => exact absurd houtcome (hends ends)
  | compiled =>
    cases houtcome
    exact hnew hinv.freshLibraries
  | pipelineGot =>
    cases houtcome
    exact hnew hinv.freshPipelines
  | wrapped =>
    cases houtcome
    exact hnew hinv.freshBuffers
  | batchCreated =>
    cases houtcome
    exact hnew hinv.freshBatches
  | _ => cases houtcome

/-- An error other than a fault of the GPU comes from a call that changed nothing but the order of
a cache. -/
theorem unchanged_of_move (hmove : CMove host s call outcome s') {failure : Failure}
    (hfailure : outcome = .error failure) (hstatus : failure.status ≠ some .errorDispatch) :
    s'.memory = s.memory ∧ s'.pipelines = s.pipelines ∧ s'.buffers = s.buffers ∧
      s'.batches = s.batches ∧ s'.queue = s.queue ∧ s'.device = s.device := by
  have hends : WaitOutcome outcome → False := by
    rintro (rfl | ⟨what, rfl⟩)
    · cases hfailure
    · cases hfailure
      exact hstatus rfl
  cases hmove with
  | refused => exact ⟨rfl, rfl, rfl, rfl, rfl, rfl⟩
  | pipelineFailed => exact ⟨rfl, rfl, rfl, rfl, rfl, rfl⟩
  | dispatched builds ends => exact (hends ends).elim
  | waited live committed ends => exact (hends ends).elim
  | _ => cases hfailure

/-- The GPU creates and deletes no objects. -/
theorem finish_tables (host : CPlatform MTLFunction) (s : CSession) (handle : ℕ)
    (result : GpuResult) :
    (s.finish host handle result).libraries = s.libraries ∧
      (s.finish host handle result).pipelines = s.pipelines ∧
      (s.finish host handle result).buffers = s.buffers ∧
      (s.finish host handle result).device = s.device := by
  unfold CSession.finish
  split <;> exact ⟨rfl, rfl, rfl, rfl⟩

/-- A device that was found stays. -/
theorem device_of_move (hmove : CMove host s call outcome s') (hfound : s.device = .found) :
    s'.device = .found := by
  cases hmove with
  | deviceAnswered missing => exact absurd hfound missing
  | gpuFinished =>
    rw [(finish_tables host s _ _).2.2.2]
    exact hfound
  | _ => exact hfound

/-- A call leaves the libraries that it is not about alone. -/
theorem libraries_of_move (hinv : s.Invariant host) (hmove : CMove host s call outcome s')
    {found : MRLibrary} (hlive : s.libraries.live handle = some found)
    (hcall : call.library? ≠ some handle) : s'.libraries.live handle = some found := by
  have hset : ∀ {other : ℕ} (library : MRLibrary), call.library? = some other →
      (s.libraries.set other library).live handle = some found := by
    rintro other library hother
    refine (Handles.live_set_of_ne _ _ ?_).trans hlive
    rintro rfl
    exact hcall hother
  cases hmove with
  | compiled library => exact hinv.freshLibraries.live_create hlive _
  | libraryReleased library => exact (Handles.live_release_of_ne _ hcall).trans hlive
  | pipelineFailed => exact hset _ rfl
  | pipelineGot => exact hset _ rfl
  | gpuFinished =>
    rw [(finish_tables host s _ _).1]
    exact hlive
  | _ => exact hlive

/-- A library stays what it is until its handle is released. -/
theorem library_of_move (hinv : s.Invariant host) (hmove : CMove host s call outcome s')
    {found : MRLibrary} (hlive : s.libraries.live handle = some found)
    (hcall : call ≠ .releaseLibrary (some handle)) :
    ∃ now, s'.libraries.live handle = some now ∧ now.library = found.library := by
  have hset : ∀ {library : ℕ} {other after : MRLibrary}, s.libraries.live library = some other →
      after.library = other.library →
      ∃ now, (s.libraries.set library after).live handle = some now ∧
        now.library = found.library := by
    intro library other after hother hsame
    by_cases heq : handle = library
    · subst heq
      rw [hlive] at hother
      cases hother
      exact ⟨after, Handles.live_set_self _ _, hsame⟩
    · exact ⟨found, (Handles.live_set_of_ne _ _ heq).trans hlive, rfl⟩
  cases hmove with
  | compiled library => exact ⟨found, hinv.freshLibraries.live_create hlive _, rfl⟩
  | libraryReleased library =>
    refine ⟨found, (Handles.live_release_of_ne _ ?_).trans hlive, rfl⟩
    exact fun heq => hcall (congrArg CCall.releaseLibrary heq)
  | pipelineFailed live same => exact hset live same
  | pipelineGot live same => exact hset live same
  | gpuFinished =>
    rw [(finish_tables host s _ _).1]
    exact ⟨found, hlive, rfl⟩
  | _ => exact ⟨found, hlive, rfl⟩

/-- So does a pipeline. -/
theorem pipeline_of_move (hinv : s.Invariant host) (hmove : CMove host s call outcome s')
    {found : Shared ComputePipeline} (hlive : s.pipelines.live handle = some found)
    (hcall : call ≠ .releasePipeline (some handle)) :
    s'.pipelines.live handle = some found := by
  cases hmove with
  | pipelineGot => exact hinv.freshPipelines.live_create hlive _
  | pipelineReleased pipeline =>
    refine (Handles.live_release_of_ne _ ?_).trans hlive
    exact fun heq => hcall (congrArg CCall.releasePipeline heq)
  | gpuFinished =>
    rw [(finish_tables host s _ _).2.1]
    exact hlive
  | _ => exact hlive

/-- So does a buffer. -/
theorem buffer_of_move (hinv : s.Invariant host) (hmove : CMove host s call outcome s')
    {found : MRBuffer} (hlive : s.buffers.live handle = some found)
    (hcall : call ≠ .releaseBuffer (some handle)) : s'.buffers.live handle = some found := by
  cases hmove with
  | wrapped => exact hinv.freshBuffers.live_create hlive _
  | bufferReleased buffer =>
    refine (Handles.live_release_of_ne _ ?_).trans hlive
    exact fun heq => hcall (congrArg CCall.releaseBuffer heq)
  | gpuFinished =>
    rw [(finish_tables host s _ _).2.2.1]
    exact hlive
  | _ => exact hlive

/-- A batch stays what it is unless a call is about it. -/
theorem batch_of_move (hinv : s.Invariant host) (hmove : CMove host s call outcome s')
    {found : MRBatch} (hlive : s.batches.live handle = some found)
    (hcall : call.batch? ≠ some handle) : s'.batches.live handle = some found := by
  have hset : ∀ {other : ℕ} (batch : MRBatch), call.batch? = some other →
      (s.batches.set other batch).live handle = some found := by
    rintro other batch hother
    refine (Handles.live_set_of_ne _ _ ?_).trans hlive
    rintro rfl
    exact hcall hother
  cases hmove with
  | batchCreated => exact hinv.freshBatches.live_create hlive _
  | encoded => exact hset _ rfl
  | committed => exact hset _ rfl
  | waited => exact hset _ rfl
  | @batchReleased released =>
    have hother : (s.batches.release (some released)).live handle = some found :=
      (Handles.live_release_of_ne _ hcall).trans hlive
    exact hother
  | gpuFinished queued =>
    simp only [CSession.finish, queued]
    split
    · exact hlive
    · exact hset _ rfl
  | _ => exact hlive

/-- A call that does one of the moves keeps the contract. -/
theorem keepsContract_of_move (hinv : s.Invariant host) (hmove : CMove host s call outcome s') :
    CStep.KeepsContract host ⟨s, call, outcome, s'⟩ where
  status := by
    cases outcome with
    | ok out => exact ⟨⟨.ok, none⟩, rfl, ok_mem_statuses call, by simp⟩
    | error failure =>
      obtain ⟨status, hmem, hstatus⟩ := (gives_of_move hmove failure rfl).status
      refine ⟨⟨status, some (failure.what host.standardText)⟩, ?_, hmem, ?_⟩
      · rw [mrGuard_error, hstatus]
        rfl
      · refine iff_of_false (by simp) ?_
        rintro rfl
        exact status_ne_ok failure hstatus
  noDevice := fun failure hfailure => (gives_of_move hmove failure hfailure).noDevice
  device := device_of_move hmove
  created := fun _ => creates_of_move hinv hmove
  refusal := fun _ hfailure hstatus => unchanged_of_move hmove hfailure hstatus
  libraries := fun _ _ => libraries_of_move hinv hmove
  lookup := fun _ _ => library_of_move hinv hmove
  pipelines := fun _ _ => pipeline_of_move hinv hmove
  buffers := fun _ _ => buffer_of_move hinv hmove
  batches := fun _ _ => batch_of_move hinv hmove

end Moves

/-- What `mr_get_pipeline` gave out: the pipeline of an uncached build on its library, and no other
one behind the handle ever after. -/
def GivesPipeline (host : CPlatform MTLFunction) (s : CSession) (call : CCall) (step : CStep) :
    Prop :=
  ∀ library name hasOutPipeline handle, call = .getPipeline (some library) (some name)
      hasOutPipeline → step.outcome = .ok (.handle handle) →
    ∃ found pipeline, step.before.libraries.live library = some found ∧
      step.after.pipelines.live handle = some pipeline ∧
      BuiltFrom host found.library ⟨name, []⟩ pipeline.content ∧
      handle < s.pipelines.next ∧ ∀ now, s.pipelines.live handle = some now → now = pipeline

section Given

variable {s s' : CSession} {call : CCall} {outcome : Except Failure COut}

/-- A move gives out such a pipeline. -/
theorem givesPipeline_of_move (hmove : CMove host s call outcome s') :
    GivesPipeline host s' call ⟨s, call, outcome, s'⟩ := by
  rintro library name hasOutPipeline handle rfl houtcome
  cases hmove with
  | refused => cases houtcome
  | answered noHandle => exact absurd (Except.ok.inj houtcome) (noHandle handle)
  | pipelineFailed => cases houtcome
  | @pipelineGot _ _ _ found after pipeline live same good built =>
    cases houtcome
    refine ⟨found, pipeline, live, Handles.live_create_self _ _, built, Nat.lt_succ_self _, ?_⟩
    intro now hnow
    rw [Handles.live_create_self] at hnow
    exact (Option.some.inj hnow).symm

/-- Handles of pipelines are not used again. -/
theorem pipelines_of_move (hmove : CMove host s call outcome s') :
    s.pipelines.next ≤ s'.pipelines.next ∧ ∀ handle < s.pipelines.next, ∀ now,
      s'.pipelines.live handle = some now → s.pipelines.live handle = some now := by
  cases hmove with
  | pipelineGot =>
    refine ⟨Nat.le_succ _, ?_⟩
    intro handle hlt now hnow
    exact (Handles.live_create_of_ne _ _ (Nat.ne_of_lt hlt)).symm.trans hnow
  | pipelineReleased pipeline =>
    refine ⟨?_, fun handle _ now hnow => Handles.live_of_release pipeline hnow⟩
    cases pipeline <;> exact le_rfl
  | gpuFinished =>
    rw [(finish_tables host s _ _).2.1]
    exact ⟨le_rfl, fun _ _ _ hnow => hnow⟩
  | _ => exact ⟨le_rfl, fun _ _ _ hnow => hnow⟩

/-- So what was given out stays. -/
theorem givesPipeline_keeps (hmove : CMove host s call outcome s') {earlier : CCall}
    {step : CStep} (h : GivesPipeline host s earlier step) :
    GivesPipeline host s' earlier step := by
  obtain ⟨hnext, hlive⟩ := pipelines_of_move hmove
  intro library name hasOutPipeline handle hcall houtcome
  obtain ⟨found, pipeline, hlibrary, hgiven, hbuilt, hlt, hnow⟩ :=
    h library name hasOutPipeline handle hcall houtcome
  refine ⟨found, pipeline, hlibrary, hgiven, hbuilt, hlt.trans_le hnext, ?_⟩
  intro now hafter
  exact hnow now (hlive handle hlt now hafter)

end Given

/-- A step that is allowed does one of the moves. -/
theorem move_of_step {s s' : CSession} {call : CCall} {step : CStep} (hinv : s.Invariant host)
    (hstep : s.step host call = some (step, s')) :
    CMove host s call step.outcome s' ∧ step = ⟨s, call, step.outcome, s'⟩ := by
  obtain ⟨hallowed, heq⟩ := Option.ite_none_right_eq_some.mp hstep
  cases heq
  exact ⟨CSession.perform_move hinv hallowed, rfl⟩

/-- Over every sequence of calls, with anything that Metal, the compiler, the GPU and the caller's
own code do in between: every call keeps the contract, and behind every handle that
`mr_get_pipeline` gave out there has been, while it was live, exactly the pipeline of an uncached
build on its library. -/
theorem c_calls_keep_contract (host : CPlatform MTLFunction) {device : DeviceAnswer}
    {memory : Memory} {calls : List CCall} {steps : List CStep} {s : CSession}
    (hrun : runSchedule (CSession.step host) (.initial device memory) calls = some (steps, s)) :
    (∀ step ∈ steps, step.KeepsContract host) ∧
    List.Forall₂ (GivesPipeline host s) calls steps := by
  have hinitial := CSession.initial_invariant host device memory
  refine ⟨?_, ?_⟩
  · refine runSchedule_observed (CSession.Invariant host) _ ?_ hinitial hrun
    intro s call step s' hinv hstep
    obtain ⟨hmove, hshown⟩ := move_of_step hinv hstep
    rw [hshown]
    exact ⟨keepsContract_of_move hinv hmove, hinv.move hmove⟩
  · refine runSchedule_settled (CSession.Invariant host) (GivesPipeline host) ?_ ?_ hinitial hrun
    · intro s call step s' hinv hstep
      obtain ⟨hmove, hshown⟩ := move_of_step hinv hstep
      rw [hshown]
      exact ⟨givesPipeline_of_move hmove, hinv.move hmove⟩
    · intro s call step s' earlier shown hinv hgiven hstep
      exact givesPipeline_keeps (move_of_step hinv hstep).1 hgiven

/-- A Metal library whose functions all build the same pipeline. -/
def addOneMetal : MTLLibrary Unit where
  isUtf8 := fun _ => true
  newFunction := fun name => if name = ascii "add_one" then some () else none
  functionConstants := fun _ => .empty
  newSpecializedFunction := fun _ _ => .ok ()
  newComputePipelineState := fun _ => .ok (addOnePipeline.pipeline,
    some [⟨0, ascii "data", .buffer, true, 4⟩])

/-- A device on which kernels do nothing. -/
def idleHost : CPlatform Unit where
  platform := currentPlatform
  metal := fun _ => addOneMetal
  conversions := hostConversions
  device := ⟨1024, 32768, 1073741824, 1073741824, true, true⟩
  gpu := ⟨fun _ memory => memory, fun _ _ _ _ => rfl⟩
  standardText := fun _ => []

/-- A caller compiles before there is a device, and again when there is one, gets a pipeline and
releases the library; then it asks for a function that is not there, and for the limits of the
pipeline. -/
def pipelineCalls : List CCall :=
  [.compileLibrary (some (ascii "kernel void add_one() {}")) 2 true none,
    .deviceAnswers .found,
    .compileLibrary (some (ascii "kernel void add_one() {}")) 2 true none,
    .getPipeline (some 0) (some (ascii "add_one")) true,
    .getPipeline (some 0) (some (ascii "missing")) true,
    .releaseLibrary (some 0),
    .pipelineInfo (some 0) true]

/-- The first compilation finds no device, and the pipeline outlives its library. -/
theorem pipeline_outlives_library : ∃ steps s first step, ∃ pipeline : Shared ComputePipeline,
    runSchedule (CSession.step idleHost) (.initial .noQueue fun _ => 0) pipelineCalls =
      some (steps, s) ∧
    (∀ step ∈ steps, step.KeepsContract idleHost) ∧ steps[0]? = some first ∧
    mrGuard idleHost.standardText first.outcome = some ⟨.errorNoDevice,
      some (ascii "could not create a Metal command queue on this device")⟩ ∧
    steps[4]? = some step ∧
    mrGuard idleHost.standardText step.outcome = some ⟨.errorFunctionNotFound,
      some (ascii "no such MSL function: missing")⟩ ∧
    s.libraries.live 0 = none ∧ s.pipelines.live 0 = some pipeline ∧
    ∃ library, BuiltFrom idleHost library ⟨ascii "add_one", []⟩ pipeline.content := by
  have hrun : runSchedule (CSession.step idleHost) (.initial .noQueue fun _ => 0) pipelineCalls =
    some (_, _) := rfl
  obtain ⟨hcontract, hgiven⟩ := c_calls_keep_contract idleHost hrun
  obtain ⟨found, pipeline, -, -, hbuilt, -, hnow⟩ :=
    hgiven.get (i := 3) (by decide) (by decide) 0 (ascii "add_one") true 0 rfl rfl
  refine ⟨_, _, _, _, pipeline, hrun, hcontract, rfl, rfl, rfl, rfl, rfl, ?_, found.library,
    hbuilt⟩
  rw [← hnow _ rfl]
  rfl

end MetalRuntime
