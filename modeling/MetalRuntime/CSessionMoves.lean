import MetalRuntime.BatchLifecycle
import MetalRuntime.CSession

/-!
# What a call of the C API does

`CMove` says once what each entry point does to a session that satisfies the invariant: what it
returns or throws, and which objects it creates, changes or deletes. The invariant is that every
batch is open or committed, and that every pipeline in the cache of a library was built from that
library.
-/

namespace MetalRuntime

open Foundations

variable {MTLFunction : Type}

/-- A pipeline is what an uncached build of a request on a library gives. -/
def BuiltFrom (host : CPlatform MTLFunction) (library : Library) (request : PipelineRequest)
    (pipeline : ComputePipeline) : Prop :=
  buildPipeline (host.metal library) host.conversions request = .ok pipeline

/-- The cache refines a recency list of pipelines that were built from the library. -/
def MRLibrary.Good (host : CPlatform MTLFunction) (library : MRLibrary) : Prop :=
  ∃ reference, library.pipelines.Refines reference ∧
    ∀ key pipeline, reference.recent.lookup key = some pipeline →
      ∃ request : PipelineRequest, pipelineKey request.name request.constants = key ∧
        BuiltFrom host library.library request pipeline.content

/-- The batch is open or committed. -/
def MRBatch.Good (batch : MRBatch) : Prop :=
  (∃ commands, Lifecycle batch.world .opened commands) ∨
    ∃ commands, Lifecycle batch.world .committed commands

/-- What holds of a session at all times. -/
structure CSession.Invariant (host : CPlatform MTLFunction) (s : CSession) : Prop where
  libraries : s.libraries.All (MRLibrary.Good host)
  batches : s.batches.All MRBatch.Good
  freshLibraries : s.libraries.Bounded
  freshPipelines : s.pipelines.Bounded
  freshBuffers : s.buffers.Bounded
  freshBatches : s.batches.Bounded
  queued : ∀ handle batch, (s.queue handle).isSome → s.batches.live handle = some batch →
    batch.world.batch.committed = true
  queuedBefore : ∀ handle, (s.queue handle).isSome → handle < s.batches.next

section Pipelines

variable {host : CPlatform MTLFunction} {library : MRLibrary}

/-- An empty cache is good. -/
theorem good_of_compiled (host : CPlatform MTLFunction) (library : Library) :
    MRLibrary.Good host { library } :=
  ⟨.empty kMaxCachedPipelines, LruCache.Refines.create _, fun _ _ h => by cases h⟩

/-- `pipeline_for` ends as an uncached build does, and keeps the cache good. -/
theorem pipelineFor_cases (h : library.Good host) (newObject : ℕ) (request : PipelineRequest) :
    ∃ after, after.library = library.library ∧ after.Good host ∧
      ((∃ pipeline, library.pipelineFor host.toKernelPlatform newObject request =
          (.ok (some pipeline), after) ∧
          BuiltFrom host library.library request pipeline.content) ∨
        ∃ failure, library.pipelineFor host.toKernelPlatform newObject request =
          (.error failure, after) ∧
          buildPipeline (host.metal library.library) host.conversions request =
            .error failure) := by
  obtain ⟨reference, hrefines, hstored⟩ := h
  obtain ⟨found, hfind, hnext⟩ := hrefines.find (pipelineKey request.name request.constants)
  have hfound := RecencyCache.forall_lookup_find hstored
    (pipelineKey request.name request.constants)
  cases hhit : reference.recent.lookup (pipelineKey request.name request.constants) with
  | some pipeline =>
    refine ⟨{ library with pipelines := found }, rfl, ⟨_, hnext, hfound⟩, Or.inl ⟨pipeline, ?_, ?_⟩⟩
    · rw [MRLibrary.pipelineFor, hfind, RecencyCache.find, hhit]
    · obtain ⟨other, hkey, hbuilt⟩ := hstored _ _ hhit
      have hsame := pipelineBuilder_separates (host.metal library.library) host.conversions
        request other hkey.symm
      exact (congrFun hsame ()).trans hbuilt
  | none =>
    have hmissing : (reference.find (pipelineKey request.name
        request.constants)).2.recent.lookup (pipelineKey request.name request.constants) = none :=
      (RecencyList.lookup_touch _ _ reference.recent).trans hhit
    rw [RecencyCache.find, hhit] at hfind
    cases hbuild : buildPipeline (host.metal library.library) host.conversions request with
    | error failure =>
      refine ⟨{ library with pipelines := found }, rfl, ⟨_, hnext, hfound⟩,
        Or.inr ⟨failure, ?_, rfl⟩⟩
      rw [MRLibrary.pipelineFor, hfind]
      simp only [hbuild]
    | ok pipeline =>
      have hkept := RecencyCache.insert_of_missing hmissing (⟨newObject, pipeline⟩ : Shared _)
      obtain ⟨inserted, hinsert, hrest⟩ := hnext.insert
        (pipelineKey request.name request.constants) (⟨newObject, pipeline⟩ : Shared _)
      refine ⟨{ library with pipelines := inserted }, rfl, ⟨_, hrest, ?_⟩,
        Or.inl ⟨⟨newObject, pipeline⟩, ?_, hbuild⟩⟩
      · refine RecencyCache.forall_lookup_insert hfound ⟨request, rfl, ?_⟩
        rw [hkept]
        exact hbuild
      · rw [hkept] at hinsert
        rw [MRLibrary.pipelineFor, hfind]
        simp only [hbuild, hinsert]

end Pipelines

/-- The status that `mr_guard` returns for what a body throws. -/
def Failure.status (failure : Failure) : Option MRStatus :=
  failure.exceptionClass.bind (firstHandler mrGuardHandlers)

/-- The statuses that an entry point may return. -/
def CCall.statuses : CCall → List MRStatus
  | .compileLibrary _ _ _ _ => [.ok, .errorInvalidArgument, .errorNoDevice, .errorCompile]
  | .getPipeline _ _ _ => [.ok, .errorInvalidArgument, .errorFunctionNotFound, .errorCompile]
  | .deviceInfo _ => [.ok, .errorInvalidArgument, .errorNoDevice]
  | .pipelineInfo _ _ => [.ok, .errorInvalidArgument]
  | .wrapBuffer _ _ _ _ => [.ok, .errorInvalidArgument, .errorNoDevice, .errorAllocation]
  | .bufferFlushTo _ => [.ok, .errorInvalidArgument]
  | .dispatch _ _ _ _ => [.ok, .errorInvalidArgument, .errorNoDevice, .errorDispatch]
  | .batchCreate _ _ _ => [.ok, .errorInvalidArgument, .errorNoDevice, .errorDispatch]
  | .batchAdd _ _ => [.ok, .errorInvalidArgument, .errorDispatch]
  | .batchCommit _ => [.ok, .errorInvalidArgument]
  | .batchWait _ _ => [.ok, .errorInvalidArgument, .errorDispatch]
  | _ => [.ok]

/-- The status for a failure is one of these, and the one for a missing device only if `runtime()`
finds none. -/
structure Failure.Gives (device : DeviceAnswer) (statuses : List MRStatus) (failure : Failure) :
    Prop where
  status : ∃ status ∈ statuses, failure.status = some status
  noDevice : failure.status = some .errorNoDevice → device.runtime = .error failure

section Failures

variable {host : CPlatform MTLFunction} {device : DeviceAnswer}

/-- A failure with another status than the one for a missing device. -/
theorem gives_of_status {statuses : List MRStatus} {failure : Failure} (status : MRStatus)
    (hmem : status ∈ statuses) (hstatus : failure.status = some status)
    (hne : status ≠ .errorNoDevice) : failure.Gives device statuses where
  status := ⟨status, hmem, hstatus⟩
  noDevice := fun hmissing => absurd (Option.some.inj (hstatus.symm.trans hmissing)) hne

/-- `runtime()` throws only `NoDeviceError`. -/
theorem runtime_failsOnly (device : DeviceAnswer) {statuses : List MRStatus}
    (hmem : .errorNoDevice ∈ statuses) :
    FailsOnly (Failure.Gives device statuses) device.runtime := by
  intro failure hfailure
  refine ⟨⟨.errorNoDevice, hmem, ?_⟩, fun _ => hfailure⟩
  cases device <;> cases hfailure <;> rfl

/-- Refusing an argument gives the status for it. -/
theorem gives_of_isInvalidArgument {statuses : List MRStatus} {failure : Failure}
    (hmem : .errorInvalidArgument ∈ statuses) (h : failure.IsInvalidArgument) :
    failure.Gives device statuses := by
  obtain ⟨what, rfl⟩ := h
  exact gives_of_status .errorInvalidArgument hmem rfl (by decide)

/-- The body of `mr_compile_library` refuses its arguments, finds no device or fails to compile. -/
theorem mrCompileLibrary_failsOnly (mslSource : Option ByteString) (mathMode : ℕ)
    (hasOutLibrary : Bool) (result : CompileResult) :
    FailsOnly (Failure.Gives device [.ok, .errorInvalidArgument, .errorNoDevice, .errorCompile])
      (mrCompileLibrary host device mslSource mathMode hasOutLibrary result) := by
  have hinvalid : ∀ failure : Failure, failure.IsInvalidArgument →
      failure.Gives device [.ok, .errorInvalidArgument, .errorNoDevice, .errorCompile] :=
    fun _ => gives_of_isInvalidArgument (by decide)
  refine (failsOnly_rejectIf (hinvalid _ ⟨_, rfl⟩)).bind fun _ _ => ?_
  cases mslSource with
  | none => exact failsOnly_error (hinvalid _ ⟨_, rfl⟩)
  | some source =>
    refine FailsOnly.bind ?mode fun mode _ => ?_
    case mode =>
      unfold toMathMode
      split
      · exact failsOnly_ok _ _
      · exact failsOnly_ok _ _
      · exact failsOnly_ok _ _
      · exact failsOnly_error (hinvalid _ ⟨_, rfl⟩)
    refine (runtime_failsOnly device (by decide)).bind fun _ _ => ?_
    refine ((toNsString_failsOnly _ _ _).mono hinvalid).bind fun converted _ => ?_
    refine FailsOnly.bind (failsOnly_ok _ _) fun options _ => ?_
    cases result with
    | none => exact failsOnly_ok _ _
    | some error =>
      exact failsOnly_error (gives_of_status .errorCompile (by decide) rfl (by decide))

/-- Without constants, a build refuses the name, finds no function or fails to compile. -/
theorem buildPipeline_failsOnly (library : Library) (name : ByteString) :
    FailsOnly
      (Failure.Gives device [.ok, .errorInvalidArgument, .errorFunctionNotFound, .errorCompile])
      (buildPipeline (host.metal library) host.conversions ⟨name, []⟩) := by
  refine FailsOnly.bind ?specialize fun function _ => ?_
  case specialize =>
    rw [createSpecialized_eq]
    refine ((toNsString_failsOnly _ _ _).mono fun _ =>
      gives_of_isInvalidArgument (by decide)).bind fun converted _ => ?_
    split
    · exact failsOnly_error (gives_of_status .errorFunctionNotFound (by decide) rfl (by decide))
    · dsimp only
      split
      · exact failsOnly_ok _ _
      · refine FailsOnly.bind (failsOnly_rejectIf ?mismatch) fun _ _ => ?_
        case mismatch => exact gives_of_status .errorCompile (by decide) rfl (by decide)
        rw [List.mapM_nil]
        refine FailsOnly.bind (failsOnly_ok _ _) fun values _ => ?_
        unfold specialize
        split
        · exact failsOnly_ok _ _
        · exact failsOnly_error (gives_of_status .errorCompile (by decide) rfl (by decide))
  unfold ComputePipeline.create
  split
  · exact failsOnly_error (gives_of_status .errorCompile (by decide) rfl (by decide))
  · exact failsOnly_ok _ _

/-- The body of `mr_wrap_buffer` refuses its arguments, finds no device or fails to allocate. -/
theorem mrWrapBuffer_failsOnly (system : Host) (hasOutBuffer : Bool) (memory : Memory)
    (ptr sizeBytes : SizeT) :
    FailsOnly
      (Failure.Gives system.device [.ok, .errorInvalidArgument, .errorNoDevice, .errorAllocation])
      (mrWrapBuffer system hasOutBuffer memory ptr sizeBytes) := by
  have hinvalid : ∀ what, Failure.Gives system.device
      [.ok, .errorInvalidArgument, .errorNoDevice, .errorAllocation] (.invalidArgument what) :=
    fun what => gives_of_status .errorInvalidArgument (by decide) rfl (by decide)
  have hallocation : ∀ what, Failure.Gives system.device
      [.ok, .errorInvalidArgument, .errorNoDevice, .errorAllocation] (.allocation what) :=
    fun what => gives_of_status .errorAllocation (by decide) rfl (by decide)
  have hcopy : FailsOnly
      (Failure.Gives system.device [.ok, .errorInvalidArgument, .errorNoDevice, .errorAllocation])
      (ownCopy system memory ptr sizeBytes) := by
    refine (runtime_failsOnly system.device (by decide)).bind fun _ _ => ?_
    refine FailsOnly.bind ?_ fun owned _ => failsOnly_ok _ _
    unfold Buffer.create
    split
    · exact failsOnly_ok _ _
    · exact failsOnly_error (hallocation _)
  refine (failsOnly_rejectIf (hinvalid _)).bind fun _ _ => ?_
  refine (failsOnly_rejectIf (hinvalid _)).bind fun _ _ => ?_
  split
  · refine FailsOnly.bind ?pages fun attempt _ => ?_
    case pages =>
      refine (failsOnly_rejectIf (hinvalid _)).bind fun _ _ => ?_
      refine (failsOnly_rejectIf (hinvalid _)).bind fun _ _ => ?_
      split
      · refine (runtime_failsOnly system.device (by decide)).bind fun _ _ => ?_
        refine FailsOnly.bind ?_ fun buffer _ => failsOnly_ok _ _
        refine (failsOnly_rejectIf (hinvalid _)).bind fun _ _ => ?_
        split
        · exact failsOnly_ok _ _
        · exact failsOnly_error (hallocation _)
      · exact failsOnly_ok _ _
    cases attempt with
    | some buffer => exact failsOnly_ok _ _
    | none => exact hcopy
  · exact hcopy

/-- A vector holds the elements of an array that fits into the address space. -/
theorem ofList_failsOnly {α : Type} {P : Failure → Prop} {count : SizeT} (hfits : ArrayFits count)
    {elements : List α} (hlength : elements.length = count.toNat) :
    FailsOnly P (StdVector.ofList elements) := by
  unfold StdVector.ofList
  split
  · exact failsOnly_ok _ _
  · next hlong =>
    have hword : 8 * count.toNat < 2 ^ 64 := hfits
    simp only [maxVectorSize] at hlong
    omega

/-- Collecting the elements of an array. -/
theorem failsOnly_collect {α β : Type} {P : Failure → Prop} {count : SizeT}
    (hfits : ArrayFits count) {body : ℕ → Except Failure α} {next : StdVector α → Except Failure β}
    (hbody : ∀ i < count.toNat, FailsOnly P (body i)) (hnext : ∀ v, FailsOnly P (next v)) :
    FailsOnly P (do
      let elements ← (List.range count.toNat).mapM body
      let collected ← StdVector.ofList elements
      next collected) := by
  refine (failsOnly_mapM fun i hi => hbody i (List.mem_range.mp hi)).bind fun elements h => ?_
  have hlength := (mapM_eq_ok_iff.mp h).length_eq
  rw [List.length_range] at hlength
  exact (ofList_failsOnly hfits hlength.symm).bind fun v _ => hnext v

/-- Reading the elements of an array that is there. -/
theorem element_failsOnly {α : Type} {P : Failure → Prop} {array : Option (ℕ → α)}
    (harray : ¬ array.isNone) (i : ℕ) : FailsOnly P (element array i) := by
  cases array with
  | none => exact absurd rfl harray
  | some elements => exact failsOnly_ok _ _

/-- `build_launch` refuses its descriptor, or reads inside its arrays. -/
theorem buildLaunch_failsOnly {launch : Option MRLaunchDesc} {who : ByteString}
    (hfits : ∀ desc ∈ launch, ArrayFits desc.bufferCount ∧ ArrayFits desc.scalarCount ∧
      ArrayFits desc.threadgroupMemoryCount) :
    FailsOnly Failure.IsInvalidArgument (buildLaunch launch who) := by
  cases launch with
  | none => exact failsOnly_error ⟨_, rfl⟩
  | some desc =>
    obtain ⟨hbuffers, hscalars, hlengths⟩ := hfits desc rfl
    -- A loop runs only if the arrays it reads were given.
    have hgiven : ∀ {count : SizeT} {absent : Prop} {i : ℕ}, ¬ (count ≠ 0 ∧ absent) →
        i < count.toNat → ¬ absent := by
      intro count absent i hpass hi habsent
      refine hpass ⟨?_, habsent⟩
      rintro rfl
      exact absurd hi (Nat.not_lt_zero i)
    unfold buildLaunch
    dsimp only
    split
    · exact failsOnly_error ⟨_, rfl⟩
    · refine (failsOnly_rejectIf ⟨_, rfl⟩).bind fun _ hbufferArrays => ?_
      refine (failsOnly_rejectIf ⟨_, rfl⟩).bind fun _ hscalarArrays => ?_
      refine (failsOnly_rejectIf ⟨_, rfl⟩).bind fun _ hlengthArrays => ?_
      rw [rejectIf_eq_ok] at hbufferArrays hscalarArrays hlengthArrays
      refine failsOnly_collect hbuffers (fun i hi => ?_) fun buffers => ?_
      · have harrays := hgiven hbufferArrays hi
        rw [not_or] at harrays
        refine (element_failsOnly harrays.1 i).bind fun buffer _ => ?_
        split
        · exact failsOnly_error ⟨_, rfl⟩
        · exact (element_failsOnly harrays.2 i).bind fun offset _ =>
            (failsOnly_rejectIf ⟨_, rfl⟩).bind fun _ _ => failsOnly_ok _ _
      refine failsOnly_collect hscalars (fun i hi => ?_) fun scalars => ?_
      · have harrays := hgiven hscalarArrays hi
        rw [not_or] at harrays
        refine (element_failsOnly harrays.1 i).bind fun data _ => ?_
        exact (failsOnly_rejectIf ⟨_, rfl⟩).bind fun _ _ =>
          (element_failsOnly harrays.2 i).bind fun size _ => failsOnly_ok _ _
      refine failsOnly_collect hlengths (fun i hi => ?_) fun threadgroupMemory => failsOnly_ok _ _
      exact element_failsOnly (hgiven hlengthArrays hi) i

end Failures

section Batches

variable {host : CPlatform MTLFunction} {world : BatchWorld} {phase : Phase}
  {commands : List EncoderCommand}

/-- The GPU reporting on a committed batch leaves it committed. -/
theorem Lifecycle.finished (h : Lifecycle world .committed commands) (result : GpuResult) :
    Lifecycle (world.finished result) .committed commands :=
  ⟨h.committed, h.discarded, h.encoder, h.commandBuffer, h.calls, fun hphase => absurd rfl hphase⟩

/-- The rest of `wait` on a committed batch leaves it committed, and throws only `DispatchError`. -/
theorem Lifecycle.exec_waitRest (h : Lifecycle world .committed commands) :
    ∃ outcome after, (do
        CommandBatch.waitUntilCompleted
        CommandBatch.waitFinish : BatchMethod Unit).exec world = (outcome, after) ∧
      Lifecycle after .committed commands ∧
      (outcome = .ok () ∨ ∃ what, outcome = .error (.dispatchError what)) := by
  have hqueried : ∀ call ∈ [MetalCall.waitUntilCompleted], call.isQuery := by decide
  have hwaited := h.query hqueried
  obtain ⟨queries, time, outcome, hqueries, houtcome, hfinish⟩ := hwaited.exec_waitFinish
  refine ⟨outcome, _, ?_, (hwaited.query hqueries).timed time, houtcome⟩
  rw [Method.exec_bind, h.exec_waitUntilCompleted, Method.andThen_ok, hfinish]

/-- `add` on an open or committed batch encodes the launch, or throws and changes nothing. -/
theorem exec_add_cases {batch : MRBatch} (h : batch.Good) (launch : Launch) :
    (∃ after commands, (CommandBatch.add launch).exec batch.world = (.ok (), after) ∧
      batch.world.batch.committed = false ∧ Lifecycle after .opened commands) ∨
    ∃ failure, (CommandBatch.add launch).exec batch.world = (.error failure, batch.world) ∧
      ∀ device, failure.Gives device [.ok, .errorInvalidArgument, .errorDispatch] := by
  rcases h with ⟨commands, hopen⟩ | ⟨commands, hcommitted⟩
  · cases hvalid : validate launch batch.world.batch.nonUniform
      batch.world.batch.maxThreadgroupMemory with
    | ok _ =>
      obtain ⟨pipeline, -, hadd⟩ := hopen.exec_add hvalid
      exact Or.inl ⟨_, _, hadd, by simpa using hopen.committed, hopen.encode _⟩
    | error failure =>
      have hinvalid := validate_failsOnly launch _ _ failure hvalid
      exact Or.inr ⟨failure, hopen.exec_add_of_rejected hvalid,
        fun _ => gives_of_isInvalidArgument (by decide) hinvalid⟩
  · obtain ⟨message, hadd⟩ := hcommitted.exec_add_of_closed (by decide) launch
    exact Or.inr ⟨_, hadd, fun _ => gives_of_status .errorDispatch (by decide) rfl (by decide)⟩

/-- `dispatch` on a new batch throws before anything is committed, or commits. -/
theorem exec_dispatch_cases (h : Lifecycle world .opened []) (launch : Launch)
    (result : GpuResult) :
    (∃ failure, (dispatch launch result).exec world = (.error failure, world) ∧
      failure.IsInvalidArgument) ∨
    ∃ outcome after, (dispatch launch result).exec world = (outcome, after) ∧
      after.batch.committed = true ∧
      (outcome = .ok () ∨ ∃ what, outcome = .error (.dispatchError what)) := by
  cases hvalid : validate launch world.batch.nonUniform world.batch.maxThreadgroupMemory with
  | error failure =>
    refine Or.inl ⟨failure, ?_, validate_failsOnly launch _ _ failure hvalid⟩
    rw [dispatch, Method.exec_bind, h.exec_add_of_rejected hvalid, Method.andThen_error]
  | ok _ =>
    obtain ⟨pipeline, -, hadd⟩ := h.exec_add hvalid
    have hencoded := h.encode (launchCommands launch pipeline world.batch.nonUniform)
    obtain ⟨outcome, after, hwait, hafter, houtcome⟩ :=
      (hencoded.commit.finished result).exec_waitRest
    refine Or.inr ⟨outcome, after, ?_, by simpa using hafter.committed, houtcome⟩
    rw [dispatch, Method.exec_bind, hadd, Method.andThen_ok, Method.exec_bind,
      hencoded.exec_commitLocked, Method.andThen_ok, Method.exec_bind, Method.exec_modify,
      Method.andThen_ok]
    exact hwait

/-- A new batch is open, or there is none. -/
theorem create_cases (rt : Runtime) (commandBuffer encoder : Option ℕ) :
    (∃ world, CommandBatch.create rt commandBuffer encoder = .ok world ∧
      Lifecycle world .opened []) ∨
    ∃ what, CommandBatch.create rt commandBuffer encoder = .error (.dispatchError what) := by
  cases hcreate : CommandBatch.create rt commandBuffer encoder with
  | ok world =>
    obtain ⟨hlife, -⟩ := CommandBatch.create_lifecycle hcreate
    exact Or.inl ⟨world, rfl, hlife⟩
  | error failure =>
    have hfails : FailsOnly (fun failure => ∃ what, failure = .dispatchError what)
        (CommandBatch.create rt commandBuffer encoder) :=
      (failsOnly_rejectIf ⟨_, rfl⟩).bind fun _ _ =>
        (failsOnly_rejectIf ⟨_, rfl⟩).bind fun _ _ => failsOnly_ok _ _
    obtain ⟨what, rfl⟩ := hfails failure hcreate
    exact Or.inr ⟨what, rfl⟩

end Batches

/-- What the GPU still has to complete when a `wait` on a batch has committed it. -/
def CSession.pending (s : CSession) (handle : ℕ) (batch : MRBatch) : List BoundLaunch :=
  if batch.world.batch.committed then (s.queue handle).getD [] else batch.launches

/-- `mr_batch_wait` returns, or throws `DispatchError`. -/
def WaitOutcome (outcome : Except Failure COut) : Prop :=
  outcome = .ok .nothing ∨ ∃ what, outcome = .error (.dispatchError what)

/-- What each call can do. -/
inductive CMove (host : CPlatform MTLFunction) (s : CSession) :
    CCall → Except Failure COut → CSession → Prop
  /-- The call throws and changes nothing. -/
  | refused {call : CCall} {failure : Failure} (gives : failure.Gives s.device call.statuses) :
      CMove host s call (.error failure) s
  /-- The call returns and changes nothing. -/
  | answered {call : CCall} {out : COut} (noHandle : ∀ handle, out ≠ .handle handle) :
      CMove host s call (.ok out) s
  | compiled {mslSource : Option ByteString} {mathMode : ℕ} {hasOutLibrary : Bool}
      {result : CompileResult} (library : Library) :
      CMove host s (.compileLibrary mslSource mathMode hasOutLibrary result)
        (.ok (.handle s.libraries.next)) { s with libraries := s.libraries.create { library } }
  | libraryReleased (library : Option ℕ) : CMove host s (.releaseLibrary library) (.ok .nothing)
      { s with libraries := s.libraries.release library }
  /-- A build fails; the lookup may have changed the order of the cache. -/
  | pipelineFailed {hasOutPipeline : Bool} {library : ℕ} {name : ByteString}
      {found after : MRLibrary} {failure : Failure}
      (live : s.libraries.live library = some found) (same : after.library = found.library)
      (good : after.Good host)
      (gives : failure.Gives s.device
        [.ok, .errorInvalidArgument, .errorFunctionNotFound, .errorCompile]) :
      CMove host s (.getPipeline (some library) (some name) hasOutPipeline) (.error failure)
        { s with libraries := s.libraries.set library after }
  | pipelineGot {hasOutPipeline : Bool} {library : ℕ} {name : ByteString}
      {found after : MRLibrary} {pipeline : Shared ComputePipeline}
      (live : s.libraries.live library = some found) (same : after.library = found.library)
      (good : after.Good host)
      (built : BuiltFrom host found.library ⟨name, []⟩ pipeline.content) :
      CMove host s (.getPipeline (some library) (some name) hasOutPipeline)
        (.ok (.handle s.pipelines.next)) { s with
          libraries := s.libraries.set library after
          pipelines := s.pipelines.create pipeline
          nextObject := s.nextObject + 1 }
  | pipelineReleased (pipeline : Option ℕ) :
      CMove host s (.releasePipeline pipeline) (.ok .nothing)
        { s with pipelines := s.pipelines.release pipeline }
  | wrapped {system : Host} {ptr sizeBytes : SizeT} {hasOutBuffer : Bool} {buffer : MRBuffer}
      {memory : Memory}
      (wraps : mrWrapBuffer (system.withDevice s.device) hasOutBuffer s.memory ptr sizeBytes =
        .ok (buffer, memory)) :
      CMove host s (.wrapBuffer system ptr sizeBytes hasOutBuffer) (.ok (.handle s.buffers.next))
        { s with memory, buffers := s.buffers.create buffer }
  | flushed {handle : ℕ} {buffer : MRBuffer} {memory : Memory}
      (live : s.buffers.live handle = some buffer)
      (flushes : mrBufferFlushTo (some buffer) s.memory = .ok memory) :
      CMove host s (.bufferFlushTo (some handle)) (.ok .nothing) { s with memory }
  | bufferReleased (buffer : Option ℕ) : CMove host s (.releaseBuffer buffer) (.ok .nothing)
      { s with buffers := s.buffers.release buffer }
  | dispatched {launch : Option LaunchHandles} {commandBuffer encoder : Option ℕ}
      {result : GpuResult} {bound : BoundLaunch} {outcome : Except Failure COut}
      (builds : s.build launch (ascii "mr_dispatch") = .ok bound) (ends : WaitOutcome outcome) :
      CMove host s (.dispatch launch commandBuffer encoder result) outcome
        { s with memory := host.gpu.run bound s.memory }
  | batchCreated {hasOutBatch : Bool} {commandBuffer encoder : Option ℕ} {world : BatchWorld}
      (opened : Lifecycle world .opened []) :
      CMove host s (.batchCreate hasOutBatch commandBuffer encoder)
        (.ok (.handle s.batches.next)) { s with batches := s.batches.create { world } }
  | encoded {handle : ℕ} {launch : Option LaunchHandles} {batch : MRBatch} {bound : BoundLaunch}
      {world : BatchWorld} {commands : List EncoderCommand}
      (live : s.batches.live handle = some batch)
      (uncommitted : batch.world.batch.committed = false)
      (builds : s.build launch (ascii "mr_batch_add") = .ok bound)
      (opened : Lifecycle world .opened commands) :
      CMove host s (.batchAdd (some handle) launch) (.ok .nothing)
        { s with batches := s.batches.set handle ⟨world, batch.launches ++ [bound]⟩ }
  | committed {handle : ℕ} {batch : MRBatch} {world : BatchWorld} {commands : List EncoderCommand}
      (live : s.batches.live handle = some batch)
      (uncommitted : batch.world.batch.committed = false)
      (committed : Lifecycle world .committed commands) :
      CMove host s (.batchCommit (some handle)) (.ok .nothing) { s with
        batches := s.batches.set handle ⟨world, batch.launches⟩
        queue := Function.update s.queue handle (some batch.launches) }
  | waited {handle : ℕ} {result : GpuResult} {batch : MRBatch} {world : BatchWorld}
      {commands : List EncoderCommand} {outcome : Except Failure COut}
      (live : s.batches.live handle = some batch)
      (committed : Lifecycle world .committed commands) (ends : WaitOutcome outcome) :
      CMove host s (.batchWait (some handle) result) outcome { s with
        memory := host.gpu.runAll (s.pending handle batch) s.memory
        batches := s.batches.set handle ⟨world, batch.launches⟩
        queue := Function.update s.queue handle none }
  | batchReleased {handle : ℕ} {batch : MRBatch} (live : s.batches.live handle = some batch) :
      CMove host s (.releaseBatch (some handle)) (.ok .nothing)
        { s with batches := s.batches.release (some handle) }
  | gpuFinished {handle : ℕ} {result : GpuResult} {launches : List BoundLaunch}
      (queued : s.queue handle = some launches) :
      CMove host s (.gpuFinishes handle result) (.ok .nothing) (s.finish host handle result)
  | deviceAnswered {answer : DeviceAnswer} (missing : s.device ≠ .found) :
      CMove host s (.deviceAnswers answer) (.ok .nothing) { s with device := answer }
  | callerWrote (start : ℕ) (bytes : List UInt8) :
      CMove host s (.callerWrites start bytes) (.ok .nothing)
        { s with memory := s.memory.write start bytes }

/-- The call refuses its arguments. -/
theorem CMove.refusedArgument {host : CPlatform MTLFunction} {s : CSession} {call : CCall}
    {what : ByteString} (hmem : .errorInvalidArgument ∈ call.statuses) :
    CMove host s call (.error (.invalidArgument what)) s :=
  .refused (gives_of_status .errorInvalidArgument hmem rfl (by decide))

namespace CSession

variable {host : CPlatform MTLFunction} {s : CSession}

/-- A method that throws on a batch without touching it changes nothing. -/
theorem onBatch_of_error {handle : ℕ} {batch : MRBatch} {method : BatchMethod Unit}
    {failure : Failure} {recorded : List BoundLaunch} (h : s.batches.live handle = some batch)
    (hexec : method.exec batch.world = (.error failure, batch.world)) :
    s.onBatch handle batch method recorded = (.error failure, s) := by
  rw [onBatch, hexec]
  simp only [Except.toOption, Option.elim_none, List.append_nil, Except.map]
  rw [setBatch, Handles.set_eq_self h, enqueue, if_neg fun hboth => hboth.2 hboth.1]

/-- A method that does not commit leaves the queue alone. -/
theorem onBatch_of_uncommitted {handle : ℕ} {batch : MRBatch} {method : BatchMethod Unit}
    {world : BatchWorld} {outcome : Except Failure Unit} {recorded : List BoundLaunch}
    (hexec : method.exec batch.world = (outcome, world))
    (hcommitted : world.batch.committed = batch.world.batch.committed) :
    s.onBatch handle batch method recorded = (outcome.map fun _ => .nothing,
      s.setBatch handle ⟨world, batch.launches ++ outcome.toOption.elim [] fun _ => recorded⟩) := by
  rw [onBatch, hexec]
  simp only [enqueue]
  rw [if_neg]
  rw [hcommitted]
  exact fun h => h.2 h.1

/-- When the GPU finishes what was committed for a batch, nothing of the batch is pending. -/
theorem finish_of_committed (host : CPlatform MTLFunction) {handle : ℕ} {batch : MRBatch}
    {commands : List EncoderCommand} (hlive : s.batches.live handle = some batch)
    (hcommitted : Lifecycle batch.world .committed commands) (result : GpuResult) :
    ∃ world, Lifecycle world .committed commands ∧ s.finish host handle result = { s with
      memory := host.gpu.runAll ((s.queue handle).getD []) s.memory
      batches := s.batches.set handle ⟨world, batch.launches⟩
      queue := Function.update s.queue handle none } := by
  cases hqueue : s.queue handle with
  | none =>
    refine ⟨batch.world, hcommitted, ?_⟩
    rw [finish, hqueue, Handles.set_eq_self hlive, ← hqueue, Function.update_eq_self, hqueue]
    rfl
  | some launches =>
    refine ⟨_, hcommitted.finished result, ?_⟩
    simp only [finish, hqueue, hlive, Option.getD_some]

/-- The rest of a `wait` on a committed batch only changes what the batch has queried. -/
theorem waitRest_eq (s : CSession) (handle : ℕ) (batch : MRBatch)
    {commands : List EncoderCommand} (hcommitted : Lifecycle batch.world .committed commands) :
    ∃ world outcome, Lifecycle world .committed commands ∧ WaitOutcome outcome ∧
      s.onBatch handle batch (do
        CommandBatch.waitUntilCompleted
        CommandBatch.waitFinish) =
      (outcome, { s with batches := s.batches.set handle ⟨world, batch.launches⟩ }) := by
  obtain ⟨outcome, world, hexec, hworld, houtcome⟩ := hcommitted.exec_waitRest
  have hsame : world.batch.committed = batch.world.batch.committed :=
    hworld.committed.trans hcommitted.committed.symm
  refine ⟨world, outcome.map fun _ => .nothing, hworld, ?_, ?_⟩
  · rcases houtcome with rfl | ⟨what, rfl⟩
    · exact Or.inl rfl
    · exact Or.inr ⟨what, rfl⟩
  · rw [onBatch_of_uncommitted hexec hsame]
    have hnone : (outcome.toOption.elim [] fun _ => ([] : List BoundLaunch)) = [] := by
      cases outcome.toOption <;> rfl
    rw [hnone, List.append_nil]
    rfl

/-- `mr_batch_wait` commits if needed, lets the GPU finish and reports. -/
theorem batchWait_move {handle : ℕ} {batch : MRBatch} (hlive : s.batches.live handle = some batch)
    (hgood : batch.Good) (result : GpuResult) :
    CMove host s (.batchWait (some handle) result) (s.mrBatchWait host handle batch result).1
      (s.mrBatchWait host handle batch result).2 := by
  -- Both ways lead to a committed batch whose launches are pending.
  obtain ⟨commands, committed, queue, hcommit, hlife, hpending⟩ :
      ∃ commands committed queue, s.onBatch handle batch CommandBatch.commitLocked =
          (.ok .nothing, { s with
            batches := s.batches.set handle ⟨committed, batch.launches⟩
            queue := queue }) ∧
        Lifecycle committed .committed commands ∧
        (queue handle).getD [] = s.pending handle batch ∧
        Function.update queue handle none = Function.update s.queue handle none := by
    rcases hgood with ⟨commands, hopen⟩ | ⟨commands, hcommitted⟩
    · have hflag : batch.world.batch.committed = false := by simpa using hopen.committed
      refine ⟨commands, _, Function.update s.queue handle (some batch.launches), ?_, hopen.commit,
        ?_, Function.update_idem _ _ _⟩
      · rw [onBatch, hopen.exec_commitLocked]
        simp [enqueue, hflag, Lifecycle.committedWorld, setBatch, Except.toOption, Except.map]
      · simp [pending, hflag]
    · have hflag : batch.world.batch.committed = true := by simpa using hcommitted.committed
      refine ⟨commands, batch.world, s.queue, ?_, hcommitted, ?_, rfl⟩
      · rw [onBatch_of_uncommitted hcommitted.exec_commitLocked_of_committed rfl]
        simp [setBatch, Except.toOption, Except.map]
      · simp [pending, hflag]
  obtain ⟨hpending, hqueue⟩ := hpending
  obtain ⟨finished, hfinished, hfinish⟩ := finish_of_committed host
    (s := { s with batches := s.batches.set handle ⟨committed, batch.launches⟩, queue })
    (Handles.live_set_self _ _) hlife result
  obtain ⟨world, outcome, hworld, hends, hrest⟩ := waitRest_eq { s with
      memory := host.gpu.runAll (s.pending handle batch) s.memory
      batches := s.batches.set handle ⟨finished, batch.launches⟩
      queue := Function.update s.queue handle none } handle ⟨finished, batch.launches⟩ hfinished
  have hwait : s.mrBatchWait host handle batch result = (outcome, { s with
      memory := host.gpu.runAll (s.pending handle batch) s.memory
      batches := s.batches.set handle ⟨world, batch.launches⟩
      queue := Function.update s.queue handle none }) := by
    rw [mrBatchWait, hcommit]
    simp only [hfinish, Handles.set_set, Handles.live_set_self, hpending, hqueue]
    rw [hrest, Handles.set_set]
  rw [hwait]
  exact .waited hlive hworld hends

/-- `mr_get_pipeline` refuses its arguments, or goes through the cache of the library. -/
theorem getPipeline_move (hinv : s.Invariant host) (library : Option ℕ)
    (functionName : Option ByteString) (hasOutPipeline : Bool) :
    CMove host s (.getPipeline library functionName hasOutPipeline)
      (s.mrGetPipeline host library functionName hasOutPipeline).1
      (s.mrGetPipeline host library functionName hasOutPipeline).2 := by
  have hrefused : ∀ what, CMove host s (.getPipeline library functionName hasOutPipeline)
      (.error (.invalidArgument what)) s := by
    intro what
    exact .refusedArgument (List.mem_of_elem_eq_true rfl)
  unfold mrGetPipeline
  split
  · exact hrefused _
  · split
    · next handle found name hfind =>
      obtain ⟨after, hsame, hgood, hcase⟩ := pipelineFor_cases
        (hinv.libraries.find hfind) s.nextObject ⟨name, []⟩
      rcases hcase with ⟨pipeline, hpipeline, hbuilt⟩ | ⟨failure, hfailure, hbuild⟩
      · rw [hpipeline]
        exact .pipelineGot hfind hsame hgood hbuilt
      · rw [hfailure]
        exact .pipelineFailed hfind hsame hgood
          (buildPipeline_failsOnly found.library name failure hbuild)
    · exact hrefused _
    · exact hrefused _

/-- The launch of a valid descriptor is refused or built. -/
theorem build_failsOnly {launch : Option LaunchHandles}
    (hvalid : ∀ given ∈ launch, s.LaunchValid given) (who : ByteString) :
    FailsOnly Failure.IsInvalidArgument (s.build launch who) := by
  refine FailsOnly.bind (buildLaunch_failsOnly ?_) fun built _ => failsOnly_ok _ _
  intro desc hdesc
  obtain ⟨given, hgiven, rfl⟩ := Option.mem_map.mp hdesc
  exact (hvalid given hgiven).2.2

/-- A new batch is open, or there is no device, or Metal refuses. -/
theorem createBatch_cases (host : CPlatform MTLFunction) (s : CSession)
    (commandBuffer encoder : Option ℕ) :
    (∃ world, s.createBatch host commandBuffer encoder = .ok world ∧
      Lifecycle world .opened []) ∨
    ∃ failure, s.createBatch host commandBuffer encoder = .error failure ∧
      failure.Gives s.device [.ok, .errorInvalidArgument, .errorNoDevice, .errorDispatch] := by
  cases hruntime : s.device.runtime with
  | error failure =>
    refine Or.inr ⟨failure, ?_, runtime_failsOnly s.device (by decide) failure hruntime⟩
    rw [createBatch, hruntime]
    rfl
  | ok _ =>
    have hcreates : s.createBatch host commandBuffer encoder =
        CommandBatch.create host.runtime commandBuffer encoder := by
      rw [createBatch, hruntime]
      rfl
    rw [hcreates]
    rcases create_cases host.runtime commandBuffer encoder with hopen | ⟨what, hcreate⟩
    · exact Or.inl hopen
    · exact Or.inr ⟨_, hcreate, gives_of_status .errorDispatch (by decide) rfl (by decide)⟩

/-- `mr_dispatch` throws before anything runs, or runs the launch and reports. -/
theorem dispatch_move {launch : Option LaunchHandles}
    (hvalid : ∀ given ∈ launch, s.LaunchValid given) (commandBuffer encoder : Option ℕ)
    (result : GpuResult) :
    CMove host s (.dispatch launch commandBuffer encoder result)
      (s.mrDispatch host launch commandBuffer encoder result).1
      (s.mrDispatch host launch commandBuffer encoder result).2 := by
  unfold mrDispatch
  split
  · next failure hbuild =>
    exact .refused (gives_of_isInvalidArgument (List.mem_of_elem_eq_true rfl)
      (build_failsOnly hvalid _ failure hbuild))
  · next bound hbuild =>
    rcases createBatch_cases host s commandBuffer encoder with ⟨world, hcreate, hlife⟩ |
      ⟨failure, hcreate, hgives⟩
    · rw [hcreate]
      rcases exec_dispatch_cases hlife bound.launch result with ⟨failure, hexec, hinvalid⟩ |
        ⟨outcome, after, hexec, hcommitted, houtcome⟩
      · have hflag : world.batch.committed = false := by simpa using hlife.committed
        simp only [hexec, hflag]
        exact .refused (gives_of_isInvalidArgument (List.mem_of_elem_eq_true rfl) hinvalid)
      · simp only [hexec, hcommitted, if_true]
        refine .dispatched hbuild ?_
        rcases houtcome with rfl | ⟨what, rfl⟩
        · exact Or.inl rfl
        · exact Or.inr ⟨what, rfl⟩
    · rw [hcreate]
      exact .refused hgives

/-- `mr_batch_add` refuses the launch and changes nothing, or encodes it. -/
theorem batchAdd_move (hinv : s.Invariant host) {batch : Option ℕ}
    {launch : Option LaunchHandles} (hvalid : ∀ given ∈ launch, s.LaunchValid given) :
    CMove host s (.batchAdd batch launch) (s.mrBatchAdd batch launch).1
      (s.mrBatchAdd batch launch).2 := by
  unfold mrBatchAdd
  split
  · next handle found hfind =>
    split
    · next failure hbuild =>
      exact .refused (gives_of_isInvalidArgument (List.mem_of_elem_eq_true rfl)
        (build_failsOnly hvalid _ failure hbuild))
    · next bound hbuild =>
      rcases exec_add_cases (hinv.batches.find hfind) bound.launch with
        ⟨after, commands, hexec, hflag, hopen⟩ | ⟨failure, hexec, hgives⟩
      · have hsame : after.batch.committed = found.world.batch.committed := by
          rw [hflag]
          simpa using hopen.committed
        rw [onBatch_of_uncommitted hexec hsame]
        exact .encoded hfind hflag hbuild hopen
      · rw [onBatch_of_error hfind hexec]
        exact .refused (hgives _)
  · exact .refusedArgument (List.mem_of_elem_eq_true rfl)

/-- `mr_batch_commit` never throws on a batch: no entry point discards one. -/
theorem batchCommit_move (hinv : s.Invariant host) (batch : Option ℕ) :
    CMove host s (.batchCommit batch) (s.mrBatchCommit batch).1 (s.mrBatchCommit batch).2 := by
  unfold mrBatchCommit
  split
  · next handle found hfind =>
    rcases hinv.batches.find hfind with ⟨commands, hopen⟩ | ⟨commands, hcommitted⟩
    · have hflag : found.world.batch.committed = false := by simpa using hopen.committed
      have hcommit : s.onBatch handle found CommandBatch.commit = (.ok .nothing, { s with
          batches := s.batches.set handle ⟨Lifecycle.committedWorld found.world, found.launches⟩
          queue := Function.update s.queue handle (some found.launches) }) := by
        rw [onBatch, CommandBatch.commit, hopen.exec_commitLocked]
        simp [enqueue, hflag, Lifecycle.committedWorld, setBatch, Except.toOption, Except.map]
      rw [hcommit]
      exact .committed hfind hflag hopen.commit
    · have hcommit : s.onBatch handle found CommandBatch.commit = (.ok .nothing, s) := by
        rw [CommandBatch.commit, onBatch_of_uncommitted hcommitted.exec_commitLocked_of_committed
          rfl]
        simp only [Except.toOption, Option.elim_some, List.append_nil, setBatch]
        rw [Handles.set_eq_self hfind]
        rfl
      rw [hcommit]
      exact .answered fun handle => by simp
  · exact .refusedArgument (List.mem_of_elem_eq_true rfl)

/-- `mr_buffer_flush_to` throws nothing but that its buffer is null. -/
theorem mrBufferFlushTo_failsOnly (buffer : Option MRBuffer) (memory : Memory) :
    FailsOnly Failure.IsInvalidArgument (mrBufferFlushTo buffer memory) := by
  intro failure hfailure
  unfold mrBufferFlushTo at hfailure
  split at hfailure
  · cases hfailure
    exact ⟨_, rfl⟩
  · split at hfailure
    · cases hfailure
    · split at hfailure <;> cases hfailure

/-- `mr_buffer_flush_to` refuses null, or flushes a live buffer. -/
theorem bufferFlushTo_move (host : CPlatform MTLFunction) (s : CSession) (buffer : Option ℕ) :
    CMove host s (.bufferFlushTo buffer) (s.perform host (.bufferFlushTo buffer)).1
      (s.perform host (.bufferFlushTo buffer)).2 := by
  simp only [perform]
  split
  · next failure hfailure =>
    exact .refused (gives_of_isInvalidArgument (List.mem_of_elem_eq_true rfl)
      (mrBufferFlushTo_failsOnly _ _ failure hfailure))
  · next memory hflush =>
    cases hfind : s.buffers.find buffer with
    | none =>
      rw [hfind] at hflush
      cases hflush
    | some found =>
      obtain ⟨handle, rfl, hlive⟩ := Handles.find_eq_some_iff.mp hfind
      rw [hfind] at hflush
      exact .flushed hlive hflush

/-- `mr_device_info` refuses null, finds no device, or answers. -/
theorem deviceInfo_move (host : CPlatform MTLFunction) (s : CSession) (hasOutInfo : Bool) :
    CMove host s (.deviceInfo hasOutInfo) (s.perform host (.deviceInfo hasOutInfo)).1
      (s.perform host (.deviceInfo hasOutInfo)).2 := by
  cases hasOutInfo with
  | false => exact .refusedArgument (List.mem_of_elem_eq_true rfl)
  | true =>
    have hinfo : (s.perform host (.deviceInfo true)).1 =
        (s.device.runtime >>= fun _ => .ok (.deviceInfo host.device)) := rfl
    rw [hinfo]
    cases hruntime : s.device.runtime with
    | error failure =>
      exact .refused (runtime_failsOnly s.device (List.mem_of_elem_eq_true rfl) failure hruntime)
    | ok _ => exact .answered fun handle => by simp

/-- `mr_batch_create` gives out an open batch, or there is no device, or Metal refuses. -/
theorem batchCreate_move (host : CPlatform MTLFunction) (s : CSession) (hasOutBatch : Bool)
    (commandBuffer encoder : Option ℕ) :
    CMove host s (.batchCreate hasOutBatch commandBuffer encoder)
      (s.perform host (.batchCreate hasOutBatch commandBuffer encoder)).1
      (s.perform host (.batchCreate hasOutBatch commandBuffer encoder)).2 := by
  cases hasOutBatch with
  | false => exact .refusedArgument (List.mem_of_elem_eq_true rfl)
  | true =>
    rcases createBatch_cases host s commandBuffer encoder with ⟨world, hcreate, hlife⟩ |
      ⟨failure, hcreate, hgives⟩
    · simp only [perform, hcreate]
      exact .batchCreated hlife
    · simp only [perform, hcreate]
      exact .refused hgives

/-- `mr_release_batch` does nothing on null, and its destructor never throws. -/
theorem releaseBatch_move (hinv : s.Invariant host) (batch : Option ℕ) :
    CMove host s (.releaseBatch batch) (s.perform host (.releaseBatch batch)).1
      (s.perform host (.releaseBatch batch)).2 := by
  simp only [perform]
  split
  · exact .answered fun handle => by simp
  · next found hfind =>
    obtain ⟨handle, rfl, hlive⟩ := Handles.find_eq_some_iff.mp hfind
    have hdestroy : (CommandBatch.destroy.exec found.world).1 = .ok () := by
      rcases hinv.batches.find hfind with ⟨commands, hopen⟩ | ⟨commands, hcommitted⟩
      · rw [hopen.exec_destroy]
      · rw [hcommitted.exec_destroy_of_closed (by decide)]
    simp only [hdestroy]
    exact .batchReleased hlive

/-- Every call does one of the moves. -/
theorem perform_move (hinv : s.Invariant host) {call : CCall} (hallowed : s.Allowed call) :
    CMove host s call (s.perform host call).1 (s.perform host call).2 := by
  cases call with
  | compileLibrary mslSource mathMode hasOutLibrary result =>
    simp only [perform]
    split
    · next failure hfailure => exact .refused (mrCompileLibrary_failsOnly _ _ _ _ failure hfailure)
    · exact .compiled _
  | releaseLibrary library => exact .libraryReleased library
  | getPipeline library functionName hasOutPipeline =>
    exact getPipeline_move hinv library functionName hasOutPipeline
  | releasePipeline pipeline => exact .pipelineReleased pipeline
  | deviceInfo hasOutInfo => exact deviceInfo_move host s hasOutInfo
  | pipelineInfo pipeline hasOutInfo =>
    simp only [perform]
    split
    · exact .refusedArgument (List.mem_of_elem_eq_true rfl)
    · cases hasOutInfo with
      | false => exact .refusedArgument (List.mem_of_elem_eq_true rfl)
      | true => exact .answered fun handle => by simp
  | wrapBuffer system ptr sizeBytes hasOutBuffer =>
    simp only [perform]
    split
    · next failure hfailure => exact .refused (mrWrapBuffer_failsOnly _ _ _ _ _ failure hfailure)
    · next hwrap => exact .wrapped hwrap
  | bufferFlushTo buffer => exact bufferFlushTo_move host s buffer
  | releaseBuffer buffer => exact .bufferReleased buffer
  | dispatch launch commandBuffer encoder result =>
    exact dispatch_move hallowed commandBuffer encoder result
  | batchCreate hasOutBatch commandBuffer encoder =>
    exact batchCreate_move host s hasOutBatch commandBuffer encoder
  | batchAdd batch launch => exact batchAdd_move hinv hallowed.2
  | batchCommit batch => exact batchCommit_move hinv batch
  | batchWait batch result =>
    simp only [perform]
    split
    · next handle found hfind => exact batchWait_move hfind (hinv.batches.find hfind) result
    · exact .refusedArgument (List.mem_of_elem_eq_true rfl)
  | releaseBatch batch => exact releaseBatch_move hinv batch
  | gpuFinishes batch result =>
    obtain ⟨launches, hqueue⟩ := Option.isSome_iff_exists.mp hallowed
    exact .gpuFinished hqueue
  | deviceAnswers answer => exact .deviceAnswered hallowed
  | callerWrites start bytes => exact .callerWrote start bytes

/-- Nothing has been created. -/
theorem initial_invariant (host : CPlatform MTLFunction) (device : DeviceAnswer)
    (memory : Memory) : (initial device memory).Invariant host where
  libraries := Handles.all_empty _
  batches := Handles.all_empty _
  freshLibraries := Handles.bounded_empty
  freshPipelines := Handles.bounded_empty
  freshBuffers := Handles.bounded_empty
  freshBatches := Handles.bounded_empty
  queued := fun _ _ h => by cases h
  queuedBefore := fun _ h => by cases h

/-- Batches that stay what they are for the queue: a live one is replaced by one that is committed
or was not queued, and the queue only loses entries or gets the one of that batch. -/
theorem Invariant.setBatch (h : s.Invariant host) {handle : ℕ} {found batch : MRBatch}
    {queue : ℕ → Option (List BoundLaunch)} (hlive : s.batches.live handle = some found)
    (hgood : batch.Good)
    (hqueue : ∀ other, other ≠ handle → (queue other).isSome → (s.queue other).isSome)
    (hown : (queue handle).isSome → batch.world.batch.committed = true) (memory : Memory) :
    Invariant host { s with memory, queue, batches := s.batches.set handle batch } where
  libraries := h.libraries
  batches := h.batches.set handle hgood
  freshLibraries := h.freshLibraries
  freshPipelines := h.freshPipelines
  freshBuffers := h.freshBuffers
  freshBatches := h.freshBatches.set (hlive ▸ rfl) batch
  queued := by
    intro other found hother hfound
    by_cases heq : other = handle
    · subst heq
      rw [Handles.live_set_self] at hfound
      cases hfound
      exact hown hother
    · rw [Handles.live_set_of_ne _ _ heq] at hfound
      exact h.queued other found (hqueue other heq hother) hfound
  queuedBefore := by
    intro other hother
    by_cases heq : other = handle
    · subst heq
      by_contra hle
      rw [h.freshBatches other (Nat.le_of_not_lt hle)] at hlive
      cases hlive
    · exact h.queuedBefore other (hqueue other heq hother)

/-- The GPU finishes what was committed for a batch, which is committed if it is still there. -/
theorem Invariant.finish (h : s.Invariant host) {handle : ℕ} {launches : List BoundLaunch}
    (hqueued : s.queue handle = some launches) (result : GpuResult) :
    (s.finish host handle result).Invariant host := by
  have hothers : ∀ other, other ≠ handle →
      (Function.update s.queue handle none other).isSome → (s.queue other).isSome := by
    intro other hother hqueue
    rwa [Function.update_of_ne hother] at hqueue
  cases hlive : s.batches.live handle with
  | none =>
    have hne : ∀ other found, s.batches.live other = some found → other ≠ handle := by
      rintro other found hfound rfl
      rw [hlive] at hfound
      cases hfound
    simp only [CSession.finish, hqueued, hlive]
    refine { h with queued := ?_, queuedBefore := ?_ }
    · intro other found hqueue hfound
      exact h.queued other found (hothers other (hne other found hfound) hqueue) hfound
    · intro other hqueue
      by_cases heq : other = handle
      · rw [heq]
        exact h.queuedBefore handle (hqueued ▸ rfl)
      · exact h.queuedBefore other (hothers other heq hqueue)
  | some batch =>
    have hflag := h.queued handle batch (hqueued ▸ rfl) hlive
    obtain ⟨commands, hcommitted⟩ : ∃ commands, Lifecycle batch.world .committed commands := by
      rcases h.batches handle batch hlive with ⟨commands, hopen⟩ | hcommitted
      · rw [hopen.committed] at hflag
        cases hflag
      · exact hcommitted
    obtain ⟨world, hworld, hfinish⟩ := finish_of_committed host hlive hcommitted result
    rw [hfinish]
    exact h.setBatch hlive (Or.inr ⟨commands, hworld⟩) hothers
      (fun _ => by simpa using hworld.committed) _

/-- Each move keeps the invariant. -/
theorem Invariant.move (h : s.Invariant host) {call : CCall} {outcome : Except Failure COut}
    {s' : CSession} (hmove : CMove host s call outcome s') : s'.Invariant host := by
  cases hmove with
  | refused => exact h
  | answered => exact h
  | compiled library =>
    exact { h with
      libraries := h.libraries.create (good_of_compiled host library)
      freshLibraries := h.freshLibraries.create _ }
  | libraryReleased library =>
    exact { h with
      libraries := h.libraries.release library
      freshLibraries := h.freshLibraries.release library }
  | pipelineFailed live same good =>
    exact { h with
      libraries := h.libraries.set _ good
      freshLibraries := h.freshLibraries.set (live ▸ rfl) _ }
  | pipelineGot live same good =>
    exact { h with
      libraries := h.libraries.set _ good
      freshLibraries := h.freshLibraries.set (live ▸ rfl) _
      freshPipelines := h.freshPipelines.create _ }
  | pipelineReleased pipeline =>
    exact { h with freshPipelines := h.freshPipelines.release pipeline }
  | wrapped => exact { h with freshBuffers := h.freshBuffers.create _ }
  | flushed => exact { h with }
  | bufferReleased buffer => exact { h with freshBuffers := h.freshBuffers.release buffer }
  | dispatched => exact { h with }
  | batchCreated opened =>
    refine { h with
      batches := h.batches.create (Or.inl ⟨_, opened⟩)
      freshBatches := h.freshBatches.create _
      queued := ?_
      queuedBefore := fun handle hqueue => Nat.lt_succ_of_lt (h.queuedBefore handle hqueue) }
    intro handle found hqueue hfound
    have hne := Nat.ne_of_lt (h.queuedBefore handle hqueue)
    rw [Handles.live_create_of_ne _ _ hne] at hfound
    exact h.queued handle found hqueue hfound
  | encoded live uncommitted builds opened =>
    refine h.setBatch live (Or.inl ⟨_, opened⟩) (fun _ _ hqueue => hqueue) ?_ s.memory
    intro hqueue
    rw [h.queued _ _ hqueue live] at uncommitted
    cases uncommitted
  | committed live uncommitted committed =>
    refine h.setBatch live (Or.inr ⟨_, committed⟩) ?_ ?_ s.memory
    · intro other hother hqueue
      rwa [Function.update_of_ne hother] at hqueue
    · exact fun _ => by simpa using committed.committed
  | waited live committed =>
    refine h.setBatch live (Or.inr ⟨_, committed⟩) ?_ ?_ _
    · intro other hother hqueue
      rwa [Function.update_of_ne hother] at hqueue
    · exact fun _ => by simpa using committed.committed
  | @batchReleased handle _ _ =>
    refine { h with
      batches := h.batches.release (some handle)
      freshBatches := h.freshBatches.release (some handle)
      queued := ?_ }
    intro other found hqueue hfound
    have hbefore : s.batches.live other = some found :=
      Handles.live_of_release (some handle) hfound
    exact h.queued other found hqueue hbefore
  | gpuFinished queued => exact h.finish queued _
  | deviceAnswered => exact { h with }
  | callerWrote => exact { h with }

end CSession

end MetalRuntime
