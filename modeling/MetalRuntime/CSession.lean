import MetalRuntime.CApi
import MetalRuntime.CommandBatch
import MetalRuntime.Exceptions
import MetalRuntime.Foundations.Handles
import MetalRuntime.KernelConstruction

/-!
# A caller of the C API

Every entry point of `c_api.cpp` on the objects behind the handles of one caller. The caller keeps
to what C asks of it: a pointer is null or a handle that was given out and not released, and an
array has as many elements as its count says. Between its calls it may write to its own memory,
and the GPU may finish a batch that was committed, also one that was released meanwhile. There may
be no device until `runtime()` finds one.
-/

namespace MetalRuntime

open Foundations

variable {MTLFunction : Type}

/-- Consecutive bytes. -/
structure ByteRange where
  start : ℕ
  count : ℕ
  deriving DecidableEq

/-- An address in a range. -/
def ByteRange.Contains (range : ByteRange) (address : ℕ) : Prop :=
  range.start ≤ address ∧ address < range.start + range.count

/-- A launch with the logical bytes that it was given: from each offset to the end of the caller's
range. The encoder is not told where that is. -/
structure BoundLaunch where
  launch : Launch
  logical : List ByteRange

/-- How far a kernel goes in what it is bound to. `setBuffer` hands over a Metal buffer, which may
end pages after the caller's range, and an address in it; the logical bytes are a convention
between the kernel and its caller. -/
inductive KernelBounds
  | storage
  | fromOffset
  | logical
  deriving DecidableEq

/-- The bytes of a Metal buffer. -/
def MTLBuffer.storage (buffer : MTLBuffer) : ByteRange :=
  ⟨buffer.contents.toNat, buffer.length.toNat⟩

/-- The bytes of a Metal buffer from an offset on. -/
def MTLBuffer.storageFrom (buffer : MTLBuffer) (offset : SizeT) : ByteRange :=
  ⟨buffer.contents.toNat + offset.toNat, buffer.length.toNat - offset.toNat⟩

/-- The bytes that a launch is bound to, up to the bounds. -/
def BoundLaunch.ranges (bound : BoundLaunch) : KernelBounds → List ByteRange
  | .storage => bound.launch.buffers.toList.map fun binding => binding.buffer.buffer.storage
  | .fromOffset => bound.launch.buffers.toList.map fun binding =>
      binding.buffer.buffer.storageFrom binding.offset
  | .logical => bound.logical

/-- A completed launch writes to no other bytes. -/
def KernelBounds.Hold (bounds : KernelBounds) (run : BoundLaunch → Memory → Memory) : Prop :=
  ∀ bound memory address, (∀ range ∈ bound.ranges bounds, ¬ range.Contains address) →
    run bound memory address = memory address

/-- The GPU, by what a completed launch makes of memory. A kernel writes to the Metal buffers that
it is bound to and to nothing else. -/
structure GpuEffect where
  run : BoundLaunch → Memory → Memory
  frame : KernelBounds.storage.Hold run

/-- `MRDeviceInfo`. -/
structure MRDeviceInfo where
  maxThreadsPerThreadgroup : SizeT
  maxThreadgroupMemoryLength : SizeT
  maxBufferLength : SizeT
  recommendedMaxWorkingSetSize : SizeT
  hasUnifiedMemory : Bool
  supportsNonUniformThreadgroups : Bool
  deriving DecidableEq

/-- `MRPipelineInfo`. -/
structure MRPipelineInfo where
  threadExecutionWidth : SizeT
  maxThreadsPerThreadgroup : SizeT
  staticThreadgroupMemoryLength : SizeT
  deriving DecidableEq

/-- The device, the compiler and the standard library of a process. -/
structure CPlatform (MTLFunction : Type) extends KernelPlatform MTLFunction where
  device : MRDeviceInfo
  gpu : GpuEffect
  standardText : ExceptionClass → ByteString

/-- What a batch reads of the runtime. -/
def CPlatform.runtime (host : CPlatform MTLFunction) : Runtime :=
  ⟨host.device.supportsNonUniformThreadgroups, host.device.maxThreadgroupMemoryLength⟩

/-- `MRLibrary`, with the cache inside `Library`. -/
structure MRLibrary where
  library : Library
  pipelines : LruCache ByteString (Shared ComputePipeline) := .create kMaxCachedPipelines

/-- `MRBatch`, with the launches that its command buffer records. -/
structure MRBatch where
  world : BatchWorld
  launches : List BoundLaunch := []

/-- `MRLaunchDesc` as a caller fills it, with handles. -/
structure LaunchHandles where
  pipeline : Option ℕ
  buffers : Option (ℕ → Option ℕ)
  bufferOffsets : Option (ℕ → SizeT)
  bufferCount : SizeT
  scalars : Option (ℕ → SizeT)
  scalarSizes : Option (ℕ → SizeT)
  scalarCount : SizeT
  threadgroupMemory : Option (ℕ → SizeT)
  threadgroupMemoryCount : SizeT
  grid : Dim3
  threadgroup : Dim3

/-- An array of words with this many elements fits into the address space. -/
def ArrayFits (count : SizeT) : Prop := 8 * count.toNat < wordSize

instance (count : SizeT) : Decidable (ArrayFits count) := inferInstanceAs (Decidable (_ < _))

/-- What one caller has: its memory, the objects behind its handles, and the command buffers that
were committed and have not finished, by the handles of their batches. -/
structure CSession where
  memory : Memory
  libraries : Handles MRLibrary
  pipelines : Handles (Shared ComputePipeline)
  buffers : Handles MRBuffer
  batches : Handles MRBatch
  queue : ℕ → Option (List BoundLaunch)
  nextObject : ℕ
  /-- What `runtime()` finds when it is called next. -/
  device : DeviceAnswer

/-- An entry point with its arguments and with what the system decides in the call; or what
happens between two calls. -/
inductive CCall
  | compileLibrary (mslSource : Option ByteString) (mathMode : ℕ) (hasOutLibrary : Bool)
      (result : CompileResult)
  | releaseLibrary (library : Option ℕ)
  | getPipeline (library : Option ℕ) (functionName : Option ByteString) (hasOutPipeline : Bool)
  | releasePipeline (pipeline : Option ℕ)
  | deviceInfo (hasOutInfo : Bool)
  | pipelineInfo (pipeline : Option ℕ) (hasOutInfo : Bool)
  | wrapBuffer (system : Host) (ptr sizeBytes : SizeT) (hasOutBuffer : Bool)
  | bufferFlushTo (buffer : Option ℕ)
  | releaseBuffer (buffer : Option ℕ)
  | dispatch (launch : Option LaunchHandles) (commandBuffer encoder : Option ℕ)
      (result : GpuResult)
  | batchCreate (hasOutBatch : Bool) (commandBuffer encoder : Option ℕ)
  | batchAdd (batch : Option ℕ) (launch : Option LaunchHandles)
  | batchCommit (batch : Option ℕ)
  | batchWait (batch : Option ℕ) (result : GpuResult)
  | releaseBatch (batch : Option ℕ)
  | gpuFinishes (batch : ℕ) (result : GpuResult)
  | deviceAnswers (answer : DeviceAnswer)
  | callerWrites (start : ℕ) (bytes : List UInt8)

/-- What an entry point leaves in its out-parameter. -/
inductive COut
  | nothing
  | handle (handle : ℕ)
  | deviceInfo (info : MRDeviceInfo)
  | pipelineInfo (info : MRPipelineInfo)
  deriving DecidableEq

/-- The system with what `runtime()` finds. -/
def Host.withDevice (system : Host) (device : DeviceAnswer) : Host := { system with device }

/-- `MRMathMode` as the caller passes it. -/
def toMathMode : ℕ → Except Failure MathMode
  | 0 => .ok .safe
  | 1 => .ok .relaxed
  | 2 => .ok .fast
  | _ => .error (.invalidArgument (ascii "mr_compile_library: unknown math_mode"))

/-- The body of `mr_compile_library`. -/
def mrCompileLibrary (host : CPlatform MTLFunction) (device : DeviceAnswer)
    (mslSource : Option ByteString) (mathMode : ℕ) (hasOutLibrary : Bool)
    (result : CompileResult) : Except Failure Library := do
  rejectIf (hasOutLibrary = false)
    (.invalidArgument (ascii "mr_compile_library: out_library is null"))
  match mslSource with
  | none => .error (.invalidArgument (ascii "mr_compile_library: msl_source is null"))
  | some source => do
    let mathMode ← toMathMode mathMode
    device.runtime
    Library.create host.platform ⟨source, { mathMode }⟩ result

/-- `Library::pipeline_for` in one thread, with the identity that a new pipeline gets. -/
def MRLibrary.pipelineFor (host : KernelPlatform MTLFunction) (library : MRLibrary)
    (newObject : ℕ) (request : PipelineRequest) :
    Except Failure (Option (Shared ComputePipeline)) × MRLibrary :=
  let key := pipelineKey request.name request.constants
  match library.pipelines.find key with
  | .error failure => (.error failure, library)
  | .ok (some hit, pipelines) => (.ok (some hit), { library with pipelines })
  | .ok (none, pipelines) =>
    match buildPipeline (host.metal library.library) host.conversions request with
    | .error failure => (.error failure, { library with pipelines })
    | .ok pipeline =>
      match pipelines.insert key (some ⟨newObject, pipeline⟩) with
      | .error failure => (.error failure, { library with pipelines })
      | .ok (kept, pipelines) => (.ok kept, { library with pipelines })

/-- The logical bytes of the buffers of a descriptor: from each offset to the end of the caller's
range. -/
def MRLaunchDesc.logical (desc : MRLaunchDesc) : List ByteRange :=
  (List.range desc.bufferCount.toNat).filterMap fun i => do
    let buffer ← (← desc.buffers) i
    let offset := (← desc.bufferOffsets) i
    some ⟨buffer.buffer.contents.toNat + (offset + buffer.externalOffset).toNat,
      buffer.logicalSize.toNat - offset.toNat⟩

/-- The GPU completes launches in order. -/
def GpuEffect.runAll (gpu : GpuEffect) (launches : List BoundLaunch) (memory : Memory) : Memory :=
  launches.foldl (fun memory bound => gpu.run bound memory) memory

/-- What a finished command buffer reports. -/
def BatchWorld.finished (world : BatchWorld) (result : GpuResult) : BatchWorld :=
  { world with gpu := some result }

namespace CSession

/-- No object yet. -/
def initial (device : DeviceAnswer) (memory : Memory) : CSession :=
  ⟨memory, .empty, .empty, .empty, .empty, fun _ => none, 0, device⟩

/-- A descriptor with the objects behind its handles. -/
def resolve (s : CSession) (launch : LaunchHandles) : MRLaunchDesc where
  pipeline := (s.pipelines.find launch.pipeline).map Shared.content
  buffers := launch.buffers.map fun handles i => s.buffers.find (handles i)
  bufferOffsets := launch.bufferOffsets
  bufferCount := launch.bufferCount
  scalars := launch.scalars
  scalarSizes := launch.scalarSizes
  scalarCount := launch.scalarCount
  threadgroupMemory := launch.threadgroupMemory
  threadgroupMemoryCount := launch.threadgroupMemoryCount
  grid := launch.grid
  threadgroup := launch.threadgroup

/-- The launch that a descriptor means, with the logical bytes of its buffers. -/
def build (s : CSession) (launch : Option LaunchHandles) (who : ByteString) :
    Except Failure BoundLaunch := do
  let desc := launch.map s.resolve
  let built ← buildLaunch desc who
  .ok ⟨built, desc.elim [] MRLaunchDesc.logical⟩

/-- A descriptor with live objects and with arrays of the sizes that it says. -/
def LaunchValid (s : CSession) (launch : LaunchHandles) : Prop :=
  s.pipelines.Valid launch.pipeline ∧
    (∀ handles ∈ launch.buffers, ∀ i < launch.bufferCount.toNat, s.buffers.Valid (handles i)) ∧
    ArrayFits launch.bufferCount ∧ ArrayFits launch.scalarCount ∧
    ArrayFits launch.threadgroupMemoryCount

instance (s : CSession) (launch : LaunchHandles) : Decidable (s.LaunchValid launch) :=
  inferInstanceAs (Decidable (_ ∧ _))

/-- What the caller may do: it passes live objects. The GPU finishes what was committed. A device
may turn up, and `runtime()` keeps the one that it found. -/
def Allowed (s : CSession) : CCall → Prop
  | .releaseLibrary library => s.libraries.Valid library
  | .getPipeline library _ _ => s.libraries.Valid library
  | .releasePipeline pipeline => s.pipelines.Valid pipeline
  | .pipelineInfo pipeline _ => s.pipelines.Valid pipeline
  | .bufferFlushTo buffer => s.buffers.Valid buffer
  | .releaseBuffer buffer => s.buffers.Valid buffer
  | .dispatch launch _ _ _ => ∀ given ∈ launch, s.LaunchValid given
  | .batchAdd batch launch => s.batches.Valid batch ∧ ∀ given ∈ launch, s.LaunchValid given
  | .batchCommit batch => s.batches.Valid batch
  | .batchWait batch _ => s.batches.Valid batch
  | .releaseBatch batch => s.batches.Valid batch
  | .gpuFinishes batch _ => (s.queue batch).isSome
  | .deviceAnswers _ => s.device ≠ .found
  | _ => True

instance (s : CSession) (call : CCall) : Decidable (s.Allowed call) :=
  match call with
  | .releaseLibrary library => inferInstanceAs (Decidable (s.libraries.Valid library))
  | .getPipeline library _ _ => inferInstanceAs (Decidable (s.libraries.Valid library))
  | .releasePipeline pipeline => inferInstanceAs (Decidable (s.pipelines.Valid pipeline))
  | .pipelineInfo pipeline _ => inferInstanceAs (Decidable (s.pipelines.Valid pipeline))
  | .bufferFlushTo buffer => inferInstanceAs (Decidable (s.buffers.Valid buffer))
  | .releaseBuffer buffer => inferInstanceAs (Decidable (s.buffers.Valid buffer))
  | .dispatch launch _ _ _ => inferInstanceAs (Decidable (∀ given ∈ launch, s.LaunchValid given))
  | .batchAdd batch launch =>
    inferInstanceAs (Decidable (s.batches.Valid batch ∧ ∀ given ∈ launch, s.LaunchValid given))
  | .batchCommit batch => inferInstanceAs (Decidable (s.batches.Valid batch))
  | .batchWait batch _ => inferInstanceAs (Decidable (s.batches.Valid batch))
  | .releaseBatch batch => inferInstanceAs (Decidable (s.batches.Valid batch))
  | .gpuFinishes batch _ => inferInstanceAs (Decidable ((s.queue batch).isSome = true))
  | .deviceAnswers _ => inferInstanceAs (Decidable (s.device ≠ .found))
  | .compileLibrary _ _ _ _ => inferInstanceAs (Decidable True)
  | .deviceInfo _ => inferInstanceAs (Decidable True)
  | .wrapBuffer _ _ _ _ => inferInstanceAs (Decidable True)
  | .batchCreate _ _ _ => inferInstanceAs (Decidable True)
  | .callerWrites _ _ => inferInstanceAs (Decidable True)

/-- The session after a batch changed. -/
def setBatch (s : CSession) (handle : ℕ) (batch : MRBatch) : CSession :=
  { s with batches := s.batches.set handle batch }

/-- A committed batch is put into the queue once. -/
def enqueue (s : CSession) (handle : ℕ) (before after : MRBatch) : CSession :=
  if after.world.batch.committed ∧ ¬ before.world.batch.committed then
    { s with queue := Function.update s.queue handle (some after.launches) }
  else s

/-- A method on a batch, which may commit it. What it records is in the command buffer if it
returns. -/
def onBatch (s : CSession) (handle : ℕ) (batch : MRBatch) (method : BatchMethod Unit)
    (recorded : List BoundLaunch := []) : Except Failure COut × CSession :=
  let (outcome, world) := method.exec batch.world
  let after := ⟨world, batch.launches ++ outcome.toOption.elim [] fun _ => recorded⟩
  (outcome.map fun _ => .nothing, (s.setBatch handle after).enqueue handle batch after)

/-- The GPU finishes what was committed for a batch, if it has not yet. -/
def finish (host : CPlatform MTLFunction) (s : CSession) (handle : ℕ) (result : GpuResult) :
    CSession :=
  match s.queue handle with
  | none => s
  | some launches =>
    let batches := match s.batches.live handle with
      | none => s.batches
      | some batch => s.batches.set handle { batch with world := batch.world.finished result }
    { s with
      memory := host.gpu.runAll launches s.memory
      queue := Function.update s.queue handle none
      batches }

/-- The body of `mr_get_pipeline`. -/
def mrGetPipeline (host : CPlatform MTLFunction) (s : CSession) (library : Option ℕ)
    (functionName : Option ByteString) (hasOutPipeline : Bool) : Except Failure COut × CSession :=
  if hasOutPipeline = false then
    (.error (.invalidArgument (ascii "mr_get_pipeline: out_pipeline is null")), s)
  else
    match library, s.libraries.find library, functionName with
    | some handle, some found, some name =>
      match found.pipelineFor host.toKernelPlatform s.nextObject ⟨name, []⟩ with
      | (.error failure, after) =>
        (.error failure, { s with libraries := s.libraries.set handle after })
      | (.ok kept, after) =>
        let s := { s with
          libraries := s.libraries.set handle after
          nextObject := s.nextObject + 1 }
        match kept with
        | some pipeline =>
          (.ok (.handle s.pipelines.next), { s with pipelines := s.pipelines.create pipeline })
        -- A handle without a pipeline.
        | none => (.error .undefinedBehavior, s)
    | some _, some _, none =>
      (.error (.invalidArgument (ascii "mr_get_pipeline: function_name is null")), s)
    | _, _, _ => (.error (.invalidArgument (ascii "mr_get_pipeline: library is null")), s)

/-- `CommandBatch` on the device of `runtime()`. -/
def createBatch (host : CPlatform MTLFunction) (s : CSession) (commandBuffer encoder : Option ℕ) :
    Except Failure BatchWorld := do
  s.device.runtime
  CommandBatch.create host.runtime commandBuffer encoder

/-- The body of `mr_dispatch`. -/
def mrDispatch (host : CPlatform MTLFunction) (s : CSession) (launch : Option LaunchHandles)
    (commandBuffer encoder : Option ℕ) (result : GpuResult) : Except Failure COut × CSession :=
  match s.build launch (ascii "mr_dispatch") with
  | .error failure => (.error failure, s)
  | .ok bound =>
    match s.createBatch host commandBuffer encoder with
    | .error failure => (.error failure, s)
    | .ok world =>
      let (outcome, after) := (MetalRuntime.dispatch bound.launch result).exec world
      (outcome.map fun _ => .nothing, { s with
        memory := if after.batch.committed then host.gpu.run bound s.memory else s.memory })

/-- The body of `mr_batch_add`. -/
def mrBatchAdd (s : CSession) (batch : Option ℕ) (launch : Option LaunchHandles) :
    Except Failure COut × CSession :=
  match batch, s.batches.find batch with
  | some handle, some found =>
    match s.build launch (ascii "mr_batch_add") with
    | .error failure => (.error failure, s)
    | .ok bound => s.onBatch handle found (CommandBatch.add bound.launch) [bound]
  | _, _ => (.error (.invalidArgument (ascii "mr_batch_add: batch is null")), s)

/-- The body of `mr_batch_commit`. -/
def mrBatchCommit (s : CSession) (batch : Option ℕ) : Except Failure COut × CSession :=
  match batch, s.batches.find batch with
  | some handle, some found => s.onBatch handle found CommandBatch.commit
  | _, _ => (.error (.invalidArgument (ascii "mr_batch_commit: batch is null")), s)

/-- `CommandBatch::wait` in the body of `mr_batch_wait`. -/
def mrBatchWait (host : CPlatform MTLFunction) (s : CSession) (handle : ℕ) (batch : MRBatch)
    (result : GpuResult) : Except Failure COut × CSession :=
  match s.onBatch handle batch CommandBatch.commitLocked with
  | (.error failure, s) => (.error failure, s)
  | (.ok _, s) =>
    let s := s.finish host handle result
    match s.batches.live handle with
    | none => (.error .undefinedBehavior, s)
    | some batch =>
      s.onBatch handle batch do
        CommandBatch.waitUntilCompleted
        CommandBatch.waitFinish

/-- What an entry point does. -/
def perform (host : CPlatform MTLFunction) (s : CSession) : CCall → Except Failure COut × CSession
  | .compileLibrary mslSource mathMode hasOutLibrary result =>
    match mrCompileLibrary host s.device mslSource mathMode hasOutLibrary result with
    | .error failure => (.error failure, s)
    | .ok library => (.ok (.handle s.libraries.next),
        { s with libraries := s.libraries.create { library } })
  | .releaseLibrary library => (.ok .nothing, { s with libraries := s.libraries.release library })
  | .getPipeline library functionName hasOutPipeline =>
    s.mrGetPipeline host library functionName hasOutPipeline
  | .releasePipeline pipeline =>
    (.ok .nothing, { s with pipelines := s.pipelines.release pipeline })
  | .deviceInfo hasOutInfo =>
    (do
      rejectIf (hasOutInfo = false) (.invalidArgument (ascii "mr_device_info: out_info is null"))
      s.device.runtime
      .ok (.deviceInfo host.device), s)
  | .pipelineInfo pipeline hasOutInfo =>
    match s.pipelines.find pipeline with
    | none => (.error (.invalidArgument (ascii "mr_pipeline_info: pipeline is null")), s)
    | some found =>
      (do
        rejectIf (hasOutInfo = false)
          (.invalidArgument (ascii "mr_pipeline_info: out_info is null"))
        .ok (.pipelineInfo ⟨found.content.threadExecutionWidth,
          found.content.maxThreadsPerThreadgroup, found.content.staticThreadgroupMemoryLength⟩), s)
  | .wrapBuffer system ptr sizeBytes hasOutBuffer =>
    match mrWrapBuffer (system.withDevice s.device) hasOutBuffer s.memory ptr sizeBytes with
    | .error failure => (.error failure, s)
    | .ok (buffer, memory) => (.ok (.handle s.buffers.next),
        { s with memory, buffers := s.buffers.create buffer })
  | .bufferFlushTo buffer =>
    match mrBufferFlushTo (s.buffers.find buffer) s.memory with
    | .error failure => (.error failure, s)
    | .ok memory => (.ok .nothing, { s with memory })
  | .releaseBuffer buffer => (.ok .nothing, { s with buffers := s.buffers.release buffer })
  | .dispatch launch commandBuffer encoder result =>
    s.mrDispatch host launch commandBuffer encoder result
  | .batchCreate hasOutBatch commandBuffer encoder =>
    if hasOutBatch = false then
      (.error (.invalidArgument (ascii "mr_batch_create: out_batch is null")), s)
    else
      match s.createBatch host commandBuffer encoder with
      | .error failure => (.error failure, s)
      | .ok world =>
        (.ok (.handle s.batches.next), { s with batches := s.batches.create { world } })
  | .batchAdd batch launch => s.mrBatchAdd batch launch
  | .batchCommit batch => s.mrBatchCommit batch
  | .batchWait batch result =>
    match batch, s.batches.find batch with
    | some handle, some found => s.mrBatchWait host handle found result
    | _, _ => (.error (.invalidArgument (ascii "mr_batch_wait: batch is null")), s)
  | .releaseBatch batch =>
    match s.batches.find batch with
    | none => (.ok .nothing, s)
    | some found =>
      let (outcome, _) := CommandBatch.destroy.exec found.world
      (outcome.map fun _ => .nothing, { s with batches := s.batches.release batch })
  | .gpuFinishes batch result => (.ok .nothing, s.finish host batch result)
  | .deviceAnswers answer => (.ok .nothing, { s with device := answer })
  | .callerWrites start bytes => (.ok .nothing, { s with memory := s.memory.write start bytes })

end CSession

/-- A call, with what its body returns or throws and the sessions around it. -/
structure CStep where
  before : CSession
  call : CCall
  outcome : Except Failure COut
  after : CSession

/-- The next session after a call that the caller may make. -/
def CSession.step (host : CPlatform MTLFunction) (s : CSession) (call : CCall) :
    Option (CStep × CSession) :=
  if s.Allowed call then
    some (⟨s, call, (s.perform host call).1, (s.perform host call).2⟩, (s.perform host call).2)
  else none

end MetalRuntime
