import MetalRuntime.Foundations.Methods
import MetalRuntime.Metal
import MetalRuntime.Validate

/-!
# Command batches

The methods of `CommandBatch` as `dispatch.cpp` computes them. A method works on the
object's members and on the sequence of calls made so far on its Metal objects; it may
throw after some of those calls. `wait` is three pieces: a section under the lock, the
unlocked block, and a second section under the lock.
-/

namespace MetalRuntime

open Foundations

/-- What a batch reads of its `MetalRuntime`. -/
structure Runtime where
  supportsNonUniformThreadgroups : Bool
  maxThreadgroupMemoryLength : SizeT
  deriving DecidableEq

/-- What Metal reports about a finished command buffer. A fault may come without an
`NS::Error`. -/
structure GpuResult where
  startTime : Float
  endTime : Float
  fault : Option (Option ByteString)

/-- The members of `CommandBatch`; a reset handle is `none`. -/
structure CommandBatch where
  commandBuffer : Option ℕ
  encoder : Option ℕ
  committed : Bool := false
  discarded : Bool := false
  nonUniform : Bool
  maxThreadgroupMemory : SizeT
  gpuTime : Option Float := none

/-- A batch with the calls made on its Metal objects and the GPU's result, once finished. -/
structure BatchWorld where
  batch : CommandBatch
  calls : List MetalCall := []
  gpu : Option GpuResult := none

/-- A method of a batch. -/
abbrev BatchMethod := Method BatchWorld Failure

namespace CommandBatch

/-- The constructor, given what the queue and the command buffer hand out. -/
def create (rt : Runtime) (commandBuffer encoder : Option ℕ) : Except Failure BatchWorld := do
  rejectIf (commandBuffer = none)
    (.dispatchError (ascii "could not create a Metal command buffer"))
  rejectIf (encoder = none)
    (.dispatchError (ascii "could not create a Metal compute command encoder"))
  .ok { batch := {
    commandBuffer, encoder
    nonUniform := rt.supportsNonUniformThreadgroups
    maxThreadgroupMemory := rt.maxThreadgroupMemoryLength } }

/-- A call through `encoder_`. -/
def callEncoder (call : MetalCall) : BatchMethod Unit := do
  let world ← get
  match world.batch.encoder with
  | none => throw .undefinedBehavior
  | some _ => set { world with calls := world.calls ++ [call] }

/-- A call through `command_buffer_`. -/
def callCommandBuffer (call : MetalCall) : BatchMethod Unit := do
  let world ← get
  match world.batch.commandBuffer with
  | none => throw .undefinedBehavior
  | some _ => set { world with calls := world.calls ++ [call] }

/-- The guard of `add` and `barrier` against a batch no longer open. -/
def checkOpen (what : ByteString) : BatchMethod Unit := do
  let world ← get
  if world.batch.committed ∨ world.batch.discarded then
    throw (.dispatchError (what ++
      (if world.batch.committed then ascii "committed" else ascii "discarded")))

/-- The loop that binds buffers; returns the next index. -/
def encodeBuffers : List BufferBinding → SizeT → BatchMethod SizeT
  | [], index => pure index
  | binding :: rest, index => do
    callEncoder (.encode (.setBuffer binding.buffer.handle binding.offset index))
    encodeBuffers rest (index + 1)

/-- The loop that binds scalars at the indices after the buffers. -/
def encodeScalars : List Scalar → SizeT → BatchMethod SizeT
  | [], index => pure index
  | scalar :: rest, index => do
    callEncoder (.encode (.setBytes scalar.data scalar.size index))
    encodeScalars rest (index + 1)

/-- The loop that sets threadgroup lengths, rounding each a second time. -/
def encodeThreadgroupMemory : List SizeT → SizeT → BatchMethod Unit
  | [], _ => pure ()
  | length :: rest, index => do
    let rounded ← Method.ofExcept (roundedThreadgroupLength length)
    callEncoder (.encode (.setThreadgroupMemoryLength rounded index))
    encodeThreadgroupMemory rest (index + 1)

/-- The encoder command that launches the grid. -/
def dispatchCommand (launch : Launch) (nonUniform : Bool) : EncoderCommand :=
  let grid := launch.grid
  let tg := launch.threadgroup
  match launch.indirectGrid with
  | some buffer => .dispatchThreadgroupsIndirect buffer.handle launch.indirectOffset tg
  | none =>
    if nonUniform then .dispatchThreads grid tg
    else .dispatchThreadgroups ⟨grid.x / tg.x, grid.y / tg.y, grid.z / tg.z⟩ tg

/-- The part of `add` after validation. -/
def encode (launch : Launch) : BatchMethod Unit := do
  match launch.pipeline with
  | none => throw .undefinedBehavior
  | some pipeline =>
    callEncoder (.encode (.setComputePipelineState pipeline.handle))
    let index ← encodeBuffers launch.buffers.toList 0
    let _ ← encodeScalars launch.scalars.toList index
    encodeThreadgroupMemory launch.threadgroupMemory.toList 0
    let world ← get
    callEncoder (.encode (dispatchCommand launch world.batch.nonUniform))

/-- `add`: validates, then encodes. -/
def add (launch : Launch) : BatchMethod Unit := do
  checkOpen (ascii "cannot add to a batch that has already been ")
  let world ← get
  Method.ofExcept (validate launch world.batch.nonUniform world.batch.maxThreadgroupMemory)
  encode launch

/-- `barrier`. -/
def barrier : BatchMethod Unit := do
  checkOpen (ascii "cannot add a barrier to a batch that has already been ")
  callEncoder (.encode .memoryBarrier)

/-- `commit_locked`, which is also the locked first part of `wait`. -/
def commitLocked : BatchMethod Unit := do
  let world ← get
  if world.batch.discarded then
    throw (.dispatchError (ascii "this batch was discarded without being committed"))
  else if world.batch.committed then
    pure ()
  else
    set { world with batch := { world.batch with committed := true } }
    callEncoder .endEncoding
    callCommandBuffer .commit

/-- `commit`. -/
def commit : BatchMethod Unit := commitLocked

/-- The unlocked part of `wait`. -/
def waitUntilCompleted : BatchMethod Unit := callCommandBuffer .waitUntilCompleted

/-- `GPUEndTime() - GPUStartTime()`. -/
def readGpuTime : BatchMethod Float := do
  callCommandBuffer .gpuEndTime
  callCommandBuffer .gpuStartTime
  let world ← get
  pure (world.gpu.elim 0 fun gpu => gpu.endTime - gpu.startTime)

/-- Record the execution time, unless an earlier `wait` did. -/
def recordGpuTime : BatchMethod Unit := do
  let world ← get
  if world.batch.gpuTime.isNone then
    let time ← readGpuTime
    modify fun world => { world with batch := { world.batch with gpuTime := some time } }

/-- Throw if the command buffer faulted. -/
def throwOnFault : BatchMethod Unit := do
  callCommandBuffer .status
  let world ← get
  match world.gpu.bind GpuResult.fault with
  | some fault =>
    callCommandBuffer .error
    throw (.dispatchError (ascii "kernel execution failed: " ++ describe fault))
  | none => pure ()

/-- The locked last part of `wait`. -/
def waitFinish : BatchMethod Unit := do
  recordGpuTime
  throwOnFault

/-- `discard`: a no-op once committed or discarded. -/
def discard : BatchMethod Unit := do
  let world ← get
  if world.batch.committed ∨ world.batch.discarded then
    pure ()
  else
    set { world with batch := { world.batch with discarded := true } }
    callEncoder .endEncoding
    modify fun world => { world with batch := {
      world.batch with encoder := none, commandBuffer := none } }

/-- The destructor: Metal requires an open encoder to be ended. -/
def destroy : BatchMethod Unit := do
  let world ← get
  if ¬ world.batch.committed ∧ world.batch.encoder.isSome then
    callEncoder .endEncoding

end CommandBatch

/-- `dispatch`: one launch in a batch of its own, the GPU finishing with the given result. -/
def dispatch (launch : Launch) (result : GpuResult) : BatchMethod Unit := do
  CommandBatch.add launch
  CommandBatch.commitLocked
  modify fun world => { world with gpu := some result }
  CommandBatch.waitUntilCompleted
  CommandBatch.waitFinish

end MetalRuntime
