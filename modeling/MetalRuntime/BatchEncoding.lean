import MetalRuntime.CommandBatch
import MetalRuntime.LaunchValidity

/-!
# The encoding phase of `add`

`launchCommands` lists the encoder calls that a launch stands for. Once `validate` has
accepted the launch, the encoding phase makes exactly these calls and returns: the loops
do not throw, and the second rounding of each threadgroup length repeats a rounding that
validation already made.
-/

namespace MetalRuntime

open Foundations

/-- The world after some more Metal calls. -/
def BatchWorld.after (world : BatchWorld) (calls : List MetalCall) : BatchWorld :=
  { world with calls := world.calls ++ calls }

@[simp] theorem BatchWorld.after_batch (world : BatchWorld) (calls : List MetalCall) :
    (world.after calls).batch = world.batch := rfl

@[simp] theorem BatchWorld.after_gpu (world : BatchWorld) (calls : List MetalCall) :
    (world.after calls).gpu = world.gpu := rfl

@[simp] theorem BatchWorld.after_calls (world : BatchWorld) (calls : List MetalCall) :
    (world.after calls).calls = world.calls ++ calls := rfl

/-- Calls in a row. -/
@[simp] theorem BatchWorld.after_after (world : BatchWorld) (calls more : List MetalCall) :
    (world.after calls).after more = world.after (calls ++ more) := by
  simp [BatchWorld.after]

/-- No calls. -/
@[simp] theorem BatchWorld.after_nil (world : BatchWorld) : world.after [] = world := by
  simp [BatchWorld.after]

/-- One command for each element, at consecutive indices. -/
def indexedCommands {α : Type} (command : α → SizeT → EncoderCommand) :
    List α → SizeT → List EncoderCommand
  | [], _ => []
  | a :: rest, index => command a index :: indexedCommands command rest (index + 1)

/-- The call that binds a buffer. -/
def bufferCommand (binding : BufferBinding) (index : SizeT) : EncoderCommand :=
  .setBuffer binding.buffer.handle binding.offset index

/-- The call that binds a scalar. -/
def scalarCommand (scalar : Scalar) (index : SizeT) : EncoderCommand :=
  .setBytes scalar.data scalar.size index

/-- A threadgroup length as the encoder receives it. -/
def roundedLength (length : SizeT) : SizeT := UInt64.ofNat (roundUp 16 length.toNat)

/-- The call that sets a threadgroup length. -/
def threadgroupCommand (length index : SizeT) : EncoderCommand :=
  .setThreadgroupMemoryLength (roundedLength length) index

/-- All encoder calls that a launch stands for, in order. -/
def launchCommands (launch : Launch) (pipeline : ComputePipeline) (nonUniform : Bool) :
    List EncoderCommand :=
  .setComputePipelineState pipeline.handle ::
    (indexedCommands bufferCommand launch.buffers.toList 0 ++
      indexedCommands scalarCommand launch.scalars.toList launch.buffers.size ++
      indexedCommands threadgroupCommand launch.threadgroupMemory.toList 0 ++
      [CommandBatch.dispatchCommand launch nonUniform])

namespace CommandBatch

/-- A call through an encoder that is there is made and returns. -/
theorem exec_callEncoder {world : BatchWorld} (hencoder : world.batch.encoder.isSome)
    (call : MetalCall) : (callEncoder call).exec world = (.ok (), world.after [call]) := by
  obtain ⟨encoder, hencoder⟩ := Option.isSome_iff_exists.mp hencoder
  simp [callEncoder, hencoder, BatchWorld.after]

/-- A call through a command buffer that is there is made and returns. -/
theorem exec_callCommandBuffer {world : BatchWorld}
    (hcommandBuffer : world.batch.commandBuffer.isSome) (call : MetalCall) :
    (callCommandBuffer call).exec world = (.ok (), world.after [call]) := by
  obtain ⟨commandBuffer, hcommandBuffer⟩ := Option.isSome_iff_exists.mp hcommandBuffer
  simp [callCommandBuffer, hcommandBuffer, BatchWorld.after]

/-- The buffer loop makes its calls and returns the index after the last buffer. -/
theorem exec_encodeBuffers {world : BatchWorld} (hencoder : world.batch.encoder.isSome)
    (bindings : List BufferBinding) (index : SizeT) :
    (encodeBuffers bindings index).exec world =
      (.ok (index + UInt64.ofNat bindings.length),
        world.after ((indexedCommands bufferCommand bindings index).map .encode)) := by
  induction bindings generalizing world index with
  | nil => simp [encodeBuffers, indexedCommands]
  | cons binding rest ih =>
    rw [encodeBuffers, Method.exec_bind, exec_callEncoder hencoder, Method.andThen_ok,
      ih (by simpa using hencoder), BatchWorld.after_after, indexedCommands, List.map_cons,
      List.length_cons, UInt64.ofNat_add, add_right_comm, add_assoc]
    rfl

/-- The scalar loop makes its calls. -/
theorem exec_encodeScalars {world : BatchWorld} (hencoder : world.batch.encoder.isSome)
    (scalars : List Scalar) (index : SizeT) :
    (encodeScalars scalars index).exec world =
      (.ok (index + UInt64.ofNat scalars.length),
        world.after ((indexedCommands scalarCommand scalars index).map .encode)) := by
  induction scalars generalizing world index with
  | nil => simp [encodeScalars, indexedCommands]
  | cons scalar rest ih =>
    rw [encodeScalars, Method.exec_bind, exec_callEncoder hencoder, Method.andThen_ok,
      ih (by simpa using hencoder), BatchWorld.after_after, indexedCommands, List.map_cons,
      List.length_cons, UInt64.ofNat_add, add_right_comm, add_assoc]
    rfl

/-- The threadgroup loop makes its calls when every rounded length is a word. -/
theorem exec_encodeThreadgroupMemory {world : BatchWorld}
    (hencoder : world.batch.encoder.isSome) (lengths : List SizeT) (index : SizeT)
    (hrounds : ∀ length ∈ lengths, roundUp 16 length.toNat < wordSize) :
    (encodeThreadgroupMemory lengths index).exec world =
      (.ok (), world.after ((indexedCommands threadgroupCommand lengths index).map .encode)) := by
  induction lengths generalizing world index with
  | nil => simp [encodeThreadgroupMemory, indexedCommands]
  | cons length rest ih =>
    have hlength := hrounds length List.mem_cons_self
    have hrest := fun l hl => hrounds l (List.mem_cons_of_mem length hl)
    have hround : roundedThreadgroupLength length = .ok (roundedLength length) :=
      roundedThreadgroupLength_eq_ok.mpr ⟨hlength, UInt64.toNat_ofNat_of_lt hlength⟩
    rw [encodeThreadgroupMemory, Method.exec_bind, Method.exec_ofExcept, hround,
      Method.andThen_ok, Method.exec_bind, exec_callEncoder hencoder, Method.andThen_ok,
      ih (by simpa using hencoder) (index + 1) hrest, BatchWorld.after_after,
      indexedCommands, List.map_cons]
    rfl

/-- The encoding phase makes exactly the calls of its launch and returns. -/
theorem exec_encode {world : BatchWorld} {launch : Launch} {pipeline : ComputePipeline}
    (hencoder : world.batch.encoder.isSome) (hpipeline : launch.pipeline = some pipeline)
    (hrounds : ∀ length ∈ launch.threadgroupMemory.toList,
      roundUp 16 length.toNat < wordSize) :
    (encode launch).exec world = (.ok (), world.after
      ((launchCommands launch pipeline world.batch.nonUniform).map .encode)) := by
  have hthere : ∀ calls, (world.after calls).batch.encoder.isSome := fun _ => hencoder
  have hindex : (0 : SizeT) + UInt64.ofNat launch.buffers.toList.length = launch.buffers.size :=
    zero_add _
  simp only [encode, hpipeline, Method.exec_bind, exec_callEncoder hencoder, Method.andThen_ok,
    exec_encodeBuffers (hthere _), exec_encodeScalars (hthere _), hindex,
    exec_encodeThreadgroupMemory (hthere _) _ _ hrounds, Method.exec_get,
    exec_callEncoder (hthere _), BatchWorld.after_after, BatchWorld.after_batch, launchCommands]
  simp

/-- Each rounded length of an accepted launch is a word. -/
theorem rounds_of_validate {launch : Launch} {nonUniform : Bool} {budget : SizeT}
    (hvalid : validate launch nonUniform budget = .ok ()) :
    ∀ length ∈ launch.threadgroupMemory.toList, roundUp 16 length.toNat < wordSize := by
  obtain ⟨pipeline, -, -, -, -, hmemory, -⟩ := (validate_eq_ok_checks _ _ _).mp hvalid
  rw [checkThreadgroupMemory_eq_ok] at hmemory
  intro length hlength
  have hle := List.single_le_sum (fun _ _ => Nat.zero_le _) _
    (List.mem_map_of_mem (f := fun length : SizeT => roundUp 16 length.toNat) hlength)
  have hbudget := toNat_lt_wordSize budget
  omega

end CommandBatch

end MetalRuntime
