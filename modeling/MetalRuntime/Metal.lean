import MetalRuntime.Foundations.SlotTable
import MetalRuntime.Launch

/-!
# Metal's compute encoder

The calls the runtime makes on a compute encoder and on its command buffer, and what the
encoder does with them: each `set` call overwrites one slot of an argument table, nothing
is cleared between dispatches, and a dispatch runs with whatever the tables hold then.
-/

namespace MetalRuntime

open Foundations

/-- A call on a compute command encoder that encodes work. -/
inductive EncoderCommand
  | setComputePipelineState (pipeline : MTLComputePipelineState)
  | setBuffer (buffer : MTLBuffer) (offset index : SizeT)
  | setBytes (data length index : SizeT)
  | setThreadgroupMemoryLength (length index : SizeT)
  | dispatchThreadgroupsIndirect (buffer : MTLBuffer) (offset : SizeT) (threadgroup : Dim3)
  | dispatchThreads (grid threadgroup : Dim3)
  | dispatchThreadgroups (groups threadgroup : Dim3)
  | memoryBarrier
  deriving DecidableEq

/-- A call on the encoder or the command buffer of a batch. -/
inductive MetalCall
  | encode (command : EncoderCommand)
  | endEncoding
  | commit
  | waitUntilCompleted
  | gpuStartTime
  | gpuEndTime
  | status
  | error
  deriving DecidableEq

/-- The encoder command of a call, if it is one. -/
def MetalCall.command? : MetalCall → Option EncoderCommand
  | .encode command => some command
  | _ => none

/-- The encoder commands among some Metal calls, in call order. -/
def encoderCommands (calls : List MetalCall) : List EncoderCommand :=
  calls.filterMap MetalCall.command?

/-- No calls carry no commands. -/
@[simp] theorem encoderCommands_nil : encoderCommands [] = [] := rfl

/-- Ending the encoding is not a command. -/
@[simp] theorem encoderCommands_endEncoding (calls : List MetalCall) :
    encoderCommands (.endEncoding :: calls) = encoderCommands calls := rfl

/-- Committing is not a command. -/
@[simp] theorem encoderCommands_commit (calls : List MetalCall) :
    encoderCommands (.commit :: calls) = encoderCommands calls := rfl

/-- Encoder commands of two call sequences in a row. -/
@[simp] theorem encoderCommands_append (calls more : List MetalCall) :
    encoderCommands (calls ++ more) = encoderCommands calls ++ encoderCommands more :=
  List.filterMap_append

/-- Calls that only encode carry exactly their commands. -/
@[simp] theorem encoderCommands_map_encode (commands : List EncoderCommand) :
    encoderCommands (commands.map .encode) = commands := by
  induction commands with
  | nil => rfl
  | cons command rest ih =>
    rw [List.map_cons]
    exact congrArg (List.cons command) ih

/-- What a slot of the buffer argument table holds. -/
inductive BoundArgument
  | buffer (buffer : MTLBuffer) (offset : SizeT)
  | bytes (data length : SizeT)
  deriving DecidableEq

/-- The call that launches a grid. -/
inductive DispatchCall
  | threadgroupsIndirect (buffer : MTLBuffer) (offset : SizeT) (threadgroup : Dim3)
  | threads (grid threadgroup : Dim3)
  | threadgroups (groups threadgroup : Dim3)
  deriving DecidableEq

/-- The state a compute encoder keeps between calls. -/
structure Encoder where
  pipeline : Option MTLComputePipelineState
  buffers : SlotTable BoundArgument
  threadgroupMemory : SlotTable SizeT
  deriving DecidableEq

/-- An encoder just created: no pipeline and empty argument tables. -/
def Encoder.fresh : Encoder := ⟨none, .empty, .empty⟩

/-- A dispatch as the GPU will run it: the call, and what the encoder held at that moment. -/
structure RecordedDispatch where
  encoder : Encoder
  call : DispatchCall
  deriving DecidableEq

/-- The effect of one command on the encoder's state. -/
def Encoder.apply (encoder : Encoder) : EncoderCommand → Encoder
  | .setComputePipelineState pipeline => { encoder with pipeline := some pipeline }
  | .setBuffer buffer offset index =>
    { encoder with buffers := encoder.buffers.set index.toNat (.buffer buffer offset) }
  | .setBytes data length index =>
    { encoder with buffers := encoder.buffers.set index.toNat (.bytes data length) }
  | .setThreadgroupMemoryLength length index =>
    { encoder with threadgroupMemory := encoder.threadgroupMemory.set index.toNat length }
  | _ => encoder

/-- The dispatch that a command records, if it is a dispatch. -/
def EncoderCommand.dispatch? : EncoderCommand → Option DispatchCall
  | .dispatchThreadgroupsIndirect buffer offset tg => some (.threadgroupsIndirect buffer offset tg)
  | .dispatchThreads grid tg => some (.threads grid tg)
  | .dispatchThreadgroups groups tg => some (.threadgroups groups tg)
  | _ => none

/-- The encoder's state after some commands. -/
def Encoder.after (encoder : Encoder) (commands : List EncoderCommand) : Encoder :=
  commands.foldl Encoder.apply encoder

/-- The dispatches that a sequence of commands records, in order. -/
def Encoder.record (encoder : Encoder) : List EncoderCommand → List RecordedDispatch
  | [] => []
  | command :: rest =>
    ((command.dispatch?.map fun call => ⟨encoder, call⟩).toList) ++
      Encoder.record (encoder.apply command) rest

/-- The state after two command sequences in a row. -/
theorem Encoder.after_append (encoder : Encoder) (commands more : List EncoderCommand) :
    encoder.after (commands ++ more) = (encoder.after commands).after more :=
  List.foldl_append

/-- The dispatches of two command sequences in a row. -/
theorem Encoder.record_append (encoder : Encoder) (commands more : List EncoderCommand) :
    encoder.record (commands ++ more) =
      encoder.record commands ++ (encoder.after commands).record more := by
  induction commands generalizing encoder with
  | nil => rfl
  | cons command rest ih =>
    rw [List.cons_append, Encoder.record, ih, Encoder.record, List.append_assoc]
    rfl

end MetalRuntime
