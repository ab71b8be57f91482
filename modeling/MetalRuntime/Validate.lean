import MetalRuntime.Foundations.Guards
import MetalRuntime.Launch

/-!
# Host-side launch validation

`validate` in `dispatch.cpp` computes in wrapping 64-bit words. Each of its checks is
exact only because of an earlier one: the product of the threadgroup components after
their separate bounds, the running threadgroup total after the previous iteration, and
the scalar position after the coverage check. Each check is a definition of its own, in
the order of the source.
-/

namespace MetalRuntime

open Foundations

/-- `kMaxInlineScalarBytes`: Metal's ceiling on a `setBytes` argument. -/
def maxInlineScalarBytes : SizeT := 4096

/-- `kThreadgroupMemoryAlignment`: threadgroup memory is sized in 16-byte units. -/
def threadgroupMemoryAlignment : SizeT := 16

/-- `kIndirectArgumentsSize`: three `uint32` threadgroup counts. -/
def indirectArgumentsSize : SizeT := 3 * 4

/-- `std::numeric_limits<size_t>::max()`. -/
def maxSize : SizeT := 18446744073709551615

/-- `rounded_threadgroup_length`. -/
def roundedThreadgroupLength (length : SizeT) : Except Failure SizeT := do
  rejectIf (length > maxSize - (threadgroupMemoryAlignment - 1))
    (.invalidArgument (ascii "dispatch: threadgroup memory allocation overflows"))
  .ok ((length + threadgroupMemoryAlignment - 1) / threadgroupMemoryAlignment *
    threadgroupMemoryAlignment)

/-- The grid must be nonzero unless the GPU reads it from a buffer. -/
def checkGrid (launch : Launch) : Except Failure Unit :=
  let grid := launch.grid
  rejectIf (launch.indirectGrid.isNone ∧ (grid.x = 0 ∨ grid.y = 0 ∨ grid.z = 0))
    (.invalidArgument (ascii "dispatch: grid " ++ grid.toText ++
      ascii " must be non-zero in every dimension"))

/-- The threadgroup must be nonzero and within the kernel's ceiling. -/
def checkThreadgroup (launch : Launch) (pipeline : ComputePipeline) : Except Failure Unit := do
  let tg := launch.threadgroup
  rejectIf (tg.x = 0 ∨ tg.y = 0 ∨ tg.z = 0)
    (.invalidArgument (ascii "dispatch: threadgroup " ++ tg.toText ++
      ascii " must be non-zero in every dimension"))
  let maxTotal := pipeline.maxThreadsPerThreadgroup
  rejectIf (tg.x > maxTotal ∨ tg.y > maxTotal ∨ tg.z > maxTotal ∨ tg.volume > maxTotal)
    (.invalidArgument (ascii "dispatch: threadgroup " ++ tg.toText ++ ascii " has " ++
      toText tg.volume ++ ascii " threads, but this kernel supports at most " ++
      toText maxTotal ++ ascii " per threadgroup"))

/-- The launch must provide every used buffer and threadgroup argument. -/
def checkBindings (launch : Launch) (pipeline : ComputePipeline) : Except Failure Unit := do
  let bindingCount := launch.buffers.size + launch.scalars.size
  rejectIf (bindingCount > 31)
    (.invalidArgument (ascii "dispatch: " ++ toText bindingCount ++
      ascii " buffer bindings requested, but Metal allows at most 31"))
  forEach (fun binding => rejectIf (binding.index ≥ bindingCount)
    (.invalidArgument (ascii "dispatch: kernel '" ++ pipeline.label ++
      ascii "' reads argument '" ++ binding.name ++ ascii "' at buffer index " ++
      toText binding.index ++ ascii ", but only " ++ toText bindingCount ++
      ascii " bindings were provided (buffers bind first, scalars after)")))
    pipeline.bufferBindings
  forEach (fun binding => rejectIf (binding.index ≥ launch.threadgroupMemory.size)
    (.invalidArgument (ascii "dispatch: kernel '" ++ pipeline.label ++
      ascii "' uses threadgroup memory '" ++ binding.name ++ ascii "' at index " ++
      toText binding.index ++ ascii "; pass its byte size in threadgroup_memory")))
    pipeline.threadgroupBindings

/-- The loop that adds each rounded length to the running threadgroup total. -/
def addThreadgroupLengths (maxThreadgroupMemory : SizeT) :
    SizeT → List SizeT → Except Failure SizeT
  | total, [] => .ok total
  | total, length :: rest => do
    let rounded ← roundedThreadgroupLength length
    rejectIf (total > maxThreadgroupMemory ∨ rounded > maxThreadgroupMemory - total)
      (.invalidArgument (ascii "dispatch: threadgroup memory exceeds this device's budget of " ++
        toText maxThreadgroupMemory ++ ascii " bytes per threadgroup"))
    addThreadgroupLengths maxThreadgroupMemory (total + rounded) rest

/-- Static and dynamic threadgroup memory share one budget. -/
def checkThreadgroupMemory (launch : Launch) (pipeline : ComputePipeline)
    (maxThreadgroupMemory : SizeT) : Except Failure Unit := do
  let total ← addThreadgroupLengths maxThreadgroupMemory pipeline.staticThreadgroupMemoryLength
    launch.threadgroupMemory.toList
  rejectIf (total > maxThreadgroupMemory)
    (.invalidArgument (ascii "dispatch: " ++ toText total ++
      ascii " bytes of threadgroup memory requested (including " ++
      toText pipeline.staticThreadgroupMemoryLength ++
      ascii " bytes of static allocations in the kernel), but this device supports at most " ++
      toText maxThreadgroupMemory ++ ascii " bytes per threadgroup"))

/-- A scalar bound to a declared element size must hold whole elements. -/
def checkScalarElements (launch : Launch) (pipeline : ComputePipeline) (binding : BindingInfo) :
    Except Failure Unit :=
  if binding.index < launch.buffers.size ∨ binding.dataSize = 0 then .ok ()
  else do
    let position := binding.index - launch.buffers.size
    let scalar ← launch.scalars.get position
    rejectIf (scalar.size < binding.dataSize ∨ scalar.size % binding.dataSize ≠ 0)
      (.invalidArgument (ascii "dispatch: scalars[" ++ toText position ++ ascii "] is " ++
        toText scalar.size ++ ascii " bytes, but kernel '" ++ pipeline.label ++
        ascii "' declares '" ++ binding.name ++ ascii "' at buffer index " ++
        toText binding.index ++ ascii " with " ++ toText binding.dataSize ++
        ascii "-byte elements"))

/-- Scalars must fit `setBytes` and the elements their arguments declare. -/
def checkScalars (launch : Launch) (pipeline : ComputePipeline) : Except Failure Unit := do
  forEach (fun scalar : Scalar => rejectIf (scalar.size > maxInlineScalarBytes)
    (.invalidArgument (ascii "dispatch: inline scalar of " ++ toText scalar.size ++
      ascii " bytes exceeds Metal's " ++ toText maxInlineScalarBytes ++
      ascii "-byte setBytes limit; pass it as a Buffer instead")))
    launch.scalars.toList
  forEach (checkScalarElements launch pipeline) pipeline.bufferBindings

/-- The bounds check on one buffer offset. -/
def checkBufferOffset (position : ℕ) (binding : BufferBinding) : Except Failure Unit :=
  rejectIf (binding.offset ≥ binding.buffer.size ∧
      ¬ (binding.offset = 0 ∧ binding.buffer.size = 0))
    (.invalidArgument (ascii "dispatch: buffers[" ++ decimal position ++ ascii "] offset " ++
      toText binding.offset ++ ascii " is out of bounds for a buffer of " ++
      toText binding.buffer.size ++ ascii " bytes"))

/-- Every buffer offset must be inside its buffer. -/
def checkBufferOffsets (launch : Launch) : Except Failure Unit :=
  forEach (fun entry => checkBufferOffset entry.2 entry.1) launch.buffers.toList.zipIdx

/-- The indirect arguments must be inside their buffer; without non-uniform threadgroups a
direct grid must divide evenly. -/
def checkDispatch (launch : Launch) (nonUniform : Bool) : Except Failure Unit :=
  match launch.indirectGrid with
  | some buffer =>
    let size := buffer.size
    rejectIf (launch.indirectOffset % 4 ≠ 0 ∨ launch.indirectOffset > size ∨
        indirectArgumentsSize > size - launch.indirectOffset)
      (.invalidArgument (ascii "dispatch: indirect grid arguments need " ++
        toText indirectArgumentsSize ++ ascii " bytes at a 4-byte-aligned offset, but offset " ++
        toText launch.indirectOffset ++ ascii " into a buffer of " ++ toText size ++
        ascii " bytes doesn't provide that"))
  | none =>
    let grid := launch.grid
    let tg := launch.threadgroup
    rejectIf (nonUniform = false ∧ (grid.x % tg.x ≠ 0 ∨ grid.y % tg.y ≠ 0 ∨ grid.z % tg.z ≠ 0))
      (.invalidArgument (ascii "dispatch: this GPU does not support non-uniform threadgroups, " ++
        ascii "so grid " ++ grid.toText ++ ascii " must divide evenly by threadgroup " ++
        tg.toText))

/-- `validate`. Check order decides which error a launch with several faults reports. -/
def validate (launch : Launch) (nonUniform : Bool) (maxThreadgroupMemory : SizeT) :
    Except Failure Unit :=
  match launch.pipeline with
  | none => .error (.invalidArgument (ascii "dispatch: launch has no pipeline"))
  | some pipeline => do
    checkGrid launch
    checkThreadgroup launch pipeline
    checkBindings launch pipeline
    checkThreadgroupMemory launch pipeline maxThreadgroupMemory
    checkScalars launch pipeline
    checkBufferOffsets launch
    checkDispatch launch nonUniform

end MetalRuntime
