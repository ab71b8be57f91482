import MetalRuntime.Values

/-!
# Buffers, pipelines and launches

The data that a launch carries, as `buffer.h` and `dispatch.h` declare it. Pointers that
every caller guarantees to be set are values; `pipeline` and `indirect_grid`, which the
code tests for null, are options.
-/

namespace MetalRuntime

open Foundations

/-- An `MTL::Buffer`: its identity, the address of its first byte and its length. -/
structure MTLBuffer where
  id : ℕ
  contents : SizeT
  length : SizeT
  deriving DecidableEq

/-- `Buffer`: shared storage and the requested size. -/
structure Buffer where
  buffer : MTLBuffer
  size : SizeT
  deriving DecidableEq

/-- `Buffer::handle`. -/
def Buffer.handle (b : Buffer) : MTLBuffer := b.buffer

/-- `Buffer::contents`. -/
def Buffer.contents (b : Buffer) : SizeT := b.buffer.contents

/-- `Dim3`: a 1-, 2- or 3-dimensional extent; unused dimensions are 1. -/
structure Dim3 where
  x : SizeT := 1
  y : SizeT := 1
  z : SizeT := 1
  deriving DecidableEq

/-- `Dim3::volume`, a wrapping product. -/
def Dim3.volume (d : Dim3) : SizeT := d.x * d.y * d.z

/-- `to_string(Dim3)`. -/
def Dim3.toText (d : Dim3) : ByteString :=
  ascii "(" ++ MetalRuntime.toText d.x ++ ascii ", " ++ MetalRuntime.toText d.y ++ ascii ", " ++
    MetalRuntime.toText d.z ++ ascii ")"

/-- `BindingInfo`: a kernel argument the compiler reports as used. -/
structure BindingInfo where
  index : SizeT
  name : ByteString
  /-- Bytes for each element of a buffer binding; 0 if unknown. -/
  dataSize : SizeT := 0
  deriving DecidableEq

/-- An `MTL::ComputePipelineState` with the limits Metal reports for it. -/
structure MTLComputePipelineState where
  id : ℕ
  maxTotalThreadsPerThreadgroup : SizeT
  threadExecutionWidth : SizeT
  staticThreadgroupMemoryLength : SizeT
  deriving DecidableEq

/-- `ComputePipeline`: the state, the label and the used arguments read from reflection. -/
structure ComputePipeline where
  pipeline : MTLComputePipelineState
  label : ByteString
  bufferBindings : List BindingInfo
  threadgroupBindings : List BindingInfo
  deriving DecidableEq

namespace ComputePipeline

/-- `handle`. -/
def handle (p : ComputePipeline) : MTLComputePipelineState := p.pipeline

/-- `max_threads_per_threadgroup`, which the constructor copies from the pipeline state. -/
def maxThreadsPerThreadgroup (p : ComputePipeline) : SizeT :=
  p.pipeline.maxTotalThreadsPerThreadgroup

/-- `thread_execution_width`, which the constructor copies from the pipeline state. -/
def threadExecutionWidth (p : ComputePipeline) : SizeT := p.pipeline.threadExecutionWidth

/-- `static_threadgroup_memory_length`, which the constructor copies from the pipeline state. -/
def staticThreadgroupMemoryLength (p : ComputePipeline) : SizeT :=
  p.pipeline.staticThreadgroupMemoryLength

/-- `default_threadgroup`: whole SIMD groups up to the kernel's ceiling. -/
def defaultThreadgroup (p : ComputePipeline) (grid : Dim3) : Dim3 :=
  let maxTotal := max p.maxThreadsPerThreadgroup 1
  let width := max p.threadExecutionWidth 1
  if grid.y ≤ 1 ∧ grid.z ≤ 1 then
    let total := maxTotal / width * width
    let total := if total = 0 then maxTotal else total
    { x := max (min grid.x total) 1 }
  else
    let x := max (min grid.x width) 1
    let y := max (min grid.y (maxTotal / x)) 1
    let z := max (min grid.z (maxTotal / (x * y))) 1
    { x, y, z }

end ComputePipeline

/-- `Launch::BufferBinding`. -/
structure BufferBinding where
  buffer : Buffer
  offset : SizeT
  deriving DecidableEq

/-- `Launch::Scalar`: the address and size of an inline argument. -/
structure Scalar where
  data : SizeT
  size : SizeT
  deriving DecidableEq

/-- `Launch`: buffers bind at indices `0..n-1`, scalars at the indices after. With an
indirect grid, the GPU reads the threadgroup counts from that buffer. -/
structure Launch where
  pipeline : Option ComputePipeline := none
  buffers : StdVector BufferBinding := .empty
  scalars : StdVector Scalar := .empty
  threadgroupMemory : StdVector SizeT := .empty
  grid : Dim3 := {}
  threadgroup : Dim3 := {}
  indirectGrid : Option Buffer := none
  indirectOffset : SizeT := 0

end MetalRuntime
