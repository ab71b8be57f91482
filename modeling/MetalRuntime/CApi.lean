import MetalRuntime.Foundations.ByteMemory
import MetalRuntime.Validate

/-!
# Caller memory behind the C API

`mr_wrap_buffer`, `mr_buffer_flush_to` and `build_launch` of `c_api.cpp`, with the `Buffer`
constructors and the VM query they use. What the system decides is a parameter: the page
size, the VM regions, whether there is a device, and whether and where Metal allocates.
-/

namespace MetalRuntime

open Foundations

/-- What `mach_vm_region` reports about a region. -/
structure VMRegion where
  address : SizeT
  size : SizeT
  readable : Bool
  writable : Bool
  deriving DecidableEq

/-- What the constructor of `MetalRuntime` finds: no device, a device that gives no command queue,
or both. -/
inductive DeviceAnswer
  | noDevice
  | noQueue
  | found
  deriving DecidableEq

/-- `runtime()`, which constructs the one `MetalRuntime` unless an earlier call has. -/
def DeviceAnswer.runtime : DeviceAnswer → Except Failure Unit
  | .noDevice => .error (.noDevice (ascii
      "no Metal device found: this runtime needs macOS with a Metal-capable GPU"))
  | .noQueue => .error (.noDevice (ascii "could not create a Metal command queue on this device"))
  | .found => .ok ()

/-- What the system and the device decide. A buffer is known by its identity; one that Metal
allocates has the address that Metal chooses. -/
structure Host where
  pageSize : SizeT
  /-- The first region that ends after an address. -/
  vmRegion : SizeT → Option VMRegion
  newBuffer : SizeT → Option (ℕ × SizeT)
  newBufferNoCopy : SizeT → SizeT → Option ℕ
  device : DeviceAnswer := .found

/-- `Buffer(device, size_bytes)`; an empty buffer gets one byte. -/
def Buffer.create (host : Host) (sizeBytes : SizeT) : Except Failure Buffer :=
  match host.newBuffer (max sizeBytes 1) with
  | some (id, contents) => .ok ⟨⟨id, contents, max sizeBytes 1⟩, sizeBytes⟩
  | none => .error (.allocation (ascii "failed to allocate Metal buffer of " ++
      toText sizeBytes ++ ascii " bytes"))

/-- `Buffer(device, external_ptr, size_bytes)`, which wraps page-aligned memory. -/
def Buffer.wrap (host : Host) (externalPtr sizeBytes : SizeT) : Except Failure Buffer := do
  rejectIf (externalPtr % host.pageSize ≠ 0 ∨ sizeBytes % host.pageSize ≠ 0)
    (.invalidArgument (
      ascii "Buffer: external_ptr and size_bytes must both be a multiple of the page size (" ++
      toText host.pageSize ++ ascii " bytes) to wrap without copying"))
  match host.newBufferNoCopy externalPtr sizeBytes with
  | some id => .ok ⟨⟨id, externalPtr, sizeBytes⟩, sizeBytes⟩
  | none => .error (.allocation (ascii "failed to wrap external memory of " ++
      toText sizeBytes ++ ascii " bytes as a Metal buffer"))

/-- `MRBuffer`. -/
structure MRBuffer where
  buffer : Buffer
  externalPtr : SizeT
  externalOffset : SizeT
  ownsCopy : Bool
  logicalSize : SizeT
  deriving DecidableEq

/-- `region_is_mapped_rw`. -/
def regionIsMappedRw (host : Host) (start length : SizeT) : Bool :=
  if length = 0 then true
  else
    match host.vmRegion start with
    | none => false
    | some region =>
      -- The query moves forward when it falls in a hole.
      if region.address > start then false
      else if ¬ region.readable ∨ ¬ region.writable then false
      else
        let offset := start - region.address
        offset ≤ region.size ∧ length ≤ region.size - offset

/-- The start of the page of an address. -/
def pageStart (host : Host) (addr : SizeT) : SizeT := addr &&& ~~~(host.pageSize - 1)

/-- The page-rounded length of a range. -/
def wrappedLength (host : Host) (ptr sizeBytes : SizeT) : SizeT :=
  (ptr - pageStart host ptr + sizeBytes + host.pageSize - 1) / host.pageSize * host.pageSize

/-- The zero-copy attempt of `mr_wrap_buffer` for a nonzero size. -/
def wrapPages (host : Host) (ptr sizeBytes : SizeT) : Except Failure (Option MRBuffer) := do
  let start := pageStart host ptr
  let offset := ptr - start
  rejectIf (sizeBytes > maxSize - ptr ∨ sizeBytes > maxSize - offset ∨
      offset + sizeBytes > maxSize - (host.pageSize - 1))
    (.invalidArgument (ascii "mr_wrap_buffer: memory range overflows"))
  let length := wrappedLength host ptr sizeBytes
  rejectIf (length > maxSize - start)
    (.invalidArgument (ascii "mr_wrap_buffer: page-rounded memory range overflows"))
  if regionIsMappedRw host start length then do
    host.device.runtime
    let buffer ← Buffer.wrap host start length
    .ok (some ⟨buffer, ptr, offset, false, sizeBytes⟩)
  else .ok none

/-- The owned copy of `mr_wrap_buffer`. -/
def ownCopy (host : Host) (memory : Memory) (ptr sizeBytes : SizeT) :
    Except Failure (MRBuffer × Memory) := do
  host.device.runtime
  let owned ← Buffer.create host sizeBytes
  let memory := if sizeBytes > 0 then
    memory.memcpy owned.contents.toNat ptr.toNat sizeBytes.toNat else memory
  .ok (⟨owned, ptr, 0, true, sizeBytes⟩, memory)

/-- `mr_wrap_buffer`, on a process with the given memory. -/
def mrWrapBuffer (host : Host) (hasOutBuffer : Bool) (memory : Memory) (ptr sizeBytes : SizeT) :
    Except Failure (MRBuffer × Memory) := do
  rejectIf (hasOutBuffer = false) (.invalidArgument (ascii "mr_wrap_buffer: out_buffer is null"))
  rejectIf (ptr = 0 ∧ sizeBytes > 0)
    (.invalidArgument (ascii "mr_wrap_buffer: ptr is null for a nonzero size"))
  if sizeBytes > 0 then do
    match ← wrapPages host ptr sizeBytes with
    | some buffer => .ok (buffer, memory)
    | none => ownCopy host memory ptr sizeBytes
  else ownCopy host memory ptr sizeBytes

/-- `mr_buffer_flush_to`. -/
def mrBufferFlushTo (buffer : Option MRBuffer) (memory : Memory) : Except Failure Memory :=
  match buffer with
  | none => .error (.invalidArgument (ascii "mr_buffer_flush_to: buffer is null"))
  | some buffer =>
    if buffer.ownsCopy = false then .ok memory
    else if buffer.buffer.size > 0 then
      .ok (memory.memcpy buffer.externalPtr.toNat buffer.buffer.contents.toNat
        buffer.buffer.size.toNat)
    else .ok memory

/-- `MRLaunchDesc`; a C array is a pointer, which may be null, with a count beside it. -/
structure MRLaunchDesc where
  pipeline : Option ComputePipeline
  buffers : Option (ℕ → Option MRBuffer)
  bufferOffsets : Option (ℕ → SizeT)
  bufferCount : SizeT
  scalars : Option (ℕ → SizeT)
  scalarSizes : Option (ℕ → SizeT)
  scalarCount : SizeT
  threadgroupMemory : Option (ℕ → SizeT)
  threadgroupMemoryCount : SizeT
  grid : Dim3
  threadgroup : Dim3

/-- An element of a C array; reading through a null pointer is undefined behaviour. -/
def element {α : Type} (array : Option (ℕ → α)) (i : ℕ) : Except Failure α :=
  match array with
  | some elements => .ok (elements i)
  | none => .error .undefinedBehavior

/-- The body of the buffer loop of `build_launch`. -/
def bindBuffer (who : ByteString) (desc : MRLaunchDesc) (i : ℕ) :
    Except Failure BufferBinding := do
  match ← element desc.buffers i with
  | none => .error (.invalidArgument (who ++ ascii ": buffers[" ++ decimal i ++ ascii "] is null"))
  | some buffer =>
    let offset ← element desc.bufferOffsets i
    rejectIf ((offset ≥ buffer.logicalSize ∧ ¬ (offset = 0 ∧ buffer.logicalSize = 0)) ∨
        offset > maxSize - buffer.externalOffset)
      (.invalidArgument (who ++ ascii ": buffers[" ++ decimal i ++ ascii "] offset " ++
        toText offset ++ ascii " is out of bounds for a logical buffer of " ++
        toText buffer.logicalSize ++ ascii " bytes"))
    .ok ⟨buffer.buffer, offset + buffer.externalOffset⟩

/-- The body of the scalar loop of `build_launch`. -/
def bindScalar (who : ByteString) (desc : MRLaunchDesc) (i : ℕ) : Except Failure Scalar := do
  let data ← element desc.scalars i
  rejectIf (data = 0)
    (.invalidArgument (who ++ ascii ": scalars[" ++ decimal i ++ ascii "] is null"))
  let size ← element desc.scalarSizes i
  .ok ⟨data, size⟩

/-- `build_launch`; `who` names the entry point in error messages. -/
def buildLaunch (launchDesc : Option MRLaunchDesc) (who : ByteString) : Except Failure Launch :=
  match launchDesc with
  | none => .error (.invalidArgument (who ++ ascii ": launch is null"))
  | some desc =>
    match desc.pipeline with
    | none => .error (.invalidArgument (who ++ ascii ": launch has no pipeline"))
    | some pipeline => do
      rejectIf (desc.bufferCount ≠ 0 ∧ (desc.buffers.isNone ∨ desc.bufferOffsets.isNone))
        (.invalidArgument (who ++
          ascii ": buffers and buffer_offsets are required when buffer_count is nonzero"))
      rejectIf (desc.scalarCount ≠ 0 ∧ (desc.scalars.isNone ∨ desc.scalarSizes.isNone))
        (.invalidArgument (who ++
          ascii ": scalars and scalar_sizes are required when scalar_count is nonzero"))
      rejectIf (desc.threadgroupMemoryCount ≠ 0 ∧ desc.threadgroupMemory.isNone)
        (.invalidArgument (who ++
          ascii ": threadgroup_memory is required when its count is nonzero"))
      let bindings ← (List.range desc.bufferCount.toNat).mapM (bindBuffer who desc)
      let buffers ← StdVector.ofList bindings
      let values ← (List.range desc.scalarCount.toNat).mapM (bindScalar who desc)
      let scalars ← StdVector.ofList values
      let lengths ← (List.range desc.threadgroupMemoryCount.toNat).mapM
        (element desc.threadgroupMemory)
      let threadgroupMemory ← StdVector.ofList lengths
      .ok {
        pipeline := some pipeline
        buffers, scalars, threadgroupMemory
        grid := desc.grid
        threadgroup := if desc.threadgroup.x = 0 then pipeline.defaultThreadgroup desc.grid
          else desc.threadgroup }

end MetalRuntime
