import MetalRuntime.BatchedLaunches
import MetalRuntime.Prepare
import MetalRuntime.RelabelledBuffers

/-!
# Arrays that share memory

A Python program makes buffers, exports arrays that share their memory, copies arrays into buffers,
writes through exported arrays, and has kernels run on the buffers in batches; `run` is a batch of
one launch, which the call drops when it returns. What the program no longer refers to is freed, and
the device hands the same addresses out again.

An array keeps its buffer alive as its owner, and a batch keeps the objects of its launches until
`wait` returns or the batch is dropped. Metal keeps what a command buffer refers to until it has
completed, also without the batch. Kernels store only inside the Metal buffers that they are bound
to.
-/

namespace MetalRuntime

open Foundations

/-- The address of the first byte. -/
def PyBuffer.start (b : PyBuffer) : ℕ := b.buffer.contents.toNat

/-- The number of bytes that Metal allocated. -/
def PyBuffer.length (b : PyBuffer) : ℕ := b.buffer.handle.length.toNat

/-- The buffer with the bytes that it has at the moment. -/
def PyBuffer.typed (b : PyBuffer) (memory : Memory) : TypedBuffer :=
  ⟨b, memory.read b.start b.length⟩

/-- Two allocations do not overlap. -/
def PyBuffer.Apart (b c : PyBuffer) : Prop :=
  b.start + b.length ≤ c.start ∨ c.start + c.length ≤ b.start

instance (b c : PyBuffer) : Decidable (b.Apart c) := inferInstanceAs (Decidable (_ ∨ _))

/-- An exported `nb::ndarray`: what it points to, and its owner. -/
structure ArrayView where
  owner : ℕ
  dtype : DLDataType
  shape : List SizeT
  address : SizeT
  deriving DecidableEq

/-- The array with the bytes that it has at the moment. -/
def ArrayView.array (view : ArrayView) (memory : Memory) : UploadArray where
  dtype := view.dtype
  shape := extents view.shape
  address := view.address
  data := memory.read view.address.toNat ((extents view.shape).foldl (· * ·) 1 *
    view.dtype.itemsize)
  length_data := Memory.length_read _ _ _
  extents_lt := TypedBuffer.extents_lt view.shape

/-- The arguments of `__dlpack__`; one that is not `None` may fail to convert. -/
structure DlpackArgs where
  streamIsNone : Bool := true
  dlDevice : Option (Option (ℤ × ℤ)) := none
  copy : Option Bool := none

/-- The ways to export an array. -/
inductive ExportCall
  | toNumpy (name : Option ByteString)
  | dlpack (args : DlpackArgs)

namespace TypedBuffer

/-- `__dlpack__`. -/
def dlpack (b : TypedBuffer) (args : DlpackArgs) : Except ExportFailure UploadArray :=
  if args.streamIsNone = false then
    .error (.typeError (
      ascii "Buffer.__dlpack__ only supports stream=None for CPU-accessible Metal " ++
      ascii "shared memory"))
  else if args.dlDevice ≠ none ∧ args.dlDevice ≠ some (some (1, 0)) then
    .error (.typeError (ascii "Buffer.__dlpack__ only supports dl_device=(1, 0) (CPU)"))
  else if args.copy.getD false = true then
    .error (.typeError (
      ascii "Buffer.__dlpack__(copy=True) is unsupported; use Buffer.to_numpy() and " ++
      ascii "copy the returned array"))
  else b.view (toDlpack b.dtype)

/-- An export. -/
def exportArray (b : TypedBuffer) : ExportCall → Except ExportFailure UploadArray
  | .toNumpy name => b.toNumpy name
  | .dlpack args => b.dlpack args

/-- One byte is stored. -/
def store (b : TypedBuffer) (place : ℕ) (byte : UInt8) : TypedBuffer :=
  { b with contents := overwrite b.contents place [byte] }

end TypedBuffer

/-- A store of a kernel into a buffer that it is bound to. -/
structure KernelStore where
  range : ℕ
  place : ℕ
  byte : UInt8
  deriving DecidableEq

/-- A kernel, by the stores of a completed run, given the contents of the Metal buffers that it is
bound to, each with the offset of the binding. It stores inside them. -/
structure StoringKernel where
  run : List (ByteString × SizeT) → List KernelStore
  inside : ∀ inputs, ∀ store ∈ run inputs, ∃ input, inputs[store.range]? = some input ∧
    store.place < input.1.length

/-- What a launch is bound to: its buffers, and the arguments of an indirect grid. -/
def Launch.ranges (launch : Launch) : List BufferBinding :=
  launch.buffers.toList ++
    (launch.indirectGrid.map fun buffer => ⟨buffer, launch.indirectOffset⟩).toList

/-- The objects behind them. -/
def LaunchParams.rangeBuffers (params : LaunchParams) : List PyBufferObject :=
  params.boundBuffers ++ params.indirectBuffer.toList

/-- A launch in a command buffer. -/
structure Flight where
  launch : Launch
  kernel : StoringKernel

/-- The buffers that it is bound to have the contents that memory has there. -/
def Flight.inputs (flight : Flight) (memory : Memory) : List (ByteString × SizeT) :=
  flight.launch.ranges.map fun binding =>
    (memory.read binding.buffer.contents.toNat binding.buffer.handle.length.toNat, binding.offset)

/-- A store of a launch. -/
def Flight.storeByte (flight : Flight) (memory : Memory) (store : KernelStore) : Memory :=
  match flight.launch.ranges[store.range]? with
  | some binding => memory.write (binding.buffer.contents.toNat + store.place) [store.byte]
  | none => memory

/-- What a launch makes of memory when the GPU runs it. -/
def Flight.complete (flight : Flight) (memory : Memory) : Memory :=
  (flight.kernel.run (flight.inputs memory)).foldl flight.storeByte memory

/-- The command buffer of the launch refers to the buffer. -/
def Flight.Retains (flight : Flight) (b : PyBuffer) : Prop :=
  ∃ binding ∈ flight.launch.ranges, binding.buffer = b.buffer

instance (flight : Flight) (b : PyBuffer) : Decidable (flight.Retains b) :=
  inferInstanceAs (Decidable (∃ binding ∈ _, _))

/-- An array that a program passes: one of its own, in memory of its own, or an exported one. -/
inductive ArrayArg
  | own (array : UploadArray)
  | view (view : ℕ)

/-- The ways to make a buffer. -/
inductive SourceArg
  | upload (array : ArrayArg) (overrideName : Option ByteString)
  | zeros (shape : List SizeT) (name : ByteString)
  | empty (shape : List SizeT) (name : ByteString)

/-- The construction, given the arrays that are passed. -/
def SourceArg.source (fetch : ArrayArg → Option UploadArray) : SourceArg → Option BufferSource
  | .upload array overrideName => (fetch array).map fun array => .upload array overrideName
  | .zeros shape name => some (.zeros shape name)
  | .empty shape name => some (.empty shape name)

/-- What a program does, what it forgets, and what happens to it. A new allocation holds what is
found there. A batch is forgotten when the last reference to it goes. -/
inductive ArrayCall
  | create (host : Host) (found : Memory) (source : SourceArg)
  | exportArray (buffer : ℕ) (call : ExportCall)
  | copyFrom (buffer : ℕ) (array : ArrayArg) (overrideName : Option ByteString)
  | read (view : ℕ)
  | store (view place : ℕ) (byte : UInt8)
  | newBatch (rt : Runtime) (commandBuffer encoder : Option ℕ)
  | add (batch : ℕ) (params : LaunchParams) (kernel : StoringKernel)
  | onBatch (batch : ℕ) (event : BatchEvent)
  | runLaunch (batch position : ℕ)
  | forget (buffer : ℕ)
  | forgetView (view : ℕ)
  | forgetBatch (batch : ℕ)
  | free (buffer : ℕ)

deriving instance DecidableEq for ExportFailure

/-- What the program sees of it. -/
inductive ArrayShown
  | made (handle : ℕ)
  | raised (failure : ExportFailure)
  | bytes (data : ByteString)
  | done
  deriving DecidableEq

/-- The memory of a program, the objects that are alive, the buffers and batches that it still
refers to, and the `keepalive_` of each batch. -/
structure SharedArrays where
  memory : Memory
  buffers : Handles PyBuffer
  views : Handles ArrayView
  named : List ℕ
  batches : Batches Flight
  held : List ℕ
  keepalive : ℕ → List ℕ

namespace SharedArrays

/-- No object yet. -/
def initial (memory : Memory) : SharedArrays :=
  ⟨memory, .empty, .empty, [], .initial, [], fun _ => []⟩

/-- The array behind an argument. -/
def fetch (s : SharedArrays) : ArrayArg → Option UploadArray
  | .own array => some array
  | .view view => (s.views.live view).map fun view => view.array s.memory

/-- A buffer that the program refers to. -/
def buffer? (s : SharedArrays) (handle : ℕ) : Option PyBuffer :=
  if handle ∈ s.named then s.buffers.live handle else none

/-- The device hands out memory that no live buffer has. -/
def Unused (s : SharedArrays) (b : PyBuffer) : Prop :=
  ∀ handle < s.buffers.next, ∀ other ∈ s.buffers.live handle, other.Apart b

instance (s : SharedArrays) (b : PyBuffer) : Decidable (s.Unused b) :=
  inferInstanceAs (Decidable (∀ handle < _, _))

/-- No command buffer of Metal's refers to the buffer. -/
def Unretained (s : SharedArrays) (handle : ℕ) : Prop :=
  ∀ b ∈ s.buffers.live handle, ∀ number < s.batches.systems.next,
    ∀ entry ∈ s.batches.flights number, ¬ entry.1.Retains b

instance (s : SharedArrays) (handle : ℕ) : Decidable (s.Unretained handle) :=
  inferInstanceAs (Decidable (∀ b ∈ s.buffers.live handle, _))

/-- Nothing keeps the buffer alive. -/
def Unreachable (s : SharedArrays) (handle : ℕ) : Prop :=
  handle ∉ s.named ∧
    (∀ number < s.views.next, ∀ view ∈ s.views.live number, view.owner ≠ handle) ∧
    (∀ number < s.batches.systems.next, handle ∉ s.keepalive number) ∧ s.Unretained handle

instance (s : SharedArrays) (handle : ℕ) : Decidable (s.Unreachable handle) :=
  inferInstanceAs (Decidable (_ ∧ _))

/-- The buffers of the arguments are objects that the program refers to. -/
def Passes (s : SharedArrays) (params : LaunchParams) : Prop :=
  ∀ buffer ∈ params.rangeBuffers, s.buffer? buffer.object = some buffer.toPyBuffer

instance (s : SharedArrays) (params : LaunchParams) : Decidable (s.Passes params) :=
  inferInstanceAs (Decidable (∀ buffer ∈ params.rangeBuffers, _))

/-- `memcpy` between overlapping ranges is undefined. Arrays of the program's own are elsewhere. -/
def Overlaps (b : PyBuffer) (source : UploadArray) : ArrayArg → Prop
  | .own _ => False
  | .view _ => ¬ (b.start + source.nbytes ≤ source.address.toNat ∨
      source.address.toNat + source.nbytes ≤ b.start)

instance (b : PyBuffer) (source : UploadArray) (array : ArrayArg) :
    Decidable (Overlaps b source array) :=
  match array with
  | .own _ => inferInstanceAs (Decidable False)
  | .view _ => inferInstanceAs (Decidable (¬ _))

/-- What a call of a batch leaves behind. -/
def finish (s : SharedArrays) (keepalive : ℕ → List ℕ) :
    Except Failure Unit × Batches Flight → ArrayShown × SharedArrays
  | (.error failure, batches) => (.raised (.thrown failure), { s with batches })
  | (.ok (), batches) => (.done, { s with batches, keepalive })

/-- The objects that a batch keeps after a section: `wait` drops them when it returns. -/
def afterSection (s : SharedArrays) (batch : ℕ) : BatchEvent → ℕ → List ℕ
  | .waitFinish _ => Function.update s.keepalive batch []
  | _ => s.keepalive

/-- Only the GPU goes on with a batch that is gone. -/
def Concerns (s : SharedArrays) (batch : ℕ) : BatchEvent → Prop
  | .gpuFinish _ => True
  | _ => batch ∈ s.held

instance (s : SharedArrays) (batch : ℕ) (event : BatchEvent) :
    Decidable (s.Concerns batch event) :=
  match event with
  | .gpuFinish _ => inferInstanceAs (Decidable True)
  | .add _ | .barrier | .commit | .discard | .waitCommit _ | .waitBlock _ | .waitFinish _ =>
    inferInstanceAs (Decidable (batch ∈ s.held))

/-- One step, if it can happen. -/
def step (s : SharedArrays) : ArrayCall → Option (ArrayShown × SharedArrays)
  | .create host found source => do
    let source ← source.source s.fetch
    match source.build host found with
    | .error failure => some (.raised (.thrown failure), s)
    | .ok (_, made) =>
      let b := made.toPyBuffer
      if s.Unused b then some (.made s.buffers.next, { s with
        memory := s.memory.write b.start made.contents
        buffers := s.buffers.create b
        named := s.buffers.next :: s.named })
      else none
  | .exportArray handle call => do
    let b ← s.buffer? handle
    match (b.typed s.memory).exportArray call with
    | .error failure => some (.raised failure, s)
    | .ok array => some (.made s.views.next, { s with
        views := s.views.create ⟨handle, array.dtype, array.words, array.address⟩ })
  | .copyFrom handle array overrideName => do
    let b ← s.buffer? handle
    let source ← s.fetch array
    match (b.typed s.memory).checkIncoming source overrideName with
    | .error failure => some (.raised (.thrown failure), s)
    | .ok () =>
      if Overlaps b source array then some (.raised (.thrown .undefinedBehavior), s)
      else some (.done, { s with memory := s.memory.write b.start source.data })
  | .read view => do
    let view ← s.views.live view
    some (.bytes (view.array s.memory).data, s)
  | .store view place byte => do
    let view ← s.views.live view
    if place < (view.array s.memory).nbytes then
      some (.done, { s with memory := s.memory.write (view.address.toNat + place) [byte] })
    else none
  | .newBatch rt commandBuffer encoder =>
    match s.batches.create rt commandBuffer encoder with
    | .error failure => some (.raised (.thrown failure), s)
    | .ok (batch, batches) => some (.made batch, { s with
        batches
        held := batch :: s.held
        keepalive := Function.update s.keepalive batch [] })
  | .add batch params kernel =>
    if batch ∈ s.held ∧ s.Passes params then
      match prepare params with
      | .error failure => some (.raised (.thrown failure), s)
      | .ok prepared =>
        let kept := Function.update s.keepalive batch (prepared.keepalive ∪ s.keepalive batch)
        (s.batches.add batch prepared.launch ⟨prepared.launch, kernel⟩).map (s.finish kept)
    else none
  | .onBatch batch event =>
    if s.Concerns batch event then
      (s.batches.step batch event).map (s.finish (s.afterSection batch event))
    else none
  | .runLaunch batch position => do
    let (flight, batches) ← s.batches.run batch position
    some (.done, { s with memory := flight.complete s.memory, batches })
  | .forget handle => some (.done, { s with named := s.named.erase handle })
  | .forgetView view => some (.done, { s with views := s.views.release (some view) })
  | .forgetBatch batch => some (.done, { s with
      batches := s.batches.drop batch
      held := s.held.erase batch
      keepalive := Function.update s.keepalive batch [] })
  | .free handle =>
    if s.Unreachable handle then
      some (.done, { s with buffers := s.buffers.release (some handle) })
    else none

end SharedArrays

end MetalRuntime
