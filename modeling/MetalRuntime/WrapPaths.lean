import MetalRuntime.Foundations.MirroredValue
import MetalRuntime.WrappedBuffers

/-!
# Zero-copy and copied ranges

A caller cannot tell which path `mr_wrap_buffer` took. On the zero-copy path host and device
share the bytes of the range; on the copy path the device works on a mirror that
`mr_buffer_flush_to` copies to the host and that never receives what the host writes. The two
paths are therefore alike exactly when no flushed dispatch depends on such a write.
-/

namespace MetalRuntime

open Foundations

/-- A kernel, by what a completed run of it makes of the bytes it is bound to. -/
structure Kernel where
  run : List UInt8 → List UInt8
  length_run : ∀ bytes, (run bytes).length = bytes.length

/-- What a caller does with one wrapped range: write to it, read it, dispatch a kernel on its
bytes from an offset on and wait, or flush it. -/
inductive RangeEvent
  | write (start : ℕ) (bytes : List UInt8)
  | read
  | dispatch (desc : MRLaunchDesc) (offset : SizeT) (kernel : Kernel)
  | flush

/-- The descriptor with the range as its one buffer. -/
def MRLaunchDesc.bind (desc : MRLaunchDesc) (buffer : MRBuffer) (offset : SizeT) : MRLaunchDesc :=
  { desc with
    buffers := some fun _ => some buffer
    bufferOffsets := some fun _ => offset
    bufferCount := 1 }

/-- A completed kernel reads and writes the logical bytes from its binding on. -/
def runKernel (buffer : MRBuffer) (binding : BufferBinding) (kernel : Kernel) (memory : Memory) :
    Memory :=
  let start := binding.buffer.contents.toNat + binding.offset.toNat
  let count := buffer.externalOffset.toNat + buffer.logicalSize.toNat - binding.offset.toNat
  memory.write start (kernel.run (memory.read start count))

/-- The bytes of the range as the host sees them. -/
def MRBuffer.hostBytes (buffer : MRBuffer) (memory : Memory) : List UInt8 :=
  memory.read buffer.externalPtr.toNat buffer.logicalSize.toNat

/-- The bytes of the range as the device sees them. -/
def MRBuffer.deviceBytes (buffer : MRBuffer) (memory : Memory) : List UInt8 :=
  memory.read (buffer.buffer.contents.toNat + buffer.externalOffset.toNat)
    buffer.logicalSize.toNat

/-- One event on a process that wrapped its range as `buffer`, with the bytes that the host
sees. A write past the range and a call that fails are not events. -/
def rangeStep (buffer : MRBuffer) (memory : Memory) :
    RangeEvent → Option (Option (List UInt8) × Memory)
  | .write start bytes =>
    if start + bytes.length ≤ buffer.logicalSize.toNat then
      some (none, memory.write (buffer.externalPtr.toNat + start) bytes)
    else none
  | .read => some (some (buffer.hostBytes memory), memory)
  | .dispatch desc offset kernel =>
    match buildLaunch (some (desc.bind buffer offset)) (ascii "mr_dispatch") with
    | .ok launch => launch.buffers.toList[0]?.map fun binding =>
        (none, runKernel buffer binding kernel memory)
    | .error _ => none
  | .flush =>
    match mrBufferFlushTo (some buffer) memory with
    | .ok flushed => some (some (buffer.hostBytes flushed), flushed)
    | .error _ => none

/-- What an event does to the bytes of the range, and on which side. -/
def RangeEvent.access : RangeEvent → Access (List UInt8)
  | .write start new => .write fun bytes => overwrite bytes start new
  | .read => .look
  | .dispatch _ offset kernel => .compute fun bytes =>
      overwrite bytes offset.toNat (kernel.run (bytes.drop offset.toNat))
  | .flush => .publish

/-- Every dispatch is flushed before the host next reads or writes the range. -/
def FlushesBeforeAccess (events : List RangeEvent) : Prop :=
  Disciplined false (events.map RangeEvent.access)

/-- At every flush, the dispatches since the flush before give the same bytes with the writes
of the host in between as without them. -/
def DispatchesHideWrites (bytes : List UInt8) (events : List RangeEvent) : Prop :=
  WritesHidden bytes [] (events.map RangeEvent.access)

/-- Whether a launch is built does not depend on the path that wrapped its range. -/
theorem buildLaunch_bind {desc : MRLaunchDesc} {offset : SizeT} {who : ByteString}
    {buffer other : MRBuffer} {binding : BufferBinding} {launch : Launch}
    (hother : bindBuffer who (desc.bind other offset) 0 = .ok binding)
    (h : buildLaunch (some (desc.bind buffer offset)) who = .ok launch) :
    ∃ launch, buildLaunch (some (desc.bind other offset)) who = .ok launch ∧
      launch.buffers.toList[0]? = some binding := by
  cases hpipeline : desc.pipeline with
  | none =>
    rw [buildLaunch, show (desc.bind buffer offset).pipeline = none from hpipeline] at h
    cases h
  | some pipeline =>
    have hset : ∀ wrapped, (desc.bind wrapped offset).pipeline = some pipeline :=
      fun _ => hpipeline
    simp only [buildLaunch, hset, check_bind_eq_ok] at h ⊢
    obtain ⟨-, hscalars, hmemory, hloops⟩ := h
    obtain ⟨bindings, -, hloops⟩ := bind_eq_ok_iff.mp hloops
    obtain ⟨buffers, -, hloops⟩ := bind_eq_ok_iff.mp hloops
    obtain ⟨values, hvalues, hloops⟩ := bind_eq_ok_iff.mp hloops
    obtain ⟨scalars, hfilled, hloops⟩ := bind_eq_ok_iff.mp hloops
    obtain ⟨lengths, hlengths, hloops⟩ := bind_eq_ok_iff.mp hloops
    obtain ⟨threadgroupMemory, hassigned, -⟩ := bind_eq_ok_iff.mp hloops
    have hbindings : (List.range (desc.bind other offset).bufferCount.toNat).mapM
        (bindBuffer who (desc.bind other offset)) = .ok [binding] := by
      change (List.range 1).mapM _ = _
      rw [List.range_one, List.mapM_cons, hother]
      rfl
    have hsize : [binding].length ≤ maxVectorSize := Nat.le_add_left 1 _
    have hbuffers : StdVector.ofList [binding] = .ok ⟨[binding], hsize⟩ := rfl
    refine ⟨_, ⟨rfl, hscalars, hmemory, bind_eq_ok_iff.mpr ⟨_, hbindings, bind_eq_ok_iff.mpr
      ⟨_, hbuffers, bind_eq_ok_iff.mpr ⟨_, hvalues, bind_eq_ok_iff.mpr ⟨_, hfilled,
        bind_eq_ok_iff.mpr ⟨_, hlengths, bind_eq_ok_iff.mpr ⟨_, hassigned, rfl⟩⟩⟩⟩⟩⟩⟩, rfl⟩

/-- A launch that was built bound the range at an accepted offset. -/
theorem binding_of_buildLaunch_bind {desc : MRLaunchDesc} {offset ptr size : SizeT}
    {who : ByteString} {buffer : MRBuffer} {launch : Launch} (hwraps : buffer.Wraps ptr size)
    (h : buildLaunch (some (desc.bind buffer offset)) who = .ok launch) :
    (offset.toNat < size.toNat ∨ (offset = 0 ∧ size = 0)) ∧
      launch.buffers.toList[0]? = some ⟨buffer.buffer, offset + buffer.externalOffset⟩ := by
  exact binding_of_buildLaunch hwraps h rfl rfl Nat.zero_lt_one rfl

/-- Where the device finds the range in its buffer. -/
def MRBuffer.deviceStart (buffer : MRBuffer) : ℕ :=
  buffer.buffer.contents.toNat + buffer.externalOffset.toNat

/-- A kernel writes what it makes of the bytes from its offset on, where it found them. -/
theorem runKernel_eq {buffer : MRBuffer} {ptr size offset : SizeT}
    (hwraps : buffer.Wraps ptr size) (hoffset : offset.toNat ≤ size.toNat) (kernel : Kernel)
    (memory : Memory) :
    runKernel buffer ⟨buffer.buffer, offset + buffer.externalOffset⟩ kernel memory =
      memory.write (buffer.deviceStart + offset.toNat)
        (kernel.run ((buffer.deviceBytes memory).drop offset.toNat)) := by
  have hsum := toNat_add_of_lt (hwraps.offset_add_lt hoffset)
  have hstart : buffer.buffer.contents.toNat + (offset + buffer.externalOffset).toNat =
      buffer.deviceStart + offset.toNat := by
    rw [hsum, MRBuffer.deviceStart]
    omega
  have hcount : buffer.externalOffset.toNat + buffer.logicalSize.toNat -
      (offset + buffer.externalOffset).toNat = buffer.logicalSize.toNat - offset.toNat := by
    rw [hsum, Nat.add_comm offset.toNat, Nat.add_sub_add_left]
  rw [MRBuffer.deviceBytes, Memory.drop_read, ← MRBuffer.deviceStart, ← hstart, ← hcount]
  rfl

/-- A kernel makes as many bytes as it is bound to. -/
theorem length_kernel_run {buffer : MRBuffer} {ptr size offset : SizeT}
    (hwraps : buffer.Wraps ptr size) (kernel : Kernel) (memory : Memory) :
    (kernel.run ((buffer.deviceBytes memory).drop offset.toNat)).length =
      size.toNat - offset.toNat := by
  rw [kernel.length_run, List.length_drop, MRBuffer.deviceBytes, Memory.length_read,
    hwraps.logicalSize]

/-- The device then finds those bytes overwritten in the range. -/
theorem deviceBytes_runKernel {buffer : MRBuffer} {ptr size offset : SizeT}
    (hwraps : buffer.Wraps ptr size) (hoffset : offset.toNat ≤ size.toNat) (kernel : Kernel)
    (memory : Memory) :
    buffer.deviceBytes
        (runKernel buffer ⟨buffer.buffer, offset + buffer.externalOffset⟩ kernel memory) =
      overwrite (buffer.deviceBytes memory) offset.toNat
        (kernel.run ((buffer.deviceBytes memory).drop offset.toNat)) := by
  rw [runKernel_eq hwraps hoffset]
  apply Memory.read_write_of_inside
  rw [length_kernel_run hwraps, hwraps.logicalSize]
  omega

/-- Without a copy, host and device find the range at the same place. -/
theorem deviceStart_of_zeroCopy {buffer : MRBuffer} {ptr size : SizeT}
    (hwraps : buffer.Wraps ptr size) (howns : buffer.ownsCopy = false) :
    buffer.deviceStart = buffer.externalPtr.toNat := by
  obtain ⟨-, hcontents⟩ := hwraps.zeroCopy howns
  rw [hwraps.externalPtr]
  exact hcontents

/-- So they see the same bytes. -/
theorem deviceBytes_of_zeroCopy {buffer : MRBuffer} {ptr size : SizeT}
    (hwraps : buffer.Wraps ptr size) (howns : buffer.ownsCopy = false) (memory : Memory) :
    buffer.deviceBytes memory = buffer.hostBytes memory :=
  congrArg (fun start => memory.read start buffer.logicalSize.toNat)
    (deviceStart_of_zeroCopy hwraps howns)

/-- A copy begins at the start of its buffer. -/
theorem deviceStart_of_copy {buffer : MRBuffer} {ptr size : SizeT}
    (hwraps : buffer.Wraps ptr size) (howns : buffer.ownsCopy = true) :
    buffer.deviceStart = buffer.buffer.contents.toNat := by
  obtain ⟨hexternal, -⟩ := hwraps.copy howns
  rw [MRBuffer.deviceStart, hexternal]
  rfl

/-- A dispatch that returns ran the kernel at an offset inside the range. -/
theorem runKernel_of_dispatch {buffer : MRBuffer} {ptr size offset : SizeT}
    {desc : MRLaunchDesc} {kernel : Kernel} {memory memory' : Memory} {o : Option (List UInt8)}
    (hwraps : buffer.Wraps ptr size)
    (h : rangeStep buffer memory (.dispatch desc offset kernel) = some (o, memory')) :
    o = none ∧ (offset.toNat < size.toNat ∨ (offset = 0 ∧ size = 0)) ∧ memory' =
      runKernel buffer ⟨buffer.buffer, offset + buffer.externalOffset⟩ kernel memory := by
  rw [rangeStep] at h
  split at h
  · rename_i launch hlaunch
    obtain ⟨hrange, hget⟩ := binding_of_buildLaunch_bind hwraps hlaunch
    rw [hget] at h
    cases h
    exact ⟨rfl, hrange, rfl⟩
  · cases h

/-- An event that is enabled on one path is enabled on the other. -/
theorem rangeStep_enabled {buffer other : MRBuffer} {ptr size : SizeT} {memory : Memory}
    {event : RangeEvent} {result : Option (List UInt8) × Memory}
    (hwraps : buffer.Wraps ptr size) (hother : other.Wraps ptr size)
    (h : rangeStep buffer memory event = some result) (memory₂ : Memory) :
    ∃ result₂, rangeStep other memory₂ event = some result₂ := by
  cases event with
  | write start bytes =>
    rw [rangeStep] at h ⊢
    split at h
    · rename_i hfits
      rw [hother.logicalSize, ← hwraps.logicalSize, if_pos hfits]
      exact ⟨_, rfl⟩
    · cases h
  | read => exact ⟨_, rfl⟩
  | dispatch desc offset kernel =>
    rw [rangeStep] at h ⊢
    split at h
    · rename_i launch hlaunch
      obtain ⟨hrange, -⟩ := binding_of_buildLaunch_bind hwraps hlaunch
      obtain ⟨built, hbuilt, hget⟩ := buildLaunch_bind
        ((bindBuffer_eq_ok hother rfl rfl).mpr ⟨hrange, rfl⟩) hlaunch
      rw [hbuilt]
      exact ⟨_, Option.map_eq_some_iff.mpr ⟨_, hget, rfl⟩⟩
    · cases h
  | flush =>
    cases howns : other.ownsCopy with
    | false =>
      rw [rangeStep, flush_of_zeroCopy howns]
      exact ⟨_, rfl⟩
    | true =>
      rw [rangeStep, flush_of_copy howns]
      exact ⟨_, rfl⟩

/-- On the zero-copy path every event acts on one shared value, the bytes of the range. -/
theorem rangeStep_zeroCopy {buffer : MRBuffer} {ptr size : SizeT} {memory memory' : Memory}
    {event : RangeEvent} {o : Option (List UInt8)} (hwraps : buffer.Wraps ptr size)
    (howns : buffer.ownsCopy = false) (h : rangeStep buffer memory event = some (o, memory')) :
    sharedStep (buffer.hostBytes memory) event.access = some (o, buffer.hostBytes memory') := by
  cases event with
  | write start bytes =>
    rw [rangeStep] at h
    split at h
    · rename_i hfits
      cases h
      rw [MRBuffer.hostBytes, MRBuffer.hostBytes, Memory.read_write_of_inside _ _ hfits]
      rfl
    · cases h
  | read =>
    cases h
    rfl
  | dispatch desc offset kernel =>
    obtain ⟨rfl, hrange, rfl⟩ := runKernel_of_dispatch hwraps h
    have hbytes := deviceBytes_runKernel hwraps (offset_le_of_range hrange) kernel memory
    rw [deviceBytes_of_zeroCopy hwraps howns, deviceBytes_of_zeroCopy hwraps howns] at hbytes
    rw [hbytes]
    rfl
  | flush =>
    rw [rangeStep, flush_of_zeroCopy howns] at h
    cases h
    rfl

section Copy

variable {buffer : MRBuffer} {ptr size : SizeT} (hwraps : buffer.Wraps ptr size)
  (howns : buffer.ownsCopy = true)
  (hdisjoint : buffer.buffer.contents.toNat + size.toNat ≤ ptr.toNat ∨
    ptr.toNat + size.toNat ≤ buffer.buffer.contents.toNat)

include hwraps howns hdisjoint

/-- The host writes beside the copy. -/
theorem deviceBytes_write {start : ℕ} {bytes : List UInt8}
    (hfits : start + bytes.length ≤ buffer.logicalSize.toNat) (memory : Memory) :
    buffer.deviceBytes (memory.write (buffer.externalPtr.toNat + start) bytes) =
      buffer.deviceBytes memory := by
  apply Memory.read_write_of_disjoint
  rw [← MRBuffer.deviceStart, deviceStart_of_copy hwraps howns, hwraps.externalPtr,
    hwraps.logicalSize]
  rw [hwraps.logicalSize] at hfits
  omega

/-- A kernel writes beside the range of the host. -/
theorem hostBytes_runKernel {offset : SizeT} (hoffset : offset.toNat ≤ size.toNat)
    (kernel : Kernel) (memory : Memory) :
    buffer.hostBytes
        (runKernel buffer ⟨buffer.buffer, offset + buffer.externalOffset⟩ kernel memory) =
      buffer.hostBytes memory := by
  rw [runKernel_eq hwraps hoffset]
  apply Memory.read_write_of_disjoint
  rw [length_kernel_run hwraps, deviceStart_of_copy hwraps howns, hwraps.externalPtr,
    hwraps.logicalSize]
  omega

/-- A flush keeps the copy and makes the host see it. -/
theorem bytes_flush {memory flushed : Memory}
    (hflush : mrBufferFlushTo (some buffer) memory = .ok flushed) :
    buffer.hostBytes flushed = buffer.deviceBytes memory ∧
      buffer.deviceBytes flushed = buffer.deviceBytes memory := by
  obtain ⟨-, hsize⟩ := hwraps.copy howns
  have hstart := deviceStart_of_copy hwraps howns
  rw [flush_of_copy howns, hsize] at hflush
  cases hflush
  refine ⟨?_, ?_⟩
  · rw [MRBuffer.hostBytes, MRBuffer.deviceBytes, ← MRBuffer.deviceStart, hstart,
      hwraps.logicalSize]
    exact memory.read_memcpy_self _ _ _
  · apply Memory.read_memcpy_of_disjoint
    rw [← MRBuffer.deviceStart, hstart, hwraps.externalPtr, hwraps.logicalSize]
    omega

/-- On the copy path host and device have a value each, and a flush publishes the device's. -/
theorem rangeStep_copy {memory memory' : Memory} {event : RangeEvent} {o : Option (List UInt8)}
    (h : rangeStep buffer memory event = some (o, memory')) :
    mirroredStep (buffer.hostBytes memory, buffer.deviceBytes memory) event.access =
      some (o, (buffer.hostBytes memory', buffer.deviceBytes memory')) := by
  cases event with
  | write start bytes =>
    rw [rangeStep] at h
    split at h
    · rename_i hfits
      cases h
      have hhost := Memory.read_write_of_inside memory buffer.externalPtr.toNat hfits
      rw [deviceBytes_write hwraps howns hdisjoint hfits, MRBuffer.hostBytes, MRBuffer.hostBytes,
        hhost]
      rfl
    · cases h
  | read =>
    cases h
    rfl
  | dispatch desc offset kernel =>
    obtain ⟨rfl, hrange, rfl⟩ := runKernel_of_dispatch hwraps h
    have hoffset := offset_le_of_range hrange
    rw [hostBytes_runKernel hwraps howns hdisjoint hoffset, deviceBytes_runKernel hwraps hoffset]
    rfl
  | flush =>
    rw [rangeStep] at h
    split at h
    · rename_i flushed hflush
      cases h
      obtain ⟨hhost, hdevice⟩ := bytes_flush hwraps howns hdisjoint hflush
      rw [hhost, hdevice]
      rfl
    · cases h

end Copy

/-- A run on the zero-copy path shows what a shared value shows. -/
theorem run_zeroCopy {buffer : MRBuffer} {ptr size : SizeT} {memory memory' : Memory}
    {events : List RangeEvent} {shown : List (Option (List UInt8))} (hwraps : buffer.Wraps ptr size)
    (howns : buffer.ownsCopy = false)
    (hrun : runSchedule (rangeStep buffer) memory events = some (shown, memory')) :
    runSchedule sharedStep (buffer.hostBytes memory) (events.map RangeEvent.access) =
      some (shown, buffer.hostBytes memory') := by
  have hstep : ∀ m bytes event o m', buffer.hostBytes m = bytes →
      rangeStep buffer m event = some (o, m') → ∃ o' bytes',
        sharedStep bytes event.access = some (o', bytes') ∧ o = o' ∧
          buffer.hostBytes m' = bytes' := by
    intro m bytes event o m' hbytes hevent
    rw [← hbytes]
    exact ⟨o, _, rangeStep_zeroCopy hwraps howns hevent, rfl, rfl⟩
  obtain ⟨shown', bytes, habstract, hshown, rfl⟩ := runSchedule_simulation
    (fun m bytes => buffer.hostBytes m = bytes) Eq hstep rfl hrun
  rw [List.forall₂_eq_eq_eq] at hshown
  rw [runSchedule_map, hshown]
  exact habstract

/-- A run on the copy path shows what a mirrored value shows. -/
theorem run_copy {buffer : MRBuffer} {ptr size : SizeT} {memory memory' : Memory}
    {events : List RangeEvent} {shown : List (Option (List UInt8))} (hwraps : buffer.Wraps ptr size)
    (howns : buffer.ownsCopy = true)
    (hdisjoint : buffer.buffer.contents.toNat + size.toNat ≤ ptr.toNat ∨
      ptr.toNat + size.toNat ≤ buffer.buffer.contents.toNat)
    (hrun : runSchedule (rangeStep buffer) memory events = some (shown, memory')) :
    runSchedule mirroredStep (buffer.hostBytes memory, buffer.deviceBytes memory)
        (events.map RangeEvent.access) =
      some (shown, (buffer.hostBytes memory', buffer.deviceBytes memory')) := by
  have hstep : ∀ m values event o m', (buffer.hostBytes m, buffer.deviceBytes m) = values →
      rangeStep buffer m event = some (o, m') → ∃ o' values',
        mirroredStep values event.access = some (o', values') ∧ o = o' ∧
          (buffer.hostBytes m', buffer.deviceBytes m') = values' := by
    intro m values event o m' hvalues hevent
    rw [← hvalues]
    exact ⟨o, _, rangeStep_copy hwraps howns hdisjoint hevent, rfl, rfl⟩
  obtain ⟨shown', values, habstract, hshown, rfl⟩ := runSchedule_simulation
    (fun m values => (buffer.hostBytes m, buffer.deviceBytes m) = values) Eq hstep rfl hrun
  rw [List.forall₂_eq_eq_eq] at hshown
  rw [runSchedule_map, hshown]
  exact habstract

/-- A run that completes on one path completes on the other. -/
theorem run_completes {buffer other : MRBuffer} {ptr size : SizeT} {memory memory' : Memory}
    {events : List RangeEvent} {shown : List (Option (List UInt8))} (hwraps : buffer.Wraps ptr size)
    (hother : other.Wraps ptr size)
    (hrun : runSchedule (rangeStep buffer) memory events = some (shown, memory'))
    (memory₂ : Memory) :
    ∃ shown₂ memory₂', runSchedule (rangeStep other) memory₂ events = some (shown₂, memory₂') := by
  have hstep : ∀ m m₂ event o m', True → rangeStep buffer m event = some (o, m') →
      ∃ o₂ m₂', rangeStep other m₂ event = some (o₂, m₂') ∧ True ∧ True := by
    intro m m₂ event o m' _ hevent
    obtain ⟨⟨o₂, m₂'⟩, hevent₂⟩ := rangeStep_enabled hwraps hother hevent m₂
    exact ⟨o₂, m₂', hevent₂, trivial, trivial⟩
  obtain ⟨shown₂, memory₂', hrun₂, -⟩ :=
    runSchedule_simulation (fun _ _ => True) (fun _ _ => True) hstep trivial hrun
  exact ⟨shown₂, memory₂', hrun₂⟩

/-- For one range and every sequence of writes, reads, dispatches and flushes that flushes each
dispatch before the host looks: the bytes the host sees do not depend on the path that
`mr_wrap_buffer` took exactly when no flush publishes a dispatch that depends on a write of the
host since the flush before. -/
theorem wrap_paths_indistinguishable_iff {host₁ host₂ : Host} {k₁ k₂ : ℕ}
    (hpage₁ : host₁.pageSize.toNat = 2 ^ k₁) (hpage₂ : host₂.pageSize.toNat = 2 ^ k₂)
    {memory memory₁ memory₂ : Memory} {ptr size : SizeT} {wrapped copied : MRBuffer}
    (hwrapped : mrWrapBuffer host₁ true memory ptr size = .ok (wrapped, memory₁))
    (hzeroCopy : wrapped.ownsCopy = false)
    (hcopied : mrWrapBuffer host₂ true memory ptr size = .ok (copied, memory₂))
    (hcopy : copied.ownsCopy = true)
    (hdisjoint : copied.buffer.contents.toNat + size.toNat ≤ ptr.toNat ∨
      ptr.toNat + size.toNat ≤ copied.buffer.contents.toNat)
    {events : List RangeEvent} (hflushes : FlushesBeforeAccess events)
    {shown₁ : List (Option (List UInt8))} {memory₁' : Memory}
    (hrun₁ : runSchedule (rangeStep wrapped) memory₁ events = some (shown₁, memory₁')) :
    ∃ shown₂ memory₂', runSchedule (rangeStep copied) memory₂ events = some (shown₂, memory₂') ∧
      (shown₂ = shown₁ ↔
        DispatchesHideWrites (memory.read ptr.toNat size.toNat) events) := by
  obtain ⟨hwraps₁, hmemory₁⟩ := mrWrapBuffer_wraps hpage₁ hwrapped
  obtain ⟨hwraps₂, hmemory₂⟩ := mrWrapBuffer_wraps hpage₂ hcopied
  rw [hzeroCopy, if_neg (by decide)] at hmemory₁
  rw [hcopy, if_pos rfl] at hmemory₂
  obtain ⟨shown₂, memory₂', hrun₂⟩ := run_completes hwraps₁ hwraps₂ hrun₁ memory₂
  refine ⟨shown₂, memory₂', hrun₂, ?_⟩
  have hshared := run_zeroCopy hwraps₁ hzeroCopy hrun₁
  have hmirrored := run_copy hwraps₂ hcopy hdisjoint hrun₂
  -- All three views of the range start with the caller's bytes.
  have hbytes₁ : wrapped.hostBytes memory₁ = memory.read ptr.toNat size.toNat := by
    rw [MRBuffer.hostBytes, hwraps₁.externalPtr, hwraps₁.logicalSize, hmemory₁]
  have hbytes₂ : copied.hostBytes memory₂ = memory.read ptr.toNat size.toNat := by
    rw [MRBuffer.hostBytes, hwraps₂.externalPtr, hwraps₂.logicalSize, hmemory₂]
    exact memory.read_memcpy_of_disjoint hdisjoint.symm
  have hdevice₂ : copied.deviceBytes memory₂ = memory.read ptr.toNat size.toNat := by
    rw [MRBuffer.deviceBytes, ← MRBuffer.deviceStart, deviceStart_of_copy hwraps₂ hcopy,
      hwraps₂.logicalSize, hmemory₂]
    exact memory.read_memcpy_self _ _ _
  rw [hbytes₁] at hshared
  rw [hbytes₂, hdevice₂] at hmirrored
  -- Nothing has happened since the wrap, which stands for an earlier flush.
  have hstart : false = false → memory.read ptr.toNat size.toNat =
      ([] : List (Access (List UInt8))).foldl Access.apply (memory.read ptr.toNat size.toNat) :=
    fun _ => rfl
  exact shown_eq_iff_writesHidden hflushes hstart hshared hmirrored

/-- The same process with the first of the four pages in a region of its own. The caller may read
and write all of them, but a range in both regions is copied, to 131072. -/
def splitHost : Host where
  __ := mappedHost
  vmRegion := fun address =>
    if address < 69632 then some ⟨65536, 4096, true, true⟩
    else if address < 81920 then some ⟨69632, 12288, true, true⟩
    else none

/-- Four bytes, two in each of the first two pages, wrapped without a copy. -/
def mappedRange : MRBuffer := ⟨⟨⟨1, 65536, 8192⟩, 8192⟩, 69630, 4094, false, 4⟩

/-- The same four bytes as an owned copy. -/
def copiedRange : MRBuffer := ⟨⟨⟨2, 131072, 4⟩, 4⟩, 69630, 0, true, 4⟩

/-- A kernel that adds one to each byte. -/
def addOneKernel : Kernel := ⟨List.map (· + 1), fun _ => List.length_map _⟩

/-- A kernel that sets each byte to seven. -/
def setSevenKernel : Kernel := ⟨List.map fun _ => 7, fun _ => List.length_map _⟩

/-- The host writes a 5, dispatches a kernel on the range, flushes and reads. -/
def writeThenDispatch (kernel : Kernel) : List RangeEvent :=
  [.write 0 [5], .dispatch mappedDesc 0 kernel, .flush, .read]

/-- A kernel that overwrites the range hides the write, so both paths show sevens. -/
theorem setSeven_indistinguishable : ∃ memory', runSchedule (rangeStep copiedRange)
    (Memory.memcpy (fun _ => 0) 131072 69630 4) (writeThenDispatch setSevenKernel) =
      some ([none, none, some [7, 7, 7, 7], some [7, 7, 7, 7]], memory') := by
  have hwrapped : mrWrapBuffer mappedHost true (fun _ => 0) 69630 4 =
      .ok (mappedRange, fun _ => 0) := rfl
  have hcopied : mrWrapBuffer splitHost true (fun _ => 0) 69630 4 =
      .ok (copiedRange, Memory.memcpy (fun _ => 0) 131072 69630 4) := rfl
  have hmapped : mappedHost.pageSize.toNat = 2 ^ 12 := rfl
  have hsplit : splitHost.pageSize.toNat = 2 ^ 12 := rfl
  have hflushes : FlushesBeforeAccess (writeThenDispatch setSevenKernel) := ⟨rfl, rfl, trivial⟩
  have hhidden : DispatchesHideWrites (Memory.read (fun _ => 0) 69630 4)
      (writeThenDispatch setSevenKernel) := ⟨rfl, trivial⟩
  obtain ⟨shown, memory', hrun, hshown⟩ := wrap_paths_indistinguishable_iff hmapped
    hsplit hwrapped rfl hcopied rfl (by decide) hflushes rfl
  rw [hshown.mpr hhidden] at hrun
  exact ⟨memory', hrun⟩

/-- Adding one does not hide the write: the copy path loses it, and the caller sees that. -/
theorem host_write_tells_paths_apart :
    mrWrapBuffer mappedHost true (fun _ => 0) 69630 4 = .ok (mappedRange, fun _ => 0) ∧
    mrWrapBuffer splitHost true (fun _ => 0) 69630 4 =
      .ok (copiedRange, Memory.memcpy (fun _ => 0) 131072 69630 4) ∧
    FlushesBeforeAccess (writeThenDispatch addOneKernel) ∧
    (∃ memory', runSchedule (rangeStep mappedRange) (fun _ => 0)
      (writeThenDispatch addOneKernel) =
        some ([none, none, some [6, 1, 1, 1], some [6, 1, 1, 1]], memory')) ∧
    (∃ memory', runSchedule (rangeStep copiedRange) (Memory.memcpy (fun _ => 0) 131072 69630 4)
      (writeThenDispatch addOneKernel) =
        some ([none, none, some [1, 1, 1, 1], some [1, 1, 1, 1]], memory')) ∧
    ([6, 1, 1, 1] : List UInt8) ≠ [1, 1, 1, 1] :=
  ⟨rfl, rfl, ⟨rfl, rfl, trivial⟩, ⟨_, rfl⟩, ⟨_, rfl⟩, by decide⟩

end MetalRuntime
