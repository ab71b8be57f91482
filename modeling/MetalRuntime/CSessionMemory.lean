import MetalRuntime.CSessionContract
import MetalRuntime.PageRounding

/-!
# The memory that the C API touches

The runtime writes to memory that it does not own: kernels run on wrapped pages in place, and
flushes copy back. Over every sequence of calls, with batches that the GPU finishes at any time,
also after their handles and those of their buffers are released, a byte that the caller does not
write itself changes only inside a Metal buffer that a range was wrapped as, or inside a range
that was wrapped by copy. How much of the Metal buffer that is depends on how far kernels go.
-/

namespace MetalRuntime

open Foundations

variable {MTLFunction : Type} {host : CPlatform MTLFunction}

theorem ByteRange.contains_iff {start count address : ℕ} :
    ByteRange.Contains ⟨start, count⟩ address ↔ start ≤ address ∧ address < start + count :=
  Iff.rfl

/-- The caller's bytes. -/
def MRBuffer.range (buffer : MRBuffer) : ByteRange :=
  ⟨buffer.externalPtr.toNat, buffer.logicalSize.toNat⟩

/-- The bytes that kernels work on, up to the bounds: the Metal buffer, all of it from the caller's
first byte on, or as many bytes as the caller wrapped. -/
def MRBuffer.reach (buffer : MRBuffer) : KernelBounds → ByteRange
  | .storage => buffer.buffer.buffer.storage
  | .fromOffset => buffer.buffer.buffer.storageFrom buffer.externalOffset
  | .logical => ⟨buffer.buffer.contents.toNat + buffer.externalOffset.toNat,
      buffer.logicalSize.toNat⟩

/-- The bytes that a binding at an offset into the caller's range exposes, up to the bounds. -/
def MRBuffer.reachFrom (buffer : MRBuffer) (offset : SizeT) : KernelBounds → ByteRange
  | .storage => buffer.buffer.buffer.storage
  | .fromOffset => buffer.buffer.buffer.storageFrom (offset + buffer.externalOffset)
  | .logical => ⟨buffer.buffer.contents.toNat + (offset + buffer.externalOffset).toNat,
      buffer.logicalSize.toNat - offset.toNat⟩

/-- A step that wrapped a range as a buffer. -/
def CStep.Wrapped (step : CStep) (buffer : MRBuffer) : Prop :=
  ∃ system ptr sizeBytes hasOutBuffer memory,
    step.call = .wrapBuffer system ptr sizeBytes hasOutBuffer ∧
    mrWrapBuffer (system.withDevice step.before.device) hasOutBuffer step.before.memory ptr
      sizeBytes = .ok (buffer, memory)

/-- A buffer that some step wrapped. -/
def WrappedBy (history : List CStep) (buffer : MRBuffer) : Prop :=
  ∃ step ∈ history, step.Wrapped buffer

/-- A launch that is bound to wrapped buffers only. -/
def BoundLaunch.Grounded (bounds : KernelBounds) (history : List CStep) (bound : BoundLaunch) :
    Prop :=
  ∀ range ∈ bound.ranges bounds, ∃ buffer, WrappedBy history buffer ∧
    ∀ address, range.Contains address → (buffer.reach bounds).Contains address

/-- A call in which the GPU may run. -/
def CCall.RunsGpu : CCall → Prop
  | .dispatch _ _ _ _ => True
  | .batchWait _ _ => True
  | .gpuFinishes _ _ => True
  | _ => False

/-- Why a byte may change in a step: the caller writes it; a wrap copies a range into new storage;
the GPU runs on a wrapped buffer; or a flush copies back to a range that was wrapped by copy. -/
def CStep.MayWrite (bounds : KernelBounds) (earlier : List CStep) (step : CStep) (address : ℕ) :
    Prop :=
  (∃ start bytes, step.call = .callerWrites start bytes ∧
    ByteRange.Contains ⟨start, bytes.length⟩ address) ∨
  (∃ buffer, step.Wrapped buffer ∧ buffer.ownsCopy = true ∧
    (buffer.reach bounds).Contains address) ∨
  (step.call.RunsGpu ∧ ∃ buffer, WrappedBy earlier buffer ∧
    (buffer.reach bounds).Contains address) ∨
  ∃ handle buffer, step.call = .bufferFlushTo (some handle) ∧ WrappedBy earlier buffer ∧
    buffer.ownsCopy = true ∧ buffer.range.Contains address

section Writes

variable {bounds : KernelBounds}

/-- A byte that launches change is in a range of one of them. -/
theorem exists_range_of_runAll {gpu : GpuEffect} (hbounds : bounds.Hold gpu.run)
    {launches : List BoundLaunch} {memory : Memory} {address : ℕ}
    (h : gpu.runAll launches memory address ≠ memory address) :
    ∃ bound ∈ launches, ∃ range ∈ bound.ranges bounds, range.Contains address := by
  induction launches generalizing memory with
  | nil => exact absurd rfl h
  | cons bound rest ih =>
    by_cases hfirst : gpu.run bound memory address = memory address
    · rw [← hfirst] at h
      obtain ⟨other, hother, hrange⟩ := ih h
      exact ⟨other, List.mem_cons_of_mem bound hother, hrange⟩
    · refine ⟨bound, List.mem_cons_self, ?_⟩
      by_contra hnone
      exact hfirst (hbounds bound memory address fun range hmem hrange =>
        hnone ⟨range, hmem, hrange⟩)

/-- Pages have a power of two as their size in every call. -/
def CCall.PagesArePowers : CCall → Prop
  | .wrapBuffer system _ _ _ => ∃ k, system.pageSize.toNat = 2 ^ k
  | _ => True

/-- A step that wrapped on such pages. -/
theorem CStep.Wrapped.wraps {step : CStep} {buffer : MRBuffer} (h : step.Wrapped buffer)
    (hpages : step.call.PagesArePowers) :
    ∃ ptr size, buffer.Wraps ptr size := by
  obtain ⟨system, ptr, size, hasOutBuffer, memory, hcall, hwrap⟩ := h
  rw [hcall] at hpages
  obtain ⟨k, hpage⟩ := hpages
  have hpage : (system.withDevice step.before.device).pageSize.toNat = 2 ^ k := hpage
  exact ⟨ptr, size, (mrWrapBuffer_wraps hpage hwrap).1⟩

/-- A binding at an accepted offset reaches no further than its buffer. -/
theorem contains_reach {buffer : MRBuffer} {ptr size offset : SizeT} {address : ℕ}
    (hwraps : buffer.Wraps ptr size)
    (hoffset : offset.toNat < size.toNat ∨ (offset = 0 ∧ size = 0))
    (h : (buffer.reachFrom offset bounds).Contains address) :
    (buffer.reach bounds).Contains address := by
  have hsum := toNat_add_of_lt (hwraps.offset_add_lt (offset_le_of_range hoffset))
  have hle := offset_le_of_range hoffset
  cases bounds with
  | storage => exact h
  | fromOffset =>
    rw [MRBuffer.reachFrom, MTLBuffer.storageFrom, hsum, ByteRange.contains_iff] at h
    rw [MRBuffer.reach, MTLBuffer.storageFrom, ByteRange.contains_iff]
    omega
  | logical =>
    rw [MRBuffer.reachFrom, hsum, hwraps.logicalSize, ByteRange.contains_iff] at h
    rw [MRBuffer.reach, hwraps.logicalSize, ByteRange.contains_iff]
    omega

/-- What a wrap copied is in its reach. -/
theorem copy_contains_reach {buffer : MRBuffer} {ptr size : SizeT} {address : ℕ}
    (hwraps : buffer.Wraps ptr size) (howns : buffer.ownsCopy = true)
    (h : ByteRange.Contains ⟨buffer.buffer.contents.toNat, size.toNat⟩ address) :
    (buffer.reach bounds).Contains address := by
  obtain ⟨hexternal, hsize⟩ := hwraps.copy howns
  have hstored := hwraps.stored
  have hcontents : buffer.buffer.contents = buffer.buffer.buffer.contents := rfl
  rw [hsize] at hstored
  rw [hcontents, ByteRange.contains_iff] at h
  cases bounds with
  | storage =>
    rw [MRBuffer.reach, MTLBuffer.storage, ByteRange.contains_iff]
    omega
  | fromOffset =>
    rw [MRBuffer.reach, MTLBuffer.storageFrom, hexternal, UInt64.toNat_zero,
      ByteRange.contains_iff]
    omega
  | logical =>
    rw [MRBuffer.reach, hexternal, UInt64.toNat_zero, hwraps.logicalSize, hcontents,
      ByteRange.contains_iff]
    omega

/-- What a range wrapped in place exposes to kernels: other bytes of its first and last page, which
follow the caller's first byte if kernels do not go back from their offset; and nothing but the
range if they keep to it. -/
structure MRBuffer.Exposes (buffer : MRBuffer) (pageSize : ℕ) (bounds : KernelBounds)
    (address : ℕ) : Prop where
  page : ∃ byte, buffer.range.Contains byte ∧ address / pageSize = byte / pageSize
  fromStart : bounds ≠ .storage → buffer.externalPtr.toNat ≤ address
  inRange : bounds = .logical → buffer.range.Contains address

/-- An address between the page of the first byte of a range and the end of the page of its last
byte is on the page of a byte of the range. -/
theorem exists_byte_on_page {page start count address : ℕ} (hpage : 0 < page) (hcount : 0 < count)
    (hle : start / page * page ≤ address) (hlt : address < roundUp page (start + count)) :
    ∃ byte, ByteRange.Contains ⟨start, count⟩ byte ∧ address / page = byte / page := by
  by_cases hbefore : address < start
  · refine ⟨start, ⟨le_rfl, Nat.lt_add_of_pos_right hcount⟩, le_antisymm ?_ ?_⟩
    · exact Nat.div_le_div_right hbefore.le
    · exact (Nat.le_div_iff_mul_le hpage).mpr hle
  · by_cases hinside : address < start + count
    · exact ⟨address, ⟨Nat.le_of_not_lt hbefore, hinside⟩, rfl⟩
    · refine ⟨start + count - 1, ⟨Nat.le_sub_one_of_lt (Nat.lt_add_of_pos_right hcount),
        Nat.sub_one_lt (Nat.add_pos_right _ hcount).ne'⟩, le_antisymm ?_ ?_⟩
      · rw [← Nat.lt_succ_iff, Nat.div_lt_iff_lt_mul hpage]
        refine hlt.trans_le ((isLeast_roundUp hpage (start + count)).2 ⟨Nat.dvd_mul_left _ _, ?_⟩)
        have hdiv := Nat.lt_div_mul_add hpage (a := start + count - 1)
        rw [Nat.succ_mul]
        omega
      · exact Nat.div_le_div_right (by omega)

/-- A range wrapped in place exposes no more. -/
theorem exposes_of_zeroCopy {system : Host} {k : ℕ} (hpage : system.pageSize.toNat = 2 ^ k)
    {hasOutBuffer : Bool} {memory memory' : Memory} {ptr size : SizeT} {buffer : MRBuffer}
    (hwrap : mrWrapBuffer system hasOutBuffer memory ptr size = .ok (buffer, memory'))
    (howns : buffer.ownsCopy = false) {address : ℕ}
    (h : (buffer.reach bounds).Contains address) :
    buffer.Exposes system.pageSize.toNat bounds address := by
  obtain ⟨hwraps, -⟩ := mrWrapBuffer_wraps hpage hwrap
  obtain ⟨hsize, hcontents⟩ := hwraps.zeroCopy howns
  obtain ⟨hguards, id, hbuffer⟩ := wrapPages_eq_some (wrapPages_of_zeroCopy hwrap howns)
  have hlength := toNat_wrappedLength hpage ((first_guards_iff hpage).mp hguards).2
  have hend : (pageStart system ptr).toNat +
        roundUp system.pageSize.toNat (ptr.toNat % system.pageSize.toNat + size.toNat) =
      roundUp system.pageSize.toNat (ptr.toNat + size.toNat) := pageStart_add_roundUp hpage
  rw [← hlength] at hend
  have hstart := toNat_pageStart hpage ptr
  have hfits := hwraps.fits
  have hstored : buffer.buffer.buffer.contents = pageStart system ptr ∧
      buffer.buffer.buffer.length = wrappedLength system ptr size ∧
      buffer.buffer.size = wrappedLength system ptr size := by
    rw [hbuffer]
    exact ⟨rfl, rfl, rfl⟩
  obtain ⟨hbase, hlast, hsized⟩ := hstored
  rw [Buffer.contents, hbase] at hcontents
  rw [hsized] at hfits
  have hrange : buffer.range = ⟨ptr.toNat, size.toNat⟩ := by
    rw [MRBuffer.range, hwraps.externalPtr, hwraps.logicalSize]
  have hreach : (pageStart system ptr).toNat ≤ address ∧
      address < (pageStart system ptr).toNat + (wrappedLength system ptr size).toNat ∧
      (bounds ≠ .storage → ptr.toNat ≤ address) ∧
      (bounds = .logical → address < ptr.toNat + size.toNat) := by
    cases bounds with
    | storage =>
      rw [MRBuffer.reach, MTLBuffer.storage, hbase, hlast] at h
      exact ⟨h.1, h.2, fun hne => absurd rfl hne, fun heq => by cases heq⟩
    | fromOffset =>
      rw [MRBuffer.reach, MTLBuffer.storageFrom, hbase, hlast, hcontents,
        ByteRange.contains_iff] at h
      exact ⟨by omega, by omega, fun _ => h.1, fun heq => by cases heq⟩
    | logical =>
      rw [MRBuffer.reach, Buffer.contents, hbase, hcontents, hwraps.logicalSize,
        ByteRange.contains_iff] at h
      exact ⟨by omega, by omega, fun _ => h.1, fun _ => h.2⟩
  obtain ⟨hle, hlt, hfrom, hin⟩ := hreach
  have hpositive := (page_dvd_wordSize hpage).1
  refine ⟨?_, ?_, ?_⟩
  · rw [hrange]
    rw [hstart] at hle
    rw [hend] at hlt
    exact exists_byte_on_page hpositive hsize hle hlt
  · rw [hwraps.externalPtr]
    exact hfrom
  · intro heq
    rw [hrange]
    exact ⟨hfrom (by rw [heq]; decide), hin heq⟩

end Writes

section History

variable {bounds : KernelBounds} {history : List CStep} {step : CStep}

theorem WrappedBy.mono {buffer : MRBuffer} (h : WrappedBy history buffer) :
    WrappedBy (step :: history) buffer := by
  obtain ⟨wrapping, hmem, hwrapped⟩ := h
  exact ⟨wrapping, List.mem_cons_of_mem step hmem, hwrapped⟩

/-- The order in which buffers were wrapped does not matter. -/
theorem wrappedBy_reverse {buffer : MRBuffer} :
    WrappedBy history.reverse buffer ↔ WrappedBy history buffer := by
  simp only [WrappedBy, List.mem_reverse]

theorem mayWrite_reverse {address : ℕ} :
    step.MayWrite bounds history.reverse address ↔ step.MayWrite bounds history address := by
  simp only [CStep.MayWrite, wrappedBy_reverse]

theorem BoundLaunch.Grounded.mono {bound : BoundLaunch} (h : bound.Grounded bounds history) :
    bound.Grounded bounds (step :: history) := by
  intro range hrange
  obtain ⟨buffer, hwrapped, hreach⟩ := h range hrange
  exact ⟨buffer, hwrapped.mono, hreach⟩

/-- Launches that are all bound to wrapped buffers. -/
def AllGrounded (bounds : KernelBounds) (history : List CStep) (launches : List BoundLaunch) :
    Prop :=
  ∀ bound ∈ launches, bound.Grounded bounds history

theorem AllGrounded.mono {launches : List BoundLaunch} (h : AllGrounded bounds history launches) :
    AllGrounded bounds (step :: history) launches :=
  fun bound hbound => (h bound hbound).mono

/-- What a session accounts for: every buffer was wrapped, and every launch that was accepted and
has not run is bound to such buffers. -/
structure CSession.Accounted (host : CPlatform MTLFunction) (bounds : KernelBounds)
    (history : List CStep) (s : CSession) : Prop where
  sound : s.Invariant host
  pages : ∀ step ∈ history, step.call.PagesArePowers
  buffers : s.buffers.All (WrappedBy history)
  batches : s.batches.All fun batch => AllGrounded bounds history batch.launches
  queue : ∀ handle launches, s.queue handle = some launches → AllGrounded bounds history launches

/-- A range of a launch that was built is what a binding of the descriptor exposes. -/
theorem exists_binding_of_range {desc : MRLaunchDesc} {who : ByteString} {launch : Launch}
    (hbuilt : buildLaunch (some desc) who = .ok launch) {range : ByteRange}
    (hrange : range ∈ (⟨launch, desc.logical⟩ : BoundLaunch).ranges bounds) :
    ∃ i < desc.bufferCount.toNat, ∃ buffers buffer offsets, desc.buffers = some buffers ∧
      buffers i = some buffer ∧ desc.bufferOffsets = some offsets ∧
      range = buffer.reachFrom (offsets i) bounds := by
  have hmapped : ∀ f : BufferBinding → ByteRange, range ∈ launch.buffers.toList.map f →
      ∃ i < desc.bufferCount.toNat, ∃ buffers buffer offsets, desc.buffers = some buffers ∧
        buffers i = some buffer ∧ desc.bufferOffsets = some offsets ∧
        range = f ⟨buffer.buffer, offsets i + buffer.externalOffset⟩ := by
    intro f hmem
    obtain ⟨binding, hbinding, rfl⟩ := List.mem_map.mp hmem
    obtain ⟨i, hi, hbound⟩ := bindBuffer_of_mem hbuilt hbinding
    obtain ⟨buffers, buffer, offsets, hbuffers, hbuffer, hoffsets, rfl⟩ := bindBuffer_inv hbound
    exact ⟨i, hi, buffers, buffer, offsets, hbuffers, hbuffer, hoffsets, rfl⟩
  cases bounds with
  | storage => exact hmapped _ hrange
  | fromOffset => exact hmapped _ hrange
  | logical =>
    obtain ⟨i, hi, hrange⟩ := List.mem_filterMap.mp hrange
    obtain ⟨buffers, hbuffers, hrange⟩ := Option.bind_eq_some_iff.mp hrange
    obtain ⟨buffer, hbuffer, hrange⟩ := Option.bind_eq_some_iff.mp hrange
    obtain ⟨offsets, hoffsets, hrange⟩ := Option.bind_eq_some_iff.mp hrange
    cases hrange
    exact ⟨i, List.mem_range.mp hi, buffers, buffer, offsets, hbuffers, hbuffer, hoffsets, rfl⟩

/-- What a descriptor binds is bound to wrapped buffers. -/
theorem build_grounded {s : CSession} (h : s.Accounted host bounds history)
    {launch : Option LaunchHandles} {who : ByteString} {bound : BoundLaunch}
    (hbuild : s.build launch who = .ok bound) : bound.Grounded bounds history := by
  obtain ⟨built, hbuilt, hbound⟩ := bind_eq_ok_iff.mp hbuild
  cases hbound
  cases launch with
  | none => cases hbuilt
  | some given =>
    intro range hrange
    obtain ⟨i, hi, buffers, buffer, offsets, hbuffers, hbuffer, hoffsets, rfl⟩ :=
      exists_binding_of_range hbuilt hrange
    obtain ⟨handles, -, hhandles⟩ := Option.map_eq_some_iff.mp hbuffers
    have hfound := hbuffer
    rw [← hhandles] at hfound
    obtain ⟨wrapping, hmem, hstep⟩ := h.buffers.find hfound
    obtain ⟨ptr, size, hwraps⟩ := hstep.wraps (h.pages wrapping hmem)
    obtain ⟨hoffset, -⟩ := binding_of_buildLaunch hwraps hbuilt hbuffers hoffsets hi hbuffer
    exact ⟨buffer, ⟨wrapping, hmem, hstep⟩, fun address => contains_reach hwraps hoffset⟩

/-- A byte that launches on wrapped buffers change is in the reach of one of the buffers. -/
theorem exists_buffer_of_runAll {gpu : GpuEffect} (hbounds : bounds.Hold gpu.run)
    {launches : List BoundLaunch} {memory : Memory} {address : ℕ}
    (hgrounded : AllGrounded bounds history launches)
    (h : gpu.runAll launches memory address ≠ memory address) :
    ∃ buffer, WrappedBy history buffer ∧ (buffer.reach bounds).Contains address := by
  obtain ⟨bound, hbound, range, hrange, haddress⟩ := exists_range_of_runAll hbounds h
  obtain ⟨buffer, hwrapped, hreach⟩ := hgrounded bound hbound range hrange
  exact ⟨buffer, hwrapped, hreach address haddress⟩

end History

section Moves

variable {bounds : KernelBounds} {history : List CStep} {s s' : CSession} {call : CCall}
  {outcome : Except Failure COut}

/-- What a `wait` lets the GPU complete is bound to wrapped buffers. -/
theorem pending_grounded (h : s.Accounted host bounds history) {handle : ℕ} {batch : MRBatch}
    (hlive : s.batches.live handle = some batch) :
    AllGrounded bounds history (s.pending handle batch) := by
  unfold CSession.pending
  split
  · cases hqueue : s.queue handle with
    | none => exact fun bound hbound => absurd hbound List.not_mem_nil
    | some launches => exact h.queue handle launches hqueue
  · exact h.batches handle batch hlive

/-- A byte changes in a move only for one of the reasons. -/
theorem mayWrite_of_move (hbounds : bounds.Hold host.gpu.run)
    (h : s.Accounted host bounds history) (hmove : CMove host s call outcome s')
    (hpages : call.PagesArePowers) {address : ℕ}
    (hchange : s'.memory address ≠ s.memory address) :
    CStep.MayWrite bounds history ⟨s, call, outcome, s'⟩ address := by
  cases hmove with
  | @wrapped system ptr size hasOutBuffer buffer memory wraps =>
    obtain ⟨k, hpage⟩ := hpages
    have hpage : (system.withDevice s.device).pageSize.toNat = 2 ^ k := hpage
    obtain ⟨hwraps, hmemory⟩ := mrWrapBuffer_wraps hpage wraps
    cases howns : buffer.ownsCopy with
    | false =>
      rw [howns, if_neg (by decide)] at hmemory
      exact absurd (congrFun hmemory address) hchange
    | true =>
      rw [howns, if_pos rfl] at hmemory
      refine Or.inr (Or.inl ⟨buffer, ⟨_, _, _, _, _, rfl, wraps⟩, howns,
        copy_contains_reach hwraps howns ?_⟩)
      by_contra houtside
      refine hchange ((congrFun hmemory address).trans (Memory.write_of_outside _ ?_))
      rwa [Memory.length_read]
  | @flushed handle buffer memory live flushes =>
    have hwrapped := h.buffers handle buffer live
    cases howns : buffer.ownsCopy with
    | false =>
      rw [flush_of_zeroCopy howns] at flushes
      cases flushes
      exact absurd rfl hchange
    | true =>
      rw [flush_of_copy howns] at flushes
      cases flushes
      obtain ⟨wrapping, hmem, hstep⟩ := hwrapped
      obtain ⟨ptr, size, hwraps⟩ := hstep.wraps (h.pages wrapping hmem)
      refine Or.inr (Or.inr (Or.inr ⟨handle, buffer, rfl, ⟨wrapping, hmem, hstep⟩, howns, ?_⟩))
      by_contra houtside
      rw [MRBuffer.range, hwraps.logicalSize, ← (hwraps.copy howns).2,
        ByteRange.contains_iff] at houtside
      refine hchange (Memory.write_of_outside _ ?_)
      rwa [Memory.length_read]
  | @dispatched launch _ _ _ bound _ builds ends =>
    have hgrounded : AllGrounded bounds history [bound] :=
      List.forall_mem_singleton.mpr (build_grounded h builds)
    exact Or.inr (Or.inr (Or.inl
      ⟨trivial, exists_buffer_of_runAll hbounds hgrounded hchange⟩))
  | waited live =>
    exact Or.inr (Or.inr (Or.inl
      ⟨trivial, exists_buffer_of_runAll hbounds (pending_grounded h live) hchange⟩))
  | @gpuFinished handle result launches queued =>
    simp only [CSession.finish, queued] at hchange
    exact Or.inr (Or.inr (Or.inl
      ⟨trivial, exists_buffer_of_runAll hbounds (h.queue handle launches queued) hchange⟩))
  | callerWrote start bytes =>
    refine Or.inl ⟨start, bytes, rfl, ?_⟩
    by_contra houtside
    exact hchange (Memory.write_of_outside s.memory houtside)
  | _ => exact absurd rfl hchange

/-- Every buffer was wrapped, after a move too. -/
theorem buffers_accounted (h : s.Accounted host bounds history)
    (hmove : CMove host s call outcome s') :
    s'.buffers.All (WrappedBy (⟨s, call, outcome, s'⟩ :: history)) := by
  have hmono : s.buffers.All (WrappedBy (⟨s, call, outcome, s'⟩ :: history)) :=
    h.buffers.mono fun _ hwrapped => hwrapped.mono
  cases hmove with
  | wrapped wraps =>
    exact hmono.create ⟨_, List.mem_cons_self, _, _, _, _, _, rfl, wraps⟩
  | bufferReleased buffer => exact hmono.release buffer
  | gpuFinished =>
    rw [(finish_tables host s _ _).2.2.1]
    exact hmono
  | _ => exact hmono

/-- Every launch in a batch is bound to wrapped buffers, after a move too. -/
theorem batches_accounted (h : s.Accounted host bounds history)
    (hmove : CMove host s call outcome s') (step : CStep) :
    s'.batches.All fun batch => AllGrounded bounds (step :: history) batch.launches := by
  have hmono : s.batches.All fun batch => AllGrounded bounds (step :: history) batch.launches :=
    h.batches.mono fun _ hgrounded => hgrounded.mono
  cases hmove with
  | batchCreated =>
    exact hmono.create fun bound hbound => absurd hbound List.not_mem_nil
  | @encoded handle launch batch bound world commands live uncommitted builds opened =>
    refine hmono.set _ ?_
    intro other hother
    rcases List.mem_append.mp hother with hearlier | hnew
    · exact hmono _ _ live other hearlier
    · rw [List.mem_singleton.mp hnew]
      exact (build_grounded h builds).mono
  | @committed handle batch world _ live => exact hmono.set _ (hmono handle batch live)
  | @waited handle _ batch world _ _ live => exact hmono.set _ (hmono handle batch live)
  | @batchReleased handle => exact hmono.release (some handle)
  | @gpuFinished handle result launches queued =>
    simp only [CSession.finish, queued]
    cases hlive : s.batches.live handle with
    | none => exact hmono
    | some batch =>
      refine hmono.set handle ?_
      exact hmono handle batch hlive
  | _ => exact hmono

/-- So is every launch that was committed. -/
theorem queue_accounted (h : s.Accounted host bounds history) (hmove : CMove host s call outcome s')
    (step : CStep) : ∀ handle launches, s'.queue handle = some launches →
      AllGrounded bounds (step :: history) launches := by
  have hmono : ∀ handle launches, s.queue handle = some launches →
      AllGrounded bounds (step :: history) launches :=
    fun handle launches hqueue => (h.queue handle launches hqueue).mono
  have hremoved : ∀ handle other launches,
      Function.update s.queue handle none other = some launches →
        AllGrounded bounds (step :: history) launches := by
    intro handle other launches hqueue
    by_cases heq : other = handle
    · subst heq
      rw [Function.update_self] at hqueue
      cases hqueue
    · rw [Function.update_of_ne heq] at hqueue
      exact hmono other launches hqueue
  cases hmove with
  | @committed handle batch world commands live =>
    intro other launches hqueue
    by_cases heq : other = handle
    · subst heq
      simp only [Function.update_self] at hqueue
      cases hqueue
      exact (h.batches other batch live).mono
    · simp only [Function.update_of_ne heq] at hqueue
      exact hmono other launches hqueue
  | @waited handle => exact hremoved handle
  | @gpuFinished handle result launches queued =>
    simp only [CSession.finish, queued]
    exact hremoved handle
  | _ => exact hmono

/-- A move accounts for what it leaves. -/
theorem CSession.Accounted.move (h : s.Accounted host bounds history)
    (hmove : CMove host s call outcome s') (hpages : call.PagesArePowers) :
    s'.Accounted host bounds (⟨s, call, outcome, s'⟩ :: history) where
  sound := h.sound.move hmove
  pages := List.forall_mem_cons.mpr ⟨hpages, h.pages⟩
  buffers := buffers_accounted h hmove
  batches := batches_accounted h hmove _
  queue := queue_accounted h hmove _

end Moves

/-- Nothing has been wrapped and nothing has been accepted. -/
theorem CSession.initial_accounted (host : CPlatform MTLFunction) (bounds : KernelBounds)
    (device : DeviceAnswer) (memory : Memory) :
    (CSession.initial device memory).Accounted host bounds [] where
  sound := CSession.initial_invariant host device memory
  pages := fun _ hstep => absurd hstep List.not_mem_nil
  buffers := Handles.all_empty _
  batches := Handles.all_empty _
  queue := fun _ _ hqueue => by cases hqueue

/-- What the caller writes to an address between two calls. -/
def CStep.written (address : ℕ) (step : CStep) : Option UInt8 :=
  match step.call with
  | .callerWrites start bytes => if start ≤ address then bytes[address - start]? else none
  | _ => none

/-- An address that is in no wrapped range and that no wrapped buffer reaches. -/
def OutsideWrapped (bounds : KernelBounds) (steps : List CStep) (address : ℕ) : Prop :=
  ∀ buffer, WrappedBy steps buffer →
    ¬ buffer.range.Contains address ∧ ¬ (buffer.reach bounds).Contains address

/-- There, a step does what the caller writes. -/
theorem memory_of_outside {bounds : KernelBounds} {s s' : CSession} {call : CCall}
    {steps : List CStep} {step : CStep} {i address : ℕ} (hi : steps[i]? = some step)
    (houtside : OutsideWrapped bounds steps address)
    (hmay : step.after.memory address ≠ step.before.memory address →
      step.MayWrite bounds (steps.take i) address)
    (hstep : s.step host call = some (step, s')) :
    s'.memory address = (step.written address).getD (s.memory address) := by
  have hearlier : ∀ buffer, WrappedBy (steps.take i) buffer → WrappedBy steps buffer := by
    rintro buffer ⟨wrapping, hmem, hwrapped⟩
    exact ⟨wrapping, List.mem_of_mem_take hmem, hwrapped⟩
  have hmem : step ∈ steps := List.mem_of_getElem? hi
  obtain ⟨-, heq⟩ := Option.ite_none_right_eq_some.mp hstep
  by_cases hwrites : ∃ start bytes, call = .callerWrites start bytes
  · obtain ⟨start, bytes, rfl⟩ := hwrites
    cases heq
    change (if start ≤ address then _ else _) = Option.getD (if start ≤ address then _ else _) _
    split <;> rfl
  · obtain ⟨hbefore, hcall, hafter⟩ : step.before = s ∧ step.call = call ∧ step.after = s' := by
      cases heq
      exact ⟨rfl, rfl, rfl⟩
    have hnone : step.written address = none := by
      rw [CStep.written, hcall]
      split
      · exact absurd ⟨_, _, rfl⟩ hwrites
      · rfl
    rw [hnone, Option.getD_none]
    by_contra hchange
    rw [hbefore, hafter] at hmay
    rcases hmay hchange with ⟨start, bytes, hwrite, -⟩ | ⟨buffer, hwrapped, -, hreach⟩ |
      ⟨-, buffer, hwrapped, hreach⟩ | ⟨handle, buffer, -, hwrapped, -, hrange⟩
    · exact hwrites ⟨start, bytes, hcall.symm.trans hwrite⟩
    · exact (houtside buffer ⟨step, hmem, hwrapped⟩).2 hreach
    · exact (houtside buffer (hearlier buffer hwrapped)).2 hreach
    · exact (houtside buffer (hearlier buffer hwrapped)).1 hrange

/-- Over every sequence of calls, with batches that the GPU finishes whenever it does and whatever
was released meanwhile, and for kernels that keep to the bounds: a byte changes in a step only
because the caller writes it, because a wrap copies a range into new storage, because the GPU runs
on a buffer that was wrapped before, or because a flush copies back to a range that was. So a byte
outside everything that was wrapped holds what the caller wrote there last. A range that was
wrapped in place exposes at most the pages of its bytes. -/
theorem c_calls_change_wrapped_memory (host : CPlatform MTLFunction) {bounds : KernelBounds}
    (hbounds : bounds.Hold host.gpu.run) {device : DeviceAnswer} {memory : Memory}
    {calls : List CCall} {steps : List CStep} {s : CSession}
    (hpages : ∀ call ∈ calls, call.PagesArePowers)
    (hrun : runSchedule (CSession.step host) (.initial device memory) calls = some (steps, s)) :
    (∀ i, ∀ step : CStep, steps[i]? = some step → ∀ address,
      step.after.memory address ≠ step.before.memory address →
        step.MayWrite bounds (steps.take i) address) ∧
    (∀ address, OutsideWrapped bounds steps address →
      s.memory address =
        (steps.filterMap (CStep.written address)).getLast?.getD (memory address)) ∧
    ∀ step ∈ steps, ∀ system ptr size hasOutBuffer,
      step.call = .wrapBuffer system ptr size hasOutBuffer → ∀ buffer, step.Wrapped buffer →
      buffer.ownsCopy = false → ∀ address, (buffer.reach bounds).Contains address →
        buffer.Exposes system.pageSize.toNat bounds address := by
  have hshown : ∀ i, ∀ step : CStep, steps[i]? = some step → step.call.PagesArePowers ∧
      ∀ address, step.after.memory address ≠ step.before.memory address →
        step.MayWrite bounds (steps.take i) address := by
    intro i step hi
    have haccounted := runSchedule_accounted
      (fun history s => s.Accounted host bounds history)
      (fun history step => step.call.PagesArePowers ∧
        ∀ address, step.after.memory address ≠ step.before.memory address →
          step.MayWrite bounds history address)
      ?_ (CSession.initial_accounted host bounds device memory) hrun hi
    · obtain ⟨hpowers, hmay⟩ := haccounted
      rw [List.append_nil] at hmay
      exact ⟨hpowers, fun address hchange => mayWrite_reverse.mp (hmay address hchange)⟩
    · intro call hcall history s step s' h hstep
      obtain ⟨hmove, hshown⟩ := move_of_step h.sound hstep
      rw [hshown]
      have hpagesCall := hpages call hcall
      exact ⟨⟨hpagesCall, fun address => mayWrite_of_move hbounds h hmove hpagesCall⟩,
        h.move hmove hpagesCall⟩
  refine ⟨fun i step hi => (hshown i step hi).2, fun address houtside => ?_, ?_⟩
  · refine runSchedule_last_shown (fun s : CSession => s.memory address) _ hrun ?_
    intro step hmem s call s' hstep
    obtain ⟨i, hi⟩ := List.mem_iff_getElem?.mp hmem
    exact memory_of_outside hi houtside ((hshown i step hi).2 address) hstep
  · rintro step hmem system ptr size hasOutBuffer hcall buffer ⟨_, _, _, _, _, hwrapping, hwrap⟩
      howns address haddress
    obtain ⟨i, hi⟩ := List.mem_iff_getElem?.mp hmem
    obtain ⟨hpowers, -⟩ := hshown i step hi
    rw [hcall] at hpowers hwrapping
    cases hwrapping
    obtain ⟨k, hpage⟩ := hpowers
    have hpage : (system.withDevice step.before.device).pageSize.toNat = 2 ^ k := hpage
    exact exposes_of_zeroCopy hpage hwrap howns haddress

/-- A device on which every kernel adds one to all bytes from its offsets on. -/
def addOneGpu : GpuEffect where
  run := fun bound memory address =>
    if ∃ range ∈ bound.ranges .fromOffset,
        range.start ≤ address ∧ address < range.start + range.count then
      memory address + 1
    else memory address
  frame := by
    intro bound memory address houtside
    refine if_neg ?_
    rintro ⟨range, hrange, hle, hlt⟩
    obtain ⟨binding, hbinding, rfl⟩ := List.mem_map.mp hrange
    refine houtside _ (List.mem_map_of_mem hbinding) ?_
    simp only [MTLBuffer.storageFrom] at hle hlt
    rw [MTLBuffer.storage, ByteRange.contains_iff]
    omega

/-- A descriptor that binds the first buffer of the caller. -/
def firstBufferLaunch : LaunchHandles where
  pipeline := some 0
  buffers := some fun _ => some 0
  bufferOffsets := some fun _ => 0
  bufferCount := 1
  scalars := none
  scalarSizes := none
  scalarCount := 0
  threadgroupMemory := none
  threadgroupMemoryCount := 0
  grid := { x := 4 }
  threadgroup := { x := 4 }

/-- A caller commits a launch on four bytes, releases everything and writes beside them before the
GPU finishes. -/
def abandonedCalls : List CCall :=
  [.compileLibrary (some (ascii "kernel void add_one() {}")) 2 true none,
    .getPipeline (some 0) (some (ascii "add_one")) true,
    .wrapBuffer mappedHost 65552 4 true,
    .batchCreate true (some 5) (some 6),
    .batchAdd (some 0) (some firstBufferLaunch),
    .batchCommit (some 0),
    .releaseBuffer (some 0),
    .releaseBatch (some 0),
    .callerWrites 65551 [7, 0, 0, 0, 0, 7],
    .gpuFinishes 0 ⟨1, 2, none⟩]

/-- The launch runs on the range although its buffer and its batch are gone, and on the rest of the
page; the byte in front of the range stays as written. -/
theorem abandoned_launch_stays_on_page : ∃ steps s step,
    runSchedule (CSession.step { idleHost with gpu := addOneGpu }) (.initial .found fun _ => 0)
      abandonedCalls = some (steps, s) ∧
    steps[9]? = some step ∧ step.before.buffers.live 0 = none ∧
    step.before.memory 65555 = 0 ∧ s.memory 65555 = 1 ∧
    step.MayWrite .fromOffset (steps.take 9) 65555 ∧
    step.before.memory 65556 = 7 ∧ s.memory 65556 = 8 ∧
    step.MayWrite .fromOffset (steps.take 9) 65556 ∧ s.memory 65551 = 7 := by
  have hpages : ∀ call ∈ abandonedCalls, call.PagesArePowers := by
    simp only [abandonedCalls, List.forall_mem_cons, CCall.PagesArePowers, true_and]
    exact ⟨⟨12, rfl⟩, List.forall_mem_nil _⟩
  have hbounds : KernelBounds.fromOffset.Hold addOneGpu.run :=
    fun _ _ _ houtside => if_neg fun ⟨range, hrange, hin⟩ => houtside range hrange hin
  have hrun : runSchedule (CSession.step { idleHost with gpu := addOneGpu })
    (.initial .found fun _ => 0) abandonedCalls = some (_, _) := rfl
  obtain ⟨hmay, -⟩ := c_calls_change_wrapped_memory _ hbounds hpages hrun
  exact ⟨_, _, _, hrun, rfl, rfl, rfl, rfl, hmay 9 _ rfl 65555 (by decide), rfl, rfl,
    hmay 9 _ rfl 65556 (by decide), rfl⟩

end MetalRuntime
