import MetalRuntime.CApi
import MetalRuntime.LaunchValidity

/-!
# Bindings never leave the caller's memory

The logical range, the page-rounded range and the offset inside the page are tracked
separately and checked in two places. `MRBuffer.Wraps` is the one invariant that both paths
of `mr_wrap_buffer` establish; the checks of `build_launch` and of `validate` follow from it.
-/

namespace MetalRuntime

open Foundations

/-- What `mr_wrap_buffer` guarantees of the buffer it returns for a range: the logical range
lies inside the Metal buffer, at the caller's own bytes unless the buffer is a copy. -/
structure MRBuffer.Wraps (buffer : MRBuffer) (ptr size : SizeT) : Prop where
  externalPtr : buffer.externalPtr = ptr
  logicalSize : buffer.logicalSize = size
  fits : buffer.externalOffset.toNat + size.toNat ≤ buffer.buffer.size.toNat
  stored : buffer.buffer.size.toNat ≤ buffer.buffer.buffer.length.toNat
  copy : buffer.ownsCopy = true → buffer.externalOffset = 0 ∧ buffer.buffer.size = size
  zeroCopy : buffer.ownsCopy = false → 0 < size.toNat ∧
    buffer.buffer.contents.toNat + buffer.externalOffset.toNat = ptr.toNat

/-- A byte of the Metal buffer stands for an address of the caller: it is the byte at that
address, or the byte of the copy that a flush writes there. -/
def MRBuffer.StandsFor (buffer : MRBuffer) (position address : ℕ) : Prop :=
  if buffer.ownsCopy then position < buffer.buffer.size.toNat ∧
    address = buffer.externalPtr.toNat + position
  else address = buffer.buffer.contents.toNat + position

/-- The page of an address starts at a multiple of the page size, less than a page before. -/
theorem toNat_pageStart {host : Host} {k : ℕ} (hpage : host.pageSize.toNat = 2 ^ k)
    (addr : SizeT) :
    (pageStart host addr).toNat = addr.toNat / host.pageSize.toNat * host.pageSize.toNat :=
  toNat_and_not_pred addr hpage

/-- The offset inside the page is the remainder. -/
theorem toNat_sub_pageStart {host : Host} {k : ℕ} (hpage : host.pageSize.toNat = 2 ^ k)
    (addr : SizeT) :
    (addr - pageStart host addr).toNat = addr.toNat % host.pageSize.toNat := by
  have hstart := toNat_pageStart hpage addr
  have hdiv := Nat.div_add_mod' addr.toNat host.pageSize.toNat
  have hle : pageStart host addr ≤ addr := by
    rw [UInt64.le_iff_toNat_le]
    omega
  rw [UInt64.toNat_sub_of_le _ _ hle]
  omega

/-- The owned copy wraps its range. -/
theorem ownCopy_wraps {host : Host} {memory memory' : Memory} {ptr size : SizeT}
    {buffer : MRBuffer} (h : ownCopy host memory ptr size = .ok (buffer, memory')) :
    buffer.Wraps ptr size ∧ buffer.ownsCopy = true ∧
      memory' = memory.memcpy buffer.buffer.contents.toNat ptr.toNat size.toNat := by
  rw [ownCopy, check_bind_eq_ok] at h
  obtain ⟨-, hcopies⟩ := h
  obtain ⟨owned, howned, hrest⟩ := bind_eq_ok_iff.mp hcopies
  cases hrest
  unfold Buffer.create at howned
  split at howned
  · cases howned
    refine ⟨⟨rfl, rfl, ?_, ?_, fun _ => ⟨rfl, rfl⟩, fun hcopy => (by cases hcopy)⟩, rfl, ?_⟩
    · exact Nat.le_of_eq (Nat.zero_add _)
    · change size.toNat ≤ (max size 1).toNat
      rw [UInt64.toNat_max]
      exact Nat.le_max_left _ _
    · by_cases hsize : size > 0
      · rw [if_pos hsize]
      · rw [if_neg hsize]
        have hzero : size.toNat = 0 := by
          rw [gt_iff_lt, UInt64.lt_iff_toNat_lt] at hsize
          exact Nat.eq_zero_of_not_pos hsize
        rw [hzero, Memory.memcpy_zero]
  · cases howned

/-- A zero-copy attempt that succeeds passed the range checks and holds the page range. -/
theorem wrapPages_eq_some {host : Host} {ptr size : SizeT} {buffer : MRBuffer}
    (h : wrapPages host ptr size = .ok (some buffer)) :
    ¬ (size > maxSize - ptr ∨ size > maxSize - (ptr - pageStart host ptr) ∨
        ptr - pageStart host ptr + size > maxSize - (host.pageSize - 1)) ∧
      ∃ id, buffer = ⟨⟨⟨id, pageStart host ptr, wrappedLength host ptr size⟩,
        wrappedLength host ptr size⟩, ptr, ptr - pageStart host ptr, false, size⟩ := by
  simp only [wrapPages, check_bind_eq_ok, rejectIf_eq_ok] at h
  obtain ⟨hrange, -, hmapped⟩ := h
  refine ⟨hrange, ?_⟩
  split at hmapped
  · rw [check_bind_eq_ok] at hmapped
    obtain ⟨wrapped, hwrapped, hrest⟩ := bind_eq_ok_iff.mp hmapped.2
    cases hrest
    rw [Buffer.wrap, check_bind_eq_ok] at hwrapped
    obtain ⟨-, hallocated⟩ := hwrapped
    split at hallocated
    · cases hallocated
      exact ⟨_, rfl⟩
    · cases hallocated
  · cases hmapped

/-- The page-rounded wrap wraps its range. -/
theorem wrapPages_wraps {host : Host} {k : ℕ} (hpage : host.pageSize.toNat = 2 ^ k)
    {ptr size : SizeT} (hsize : 0 < size.toNat) {buffer : MRBuffer}
    (h : wrapPages host ptr size = .ok (some buffer)) :
    buffer.Wraps ptr size ∧ buffer.ownsCopy = false := by
  obtain ⟨hrange, id, rfl⟩ := wrapPages_eq_some h
  have hpositive : 0 < host.pageSize.toNat := by
    rw [hpage]
    exact Nat.two_pow_pos k
  have hstart := toNat_pageStart hpage ptr
  have hoffset := toNat_sub_pageStart hpage ptr
  have hdiv := Nat.div_add_mod' ptr.toNat host.pageSize.toNat
  simp only [not_or, gt_max_sub_iff, maxSize, not_le] at hrange
  obtain ⟨-, hfits, hpages⟩ := hrange
  have hsum := toNat_add_of_lt hfits
  have hone : (1 : SizeT) ≤ host.pageSize := by
    rw [UInt64.le_iff_toNat_le]
    exact hpositive
  rw [UInt64.toNat_sub_of_le _ _ hone, Nat.add_comm] at hpages
  have hlength := toNat_roundUp host.pageSize (ptr - pageStart host ptr + size) hpositive hpages
  have hle := le_roundUp hpositive (ptr - pageStart host ptr + size).toNat
  refine ⟨⟨rfl, rfl, ?_, le_rfl, fun hcopy => (by cases hcopy), fun _ => ⟨hsize, ?_⟩⟩, rfl⟩
  · change (ptr - pageStart host ptr).toNat + size.toNat ≤ (wrappedLength host ptr size).toNat
    rw [← hsum]
    exact hle.trans (Nat.le_of_eq hlength.symm)
  · change (pageStart host ptr).toNat + (ptr - pageStart host ptr).toNat = ptr.toNat
    omega

/-- On either path, `mr_wrap_buffer` returns a buffer that wraps its range; the zero-copy path
leaves memory alone, and the copy path copies the range once. -/
theorem mrWrapBuffer_wraps {host : Host} {k : ℕ} (hpage : host.pageSize.toNat = 2 ^ k)
    {hasOutBuffer : Bool} {memory memory' : Memory} {ptr size : SizeT} {buffer : MRBuffer}
    (h : mrWrapBuffer host hasOutBuffer memory ptr size = .ok (buffer, memory')) :
    buffer.Wraps ptr size ∧ memory' = if buffer.ownsCopy then
      memory.memcpy buffer.buffer.contents.toNat ptr.toNat size.toNat else memory := by
  have hcopied : ownCopy host memory ptr size = .ok (buffer, memory') →
      buffer.Wraps ptr size ∧ memory' = if buffer.ownsCopy then
        memory.memcpy buffer.buffer.contents.toNat ptr.toNat size.toNat else memory := by
    intro hcopy
    obtain ⟨hwraps, howns, hmemory⟩ := ownCopy_wraps hcopy
    rw [howns]
    exact ⟨hwraps, hmemory⟩
  simp only [mrWrapBuffer, check_bind_eq_ok] at h
  obtain ⟨-, -, hpath⟩ := h
  split at hpath
  · rename_i hsize
    rw [gt_iff_lt, UInt64.lt_iff_toNat_lt] at hsize
    obtain ⟨attempt, hattempt, hrest⟩ := bind_eq_ok_iff.mp hpath
    cases attempt with
    | some wrapped =>
      cases hrest
      obtain ⟨hwraps, howns⟩ := wrapPages_wraps hpage hsize hattempt
      rw [howns]
      exact ⟨hwraps, rfl⟩
    | none => exact hcopied hrest
  · exact hcopied hpath

/-- A range that was wrapped in place came from the zero-copy attempt. -/
theorem wrapPages_of_zeroCopy {host : Host} {hasOutBuffer : Bool} {memory memory' : Memory}
    {ptr size : SizeT} {buffer : MRBuffer}
    (h : mrWrapBuffer host hasOutBuffer memory ptr size = .ok (buffer, memory'))
    (howns : buffer.ownsCopy = false) : wrapPages host ptr size = .ok (some buffer) := by
  have hcopied : ownCopy host memory ptr size ≠ .ok (buffer, memory') := by
    intro hcopy
    rw [(ownCopy_wraps hcopy).2.1] at howns
    cases howns
  simp only [mrWrapBuffer, check_bind_eq_ok] at h
  obtain ⟨-, -, hpath⟩ := h
  split at hpath
  · obtain ⟨attempt, hattempt, hrest⟩ := bind_eq_ok_iff.mp hpath
    cases attempt with
    | some wrapped =>
      cases hrest
      exact hattempt
    | none => exact absurd hrest hcopied
  · exact absurd hpath hcopied

/-- A loop that returns holds the result of its body for each element. -/
theorem getElem?_of_mapM {α β : Type} {body : α → Except Failure β} {elements : List α}
    {results : List β} (h : elements.mapM body = .ok results) {i : ℕ} {a : α}
    (ha : elements[i]? = some a) : ∃ b, body a = .ok b ∧ results[i]? = some b := by
  have heach := mapM_eq_ok_iff.mp h
  obtain ⟨hi, rfl⟩ := List.getElem?_eq_some_iff.mp ha
  have hi' : i < results.length := heach.length_eq ▸ hi
  exact ⟨results[i], heach.get hi hi', List.getElem?_eq_getElem hi'⟩

/-- A launch that was built holds what the buffer loop made of the indices. -/
theorem bindBuffers_of_buildLaunch {desc : MRLaunchDesc} {who : ByteString} {launch : Launch}
    (h : buildLaunch (some desc) who = .ok launch) :
    (List.range desc.bufferCount.toNat).mapM (bindBuffer who desc) = .ok launch.buffers.toList := by
  rw [buildLaunch] at h
  split at h
  · cases h
  · simp only [check_bind_eq_ok] at h
    obtain ⟨-, -, -, hloops⟩ := h
    obtain ⟨bindings, hbindings, hrest⟩ := bind_eq_ok_iff.mp hloops
    obtain ⟨buffers, hbuffers, hrest⟩ := bind_eq_ok_iff.mp hrest
    obtain ⟨values, -, hrest⟩ := bind_eq_ok_iff.mp hrest
    obtain ⟨scalars, -, hrest⟩ := bind_eq_ok_iff.mp hrest
    obtain ⟨lengths, -, hrest⟩ := bind_eq_ok_iff.mp hrest
    obtain ⟨threadgroupMemory, -, hlaunch⟩ := bind_eq_ok_iff.mp hrest
    cases hlaunch
    rw [hbindings, StdVector.toList_of_ofList hbuffers]

/-- So it holds what the loop made of each index. -/
theorem bindBuffer_of_buildLaunch {desc : MRLaunchDesc} {who : ByteString} {launch : Launch}
    (h : buildLaunch (some desc) who = .ok launch) {i : ℕ} (hi : i < desc.bufferCount.toNat) :
    ∃ binding, bindBuffer who desc i = .ok binding ∧ launch.buffers.toList[i]? = some binding :=
  getElem?_of_mapM (bindBuffers_of_buildLaunch h) (List.getElem?_range hi)

/-- And nothing else. -/
theorem bindBuffer_of_mem {desc : MRLaunchDesc} {who : ByteString} {launch : Launch}
    (h : buildLaunch (some desc) who = .ok launch) {binding : BufferBinding}
    (hmem : binding ∈ launch.buffers.toList) :
    ∃ i < desc.bufferCount.toNat, bindBuffer who desc i = .ok binding := by
  have heach := mapM_eq_ok_iff.mp (bindBuffers_of_buildLaunch h)
  obtain ⟨i, hi, rfl⟩ := List.mem_iff_getElem.mp hmem
  have hlt : i < (List.range desc.bufferCount.toNat).length := heach.length_eq ▸ hi
  have hbound := heach.get hlt hi
  rw [List.get_eq_getElem, List.getElem_range] at hbound
  rw [List.length_range] at hlt
  exact ⟨i, hlt, hbound⟩

/-- What the buffer loop binds is a buffer of the descriptor at an offset of it. -/
theorem bindBuffer_inv {desc : MRLaunchDesc} {who : ByteString} {i : ℕ} {binding : BufferBinding}
    (h : bindBuffer who desc i = .ok binding) :
    ∃ buffers buffer offsets, desc.buffers = some buffers ∧ buffers i = some buffer ∧
      desc.bufferOffsets = some offsets ∧
      binding = ⟨buffer.buffer, offsets i + buffer.externalOffset⟩ := by
  obtain ⟨given, hgiven, hrest⟩ := bind_eq_ok_iff.mp h
  unfold element at hgiven
  split at hgiven
  · next buffers hbuffers =>
    cases hgiven
    split at hrest
    · cases hrest
    · next buffer hbuffer =>
      obtain ⟨offset, hoffset, hrest⟩ := bind_eq_ok_iff.mp hrest
      rw [check_bind_eq_ok] at hrest
      cases hrest.2
      unfold element at hoffset
      split at hoffset
      · next offsets hoffsets =>
        cases hoffset
        exact ⟨buffers, buffer, offsets, hbuffers, hbuffer, hoffsets, rfl⟩
      · cases hoffset
  · cases hgiven

/-- Flushing a zero-copy wrap does nothing. -/
theorem flush_of_zeroCopy {buffer : MRBuffer} (howns : buffer.ownsCopy = false)
    (memory : Memory) : mrBufferFlushTo (some buffer) memory = .ok memory :=
  if_pos howns

/-- Flushing an owned copy copies it to the caller's range. -/
theorem flush_of_copy {buffer : MRBuffer} (howns : buffer.ownsCopy = true) (memory : Memory) :
    mrBufferFlushTo (some buffer) memory = .ok (memory.memcpy buffer.externalPtr.toNat
      buffer.buffer.contents.toNat buffer.buffer.size.toNat) := by
  rw [mrBufferFlushTo, howns, if_neg (by decide)]
  by_cases hsize : buffer.buffer.size > 0
  · rw [if_pos hsize]
  · have hzero : buffer.buffer.size.toNat = 0 := by
      rw [gt_iff_lt, UInt64.lt_iff_toNat_lt] at hsize
      exact Nat.eq_zero_of_not_pos hsize
    rw [if_neg hsize, hzero, Memory.memcpy_zero]

/-- A flush writes each byte of a copy to the address that it stands for. -/
theorem flush_of_standsFor {buffer : MRBuffer} {memory memory' : Memory} {position address : ℕ}
    (howns : buffer.ownsCopy = true) (hstands : buffer.StandsFor position address)
    (hflush : mrBufferFlushTo (some buffer) memory = .ok memory') :
    memory' address = memory (buffer.buffer.contents.toNat + position) := by
  rw [MRBuffer.StandsFor, howns, if_pos rfl] at hstands
  obtain ⟨hposition, rfl⟩ := hstands
  rw [flush_of_copy howns] at hflush
  cases hflush
  have hread := congrArg (fun bytes : List UInt8 => bytes[position]?)
    (memory.read_memcpy_self buffer.externalPtr.toNat buffer.buffer.contents.toNat
      buffer.buffer.size.toNat)
  simp only [Memory.getElem?_read _ _ hposition] at hread
  exact Option.some.inj hread

/-- The check of `build_launch` on one offset passes exactly inside the logical range, or at
the start of an empty buffer. -/
theorem bindBuffer_eq_ok {who : ByteString} {desc : MRLaunchDesc} {i : ℕ} {buffer : MRBuffer}
    {ptr size offset : SizeT} {binding : BufferBinding} (hwraps : buffer.Wraps ptr size)
    (hbuffer : element desc.buffers i = .ok (some buffer))
    (hoffset : element desc.bufferOffsets i = .ok offset) :
    bindBuffer who desc i = .ok binding ↔
      (offset.toNat < size.toNat ∨ (offset = 0 ∧ size = 0)) ∧
        binding = ⟨buffer.buffer, offset + buffer.externalOffset⟩ := by
  have hfits := hwraps.fits
  have hword := toNat_lt_wordSize buffer.buffer.size
  have hzero : ∀ a : SizeT, a = 0 ↔ a.toNat = 0 := fun a => UInt64.toNat_inj.symm
  rw [bindBuffer, hbuffer]
  change (element desc.bufferOffsets i >>= _) = _ ↔ _
  rw [hoffset]
  change (rejectIf _ _ >>= _) = _ ↔ _
  rw [check_bind_eq_ok, rejectIf_eq_ok, hwraps.logicalSize, Except.ok.injEq, eq_comm (a := binding)]
  refine and_congr_left fun _ => ?_
  rw [maxSize, gt_max_sub_iff, not_or, ge_iff_le, UInt64.le_iff_toNat_le, hzero, hzero]
  omega

/-- A launch that was built bound the buffer at an accepted offset. -/
theorem binding_of_buildLaunch {desc : MRLaunchDesc} {who : ByteString} {launch : Launch}
    {buffers : ℕ → Option MRBuffer} {offsets : ℕ → SizeT} {buffer : MRBuffer} {ptr size : SizeT}
    (hwraps : buffer.Wraps ptr size) (hlaunch : buildLaunch (some desc) who = .ok launch)
    (hbuffers : desc.buffers = some buffers) (hoffsets : desc.bufferOffsets = some offsets)
    {i : ℕ} (hi : i < desc.bufferCount.toNat) (hbuffer : buffers i = some buffer) :
    ((offsets i).toNat < size.toNat ∨ (offsets i = 0 ∧ size = 0)) ∧
      launch.buffers.toList[i]? = some ⟨buffer.buffer, offsets i + buffer.externalOffset⟩ := by
  obtain ⟨binding, hbinding, hget⟩ := bindBuffer_of_buildLaunch hlaunch hi
  have helement : element desc.buffers i = .ok (some buffer) := by
    rw [hbuffers, element, hbuffer]
  have hoffset : element desc.bufferOffsets i = .ok (offsets i) := by
    rw [hoffsets, element]
  obtain ⟨hrange, rfl⟩ := (bindBuffer_eq_ok hwraps helement hoffset).mp hbinding
  exact ⟨hrange, hget⟩

/-- An accepted offset is at most the size of the range. -/
theorem offset_le_of_range {offset size : SizeT}
    (h : offset.toNat < size.toNat ∨ (offset = 0 ∧ size = 0)) : offset.toNat ≤ size.toNat := by
  rcases h with hlt | ⟨rfl, rfl⟩
  · exact hlt.le
  · exact le_rfl

/-- Adding the offset inside the page does not wrap. -/
theorem MRBuffer.Wraps.offset_add_lt {buffer : MRBuffer} {ptr size offset : SizeT}
    (hwraps : buffer.Wraps ptr size) (hle : offset.toNat ≤ size.toNat) :
    offset.toNat + buffer.externalOffset.toNat < wordSize := by
  have hfits := hwraps.fits
  have hword := toNat_lt_wordSize buffer.buffer.size
  omega

/-- An offset inside the range is bound at the byte that stands for the caller's address. -/
theorem MRBuffer.Wraps.standsFor {buffer : MRBuffer} {ptr size offset : SizeT}
    (hwraps : buffer.Wraps ptr size) (hlt : offset.toNat < size.toNat) :
    buffer.StandsFor (offset + buffer.externalOffset).toNat (ptr.toNat + offset.toNat) := by
  rw [MRBuffer.StandsFor, toNat_add_of_lt (hwraps.offset_add_lt hlt.le), hwraps.externalPtr]
  cases howns : buffer.ownsCopy with
  | true =>
    obtain ⟨hexternal, hsize⟩ := hwraps.copy howns
    rw [if_pos rfl, hexternal, hsize]
    exact ⟨hlt, rfl⟩
  | false =>
    obtain ⟨-, hcontents⟩ := hwraps.zeroCopy howns
    rw [if_neg (by decide)]
    omega

/-- What `build_launch` binds passes the offset check of `validate`. -/
theorem MRBuffer.Wraps.checkBufferOffset {buffer : MRBuffer} {ptr size offset : SizeT}
    (hwraps : buffer.Wraps ptr size)
    (hrange : offset.toNat < size.toNat ∨ (offset = 0 ∧ size = 0)) (i : ℕ) :
    checkBufferOffset i ⟨buffer.buffer, offset + buffer.externalOffset⟩ = .ok () := by
  rw [checkBufferOffset_eq_ok]
  change (offset + buffer.externalOffset).toNat < buffer.buffer.size.toNat ∨ _
  rcases hrange with hlt | ⟨hoffset, hsize⟩
  · have hfits := hwraps.fits
    rw [toNat_add_of_lt (hwraps.offset_add_lt hlt.le)]
    exact Or.inl (by omega)
  · -- An empty range has no page to wrap, so its buffer is a copy.
    cases howns : buffer.ownsCopy with
    | true =>
      obtain ⟨hexternal, hbufferSize⟩ := hwraps.copy howns
      rw [hoffset, hexternal, hbufferSize, hsize]
      exact Or.inr ⟨rfl, rfl⟩
    | false =>
      obtain ⟨hpositive, -⟩ := hwraps.zeroCopy howns
      rw [hsize] at hpositive
      cases hpositive

/-- For every pointer, size and power-of-two page size, on either path of `mr_wrap_buffer`:
what `build_launch` accepts for the buffer is an offset into the caller's range, is bound
without wrapping at the byte that stands for the caller's address, and passes the offset
check of `validate`; and every other offset is rejected. -/
theorem wrapped_bindings_stay_in_range {host : Host} {k : ℕ}
    (hpage : host.pageSize.toNat = 2 ^ k) {hasOutBuffer : Bool} {memory memory' : Memory}
    {ptr size : SizeT} {buffer : MRBuffer}
    (hwrap : mrWrapBuffer host hasOutBuffer memory ptr size = .ok (buffer, memory')) :
    (∀ desc who launch buffers offsets i, buildLaunch (some desc) who = .ok launch →
      desc.buffers = some buffers → desc.bufferOffsets = some offsets →
      i < desc.bufferCount.toNat → buffers i = some buffer →
      ((offsets i).toNat < size.toNat ∨ (offsets i = 0 ∧ size = 0)) ∧
      (offsets i).toNat + buffer.externalOffset.toNat < wordSize ∧
      ∃ binding, launch.buffers.toList[i]? = some binding ∧
        binding = ⟨buffer.buffer, offsets i + buffer.externalOffset⟩ ∧
        ((offsets i).toNat < size.toNat →
          buffer.StandsFor binding.offset.toNat (ptr.toNat + (offsets i).toNat)) ∧
        checkBufferOffset i binding = .ok ()) ∧
    (∀ desc who buffers offsets i, desc.buffers = some buffers →
      desc.bufferOffsets = some offsets → i < desc.bufferCount.toNat → buffers i = some buffer →
      size.toNat ≤ (offsets i).toNat → ¬ (offsets i = 0 ∧ size = 0) →
      ∀ launch, buildLaunch (some desc) who ≠ .ok launch) := by
  obtain ⟨hwraps, -⟩ := mrWrapBuffer_wraps hpage hwrap
  refine ⟨?_, ?_⟩
  · intro desc who launch buffers offsets i hlaunch hbuffers hoffsets hi hbuffer
    obtain ⟨hrange, hget⟩ := binding_of_buildLaunch hwraps hlaunch hbuffers hoffsets hi hbuffer
    exact ⟨hrange, hwraps.offset_add_lt (offset_le_of_range hrange), _, hget, rfl,
      hwraps.standsFor, hwraps.checkBufferOffset hrange i⟩
  · intro desc who buffers offsets i hbuffers hoffsets hi hbuffer hpast hnonzero launch hlaunch
    obtain ⟨hrange, -⟩ := binding_of_buildLaunch hwraps hlaunch hbuffers hoffsets hi hbuffer
    rcases hrange with hlt | hempty
    · exact absurd hlt (Nat.not_lt.mpr hpast)
    · exact hnonzero hempty

/-- A process with pages of 4096 bytes and one mapped region of four pages. -/
def mappedHost : Host where
  pageSize := 4096
  vmRegion := fun address =>
    if address < 81920 then some ⟨65536, 16384, true, true⟩ else none
  newBuffer := fun _ => some (2, 131072)
  newBufferNoCopy := fun _ _ => some 1

/-- 100 bytes that start 16 bytes into the first page, wrapped without a copy. -/
def mappedBuffer : MRBuffer := ⟨⟨⟨1, 65536, 4096⟩, 4096⟩, 65552, 16, false, 100⟩

/-- A launch on those bytes from the twelfth on. -/
def mappedDesc : MRLaunchDesc where
  pipeline := some addOnePipeline
  buffers := some fun _ => some mappedBuffer
  bufferOffsets := some fun _ => 12
  bufferCount := 1
  scalars := none
  scalarSizes := none
  scalarCount := 0
  threadgroupMemory := none
  threadgroupMemoryCount := 0
  grid := { x := 4 }
  threadgroup := { x := 4 }

/-- The launch binds the byte at the caller's address 65564. -/
theorem mappedDesc_binds_in_range : ∃ launch binding,
    buildLaunch (some mappedDesc) (ascii "mr_dispatch") = .ok launch ∧
      launch.buffers.toList[0]? = some binding ∧ checkBufferOffset 0 binding = .ok () ∧
      mappedBuffer.StandsFor binding.offset.toNat 65564 := by
  have hwrap : mrWrapBuffer mappedHost true (fun _ => 0) 65552 100 =
      .ok (mappedBuffer, fun _ => 0) := rfl
  obtain ⟨hstays, -⟩ := wrapped_bindings_stay_in_range (k := 12) (by decide) hwrap
  obtain ⟨-, -, binding, hget, -, hstands, hcheck⟩ :=
    hstays mappedDesc (ascii "mr_dispatch") _ _ _ 0 rfl rfl rfl (by decide) rfl
  exact ⟨_, binding, rfl, hget, hcheck, hstands (by decide)⟩

end MetalRuntime
