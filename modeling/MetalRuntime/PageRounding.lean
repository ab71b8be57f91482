import MetalRuntime.Foundations.CheckedWords
import MetalRuntime.WrappedBuffers
import Mathlib.Order.Bounds.Basic

/-!
# Page rounding at the top of the address space

`mr_wrap_buffer` guards its page arithmetic four times, and only together are the guards
exact: they reject a range exactly when its last page would end past the last address. An
accepted range is rounded outwards to whole pages. Repeating the computation with checked
operations shows the one place where a word still wraps: the sum before the round-up of a
range that ends with the last page but one and starts in the first, which the subtraction
after it undoes.
-/

namespace MetalRuntime

open Foundations

/-- A byte of the address space lies in the region. -/
def VMRegion.Contains (region : VMRegion) (address : ℕ) : Prop :=
  region.address.toNat ≤ address ∧ address < region.address.toNat + region.size.toNat

/-- What the system guarantees of its region query: the regions are disjoint, and a query
returns the region that contains the address, or else the next one above it. -/
structure Host.Reports (host : Host) (regions : Set VMRegion) : Prop where
  disjoint : ∀ r ∈ regions, ∀ r' ∈ regions, ∀ address,
    r.Contains address → r'.Contains address → r = r'
  found : ∀ address r, host.vmRegion address = some r → r ∈ regions ∧
    (r.Contains address.toNat ∨ ((∀ r' ∈ regions, ¬ r'.Contains address.toNat) ∧
      address.toNat < r.address.toNat ∧
      ∀ r' ∈ regions, address.toNat < r'.address.toNat → r.address.toNat ≤ r'.address.toNat))
  missing : ∀ address, host.vmRegion address = none →
    ∀ r ∈ regions, ¬ r.Contains address.toNat ∧ ¬ address.toNat < r.address.toNat

/-- One region that can be read and written contains every byte from `start` on. -/
def MapsRw (regions : Set VMRegion) (start length : ℕ) : Prop :=
  ∃ r ∈ regions, r.readable ∧ r.writable ∧
    ∀ address, start ≤ address → address < start + length → r.Contains address

/-- The bounds test on a region that starts no later than the query: its subtractions never go
below zero. -/
private theorem fits_region_iff {region : VMRegion} {start length : SizeT}
    (hstart : region.address.toNat ≤ start.toNat) (hlength : 0 < length.toNat) :
    (start - region.address ≤ region.size ∧ length ≤ region.size - (start - region.address)) ↔
      start.toNat + length.toNat ≤ region.address.toNat + region.size.toNat := by
  have hoffset : (start - region.address).toNat = start.toNat - region.address.toNat :=
    UInt64.toNat_sub_of_le _ _ (UInt64.le_iff_toNat_le.mpr hstart)
  by_cases hinside : start - region.address ≤ region.size
  · have hrest := UInt64.toNat_sub_of_le _ _ hinside
    rw [UInt64.le_iff_toNat_le] at hinside
    rw [UInt64.le_iff_toNat_le, UInt64.le_iff_toNat_le, hrest, hoffset]
    omega
  · rw [UInt64.le_iff_toNat_le, hoffset] at hinside
    rw [UInt64.le_iff_toNat_le, hoffset]
    omega

/-- The region reported for a query passes the test exactly when it can be read and written and
spans the range. -/
private theorem regionIsMappedRw_of_some {host : Host} {region : VMRegion} {start length : SizeT}
    (hlength : 0 < length.toNat) (hquery : host.vmRegion start = some region) :
    regionIsMappedRw host start length = true ↔
      (region.readable ∧ region.writable) ∧ region.address.toNat ≤ start.toNat ∧
        start.toNat + length.toNat ≤ region.address.toNat + region.size.toNat := by
  have hnonzero : length ≠ 0 := by
    intro hzero
    rw [hzero] at hlength
    exact absurd hlength (by decide)
  simp only [regionIsMappedRw, if_neg hnonzero, hquery, gt_iff_lt, UInt64.lt_iff_toNat_lt]
  by_cases habove : start.toNat < region.address.toNat
  · rw [if_pos habove]
    refine iff_of_false Bool.false_ne_true ?_
    intro hspans
    exact absurd hspans.2.1 (Nat.not_le.mpr habove)
  · rw [if_neg habove]
    by_cases hprotection : region.readable ∧ region.writable
    · rw [if_neg (by simp [hprotection]), decide_eq_true_eq,
        fits_region_iff (Nat.le_of_not_lt habove) hlength]
      simp only [hprotection, Nat.le_of_not_lt habove, and_self, true_and]
    · rw [if_pos (by rwa [← not_and_or])]
      refine iff_of_false Bool.false_ne_true ?_
      intro hspans
      exact hprotection hspans.1

/-- A region spans a range when it contains every byte of it. -/
private theorem contains_all_iff {region : VMRegion} {start length : ℕ} (hlength : 0 < length) :
    (∀ address, start ≤ address → address < start + length → region.Contains address) ↔
      region.address.toNat ≤ start ∧
        start + length ≤ region.address.toNat + region.size.toNat := by
  constructor
  · intro hall
    have hfirst := hall start le_rfl (by omega)
    have hlast := hall (start + length - 1) (by omega) (by omega)
    exact ⟨hfirst.1, by have := hlast.2; omega⟩
  · intro hspans address hle hlt
    exact ⟨hspans.1.trans hle, lt_of_lt_of_le hlt hspans.2⟩

/-- The region test is exact: it passes when one region that can be read and written contains
the whole range, whatever the other regions are. -/
theorem regionIsMappedRw_iff {host : Host} {regions : Set VMRegion}
    (hreports : host.Reports regions) {start length : SizeT} (hlength : 0 < length.toNat) :
    regionIsMappedRw host start length = true ↔ MapsRw regions start.toNat length.toNat := by
  constructor
  · intro hpasses
    cases hquery : host.vmRegion start with
    | none => simp [regionIsMappedRw, hquery, UInt64.toNat_inj.symm, hlength.ne'] at hpasses
    | some region =>
      obtain ⟨hprotection, hspans⟩ := (regionIsMappedRw_of_some hlength hquery).mp hpasses
      obtain ⟨hregion, -⟩ := hreports.found start region hquery
      exact ⟨region, hregion, hprotection.1, hprotection.2, (contains_all_iff hlength).mpr hspans⟩
  · intro hmapped
    obtain ⟨r, hr, hreadable, hwritable, hall⟩ := hmapped
    have hcontains := hall start.toNat le_rfl (by omega)
    -- The query falls into that region, so it is the one reported.
    have hquery : host.vmRegion start = some r := by
      cases hreported : host.vmRegion start with
      | none => exact absurd hcontains (hreports.missing start hreported r hr).1
      | some region =>
        obtain ⟨hregion, hplace⟩ := hreports.found start region hreported
        obtain hsame | ⟨hhole, -⟩ := hplace
        · rw [hreports.disjoint region hregion r hr _ hsame hcontains]
        · exact absurd hcontains (hhole r hr)
    exact (regionIsMappedRw_of_some hlength hquery).mpr
      ⟨⟨hreadable, hwritable⟩, (contains_all_iff hlength).mp hall⟩

/-- The range that `mr_wrap_buffer` wraps, and where the caller's first byte is in it. -/
structure PageRange where
  start : SizeT
  offset : SizeT
  length : SizeT
  deriving DecidableEq

/-- The page range of a caller's range, as `mr_wrap_buffer` computes it. -/
def pageRange (host : Host) (ptr sizeBytes : SizeT) : PageRange where
  start := pageStart host ptr
  offset := ptr - pageStart host ptr
  length := wrappedLength host ptr sizeBytes

/-- The sum before the round-up with both operations checked. -/
def checkedRoundUpSum (host : Host) (used : SizeT) : Option SizeT := do
  let next ← checkedAdd used host.pageSize
  checkedSub next 1

/-- The range computation of `mr_wrap_buffer` with every operation checked but those of the sum
before the round-up, which is given: it fails where an operation would wrap, and returns no range
where a guard throws. -/
def checkedPageRangeWith (roundUpSum : SizeT → Option SizeT) (host : Host)
    (ptr sizeBytes : SizeT) : Option (Option PageRange) := do
  let mask ← checkedSub host.pageSize 1
  let start := ptr &&& ~~~mask
  let offset ← checkedSub ptr start
  let aboveAddress ← checkedSub maxSize ptr
  if sizeBytes > aboveAddress then some none else do
  let aboveOffset ← checkedSub maxSize offset
  if sizeBytes > aboveOffset then some none else do
  let used ← checkedAdd offset sizeBytes
  let abovePages ← checkedSub maxSize mask
  if used > abovePages then some none else do
  let last ← roundUpSum used
  let pages ← checkedDiv last host.pageSize
  let length ← checkedMul pages host.pageSize
  let aboveStart ← checkedSub maxSize start
  if length > aboveStart then some none else some (some ⟨start, offset, length⟩)

/-- The range computation of `mr_wrap_buffer` with every operation checked. -/
def checkedPageRange (host : Host) (ptr sizeBytes : SizeT) : Option (Option PageRange) :=
  checkedPageRangeWith (checkedRoundUpSum host) host ptr sizeBytes

section Rounding

variable {host : Host} {k : ℕ} (hpage : host.pageSize.toNat = 2 ^ k) {ptr size : SizeT}

include hpage

/-- A page has at least one byte, and the address space is whole pages. -/
theorem page_dvd_wordSize : 0 < host.pageSize.toNat ∧ host.pageSize.toNat ≤ wordSize ∧
    host.pageSize.toNat ∣ wordSize := by
  have hlt := toNat_lt_wordSize host.pageSize
  have hk : k ≤ 64 := by
    rw [hpage, wordSize] at hlt
    exact (Nat.pow_lt_pow_iff_right (by decide)).mp hlt |>.le
  rw [hpage]
  exact ⟨Nat.two_pow_pos k, Nat.pow_le_pow_right (by decide) hk, Nat.pow_dvd_pow 2 hk⟩

/-- The first three guards pass exactly when neither the range nor the sum before the
round-up leaves the address space. -/
theorem first_guards_iff :
    ¬ (size > maxSize - ptr ∨ size > maxSize - (ptr - pageStart host ptr) ∨
        ptr - pageStart host ptr + size > maxSize - (host.pageSize - 1)) ↔
      ptr.toNat + size.toNat < wordSize ∧
        ptr.toNat % host.pageSize.toNat + size.toNat + (host.pageSize.toNat - 1) < wordSize := by
  have hoffset := toNat_sub_pageStart hpage ptr
  have hmod := Nat.mod_le ptr.toNat host.pageSize.toNat
  have hone : (1 : SizeT) ≤ host.pageSize := by
    rw [UInt64.le_iff_toNat_le]
    exact (page_dvd_wordSize hpage).1
  have hmask := UInt64.toNat_sub_of_le _ _ hone
  simp only [maxSize, gt_max_sub_iff, hoffset, not_or, Nat.not_le]
  constructor
  · intro hguards
    obtain ⟨hrange, hfirst, hlast⟩ := hguards
    have hsum := toNat_add_of_lt (a := ptr - pageStart host ptr) (b := size) (by rwa [hoffset])
    rw [hsum, hoffset, hmask, UInt64.toNat_one] at hlast
    exact ⟨hrange, by omega⟩
  · intro hfits
    have hsum := toNat_add_of_lt (a := ptr - pageStart host ptr) (b := size) (by
      rw [hoffset]
      omega)
    rw [hsum, hoffset, hmask, UInt64.toNat_one]
    omega

/-- The rounded length is exact behind the first guards. -/
theorem toNat_wrappedLength
    (hfits : ptr.toNat % host.pageSize.toNat + size.toNat + (host.pageSize.toNat - 1) < wordSize) :
    (wrappedLength host ptr size).toNat =
      roundUp host.pageSize.toNat (ptr.toNat % host.pageSize.toNat + size.toNat) := by
  have hoffset := toNat_sub_pageStart hpage ptr
  have hsum := toNat_add_of_lt (a := ptr - pageStart host ptr) (b := size) (by
    rw [hoffset]
    omega)
  have hround := toNat_roundUp host.pageSize (ptr - pageStart host ptr + size)
    (page_dvd_wordSize hpage).1 (by rwa [hsum, hoffset])
  rw [wrappedLength, hround, hsum, hoffset]

/-- The end of the rounded range is the end of the caller's range, rounded up. -/
theorem pageStart_add_roundUp :
    (pageStart host ptr).toNat +
        roundUp host.pageSize.toNat (ptr.toNat % host.pageSize.toNat + size.toNat) =
      roundUp host.pageSize.toNat (ptr.toNat + size.toNat) := by
  have hstart := toNat_pageStart hpage ptr
  have hdiv := Nat.div_add_mod' ptr.toNat host.pageSize.toNat
  rw [hstart, add_roundUp_of_dvd (page_dvd_wordSize hpage).1 (Nat.dvd_mul_left _ _)]
  congr 1
  omega

/-- A range that ends before the last page passes the first guards. -/
theorem fits_of_le
    (hle : ptr.toNat + size.toNat ≤ wordSize - host.pageSize.toNat) :
    ptr.toNat + size.toNat < wordSize ∧
      ptr.toNat % host.pageSize.toNat + size.toNat + (host.pageSize.toNat - 1) < wordSize := by
  obtain ⟨hpositive, hpages, -⟩ := page_dvd_wordSize hpage
  have hmod := Nat.mod_le ptr.toNat host.pageSize.toNat
  omega

/-- The last guard throws exactly when the rounded range would end past the last address. -/
theorem last_guard_iff
    (hfits : ptr.toNat % host.pageSize.toNat + size.toNat + (host.pageSize.toNat - 1) < wordSize) :
    wrappedLength host ptr size > maxSize - pageStart host ptr ↔
      wordSize - host.pageSize.toNat < ptr.toNat + size.toNat := by
  obtain ⟨hpositive, hpages, hdvd⟩ := page_dvd_wordSize hpage
  rw [maxSize, gt_max_sub_iff, toNat_wrappedLength hpage hfits, pageStart_add_roundUp hpage,
    le_roundUp_iff_of_dvd hpositive hpages hdvd]

/-- In front of the round-up, the computation of an accepted range passes its guards and no
operation wraps. -/
theorem checkedPageRangeWith_eq (roundUpSum : SizeT → Option SizeT)
    (hle : ptr.toNat + size.toNat ≤ wordSize - host.pageSize.toNat) :
    checkedPageRangeWith roundUpSum host ptr size =
      (roundUpSum (ptr - pageStart host ptr + size) >>= fun last =>
        checkedSub maxSize (pageStart host ptr) >>= fun aboveStart =>
          if last / host.pageSize * host.pageSize > aboveStart then some none
          else some (some ⟨pageStart host ptr, ptr - pageStart host ptr,
            last / host.pageSize * host.pageSize⟩)) := by
  obtain ⟨hpositive, hpages, hdvd⟩ := page_dvd_wordSize hpage
  obtain ⟨hrange, hfits⟩ := fits_of_le hpage hle
  have hguards := (@first_guards_iff host k hpage ptr size).mpr ⟨hrange, hfits⟩
  obtain ⟨haddress, hoffset, hused⟩ := not_or.mp hguards |>.imp_right not_or.mp
  have hstart := toNat_pageStart hpage ptr
  have hwithin := toNat_sub_pageStart hpage ptr
  have hdiv := Nat.div_add_mod' ptr.toNat host.pageSize.toNat
  have hbelow (a : SizeT) : a.toNat ≤ maxSize.toNat := Nat.le_of_lt_succ (toNat_lt_wordSize a)
  rw [checkedPageRangeWith, checkedSub_bind _ (show (1 : SizeT).toNat ≤ _ from hpositive)]
  change (checkedSub ptr (pageStart host ptr) >>= _) = _
  rw [checkedSub_bind _ (by omega), checkedSub_bind _ (hbelow ptr), if_neg haddress,
    checkedSub_bind _ (hbelow _), if_neg hoffset, checkedAdd_bind _ (by omega),
    checkedSub_bind _ (hbelow _), if_neg hused]
  refine congrArg (roundUpSum (ptr - pageStart host ptr + size) >>= ·) (funext fun last => ?_)
  exact checkedDiv_checkedMul_bind _ last hpositive

/-- With the sum that the code computes, wrapping or not, the computation of an accepted range
returns the page range. -/
theorem checkedPageRangeWith_of_sum {roundUpSum : SizeT → Option SizeT}
    (hle : ptr.toNat + size.toNat ≤ wordSize - host.pageSize.toNat)
    (hsum : roundUpSum (ptr - pageStart host ptr + size) =
      some (ptr - pageStart host ptr + size + host.pageSize - 1)) :
    checkedPageRangeWith roundUpSum host ptr size = some (some (pageRange host ptr size)) := by
  have hbelow : (pageStart host ptr).toNat ≤ maxSize.toNat :=
    Nat.le_of_lt_succ (toNat_lt_wordSize _)
  have hlast := (last_guard_iff hpage (fits_of_le hpage hle).2).not.mpr (Nat.not_lt.mpr hle)
  rw [checkedPageRangeWith_eq hpage roundUpSum hle, hsum]
  change (checkedSub maxSize (pageStart host ptr) >>= fun aboveStart =>
    if wrappedLength host ptr size > aboveStart then _ else _) = _
  rw [checkedSub_bind _ hbelow, if_neg hlast]
  rfl

/-- The sum before the round-up of an accepted range is at most a whole address space, and that
much exactly for a range that starts in the first page and ends with the last but one. -/
theorem roundUpSum_le (hle : ptr.toNat + size.toNat ≤ wordSize - host.pageSize.toNat) :
    (ptr - pageStart host ptr + size).toNat + host.pageSize.toNat ≤ wordSize ∧
      ((ptr - pageStart host ptr + size).toNat + host.pageSize.toNat = wordSize ↔
        (pageStart host ptr).toNat = 0 ∧
          ptr.toNat + size.toNat = wordSize - host.pageSize.toNat) := by
  obtain ⟨hpositive, hpages, -⟩ := page_dvd_wordSize hpage
  have hstart := toNat_pageStart hpage ptr
  have hwithin := toNat_sub_pageStart hpage ptr
  have hdiv := Nat.div_add_mod' ptr.toNat host.pageSize.toNat
  have hsum := toNat_add_of_lt (a := ptr - pageStart host ptr) (b := size) (by omega)
  rw [hsum, hwithin]
  omega

/-- The checked computation of an accepted range returns the page range, unless the sum before
the round-up is a whole address space. -/
theorem checkedPageRange_of_le
    (hle : ptr.toNat + size.toNat ≤ wordSize - host.pageSize.toNat) :
    checkedPageRange host ptr size =
      if (pageStart host ptr).toNat = 0 ∧
        ptr.toNat + size.toNat = wordSize - host.pageSize.toNat then none
      else some (some (pageRange host ptr size)) := by
  obtain ⟨hsum, hwhole⟩ := roundUpSum_le hpage hle
  rw [checkedPageRange]
  by_cases hcorner : (pageStart host ptr).toNat = 0 ∧
      ptr.toNat + size.toNat = wordSize - host.pageSize.toNat
  · rw [if_pos hcorner, checkedPageRangeWith_eq hpage _ hle, checkedRoundUpSum,
      checkedAdd_bind_of_wraps _ (hwhole.mpr hcorner).ge]
    rfl
  · have hne := fun heq => hcorner (hwhole.mp heq)
    rw [if_neg hcorner]
    exact checkedPageRangeWith_of_sum hpage hle
      (checkedAdd_checkedSub_one (page_dvd_wordSize hpage).1 (lt_of_le_of_ne hsum hne))

/-- What `mr_wrap_buffer` promises of the page range of an accepted range: it starts with the
greatest page boundary up to the caller's address, ends with the least one from the end of
the caller's range on, and the caller's first byte is at the offset. -/
structure PageRounded (host : Host) (ptr size : SizeT) : Prop where
  start : IsGreatest {m | host.pageSize.toNat ∣ m ∧ m ≤ ptr.toNat}
    (pageRange host ptr size).start.toNat
  stop : IsLeast {m | host.pageSize.toNat ∣ m ∧ ptr.toNat + size.toNat ≤ m}
    ((pageRange host ptr size).start.toNat + (pageRange host ptr size).length.toNat)
  offset : (pageRange host ptr size).start.toNat + (pageRange host ptr size).offset.toNat =
    ptr.toNat

/-- An accepted range is rounded outwards to whole pages. -/
theorem pageRounded_of_le (hle : ptr.toNat + size.toNat ≤ wordSize - host.pageSize.toNat) :
    PageRounded host ptr size := by
  obtain ⟨hpositive, -, -⟩ := page_dvd_wordSize hpage
  have hstart := toNat_pageStart hpage ptr
  have hwithin := toNat_sub_pageStart hpage ptr
  refine ⟨?_, ?_, ?_⟩
  · change IsGreatest _ (pageStart host ptr).toNat
    rw [hstart]
    exact isGreatest_div_mul hpositive ptr.toNat
  · change IsLeast _ ((pageStart host ptr).toNat + (wrappedLength host ptr size).toNat)
    rw [toNat_wrappedLength hpage (fits_of_le hpage hle).2, pageStart_add_roundUp hpage]
    exact isLeast_roundUp hpositive _
  · change (pageStart host ptr).toNat + (ptr - pageStart host ptr).toNat = ptr.toNat
    rw [hstart, hwithin]
    exact Nat.div_add_mod' ptr.toNat host.pageSize.toNat

/-- The constructor that wraps whole pages does not throw for its alignment. -/
theorem wrap_pageRange_eq (hle : ptr.toNat + size.toNat ≤ wordSize - host.pageSize.toNat) :
    Buffer.wrap host (pageStart host ptr) (wrappedLength host ptr size) =
      match host.newBufferNoCopy (pageStart host ptr) (wrappedLength host ptr size) with
      | some id => .ok ⟨⟨id, pageStart host ptr, wrappedLength host ptr size⟩,
          wrappedLength host ptr size⟩
      | none => .error (.allocation (ascii "failed to wrap external memory of " ++
          toText (wrappedLength host ptr size) ++ ascii " bytes as a Metal buffer")) := by
  have hstart : pageStart host ptr % host.pageSize = 0 := by
    rw [← UInt64.toNat_inj, UInt64.toNat_mod, toNat_pageStart hpage ptr]
    exact Nat.mul_mod_left _ _
  have hlength : wrappedLength host ptr size % host.pageSize = 0 := by
    rw [← UInt64.toNat_inj, UInt64.toNat_mod,
      toNat_wrappedLength hpage (fits_of_le hpage hle).2]
    exact Nat.mod_eq_zero_of_dvd (dvd_roundUp _ _)
  rw [Buffer.wrap, rejectIf, if_neg (by simp [hstart, hlength])]
  rfl

end Rounding

/-- The result is an exception of one of the two memory-range checks. -/
def RejectsRange {α : Type} (result : Except Failure α) : Prop :=
  result = .error (.invalidArgument (ascii "mr_wrap_buffer: memory range overflows")) ∨
    result = .error (.invalidArgument
      (ascii "mr_wrap_buffer: page-rounded memory range overflows"))

/-- The zero-copy path: Metal wraps the page range, or there is no device, or no resources. -/
def wrapInPlace (host : Host) (memory : Memory) (ptr size : SizeT) :
    Except Failure (MRBuffer × Memory) := do
  host.device.runtime
  let range := pageRange host ptr size
  match host.newBufferNoCopy range.start range.length with
  | some id => .ok (⟨⟨⟨id, range.start, range.length⟩, range.length⟩, ptr, range.offset, false,
      size⟩, memory)
  | none => .error (.allocation (ascii "failed to wrap external memory of " ++
      toText range.length ++ ascii " bytes as a Metal buffer"))

/-- Nothing behind `runtime()` ends in a range check if the rest does not. -/
theorem runtime_not_rejects {α : Type} (answer : DeviceAnswer) {next : Unit → Except Failure α}
    (h : ¬ RejectsRange (next ())) : ¬ RejectsRange (answer.runtime >>= next) := by
  cases answer with
  | found => exact h
  | _ => simp [RejectsRange, DeviceAnswer.runtime, bind, Except.bind]

/-- The zero-copy path does not end in a range check. -/
theorem wrapInPlace_not_rejects (host : Host) (memory : Memory) (ptr size : SizeT) :
    ¬ RejectsRange (wrapInPlace host memory ptr size) := by
  refine runtime_not_rejects _ ?_
  dsimp only
  split <;> simp [RejectsRange]

/-- Nor does the copy path. -/
theorem ownCopy_not_rejects (host : Host) (memory : Memory) (ptr size : SizeT) :
    ¬ RejectsRange (ownCopy host memory ptr size) := by
  refine runtime_not_rejects _ ?_
  simp only [Buffer.create]
  split <;> simp [RejectsRange, bind, Except.bind]

/-- With memory to wrap, `mr_wrap_buffer` attempts the pages first. -/
theorem mrWrapBuffer_eq (host : Host) (memory : Memory) {ptr size : SizeT} (hptr : ptr ≠ 0)
    (hsize : 0 < size.toNat) :
    mrWrapBuffer host true memory ptr size = (do
      match ← wrapPages host ptr size with
      | some buffer => .ok (buffer, memory)
      | none => ownCopy host memory ptr size) := by
  have hpositive : size > 0 := UInt64.lt_iff_toNat_lt.mpr hsize
  have hout (e : Failure) : rejectIf (true = false) e = .ok () := if_neg (by decide)
  have hnull (e : Failure) : rejectIf (ptr = 0 ∧ size > 0) e = .ok () :=
    if_neg fun h => hptr h.1
  rw [mrWrapBuffer, hout, hnull]
  change (if size > 0 then _ else _) = _
  exact if_pos hpositive

section Paths

variable {host : Host} {k : ℕ} (hpage : host.pageSize.toNat = 2 ^ k) {ptr size : SizeT}
  (memory : Memory)

include hpage

/-- A range that ends in the last page, or wraps, is rejected. -/
theorem wrapPages_of_gt (hgt : wordSize - host.pageSize.toNat < ptr.toNat + size.toNat) :
    RejectsRange (wrapPages host ptr size) := by
  rw [wrapPages]
  by_cases hguards : size > maxSize - ptr ∨ size > maxSize - (ptr - pageStart host ptr) ∨
      ptr - pageStart host ptr + size > maxSize - (host.pageSize - 1)
  · simp only [rejectIf, if_pos hguards]
    exact Or.inl rfl
  · have hfits := ((first_guards_iff hpage).mp hguards).2
    simp only [rejectIf, if_neg hguards, if_pos ((last_guard_iff hpage hfits).mpr hgt)]
    exact Or.inr rfl

/-- A range that ends before the last page passes every guard, and the region test picks the
path. -/
theorem wrapPages_of_le (hle : ptr.toNat + size.toNat ≤ wordSize - host.pageSize.toNat) :
    wrapPages host ptr size =
      if regionIsMappedRw host (pageStart host ptr) (wrappedLength host ptr size) then do
        host.device.runtime
        let buffer ← Buffer.wrap host (pageStart host ptr) (wrappedLength host ptr size)
        .ok (some ⟨buffer, ptr, ptr - pageStart host ptr, false, size⟩)
      else .ok none := by
  obtain ⟨hrange, hfits⟩ := fits_of_le hpage hle
  have hguards := (@first_guards_iff host k hpage ptr size).mpr ⟨hrange, hfits⟩
  have hlast := (last_guard_iff hpage hfits).not.mpr (Nat.not_lt.mpr hle)
  simp only [wrapPages, rejectIf, if_neg hguards, if_neg hlast]
  rfl

/-- Where one region maps the whole page range, the caller's memory is wrapped in place. -/
theorem mrWrapBuffer_of_mapped (hptr : ptr ≠ 0) (hsize : 0 < size.toNat)
    (hle : ptr.toNat + size.toNat ≤ wordSize - host.pageSize.toNat)
    (hmapped : regionIsMappedRw host (pageStart host ptr) (wrappedLength host ptr size) = true) :
    mrWrapBuffer host true memory ptr size = wrapInPlace host memory ptr size := by
  rw [mrWrapBuffer_eq host memory hptr hsize, wrapPages_of_le hpage hle, if_pos hmapped,
    wrap_pageRange_eq hpage hle, wrapInPlace]
  cases host.device.runtime with
  | error failure => rfl
  | ok _ =>
    change _ = match host.newBufferNoCopy (pageStart host ptr) (wrappedLength host ptr size) with
      | some id => _
      | none => _
    cases host.newBufferNoCopy (pageStart host ptr) (wrappedLength host ptr size) <;> rfl

/-- Elsewhere it is copied. -/
theorem mrWrapBuffer_of_unmapped (hptr : ptr ≠ 0) (hsize : 0 < size.toNat)
    (hle : ptr.toNat + size.toNat ≤ wordSize - host.pageSize.toNat)
    (hunmapped : ¬ regionIsMappedRw host (pageStart host ptr) (wrappedLength host ptr size)) :
    mrWrapBuffer host true memory ptr size = ownCopy host memory ptr size := by
  rw [mrWrapBuffer_eq host memory hptr hsize, wrapPages_of_le hpage hle, if_neg hunmapped]
  rfl

/-- The rounded length of a range with bytes is positive. -/
theorem wrappedLength_pos (hsize : 0 < size.toNat)
    (hle : ptr.toNat + size.toNat ≤ wordSize - host.pageSize.toNat) :
    0 < (wrappedLength host ptr size).toNat := by
  have hround := le_roundUp (page_dvd_wordSize hpage).1
    (ptr.toNat % host.pageSize.toNat + size.toNat)
  rw [toNat_wrappedLength hpage (fits_of_le hpage hle).2]
  omega

end Paths

/-- For every address, size and power-of-two page size, the range checks reject exactly the
ranges that end in the last page or past it. For the others, the range is rounded outwards
to whole pages; no operation wraps, but for the sum before the round-up, which is a whole
address space exactly for a range that starts in the first page and ends with the last but
one, and whose wrapping leaves every later operation as it is; and the caller's memory is wrapped
in place exactly when one region maps the whole page range for reading and writing, without
an exception for its alignment. -/
theorem mrWrapBuffer_rounds_exactly {host : Host} {k : ℕ} {regions : Set VMRegion}
    (hpage : host.pageSize.toNat = 2 ^ k) (hreports : host.Reports regions) (memory : Memory)
    {ptr size : SizeT} (hptr : ptr ≠ 0) (hsize : 0 < size.toNat) :
    (RejectsRange (mrWrapBuffer host true memory ptr size) ↔
      wordSize - host.pageSize.toNat < ptr.toNat + size.toNat) ∧
    (ptr.toNat + size.toNat ≤ wordSize - host.pageSize.toNat →
      PageRounded host ptr size ∧
      checkedPageRange host ptr size =
        (if (pageStart host ptr).toNat = 0 ∧
          ptr.toNat + size.toNat = wordSize - host.pageSize.toNat then none
        else some (some (pageRange host ptr size))) ∧
      checkedPageRangeWith (fun used => some (used + host.pageSize - 1)) host ptr size =
        some (some (pageRange host ptr size)) ∧
      ((ptr - pageStart host ptr + size).toNat + host.pageSize.toNat = wordSize ↔
        (pageStart host ptr).toNat = 0 ∧
          ptr.toNat + size.toNat = wordSize - host.pageSize.toNat) ∧
      (MapsRw regions (pageRange host ptr size).start.toNat
          (pageRange host ptr size).length.toNat →
        mrWrapBuffer host true memory ptr size = wrapInPlace host memory ptr size) ∧
      (¬ MapsRw regions (pageRange host ptr size).start.toNat
          (pageRange host ptr size).length.toNat →
        mrWrapBuffer host true memory ptr size = ownCopy host memory ptr size)) := by
  have haccepted (hle : ptr.toNat + size.toNat ≤ wordSize - host.pageSize.toNat) :
      regionIsMappedRw host (pageStart host ptr) (wrappedLength host ptr size) = true ↔
        MapsRw regions (pageRange host ptr size).start.toNat
          (pageRange host ptr size).length.toNat :=
    regionIsMappedRw_iff hreports (wrappedLength_pos hpage hsize hle)
  refine ⟨⟨?_, ?_⟩, ?_⟩
  · intro hrejects
    by_contra hle
    rw [Nat.not_lt] at hle
    by_cases hmapped :
        regionIsMappedRw host (pageStart host ptr) (wrappedLength host ptr size) = true
    · rw [mrWrapBuffer_of_mapped hpage memory hptr hsize hle hmapped] at hrejects
      exact wrapInPlace_not_rejects host memory ptr size hrejects
    · rw [mrWrapBuffer_of_unmapped hpage memory hptr hsize hle hmapped] at hrejects
      exact ownCopy_not_rejects host memory ptr size hrejects
  · intro hgt
    rw [mrWrapBuffer_eq host memory hptr hsize]
    rcases wrapPages_of_gt hpage hgt with herror | herror
    · rw [herror]
      exact Or.inl rfl
    · rw [herror]
      exact Or.inr rfl
  · intro hle
    refine ⟨pageRounded_of_le hpage hle, checkedPageRange_of_le hpage hle,
      checkedPageRangeWith_of_sum hpage hle rfl, (roundUpSum_le hpage hle).2, ?_, ?_⟩
    · intro hmaps
      exact mrWrapBuffer_of_mapped hpage memory hptr hsize hle ((haccepted hle).mpr hmaps)
    · intro hmaps
      have hunmapped := fun h => hmaps ((haccepted hle).mp h)
      exact mrWrapBuffer_of_unmapped hpage memory hptr hsize hle hunmapped

/-- A process with pages of 4096 bytes whose only region is four mapped pages. -/
def pagedHost : Host where
  pageSize := 4096
  vmRegion := fun address => if address < 81920 then some ⟨65536, 16384, true, true⟩ else none
  newBuffer := fun _ => some (2, 131072)
  newBufferNoCopy := fun _ _ => some 1

/-- Its region query reports that region to the addresses in it and below it. -/
theorem pagedHost_reports : pagedHost.Reports {⟨65536, 16384, true, true⟩} := by
  refine ⟨?_, ?_, ?_⟩
  · intro r hr r' hr' _ _ _
    exact hr.trans hr'.symm
  · intro address r hfound
    simp only [pagedHost, Option.ite_none_right_eq_some, Option.some.injEq,
      UInt64.lt_iff_toNat_lt, UInt64.reduceToNat] at hfound
    obtain ⟨hbelow, rfl⟩ := hfound
    refine ⟨rfl, ?_⟩
    simp only [VMRegion.Contains, Set.mem_singleton_iff, forall_eq, UInt64.reduceToNat]
    omega
  · intro address hmissing r hr
    simp only [pagedHost, ite_eq_right_iff, reduceCtorEq, imp_false, UInt64.lt_iff_toNat_lt,
      UInt64.reduceToNat] at hmissing
    rw [Set.mem_singleton_iff.mp hr]
    simp only [VMRegion.Contains, UInt64.reduceToNat]
    omega

/-- 100 bytes that start 16 bytes into the first page are wrapped in place, with a whole
page. -/
theorem pagedHost_wraps_in_place : PageRounded pagedHost 65552 100 ∧
    mrWrapBuffer pagedHost true (fun _ => 0) 65552 100 = .ok (mappedBuffer, fun _ => 0) := by
  obtain ⟨-, haccepted⟩ := @mrWrapBuffer_rounds_exactly pagedHost 12 _ rfl pagedHost_reports
    (fun _ => 0) 65552 100 (by decide) (by decide)
  obtain ⟨hrounded, -, -, -, hinPlace, -⟩ := haccepted (by decide)
  refine ⟨hrounded, hinPlace ?_⟩
  refine ⟨_, rfl, rfl, rfl, ?_⟩
  intro address hle hlt
  exact ⟨hle, by
    have hend : 65536 + 4096 ≤ 65536 + 16384 := by decide
    exact lt_of_lt_of_le hlt hend⟩

/-- From address 1 up to the last page, the range is accepted, although the sum before the
round-up is a whole address space and wraps to zero. -/
theorem sum_before_round_up_wraps :
    ¬ RejectsRange (mrWrapBuffer pagedHost true (fun _ => 0) 1 18446744073709547519) ∧
    (1 - pageStart pagedHost 1 + 18446744073709547519 + pagedHost.pageSize).toNat = 0 ∧
    checkedPageRange pagedHost 1 18446744073709547519 = none := by
  refine ⟨?_, by decide, by decide⟩
  rw [@mrWrapBuffer_of_unmapped pagedHost 12 rfl 1 18446744073709547519 _ (by decide) (by decide)
    (by decide) (by decide)]
  exact ownCopy_not_rejects _ _ _ _

end MetalRuntime
