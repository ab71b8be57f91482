import MetalRuntime.SharedArrays

/-!
# Arrays of their own

What a program would see if each buffer had bytes of its own and lived forever, with no addresses.
Memory agrees with such buffers as long as live allocations do not overlap. A write through a view
or a store of a kernel then changes one buffer in both, and a new allocation none.
-/

namespace MetalRuntime

open Foundations

/-- A launch on buffers with bytes of their own. -/
structure SeparateFlight where
  ranges : List (ℕ × SizeT)
  kernel : StoringKernel

/-- Buffers with bytes of their own, which live forever, and arrays that are names for them. -/
structure SeparateArrays where
  buffers : Handles TypedBuffer
  views : Handles (ℕ × DLDataType)
  batches : Batches SeparateFlight

namespace SeparateArrays

/-- No object yet. -/
def initial : SeparateArrays := ⟨.empty, .empty, .initial⟩

/-- The array behind an argument. -/
def fetch (t : SeparateArrays) : ArrayArg → Option UploadArray
  | .own array => some array
  | .view view => do
    let (owner, dtype) ← t.views.live view
    let b ← t.buffers.live owner
    (b.view dtype).toOption

/-- The array is an export of the buffer. -/
def Exports (t : SeparateArrays) (handle : ℕ) : ArrayArg → Prop
  | .own _ => False
  | .view view => (t.views.live view).map Prod.fst = some handle

instance (t : SeparateArrays) (handle : ℕ) (array : ArrayArg) :
    Decidable (t.Exports handle array) :=
  match array with
  | .own _ => inferInstanceAs (Decidable False)
  | .view _ => inferInstanceAs (Decidable (_ = _))

/-- One byte of a buffer is stored. -/
def storeByte (buffers : Handles TypedBuffer) (handle place : ℕ) (byte : UInt8) :
    Handles TypedBuffer :=
  match buffers.live handle with
  | some b => buffers.set handle (b.store place byte)
  | none => buffers

/-- The contents of the buffers that a launch is bound to. -/
def inputs (flight : SeparateFlight) (buffers : Handles TypedBuffer) :
    List (ByteString × SizeT) :=
  flight.ranges.map fun range => ((buffers.live range.1).elim [] TypedBuffer.contents, range.2)

/-- What a launch makes of the buffers. -/
def complete (flight : SeparateFlight) (buffers : Handles TypedBuffer) : Handles TypedBuffer :=
  (flight.kernel.run (inputs flight buffers)).foldl
    (fun buffers store => match flight.ranges[store.range]? with
      | some range => storeByte buffers range.1 store.place store.byte
      | none => buffers) buffers

/-- What a call of a batch leaves behind. -/
def finish (t : SeparateArrays) :
    Except Failure Unit × Batches SeparateFlight → ArrayShown × SeparateArrays
  | (.error failure, batches) => (.raised (.thrown failure), { t with batches })
  | (.ok (), batches) => (.done, { t with batches })

/-- One step. What is forgotten and freed makes no difference. -/
def step (t : SeparateArrays) : ArrayCall → Option (ArrayShown × SeparateArrays)
  | .create host found source => do
    let source ← source.source t.fetch
    match source.build host found with
    | .error failure => some (.raised (.thrown failure), t)
    | .ok (_, made) => some (.made t.buffers.next, { t with buffers := t.buffers.create made })
  | .exportArray handle call => do
    let b ← t.buffers.live handle
    match b.exportArray call with
    | .error failure => some (.raised failure, t)
    | .ok array => some (.made t.views.next, { t with
        views := t.views.create (handle, array.dtype) })
  | .copyFrom handle array overrideName => do
    let b ← t.buffers.live handle
    let source ← t.fetch array
    match b.checkIncoming source overrideName with
    | .error failure => some (.raised (.thrown failure), t)
    | .ok () =>
      if t.Exports handle array ∧ source.nbytes ≠ 0 then
        some (.raised (.thrown .undefinedBehavior), t)
      else some (.done, { t with buffers := t.buffers.set handle (b.fill source.data) })
  | .read view => do
    let array ← t.fetch (.view view)
    some (.bytes array.data, t)
  | .store view place byte => do
    let array ← t.fetch (.view view)
    let (owner, _) ← t.views.live view
    if place < array.nbytes then
      some (.done, { t with buffers := storeByte t.buffers owner place byte })
    else none
  | .newBatch rt commandBuffer encoder =>
    match t.batches.create rt commandBuffer encoder with
    | .error failure => some (.raised (.thrown failure), t)
    | .ok (batch, batches) => some (.made batch, { t with batches })
  | .add batch params kernel =>
    match prepare params with
    | .error failure => some (.raised (.thrown failure), t)
    | .ok prepared => (t.batches.add batch prepared.launch {
        ranges := List.zipWith (fun buffer binding => (buffer.object, binding.offset))
          params.rangeBuffers prepared.launch.ranges
        kernel }).map t.finish
  | .onBatch batch event => (t.batches.step batch event).map t.finish
  | .runLaunch batch position => do
    let (flight, batches) ← t.batches.run batch position
    some (.done, { t with buffers := complete flight t.buffers, batches })
  | .forget _ => some (.done, t)
  | .forgetView view => some (.done, { t with views := t.views.release (some view) })
  | .forgetBatch batch => some (.done, { t with batches := t.batches.drop batch })
  | .free _ => some (.done, t)

end SeparateArrays

/-- The buffers that are alive have the bytes that memory holds for them, in allocations of their
own. -/
structure PyBuffer.Agrees (memory : Memory) (buffers : Handles PyBuffer)
    (arrays : Handles TypedBuffer) : Prop where
  next : arrays.next = buffers.next
  bounded : buffers.Bounded
  live : ∀ handle b, buffers.live handle = some b →
    arrays.live handle = some (b.typed memory) ∧ (b.typed memory).WellFormed
  apart : ∀ handle other b c, buffers.live handle = some b → buffers.live other = some c →
    handle ≠ other → b.Apart c

namespace PyBuffer

variable {memory : Memory} {buffers : Handles PyBuffer} {arrays : Handles TypedBuffer}
  {b : PyBuffer} {handle : ℕ}

/-- The invariant of a buffer does not depend on its bytes. -/
theorem typed_wellFormed (h : (b.typed memory).WellFormed) (other : Memory) :
    (b.typed other).WellFormed :=
  ⟨h.supported, h.sized, h.allocated, Memory.length_read _ _ _⟩

/-- The elements of a buffer are in its allocation. -/
theorem size_le_length (h : (b.typed memory).WellFormed) : b.buffer.size.toNat ≤ b.length := by
  have hle := h.nbytes_le
  rwa [typed, Memory.length_read] at hle

/-- A write into one allocation changes the bytes of its buffer, and no others. -/
theorem Agrees.write (h : Agrees memory buffers arrays) (hlive : buffers.live handle = some b)
    {place : ℕ} {bytes : ByteString} (hinside : place + bytes.length ≤ b.length) :
    Agrees (memory.write (b.start + place) bytes) buffers (arrays.set handle
      { b.typed memory with
        contents := overwrite (memory.read b.start b.length) place bytes }) := by
  refine ⟨h.next, h.bounded, ?_, h.apart⟩
  intro other c hother
  obtain ⟨harray, hwell⟩ := h.live other c hother
  refine ⟨?_, typed_wellFormed hwell _⟩
  by_cases heq : other = handle
  · subst heq
    cases hlive.symm.trans hother
    rw [Handles.live_set_self, typed, typed, Memory.read_write_of_inside _ _ hinside]
  · have hread : (memory.write (b.start + place) bytes).read c.start c.length =
        memory.read c.start c.length := by
      apply Memory.read_write_of_disjoint
      rcases h.apart other handle c b hother hlive heq with hbelow | habove
      · exact Or.inl (by omega)
      · exact Or.inr (by omega)
    rw [Handles.live_set_of_ne _ _ heq, harray, typed, typed, hread]

/-- A new allocation is apart from the others and leaves their bytes alone. -/
theorem Agrees.create (h : Agrees memory buffers arrays) {made : TypedBuffer}
    (hmade : made.WellFormed) (hb : b = made.toPyBuffer)
    (hunused : ∀ other c, buffers.live other = some c → c.Apart b) :
    Agrees (memory.write b.start made.contents) (buffers.create b) (arrays.create made) := by
  have hlength : made.contents.length = b.length := by
    rw [hmade.length_contents, hb]
    rfl
  have hnew : b.typed (memory.write b.start made.contents) = made := by
    rw [typed, ← hlength, Memory.read_write_self, hb]
  have hcases : ∀ other c, (buffers.create b).live other = some c →
      other = buffers.next ∧ c = b ∨ other ≠ buffers.next ∧ buffers.live other = some c := by
    intro other c hother
    by_cases heq : other = buffers.next
    · subst heq
      rw [Handles.live_create_self] at hother
      exact Or.inl ⟨rfl, (Option.some.inj hother).symm⟩
    · rw [Handles.live_create_of_ne _ _ heq] at hother
      exact Or.inr ⟨heq, hother⟩
  refine ⟨congrArg (· + 1) h.next, h.bounded.create b, ?_, ?_⟩
  · intro other c hother
    rcases hcases other c hother with ⟨rfl, rfl⟩ | ⟨hne, hold⟩
    · rw [hnew, ← h.next, Handles.live_create_self]
      exact ⟨rfl, hmade⟩
    · obtain ⟨harray, hwell⟩ := h.live other c hold
      have hread : (memory.write b.start made.contents).read c.start c.length =
          memory.read c.start c.length := by
        apply Memory.read_write_of_disjoint
        rw [hlength]
        exact hunused other c hold
      rw [Handles.live_create_of_ne _ _ (h.next ▸ hne), harray, typed, typed, hread]
      exact ⟨rfl, typed_wellFormed hwell memory⟩
  · intro first second c d hfirst hsecond hne
    rcases hcases first c hfirst with ⟨rfl, rfl⟩ | ⟨-, hold⟩
    · rcases hcases second d hsecond with ⟨rfl, -⟩ | ⟨-, hold'⟩
      · exact absurd rfl hne
      · exact (hunused second d hold').symm
    · rcases hcases second d hsecond with ⟨rfl, rfl⟩ | ⟨-, hold'⟩
      · exact hunused first c hold
      · exact h.apart first second c d hold hold' hne

/-- What is freed does not matter any more. -/
theorem Agrees.release (h : Agrees memory buffers arrays) (handle : ℕ) :
    Agrees memory (buffers.release (some handle)) arrays := by
  refine ⟨h.next, h.bounded.release _, ?_, ?_⟩
  · exact fun other b hother => h.live other b (Handles.live_of_release _ hother)
  · intro first second b c hfirst hsecond
    exact h.apart first second b c (Handles.live_of_release _ hfirst)
      (Handles.live_of_release _ hsecond)

end PyBuffer

/-- The view shows all elements of a buffer, in a type of their width. -/
structure ArrayView.Shows (view : ArrayView) (b : PyBuffer) : Prop where
  address : view.address = b.buffer.contents
  shape : view.shape = b.shape
  width : view.dtype.itemsize = b.dtype.itemsize

namespace ArrayView

variable {view : ArrayView} {b : PyBuffer} {memory : Memory}

/-- A view has as many bytes as its buffer. -/
theorem Shows.count_eq (h : view.Shows b) (hwell : (b.typed memory).WellFormed) :
    (extents view.shape).foldl (· * ·) 1 * view.dtype.itemsize = b.buffer.size.toNat := by
  rw [h.shape, h.width, ← List.prod_eq_foldl, ← exactByteCount]
  exact hwell.nbytes_eq.symm

/-- What a view points to is the array that its buffer exports. -/
theorem Shows.view_eq (h : view.Shows b) (hwell : (b.typed memory).WellFormed) :
    (b.typed memory).view view.dtype = .ok (view.array memory) := by
  have hcount := h.count_eq hwell
  have hle := PyBuffer.size_le_length hwell
  obtain ⟨owner, dtype, shape, address⟩ := view
  obtain ⟨rfl, rfl, -⟩ := h
  have hfits : (extents (b.typed memory).shape).foldl (· * ·) 1 * dtype.itemsize ≤
      (b.typed memory).contents.length := by
    rw [PyBuffer.typed, Memory.length_read]
    exact hcount.trans_le hle
  have hdata := Memory.take_read memory b.start (hcount.trans_le hle)
  rw [TypedBuffer.view, dif_pos hfits, array]
  congr 3

/-- Elements are exported in a type of their width. -/
theorem width_of_exportDtype {b : TypedBuffer} {name : Option ByteString} {out : DType}
    (h : b.exportDtype name = .ok out) : out.itemsize = b.dtype.itemsize := by
  cases name with
  | none =>
    cases h
    rfl
  | some name =>
    obtain ⟨requested, -, hrest⟩ := bind_eq_ok_iff.mp h
    rw [check_bind_eq_ok, rejectIf_eq_ok] at hrest
    cases hrest.2
    exact not_not.mp hrest.1

/-- A name of a type is refused, or means a type. -/
theorem exportDtype_defined (b : TypedBuffer) (name : Option ByteString) :
    Defined (b.exportDtype name) := by
  cases name with
  | none => exact failsOnly_ok _ _
  | some name =>
    refine (defined_of_failsOnly (dtypeFromName_failsOnly name)).bind fun _ _ => ?_
    exact (failsOnly_rejectIf (by simp)).bind fun _ _ => failsOnly_ok _ _

/-- An export is refused, or shows the elements in a type of their width. -/
theorem exportArray_cases (b : TypedBuffer) (call : ExportCall) :
    (∃ failure, b.exportArray call = .error failure ∧ failure ≠ .thrown .undefinedBehavior) ∨
    ∃ out : DType, out.itemsize = b.dtype.itemsize ∧
      b.exportArray call = b.view (toDlpack out) := by
  cases call with
  | toNumpy name =>
    rw [TypedBuffer.exportArray, TypedBuffer.toNumpy]
    split
    · next failure hfailure =>
      refine Or.inl ⟨_, rfl, fun hundefined => ?_⟩
      cases hundefined
      exact exportDtype_defined b name _ hfailure rfl
    · next out hexport =>
      split
      · exact Or.inl ⟨_, rfl, by simp⟩
      · exact Or.inr ⟨out, width_of_exportDtype hexport, rfl⟩
  | dlpack args =>
    rw [TypedBuffer.exportArray, TypedBuffer.dlpack]
    split
    · exact Or.inl ⟨_, rfl, by simp⟩
    · split
      · exact Or.inl ⟨_, rfl, by simp⟩
      · split
        · exact Or.inl ⟨_, rfl, by simp⟩
        · exact Or.inr ⟨b.dtype, rfl, rfl⟩

/-- An exported array is a view of its buffer. -/
theorem shows_of_export {call : ExportCall}
    {array : UploadArray} (h : (b.typed memory).exportArray call = .ok array) (owner : ℕ) :
    (⟨owner, array.dtype, array.words, array.address⟩ : ArrayView).Shows b := by
  rcases exportArray_cases (b.typed memory) call with
    ⟨failure, hrefused, -⟩ | ⟨out, hwidth, hview⟩
  · cases hrefused.symm.trans h
  · rw [hview, TypedBuffer.view] at h
    split at h
    · cases h
      exact ⟨rfl, UploadArray.words_eq rfl, (toDlpack_itemsize out).trans hwidth⟩
    · cases h

end ArrayView

/-- A launch points to buffers that are there. -/
structure Flight.Matches (buffers : Handles PyBuffer) (flight : Flight)
    (separate : SeparateFlight) : Prop where
  kernel : separate.kernel = flight.kernel
  ranges : List.Forall₂ (fun binding range => range.2 = binding.offset ∧
      ∃ b, buffers.live range.1 = some b ∧ b.buffer = binding.buffer)
    flight.launch.ranges separate.ranges

/-- It still does if what its command buffer refers to stays. -/
theorem Flight.Matches.mono {buffers buffers' : Handles PyBuffer} {flight : Flight}
    {separate : SeparateFlight} (h : flight.Matches buffers separate)
    (hkept : ∀ handle b, buffers.live handle = some b → flight.Retains b →
      buffers'.live handle = some b) : flight.Matches buffers' separate := by
  have hmem := (List.forall₂_and_left _ _).mpr
    ⟨fun binding (hbinding : binding ∈ flight.launch.ranges) => hbinding, h.ranges⟩
  refine ⟨h.kernel, hmem.imp ?_⟩
  intro binding range hrange
  obtain ⟨hbinding, hoffset, b, hlive, hbuffer⟩ := hrange
  exact ⟨hoffset, b, hkept range.1 b hlive ⟨binding, hbinding, hbuffer.symm⟩, hbuffer⟩

/-- Memory shows what the separate buffers hold. -/
structure SharedArrays.Refines (s : SharedArrays) (t : SeparateArrays) : Prop where
  agrees : PyBuffer.Agrees s.memory s.buffers t.buffers
  nextView : t.views.next = s.views.next
  boundedViews : s.views.Bounded
  views : ∀ number view, s.views.live number = some view →
    t.views.live number = some (view.owner, view.dtype) ∧
      ∃ b, s.buffers.live view.owner = some b ∧ view.Shows b
  sound : s.batches.Sound
  batches : Batches.Related (Flight.Matches s.buffers) s.batches t.batches

namespace SharedArrays

variable {s s' : SharedArrays} {t : SeparateArrays}

/-- A buffer that the program refers to is alive. -/
theorem live_of_buffer? {handle : ℕ} {b : PyBuffer} (h : s.buffer? handle = some b) :
    s.buffers.live handle = some b := by
  rw [buffer?] at h
  split at h
  · exact h
  · cases h

/-- An array that is passed is the same. -/
theorem Refines.fetch (h : s.Refines t) {array : ArrayArg} {source : UploadArray}
    (hfetch : s.fetch array = some source) : t.fetch array = some source := by
  cases array with
  | own array => exact hfetch
  | view number =>
    obtain ⟨view, hview, rfl⟩ := Option.map_eq_some_iff.mp hfetch
    obtain ⟨hname, b, hlive, hshows⟩ := h.views number view hview
    obtain ⟨harray, hwell⟩ := h.agrees.live _ b hlive
    simp only [SeparateArrays.fetch, hname, harray, Option.bind_eq_bind, Option.bind_some]
    rw [hshows.view_eq hwell]
    rfl

/-- A buffer is constructed from the same. -/
theorem Refines.source (h : s.Refines t) {arg : SourceArg} {source : BufferSource}
    (hsource : arg.source s.fetch = some source) : arg.source t.fetch = some source := by
  cases arg with
  | upload array overrideName =>
    obtain ⟨fetched, hfetched, rfl⟩ := Option.map_eq_some_iff.mp hsource
    rw [SourceArg.source, h.fetch hfetched]
    rfl
  | zeros shape name => exact hsource
  | empty shape name => exact hsource

/-- Ranges overlap exactly if they are one buffer that is not empty. -/
theorem Refines.overlaps_iff (h : s.Refines t) {handle : ℕ} {b : PyBuffer}
    (hlive : s.buffers.live handle = some b) {array : ArrayArg} {source : UploadArray}
    (hfetch : s.fetch array = some source) (hcount : source.nbytes = b.buffer.size.toNat) :
    Overlaps b source array ↔ t.Exports handle array ∧ source.nbytes ≠ 0 := by
  cases array with
  | own array => exact iff_of_false id fun h => h.1
  | view number =>
    obtain ⟨view, hview, rfl⟩ := Option.map_eq_some_iff.mp hfetch
    obtain ⟨hname, c, hlive', hshows⟩ := h.views number view hview
    obtain ⟨-, hwell⟩ := h.agrees.live _ c hlive'
    obtain ⟨-, hwell'⟩ := h.agrees.live _ b hlive
    have hsize := PyBuffer.size_le_length hwell'
    have hcount' : (view.array s.memory).nbytes = c.buffer.size.toNat := hshows.count_eq hwell
    have hsize' := PyBuffer.size_le_length hwell
    have haddress : (view.array s.memory).address.toNat = c.start := by
      rw [PyBuffer.start, ← hshows.address]
      rfl
    rw [Overlaps, haddress, SeparateArrays.Exports, hname, Option.map_some, Option.some.injEq]
    by_cases howner : view.owner = handle
    · subst howner
      cases hlive.symm.trans hlive'
      simp only [true_and]
      omega
    · have hapart := h.agrees.apart handle view.owner b c hlive hlive' (Ne.symm howner)
      refine iff_of_false (not_not.mpr ?_) fun h => howner h.1
      rcases hapart with hbelow | habove
      · exact Or.inl (by omega)
      · exact Or.inr (by omega)

/-- The launch that `prepare` makes points to the buffers of the arguments. -/
theorem matches_of_prepare {params : LaunchParams} (hpasses : s.Passes params)
    {prepared : PreparedLaunch} (hprepare : prepare params = .ok prepared)
    (kernel : StoringKernel) : Flight.Matches s.buffers ⟨prepared.launch, kernel⟩ {
      ranges := List.zipWith (fun buffer binding => (buffer.object, binding.offset))
        params.rangeBuffers prepared.launch.ranges
      kernel } := by
  obtain ⟨howns, -⟩ := prepare_eq_ok hprepare
  have hsame : prepared.launch.ranges.map BufferBinding.buffer =
      params.rangeBuffers.map (·.buffer) := by
    rw [Launch.ranges, LaunchParams.rangeBuffers, List.map_append, List.map_append, howns.buffers,
      howns.indirectGrid]
    cases params.indirectBuffer <;> rfl
  refine ⟨rfl, (forall₂_zipWith_of_map_eq hsame).imp ?_⟩
  intro binding range hrange
  obtain ⟨buffer, hmem, hbuffer, rfl⟩ := hrange
  exact ⟨rfl, buffer.toPyBuffer, live_of_buffer? (hpasses buffer hmem), hbuffer.symm⟩

section Completion

variable {memory : Memory} {buffers : Handles PyBuffer} {arrays : Handles TypedBuffer}
  {flight : Flight} {separate : SeparateFlight}

/-- One byte is stored in memory and in its buffer. -/
theorem agrees_storeByte (h : PyBuffer.Agrees memory buffers arrays) {handle : ℕ}
    {b : PyBuffer} (hlive : buffers.live handle = some b) {place : ℕ}
    (hinside : place < b.length) (byte : UInt8) :
    PyBuffer.Agrees (memory.write (b.start + place) [byte]) buffers
      (SeparateArrays.storeByte arrays handle place byte) := by
  rw [SeparateArrays.storeByte, (h.live handle b hlive).1]
  exact h.write hlive hinside

/-- The bytes that a kernel is bound to are those of its buffers. -/
theorem inputs_eq (h : PyBuffer.Agrees memory buffers arrays)
    (hmatches : flight.Matches buffers separate) :
    flight.inputs memory = SeparateArrays.inputs separate arrays := by
  refine map_eq_of_forall₂ hmatches.ranges ?_
  intro binding range hrange
  obtain ⟨hoffset, b, hlive, hbuffer⟩ := hrange
  rw [(h.live range.1 b hlive).1, hoffset, ← hbuffer]
  rfl

/-- A launch makes the same of memory and of the buffers. -/
theorem agrees_complete (h : PyBuffer.Agrees memory buffers arrays)
    (hmatches : flight.Matches buffers separate) :
    PyBuffer.Agrees (flight.complete memory) buffers
      (SeparateArrays.complete separate arrays) := by
  rw [Flight.complete, SeparateArrays.complete, ← inputs_eq h hmatches, hmatches.kernel]
  have hinside : ∀ store ∈ flight.kernel.run (flight.inputs memory), ∃ binding,
      flight.launch.ranges[store.range]? = some binding ∧
        store.place < binding.buffer.handle.length.toNat := by
    intro store hstore
    obtain ⟨input, hinput, hplace⟩ := flight.kernel.inside _ store hstore
    rw [Flight.inputs, List.getElem?_map] at hinput
    obtain ⟨binding, hbinding, rfl⟩ := Option.map_eq_some_iff.mp hinput
    rw [Memory.length_read] at hplace
    exact ⟨binding, hbinding, hplace⟩
  generalize flight.kernel.run (flight.inputs memory) = stores at hinside
  induction stores generalizing memory arrays with
  | nil => exact h
  | cons store stores ih =>
    rw [List.forall_mem_cons] at hinside
    rw [List.foldl_cons, List.foldl_cons]
    refine ih ?_ hinside.2
    obtain ⟨binding, hbinding, hplace⟩ := hinside.1
    obtain ⟨range, hrange, -, b, hlive, hbuffer⟩ := forall₂_getElem? hmatches.ranges hbinding
    rw [Flight.storeByte, hbinding, hrange]
    simp only
    rw [← hbuffer] at hplace ⊢
    exact agrees_storeByte h hlive hplace store.byte

end Completion

end SharedArrays

end MetalRuntime
