import MetalRuntime.SeparateArrays

/-!
# Lifetimes of arrays

Each step of a program on shared memory is a step on separate buffers. A buffer is freed only when
no name, no exported array, no batch and no command buffer refers to it. So the program cannot tell
its memory from buffers that each have bytes of their own and live forever.
-/

namespace MetalRuntime

open Foundations

namespace SharedArrays

variable {s s' : SharedArrays} {t : SeparateArrays}

/-- A change of bytes only. -/
theorem Refines.agree (h : s.Refines t) {memory : Memory} {arrays : Handles TypedBuffer}
    (hagrees : PyBuffer.Agrees memory s.buffers arrays) :
    { s with memory }.Refines { t with buffers := arrays } :=
  ⟨hagrees, h.nextView, h.boundedViews, h.views, h.sound, h.batches⟩

/-- A new buffer leaves views and launches alone. -/
theorem Refines.create (h : s.Refines t) {made : TypedBuffer} (hmade : made.WellFormed)
    {b : PyBuffer} (hb : b = made.toPyBuffer) (hunused : s.Unused b)
    (named : List ℕ) :
    { s with
      memory := s.memory.write b.start made.contents
      buffers := s.buffers.create b
      named }.Refines { t with buffers := t.buffers.create made } := by
  have hkept : ∀ handle c, s.buffers.live handle = some c →
      (s.buffers.create b).live handle = some c :=
    fun handle c hlive => h.agrees.bounded.live_create hlive b
  refine ⟨h.agrees.create hmade hb ?_, h.nextView, h.boundedViews, ?_, h.sound, ?_⟩
  · intro other c hlive
    refine hunused other ?_ c hlive
    by_contra hle
    rw [h.agrees.bounded other (not_lt.mp hle)] at hlive
    cases hlive
  · intro number view hview
    obtain ⟨hname, c, hlive, hshows⟩ := h.views number view hview
    exact ⟨hname, c, hkept _ c hlive, hshows⟩
  · exact h.batches.mono fun _ _ _ _ hmatches =>
      hmatches.mono fun handle c hlive _ => hkept handle c hlive

/-- A new view of a buffer. -/
theorem Refines.createView (h : s.Refines t) {view : ArrayView} {b : PyBuffer}
    (hlive : s.buffers.live view.owner = some b) (hshows : view.Shows b) :
    { s with views := s.views.create view }.Refines
      { t with views := t.views.create (view.owner, view.dtype) } := by
  refine ⟨h.agrees, congrArg (· + 1) h.nextView, h.boundedViews.create view, ?_, h.sound,
    h.batches⟩
  intro number other hother
  by_cases heq : number = s.views.next
  · subst heq
    rw [Handles.live_create_self] at hother
    cases hother
    rw [← h.nextView, Handles.live_create_self]
    exact ⟨rfl, b, hlive, hshows⟩
  · rw [Handles.live_create_of_ne _ _ heq] at hother
    rw [Handles.live_create_of_ne _ _ (h.nextView ▸ heq)]
    exact h.views number other hother

/-- A view that the program forgets. -/
theorem Refines.releaseView (h : s.Refines t) (number : ℕ) :
    { s with views := s.views.release (some number) }.Refines
      { t with views := t.views.release (some number) } := by
  refine ⟨h.agrees, h.nextView, h.boundedViews.release _, ?_, h.sound, h.batches⟩
  intro other view hview
  have hne : some number ≠ some other := by
    intro heq
    cases heq
    rw [Handles.live_release_self] at hview
    cases hview
  rw [Handles.live_release_of_ne _ hne] at hview ⊢
  exact h.views other view hview

/-- A buffer that nothing keeps alive is freed. -/
theorem Refines.free (h : s.Refines t) {handle : ℕ} (hunreachable : s.Unreachable handle) :
    { s with buffers := s.buffers.release (some handle) }.Refines t := by
  obtain ⟨-, hviews, -, hunretained⟩ := hunreachable
  refine ⟨h.agrees.release handle, h.nextView, h.boundedViews, ?_, h.sound, ?_⟩
  · intro number view hview
    obtain ⟨hname, b, hlive, hshows⟩ := h.views number view hview
    have hlt : number < s.views.next := by
      by_contra hle
      rw [h.boundedViews number (not_lt.mp hle)] at hview
      cases hview
    refine ⟨hname, b, ?_, hshows⟩
    rwa [Handles.live_release_of_ne]
    exact fun heq => hviews number hlt view hview (Option.some.inj heq).symm
  · refine h.batches.mono fun number entry hentry separate hmatches => ?_
    refine hmatches.mono fun kept b hlive hretains => ?_
    rw [Handles.live_release_of_ne]
    · exact hlive
    · intro heq
      cases heq
      have hlt : number < s.batches.systems.next := by
        by_contra hle
        rw [h.sound.flights number (not_lt.mp hle)] at hentry
        cases hentry
      exact hunretained b hlive number hlt entry hentry hretains

/-- A step of the batches. -/
theorem Refines.batch (h : s.Refines t) {batches : Batches Flight}
    {separate : Batches SeparateFlight} (hsound : batches.Sound)
    (hrelated : Batches.Related (Flight.Matches s.buffers) batches separate) (held : List ℕ)
    (keepalive : ℕ → List ℕ) :
    { s with batches, held, keepalive }.Refines { t with batches := separate } :=
  ⟨h.agrees, h.nextView, h.boundedViews, h.views, hsound, hrelated⟩

/-- A call of a batch shows the same. -/
theorem Refines.finish (h : s.Refines t) (outcome : Except Failure Unit)
    {batches : Batches Flight} {separate : Batches SeparateFlight} (hsound : batches.Sound)
    (hrelated : Batches.Related (Flight.Matches s.buffers) batches separate)
    (keepalive : ℕ → List ℕ) :
    (t.finish (outcome, separate)).1 = (s.finish keepalive (outcome, batches)).1 ∧
      (s.finish keepalive (outcome, batches)).2.Refines (t.finish (outcome, separate)).2 := by
  cases outcome with
  | error failure => exact ⟨rfl, h.batch hsound hrelated s.held s.keepalive⟩
  | ok => exact ⟨rfl, h.batch hsound hrelated s.held keepalive⟩

section Steps

variable {shown : ArrayShown}

/-- Making a buffer shows the same of separate buffers. -/
theorem Refines.step_create (h : s.Refines t) {host : Host} {found : ℕ → UInt8} {source : SourceArg}
    (hstep : s.step (.create host found source) = some (shown, s')) :
    ∃ t', t.step (.create host found source) = some (shown, t') ∧ s'.Refines t' := by
  obtain ⟨source', hsource, hrest⟩ := Option.bind_eq_some_iff.mp hstep
  simp only [SeparateArrays.step, h.source hsource, Option.bind_eq_bind, Option.bind_some]
  cases hbuild : source'.build host found with
  | error failure =>
    rw [hbuild] at hrest
    cases hrest
    exact ⟨t, rfl, h⟩
  | ok built =>
    obtain ⟨copied, made⟩ := built
    simp only [hbuild] at hrest
    split at hrest
    · next hunused =>
      cases hrest
      rw [← h.agrees.next]
      refine ⟨_, rfl, ?_⟩
      exact h.create (source'.build_spec hbuild).1 rfl hunused _
    · cases hrest

/-- So does exporting an array. -/
theorem Refines.step_exportArray (h : s.Refines t) {handle : ℕ} {call : ExportCall}
    (hstep : s.step (.exportArray handle call) = some (shown, s')) :
    ∃ t', t.step (.exportArray handle call) = some (shown, t') ∧ s'.Refines t' := by
  obtain ⟨b, hb, hrest⟩ := Option.bind_eq_some_iff.mp hstep
  have hlive := live_of_buffer? hb
  simp only [SeparateArrays.step, (h.agrees.live handle b hlive).1, Option.bind_eq_bind,
    Option.bind_some]
  cases hexport : (b.typed s.memory).exportArray call with
  | error failure =>
    rw [hexport] at hrest
    cases hrest
    exact ⟨t, rfl, h⟩
  | ok array =>
    rw [hexport] at hrest
    cases hrest
    rw [← h.nextView]
    refine ⟨_, rfl, ?_⟩
    exact h.createView hlive (ArrayView.shows_of_export hexport handle)

/-- So does a copy, which overlaps itself exactly where the array is an export of the buffer. -/
theorem Refines.step_copyFrom (h : s.Refines t) {handle : ℕ} {array : ArrayArg}
    {overrideName : Option ByteString}
    (hstep : s.step (.copyFrom handle array overrideName) = some (shown, s')) :
    ∃ t', t.step (.copyFrom handle array overrideName) = some (shown, t') ∧ s'.Refines t' := by
  obtain ⟨b, hb, hrest⟩ := Option.bind_eq_some_iff.mp hstep
  obtain ⟨source, hsource, hrest⟩ := Option.bind_eq_some_iff.mp hrest
  have hlive := live_of_buffer? hb
  obtain ⟨harray, hwell⟩ := h.agrees.live handle b hlive
  simp only [SeparateArrays.step, harray, h.fetch hsource, Option.bind_eq_bind, Option.bind_some]
  cases hcheck : (b.typed s.memory).checkIncoming source overrideName with
  | error failure =>
    rw [hcheck] at hrest
    cases hrest
    exact ⟨t, rfl, h⟩
  | ok =>
    have hcount : source.nbytes = b.buffer.size.toNat :=
      (TypedBuffer.checkIncoming_eq_ok.mp hcheck).2
    simp only [hcheck, h.overlaps_iff hlive hsource hcount] at hrest ⊢
    split at hrest
    · next hsame =>
      cases hrest
      rw [if_pos hsame]
      exact ⟨t, rfl, h⟩
    · next hsame =>
      cases hrest
      rw [if_neg hsame]
      refine ⟨_, rfl, h.agree ?_⟩
      have hinside : 0 + source.data.length ≤ b.length := by
        rw [source.length_data_eq, hcount, Nat.zero_add]
        exact PyBuffer.size_le_length hwell
      have hwritten := h.agrees.write hlive hinside
      rw [overwrite, List.take_zero, List.nil_append, Nat.zero_add] at hwritten
      exact hwritten

/-- Reading an exported array shows the bytes of its buffer. -/
theorem Refines.step_read (h : s.Refines t) {number : ℕ}
    (hstep : s.step (.read number) = some (shown, s')) :
    ∃ t', t.step (.read number) = some (shown, t') ∧ s'.Refines t' := by
  obtain ⟨view, hview, hrest⟩ := Option.bind_eq_some_iff.mp hstep
  cases hrest
  have hfetch : s.fetch (.view number) = some (view.array s.memory) :=
    Option.map_eq_some_iff.mpr ⟨view, hview, rfl⟩
  refine ⟨t, ?_, h⟩
  rw [SeparateArrays.step, h.fetch hfetch]
  rfl

/-- Writing through one changes them. -/
theorem Refines.step_store (h : s.Refines t) {number place : ℕ} {byte : UInt8}
    (hstep : s.step (.store number place byte) = some (shown, s')) :
    ∃ t', t.step (.store number place byte) = some (shown, t') ∧ s'.Refines t' := by
  obtain ⟨view, hview, hrest⟩ := Option.bind_eq_some_iff.mp hstep
  have hfetch : s.fetch (.view number) = some (view.array s.memory) :=
    Option.map_eq_some_iff.mpr ⟨view, hview, rfl⟩
  obtain ⟨hname, b, hlive, hshows⟩ := h.views number view hview
  have hwell := (h.agrees.live _ b hlive).2
  simp only [SeparateArrays.step, h.fetch hfetch, hname, Option.bind_eq_bind, Option.bind_some]
  split at hrest
  · next hplace =>
    cases hrest
    rw [if_pos hplace]
    refine ⟨_, rfl, h.agree ?_⟩
    have hcount : (view.array s.memory).nbytes = b.buffer.size.toNat := hshows.count_eq hwell
    rw [hshows.address]
    refine agrees_storeByte h.agrees hlive ?_ byte
    exact (hcount ▸ hplace).trans_le (PyBuffer.size_le_length hwell)
  · cases hrest

/-- A batch is made on both sides, or its constructor throws on both. -/
theorem Refines.step_newBatch (h : s.Refines t) {rt : Runtime} {commandBuffer encoder : Option ℕ}
    (hstep : s.step (.newBatch rt commandBuffer encoder) = some (shown, s')) :
    ∃ t', t.step (.newBatch rt commandBuffer encoder) = some (shown, t') ∧ s'.Refines t' := by
  simp only [SharedArrays.step] at hstep
  cases hcreate : s.batches.create rt commandBuffer encoder with
  | error failure =>
    rw [hcreate] at hstep
    cases hstep
    refine ⟨t, ?_, h⟩
    rw [SeparateArrays.step, Batches.create_error hcreate]
  | ok made =>
    obtain ⟨batch, batches⟩ := made
    rw [hcreate] at hstep
    cases hstep
    obtain ⟨separate, hseparate, hrelated⟩ := h.batches.create hcreate
    rw [SeparateArrays.step, hseparate]
    exact ⟨_, rfl, h.batch (Batches.create_sound h.sound hcreate) hrelated _ _⟩

/-- A launch is added on both sides, or `prepare` or `add` refuses it on both. -/
theorem Refines.step_add (h : s.Refines t) {batch : ℕ} {params : LaunchParams}
    {kernel : StoringKernel} (hstep : s.step (.add batch params kernel) = some (shown, s')) :
    ∃ t', t.step (.add batch params kernel) = some (shown, t') ∧ s'.Refines t' := by
  obtain ⟨⟨-, hpasses⟩, hrest⟩ := Option.ite_none_right_eq_some.mp hstep
  cases hprepare : prepare params with
  | error failure =>
    rw [hprepare] at hrest
    cases hrest
    refine ⟨t, ?_, h⟩
    rw [SeparateArrays.step, hprepare]
  | ok prepared =>
    rw [hprepare] at hrest
    obtain ⟨⟨outcome, batches⟩, hadd, hfinish⟩ := Option.map_eq_some_iff.mp hrest
    obtain ⟨separate, hseparate, hrelated⟩ :=
      h.batches.add (matches_of_prepare hpasses hprepare kernel) hadd
    obtain ⟨hshown, hrefines⟩ := h.finish outcome (Batches.add_sound h.sound hadd).2 hrelated
      (Function.update s.keepalive batch (prepared.keepalive ∪ s.keepalive batch))
    rw [hfinish] at hshown hrefines
    refine ⟨_, ?_, hrefines⟩
    rw [SeparateArrays.step, hprepare]
    exact Option.map_eq_some_iff.mpr ⟨_, hseparate, Prod.ext hshown rfl⟩

/-- A section of a batch, or the end of its command buffer, is one on both sides. -/
theorem Refines.step_onBatch (h : s.Refines t) {batch : ℕ} {event : BatchEvent}
    (hstep : s.step (.onBatch batch event) = some (shown, s')) :
    ∃ t', t.step (.onBatch batch event) = some (shown, t') ∧ s'.Refines t' := by
  obtain ⟨-, hrest⟩ := Option.ite_none_right_eq_some.mp hstep
  obtain ⟨⟨outcome, batches⟩, hperform, hfinish⟩ := Option.map_eq_some_iff.mp hrest
  obtain ⟨separate, hseparate, hrelated⟩ := h.batches.step hperform
  obtain ⟨hshown, hrefines⟩ := h.finish outcome
    (Batches.step_sound h.sound hperform).2 hrelated (s.afterSection batch event)
  rw [hfinish] at hshown hrefines
  exact ⟨_, Option.map_eq_some_iff.mpr ⟨_, hseparate, Prod.ext hshown rfl⟩, hrefines⟩

/-- The GPU runs a launch on both sides. -/
theorem Refines.step_runLaunch (h : s.Refines t) {batch position : ℕ}
    (hstep : s.step (.runLaunch batch position) = some (shown, s')) :
    ∃ t', t.step (.runLaunch batch position) = some (shown, t') ∧ s'.Refines t' := by
  obtain ⟨⟨flight, batches⟩, hrun, hrest⟩ := Option.bind_eq_some_iff.mp hstep
  cases hrest
  obtain ⟨separate, batches', hseparate, hmatches, hrelated⟩ := h.batches.run hrun
  simp only [SeparateArrays.step, hseparate, Option.bind_eq_bind, Option.bind_some]
  exact ⟨_, rfl, agrees_complete h.agrees hmatches, h.nextView, h.boundedViews, h.views,
    Batches.run_sound h.sound hrun, hrelated⟩

/-- Each step shows the same of separate buffers. -/
theorem Refines.step (h : s.Refines t) {call : ArrayCall}
    (hstep : s.step call = some (shown, s')) :
    ∃ t', t.step call = some (shown, t') ∧ s'.Refines t' := by
  cases call with
  | create => exact h.step_create hstep
  | exportArray => exact h.step_exportArray hstep
  | copyFrom => exact h.step_copyFrom hstep
  | read => exact h.step_read hstep
  | store => exact h.step_store hstep
  | newBatch => exact h.step_newBatch hstep
  | add => exact h.step_add hstep
  | onBatch => exact h.step_onBatch hstep
  | runLaunch => exact h.step_runLaunch hstep
  | forget handle =>
    cases hstep
    exact ⟨t, rfl, h.agrees, h.nextView, h.boundedViews, h.views, h.sound, h.batches⟩
  | forgetView number =>
    cases hstep
    exact ⟨_, rfl, h.releaseView number⟩
  | forgetBatch batch =>
    cases hstep
    exact ⟨_, rfl, h.batch (Batches.drop_sound h.sound batch) (h.batches.drop batch) _ _⟩
  | free handle =>
    simp only [SharedArrays.step] at hstep
    split at hstep
    · next hunreachable =>
      cases hstep
      exact ⟨t, rfl, h.free hunreachable⟩
    · cases hstep

end Steps

/-- Before the first call. -/
theorem refines_initial (memory : Memory) :
    (SharedArrays.initial memory).Refines SeparateArrays.initial where
  agrees := ⟨rfl, Handles.bounded_empty, fun _ _ hlive => (by cases hlive),
    fun _ _ _ _ hlive => (by cases hlive)⟩
  nextView := rfl
  boundedViews := Handles.bounded_empty
  views := fun _ _ hlive => (by cases hlive)
  sound := Batches.initial_sound
  batches := ⟨rfl, fun _ => .nil⟩

end SharedArrays

section Undefined

/-- An export shows no byte outside of the allocation. -/
theorem exportArray_defined {b : PyBuffer} {memory : Memory}
    (hwell : (b.typed memory).WellFormed) (call : ExportCall) :
    (b.typed memory).exportArray call ≠ .error (.thrown .undefinedBehavior) := by
  intro hundefined
  rcases ArrayView.exportArray_cases (b.typed memory) call with
    ⟨failure, hrefused, hdefined⟩ | ⟨out, hwidth, hview⟩
  · cases hrefused.symm.trans hundefined
    exact hdefined rfl
  · obtain ⟨array, harray, -⟩ := hwell.view_eq hwidth
    cases (hview.trans harray).symm.trans hundefined

/-- A section that throws no undefined behavior shows none. -/
theorem SharedArrays.finish_defined (s : SharedArrays) {outcome : Except Failure Unit}
    (h : outcome ≠ .error .undefinedBehavior) (keepalive : ℕ → List ℕ) (batches : Batches Flight)
    (s' : SharedArrays) :
    s.finish keepalive (outcome, batches) ≠ (.raised (.thrown .undefinedBehavior), s') := by
  intro hfinish
  cases outcome with
  | error failure =>
    have hshown := congrArg Prod.fst hfinish
    cases hshown
    exact h rfl
  | ok =>
    have hshown := congrArg Prod.fst hfinish
    cases hshown

/-- A copy is undefined only from an exported array into its own buffer. -/
theorem SharedArrays.Refines.undefined_copyFrom {s s' : SharedArrays} {t : SeparateArrays}
    (h : s.Refines t) {handle : ℕ} {array : ArrayArg} {overrideName : Option ByteString}
    (hstep : s.step (.copyFrom handle array overrideName) =
      some (.raised (.thrown .undefinedBehavior), s')) :
    ∃ view, array = .view view ∧ (s.views.live view).map ArrayView.owner = some handle := by
  obtain ⟨b, hb, hrest⟩ := Option.bind_eq_some_iff.mp hstep
  obtain ⟨source, hsource, hrest⟩ := Option.bind_eq_some_iff.mp hrest
  have hlive := live_of_buffer? hb
  obtain ⟨-, hwell⟩ := h.agrees.live handle b hlive
  cases hcheck : (b.typed s.memory).checkIncoming source overrideName with
  | error failure =>
    rw [hcheck] at hrest
    cases hrest
    have hinvalid := TypedBuffer.checkIncoming_failsOnly hwell.supported _ _ _ hcheck
    exact absurd rfl hinvalid.ne_undefinedBehavior
  | ok =>
    have hcount : source.nbytes = b.buffer.size.toNat :=
      (TypedBuffer.checkIncoming_eq_ok.mp hcheck).2
    simp only [hcheck, h.overlaps_iff hlive hsource hcount] at hrest
    split at hrest
    · next hsame =>
      cases array with
      | own array => exact absurd hsame.1 id
      | view number =>
        obtain ⟨view, hview, -⟩ := Option.map_eq_some_iff.mp hsource
        obtain ⟨hname, -⟩ := h.views number view hview
        have hexports := hsame.1
        rw [SeparateArrays.Exports, hname, Option.map_some] at hexports
        refine ⟨number, rfl, ?_⟩
        rw [hview, Option.map_some]
        exact hexports
    · cases hrest

/-- Only a copy of an exported array into its own buffer is undefined. -/
theorem SharedArrays.Refines.undefined {s s' : SharedArrays} {t : SeparateArrays}
    (h : s.Refines t) {call : ArrayCall}
    (hstep : s.step call = some (.raised (.thrown .undefinedBehavior), s')) :
    ∃ handle view overrideName, call = .copyFrom handle (.view view) overrideName ∧
      (s.views.live view).map ArrayView.owner = some handle := by
  cases call with
  | create host found source =>
    obtain ⟨source', hsource, hrest⟩ := Option.bind_eq_some_iff.mp hstep
    cases hbuild : source'.build host found with
    | error failure =>
      rw [hbuild] at hrest
      cases hrest
      exact absurd rfl (source'.build_failsOnly host found _ hbuild)
    | ok built =>
      simp only [hbuild] at hrest
      split at hrest <;> cases hrest
  | exportArray handle call =>
    obtain ⟨b, hb, hrest⟩ := Option.bind_eq_some_iff.mp hstep
    have hwell := (h.agrees.live handle b (live_of_buffer? hb)).2
    cases hexport : (b.typed s.memory).exportArray call with
    | error failure =>
      rw [hexport] at hrest
      cases hrest
      exact absurd hexport (exportArray_defined hwell call)
    | ok array =>
      rw [hexport] at hrest
      cases hrest
  | copyFrom handle array overrideName =>
    obtain ⟨view, rfl, howner⟩ := h.undefined_copyFrom hstep
    exact ⟨handle, view, overrideName, rfl, howner⟩
  | read view =>
    obtain ⟨view, -, hrest⟩ := Option.bind_eq_some_iff.mp hstep
    cases hrest
  | store view place byte =>
    obtain ⟨view, -, hrest⟩ := Option.bind_eq_some_iff.mp hstep
    split at hrest <;> cases hrest
  | newBatch rt commandBuffer encoder =>
    simp only [SharedArrays.step] at hstep
    split at hstep
    · next failure hcreate =>
      cases hstep
      exact absurd rfl (Batches.create_defined _ _ _ _ _ hcreate)
    · cases hstep
  | add batch params kernel =>
    obtain ⟨-, hrest⟩ := Option.ite_none_right_eq_some.mp hstep
    cases hprepare : prepare params with
    | error failure =>
      rw [hprepare] at hrest
      cases hrest
      exact absurd rfl (prepare_defined params _ hprepare)
    | ok prepared =>
      rw [hprepare] at hrest
      obtain ⟨⟨outcome, batches⟩, hadd, hfinish⟩ := Option.map_eq_some_iff.mp hrest
      exact absurd hfinish (s.finish_defined (Batches.add_sound h.sound hadd).1 _ _ _)
  | onBatch batch event =>
    obtain ⟨-, hrest⟩ := Option.ite_none_right_eq_some.mp hstep
    obtain ⟨⟨outcome, batches⟩, hperform, hfinish⟩ := Option.map_eq_some_iff.mp hrest
    exact absurd hfinish (s.finish_defined (Batches.step_sound h.sound hperform).1 _ _ _)
  | runLaunch batch position =>
    obtain ⟨⟨flight, batches⟩, -, hrest⟩ := Option.bind_eq_some_iff.mp hstep
    cases hrest
  | free handle =>
    simp only [SharedArrays.step] at hstep
    split at hstep <;> cases hstep
  | _ => cases hstep

end Undefined

/-- A program sees of its buffers, arrays and launches what it would see if each buffer had bytes of
its own and lived forever, whatever it forgets, in whatever order launches complete, and whichever
addresses the device hands out again. Nothing that it does is undefined but to copy an exported
array into its own buffer. -/
theorem shared_arrays_are_separate {memory : Memory} {calls : List ArrayCall}
    {shown : List ArrayShown} {s : SharedArrays}
    (hrun : runSchedule SharedArrays.step (.initial memory) calls = some (shown, s)) :
    (∃ t, runSchedule SeparateArrays.step .initial calls = some (shown, t)) ∧
    ∀ call s', s.step call = some (.raised (.thrown .undefinedBehavior), s') →
      ∃ handle view overrideName, call = .copyFrom handle (.view view) overrideName ∧
        (s.views.live view).map ArrayView.owner = some handle := by
  obtain ⟨shown', t, hseparate, hsame, hrefines⟩ := runSchedule_simulation SharedArrays.Refines Eq
    (fun s t call shown s' hrefines hstep => by
      obtain ⟨t', hstep', hrefines'⟩ := hrefines.step hstep
      exact ⟨shown, t', hstep', rfl, hrefines'⟩)
    (SharedArrays.refines_initial memory) hrun
  rw [List.forall₂_eq_eq_eq] at hsame
  subst hsame
  exact ⟨⟨t, hseparate⟩, fun call s' hstep => hrefines.undefined hstep⟩

/-- A kernel that stores a 7 into the first byte that it is bound to. -/
def sevenKernel : StoringKernel where
  run := fun inputs => match inputs with
    | (_ :: _, 0) :: _ => [⟨0, 0, 7⟩]
    | _ => []
  inside := by
    intro inputs store hstore
    split at hstore
    · next byte bytes rest =>
      rw [List.mem_singleton.mp hstore]
      exact ⟨(byte :: bytes, 0), rfl, Nat.succ_pos _⟩
    · cases hstore

/-- The device allocates at another address. -/
def secondHost : Host := { sharedHost with newBuffer := fun _ => some (1, 8192) }

/-- A launch on the second buffer. -/
def secondParams : LaunchParams where
  kernel := ⟨10, addOnePipeline⟩
  grid := .extent (.size 1)
  buffers := [.plain (some ⟨⟨[2], ⟨DType.uint, 8⟩, ⟨⟨1, 8192, 2⟩, 2⟩⟩, 1⟩)]

/-- A program forgets a buffer of which it keeps an array, one on which a launch is in flight, and
the batch of that launch. It then forgets the array as well, and a third buffer gets the address of
the first. -/
def forgettingCalls : List ArrayCall :=
  [.create sharedHost (fun _ => 0) (.upload (.own firstBits) none),
    .exportArray 0 (.toNumpy none), .forget 0,
    .create secondHost (fun _ => 1) (.zeros [2] (ascii "uint8")),
    .exportArray 1 (.dlpack {}), .newBatch ⟨true, 32768⟩ (some 1) (some 2),
    .add 0 secondParams sevenKernel, .forget 1, .onBatch 0 .commit, .forgetBatch 0,
    .store 0 2 9, .runLaunch 0 0, .onBatch 0 (.gpuFinish ⟨0, 0, none⟩), .read 0, .forgetView 0,
    .free 0,
    .create sharedHost (fun _ => 2) (.upload (.own laterBits) none),
    .exportArray 2 (.toNumpy none), .read 1, .read 2]

/-- What that program sees. -/
def forgettingShown : List ArrayShown :=
  [.made 0, .made 0, .done, .made 1, .made 1, .made 0, .done, .done, .done, .done, .done, .done,
    .done, .bytes [0x80, 0x3F, 9, 0x40], .done, .done, .made 2, .made 2, .bytes [7, 0],
    .bytes [0xC8, 0x42, 0x80, 0x3F]]

/-- Each array shows the bytes of its own buffer. -/
theorem forgotten_buffers_stay : ∃ s t,
    runSchedule SharedArrays.step (.initial fun _ => 0) forgettingCalls =
        some (forgettingShown, s) ∧
      runSchedule SeparateArrays.step .initial forgettingCalls = some (forgettingShown, t) := by
  have hshown : (runSchedule SharedArrays.step (.initial fun _ => 0) forgettingCalls).map
      Prod.fst = some forgettingShown := by decide +kernel
  obtain ⟨⟨shown, s⟩, hrun, rfl⟩ := Option.map_eq_some_iff.mp hshown
  obtain ⟨⟨t, hseparate⟩, -⟩ := shared_arrays_are_separate hrun
  exact ⟨s, t, hrun, hseparate⟩

end MetalRuntime
