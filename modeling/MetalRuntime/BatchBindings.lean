import MetalRuntime.BatchSchedules

/-!
# What a dispatch of a batch finds in the encoder

The encoder keeps every slot until it is overwritten, and a launch writes a prefix of each
table. The encoder that a dispatch finds is therefore its launch's prefix over whatever the
earlier launches left. Validation puts every argument the kernel uses into that prefix, so
the dispatch sees what it would see in an encoder of its own.
-/

namespace MetalRuntime

open Foundations

/-- The arguments of a launch in the order of their buffer indices. -/
def Launch.arguments (launch : Launch) : List BoundArgument :=
  (launch.buffers.toList.map fun binding => .buffer binding.buffer.handle binding.offset) ++
    launch.scalars.toList.map fun scalar => .bytes scalar.data scalar.size

/-- The threadgroup lengths of a launch as the encoder receives them. -/
def Launch.roundedLengths (launch : Launch) : List SizeT :=
  launch.threadgroupMemory.toList.map roundedLength

/-- The call that launches the grid of a launch. -/
def Launch.dispatchCall (launch : Launch) (nonUniform : Bool) : DispatchCall :=
  let grid := launch.grid
  let tg := launch.threadgroup
  match launch.indirectGrid with
  | some buffer => .threadgroupsIndirect buffer.handle launch.indirectOffset tg
  | none =>
    if nonUniform then .threads grid tg
    else .threadgroups ⟨grid.x / tg.x, grid.y / tg.y, grid.z / tg.z⟩ tg

namespace Encoder

/-- The encoder after the `set` calls of a launch. -/
def loaded (encoder : Encoder) (launch : Launch) : Encoder where
  pipeline := launch.pipeline.map ComputePipeline.handle
  buffers := encoder.buffers.setFrom 0 launch.arguments
  threadgroupMemory := encoder.threadgroupMemory.setFrom 0 launch.roundedLengths

/-- The dispatches that launches record one after the other. -/
def recordLaunches (nonUniform : Bool) : Encoder → List Launch → List RecordedDispatch
  | _, [] => []
  | encoder, launch :: rest =>
    ⟨encoder.loaded launch, launch.dispatchCall nonUniform⟩ ::
      recordLaunches nonUniform (encoder.loaded launch) rest

/-- Commands that are not dispatches record nothing. -/
theorem record_of_settings (encoder : Encoder) {commands : List EncoderCommand}
    (hsettings : ∀ command ∈ commands, command.dispatch? = none) :
    encoder.record commands = [] := by
  induction commands generalizing encoder with
  | nil => rfl
  | cons command rest ih =>
    rw [record, hsettings command List.mem_cons_self,
      ih _ fun other hother => hsettings other (List.mem_cons_of_mem command hother)]
    rfl

/-- Indexed commands are not dispatches if none of them is. -/
theorem dispatch?_of_mem_indexedCommands {α : Type} {command : α → SizeT → EncoderCommand}
    (hcommand : ∀ a index, (command a index).dispatch? = none) (elements : List α)
    (index : SizeT) :
    ∀ setting ∈ indexedCommands command elements index, setting.dispatch? = none := by
  induction elements generalizing index with
  | nil => exact fun setting hsetting => absurd hsetting List.not_mem_nil
  | cons a rest ih =>
    intro setting hsetting
    rcases List.mem_cons.mp hsetting with rfl | hsetting
    · exact hcommand a index
    · exact ih (index + 1) setting hsetting

/-- The index after one that has a successor within a word. -/
private theorem toNat_succ {index : SizeT} {count : ℕ}
    (hindex : index.toNat + (count + 1) < wordSize) : (index + 1).toNat = index.toNat + 1 :=
  toNat_add_of_lt (lt_of_le_of_lt (Nat.add_le_add_left (Nat.succ_le_succ (Nat.zero_le count)) _)
    hindex)

/-- Commands that each set one buffer slot set consecutive slots. -/
theorem after_argumentCommands {α : Type} {command : α → SizeT → EncoderCommand}
    {argument : α → BoundArgument}
    (hcommand : ∀ (encoder : Encoder) a index, encoder.apply (command a index) =
      { encoder with buffers := encoder.buffers.set index.toNat (argument a) })
    (encoder : Encoder) (elements : List α) (index : SizeT)
    (hindex : index.toNat + elements.length < wordSize) :
    encoder.after (indexedCommands command elements index) =
      { encoder with buffers := encoder.buffers.setFrom index.toNat (elements.map argument) } := by
  induction elements generalizing encoder index with
  | nil => rfl
  | cons a rest ih =>
    have hsucc := toNat_succ hindex
    rw [List.length_cons] at hindex
    change (encoder.apply (command a index)).after (indexedCommands command rest (index + 1)) = _
    rw [hcommand, ih _ _ (by omega), hsucc]
    rfl

/-- The threadgroup calls of a launch set consecutive slots. -/
theorem after_threadgroupCommands (encoder : Encoder) (lengths : List SizeT) (index : SizeT)
    (hindex : index.toNat + lengths.length < wordSize) :
    encoder.after (indexedCommands threadgroupCommand lengths index) =
      { encoder with
        threadgroupMemory :=
          encoder.threadgroupMemory.setFrom index.toNat (lengths.map roundedLength) } := by
  induction lengths generalizing encoder index with
  | nil => rfl
  | cons length rest ih =>
    have hsucc := toNat_succ hindex
    rw [List.length_cons] at hindex
    change (encoder.apply (threadgroupCommand length index)).after
      (indexedCommands threadgroupCommand rest (index + 1)) = _
    rw [ih _ _ (by omega), hsucc]
    rfl

/-- The buffer calls of a launch set consecutive slots. -/
theorem after_bufferCommands (encoder : Encoder) (bindings : List BufferBinding) (index : SizeT)
    (hindex : index.toNat + bindings.length < wordSize) :
    encoder.after (indexedCommands bufferCommand bindings index) =
      { encoder with
        buffers := encoder.buffers.setFrom index.toNat
          (bindings.map fun binding => .buffer binding.buffer.handle binding.offset) } :=
  after_argumentCommands (fun _ _ _ => rfl) encoder bindings index hindex

/-- The scalar calls of a launch set consecutive slots. -/
theorem after_scalarCommands (encoder : Encoder) (scalars : List Scalar) (index : SizeT)
    (hindex : index.toNat + scalars.length < wordSize) :
    encoder.after (indexedCommands scalarCommand scalars index) =
      { encoder with
        buffers := encoder.buffers.setFrom index.toNat
          (scalars.map fun scalar => .bytes scalar.data scalar.size) } :=
  after_argumentCommands (fun _ _ _ => rfl) encoder scalars index hindex

variable {launch : Launch} {pipeline : ComputePipeline}

/-- All `set` calls of a launch together. -/
theorem after_settings (encoder : Encoder) (hpipeline : launch.pipeline = some pipeline) :
    encoder.after (.setComputePipelineState pipeline.handle ::
      (indexedCommands bufferCommand launch.buffers.toList 0 ++
        indexedCommands scalarCommand launch.scalars.toList launch.buffers.size ++
        indexedCommands threadgroupCommand launch.threadgroupMemory.toList 0)) =
      encoder.loaded launch := by
  have hbuffers := launch.buffers.size_le
  have hscalars := launch.scalars.size_le
  have hlengths := launch.threadgroupMemory.size_le
  simp only [maxVectorSize] at hbuffers hscalars hlengths
  change (encoder.apply (.setComputePipelineState pipeline.handle)).after _ = _
  have hfits : launch.buffers.size.toNat + launch.scalars.toList.length < wordSize := by
    rw [StdVector.toNat_size, wordSize]
    omega
  have hzero : ∀ {count : ℕ}, count ≤ 2 ^ 63 - 1 → (0 : SizeT).toNat + count < wordSize := by
    intro count hcount
    simp only [UInt64.toNat_zero, wordSize]
    omega
  rw [after_append, after_append, after_bufferCommands _ _ 0 (hzero hbuffers),
    after_scalarCommands _ _ _ hfits, after_threadgroupCommands _ _ 0 (hzero hlengths)]
  simp only [loaded, hpipeline, Option.map_some, apply, Launch.arguments, Launch.roundedLengths,
    SlotTable.setFrom_append, StdVector.toNat_size, List.length_map, UInt64.toNat_zero, zero_add]

/-- The last call of a launch is its dispatch, and it changes nothing in the encoder. -/
theorem record_dispatchCommand (encoder : Encoder) (launch : Launch) (nonUniform : Bool) :
    encoder.record [CommandBatch.dispatchCommand launch nonUniform] =
        [⟨encoder, launch.dispatchCall nonUniform⟩] ∧
      encoder.after [CommandBatch.dispatchCommand launch nonUniform] = encoder := by
  simp only [CommandBatch.dispatchCommand, Launch.dispatchCall]
  cases launch.indirectGrid with
  | some buffer => exact ⟨rfl, rfl⟩
  | none => cases nonUniform <;> exact ⟨rfl, rfl⟩

/-- A launch leaves the encoder loaded with its arguments. -/
theorem after_launchCommands (encoder : Encoder) (hpipeline : launch.pipeline = some pipeline)
    (nonUniform : Bool) :
    encoder.after (launchCommands launch pipeline nonUniform) = encoder.loaded launch := by
  rw [launchCommands, ← List.cons_append, after_append, after_settings encoder hpipeline,
    (record_dispatchCommand _ launch nonUniform).2]

/-- A launch records one dispatch, with the encoder loaded with its arguments. -/
theorem record_launchCommands (encoder : Encoder) (hpipeline : launch.pipeline = some pipeline)
    (nonUniform : Bool) :
    encoder.record (launchCommands launch pipeline nonUniform) =
      [⟨encoder.loaded launch, launch.dispatchCall nonUniform⟩] := by
  rw [launchCommands, ← List.cons_append, record_append, after_settings encoder hpipeline,
    (record_dispatchCommand _ launch nonUniform).1, record_of_settings, List.nil_append]
  intro command hcommand
  rcases List.mem_cons.mp hcommand with rfl | hcommand
  · rfl
  · rcases List.mem_append.mp hcommand with hcommand | hcommand
    · rcases List.mem_append.mp hcommand with hcommand | hcommand
      · exact dispatch?_of_mem_indexedCommands (fun _ _ => rfl) _ _ command hcommand
      · exact dispatch?_of_mem_indexedCommands (fun _ _ => rfl) _ _ command hcommand
    · exact dispatch?_of_mem_indexedCommands (fun _ _ => rfl) _ _ command hcommand

end Encoder

/-- The launch that a section of `add` accepted, if it returned. -/
def BatchEvent.accepted (event : BatchEvent) (sec : Section) : Option Launch :=
  match event with
  | .add launch => if sec.returned then some launch else none
  | _ => none

/-- The launches that a schedule accepted, in order. -/
def acceptedLaunches (events : List BatchEvent) (sections : List Section) : List Launch :=
  (events.zip sections).filterMap fun entry => entry.1.accepted entry.2

/-- Validation accepts the launch. -/
def Runtime.Accepts (rt : Runtime) (launch : Launch) : Prop :=
  validate launch rt.supportsNonUniformThreadgroups rt.maxThreadgroupMemoryLength = .ok ()

instance (rt : Runtime) (launch : Launch) : Decidable (rt.Accepts launch) :=
  inferInstanceAs (Decidable (_ = _))

/-- A section accepts only launches that validation accepts. -/
theorem StepCase.accepts {rt : Runtime} {world world' : BatchWorld} {phase : Phase}
    {event : BatchEvent} {sec : Section} (hcase : StepCase rt world phase event sec world')
    (launch : Launch) (haccepted : event.accepted sec = some launch) : rt.Accepts launch := by
  cases hcase with
  | encoded launch pipeline hpipeline hvalid =>
    cases haccepted
    exact hvalid
  | refused _ _ _ _ hevent => rcases hevent with ⟨_, rfl⟩ | rfl <;> cases haccepted
  | committed _ hevent => rcases hevent with rfl | ⟨_, rfl⟩ <;> cases haccepted
  | already _ hevent => rcases hevent with rfl | ⟨_, rfl⟩ <;> cases haccepted
  | dead _ _ hevent => rcases hevent with rfl | ⟨_, rfl⟩ <;> cases haccepted
  | queried _ _ _ _ hevent => rcases hevent with ⟨_, rfl⟩ | ⟨_, rfl⟩ <;> cases haccepted
  | _ => cases haccepted

/-- On an open batch, `add` accepts a launch exactly when validation does. -/
theorem StepCase.accepted_of_opened {rt : Runtime} {world world' : BatchWorld} {sec : Section}
    {launch : Launch} (hcase : StepCase rt world .opened (.add launch) sec world') :
    (BatchEvent.add launch).accepted sec = if rt.Accepts launch then some launch else none := by
  cases hcase with
  | encoded _ _ _ hvalid =>
    have haccepts : rt.Accepts launch := hvalid
    rw [if_pos haccepts]
    rfl
  | rejected _ _ hreject =>
    have hrejects : ¬ rt.Accepts launch := fun haccepts => by cases hreject.symm.trans haccepts
    rw [if_neg hrejects]
    rfl
  | refused _ _ _ hclosed => exact absurd rfl hclosed
  | committed _ hcommit => simp at hcommit

/-- The encodings of a schedule record the launches it accepted, from any encoder. -/
theorem Encoder.record_returnedEncodings {rt : Runtime} {events : List BatchEvent}
    {sections : List Section} (hall : List.Forall₂
      (fun event sec => ∀ launch, event.accepted sec = some launch → rt.Accepts launch)
      events sections) (encoder : Encoder) (nonUniform : Bool) :
    encoder.record (returnedEncodings nonUniform events sections) =
      Encoder.recordLaunches nonUniform encoder (acceptedLaunches events sections) := by
  induction hall generalizing encoder with
  | nil => rfl
  | @cons event sec events sections hhead _ ih =>
    rw [returnedEncodings, List.zip_cons_cons, List.flatMap_cons, record_append,
      acceptedLaunches, List.zip_cons_cons, List.filterMap_cons]
    cases haccepted : event.accepted sec with
    | some launch =>
      obtain ⟨pipeline, hpipeline, -⟩ :=
        (validate_eq_ok_checks _ _ _).mp (hhead launch haccepted)
      obtain ⟨rfl, hreturned⟩ : event = .add launch ∧ sec.returned = true := by
        cases event with
        | add other =>
          obtain ⟨hreturned, heq⟩ := Option.ite_none_right_eq_some.mp haccepted
          cases heq
          exact ⟨rfl, hreturned⟩
        | _ => cases haccepted
      simp only [hreturned, if_true, BatchEvent.encoding, hpipeline]
      rw [record_launchCommands encoder hpipeline, after_launchCommands encoder hpipeline]
      exact congrArg (List.cons _) (ih (encoder.loaded launch))
    | none =>
      have hsilent : ∀ rest, encoder.record
            (if sec.returned then event.encoding nonUniform else []) ++
          (encoder.after (if sec.returned then event.encoding nonUniform else [])).record rest =
          encoder.record rest := by
        intro rest
        cases hreturned : sec.returned with
        | false => rfl
        | true =>
          cases event with
          | add launch => simp [BatchEvent.accepted, hreturned] at haccepted
          | _ => rfl
      exact (hsilent _).trans (ih encoder)

namespace BatchSystem

variable {rt : Runtime} {s t : BatchSystem} {events : List BatchEvent} {sections : List Section}
  {commands : List EncoderCommand}

/-- A schedule accepts only launches that validation accepts. -/
theorem run_accepts (hsound : Sound rt s)
    (hrun : runSchedule step s events = some (sections, t)) :
    ∀ launch ∈ acceptedLaunches events sections, rt.Accepts launch := by
  have hall := run_sections (fun _ _ _ _ _ hcase => hcase.accepts)
    hsound hrun
  intro launch hlaunch
  obtain ⟨entry, hentry, haccepted⟩ := List.mem_filterMap.mp hlaunch
  exact (List.forall₂_iff_zip.mp hall).2 hentry launch haccepted

/-- The dispatches of a batch from its construction on are those of its accepted launches. -/
theorem run_record {commandBuffer encoder : Option ℕ} {world : BatchWorld}
    (hcreate : CommandBatch.create rt commandBuffer encoder = .ok world)
    (hrun : runSchedule step (initial world) events = some (sections, s)) :
    Encoder.fresh.record (encoderCommands s.world.calls) =
      Encoder.recordLaunches rt.supportsNonUniformThreadgroups .fresh
        (acceptedLaunches events sections) := by
  have hinitial := initial_invariant hcreate
  have hstart : (initial world).world.calls = [] := hinitial.lifecycle.calls
  rw [run_encoderCommands ⟨_, _, hinitial⟩ hrun, hstart]
  exact Encoder.record_returnedEncodings
    (run_sections (fun _ _ _ _ _ hcase => hcase.accepts)
      ⟨_, _, hinitial⟩ hrun) _ _

/-- While a batch is open, `add` accepts exactly the launches that validation accepts. -/
theorem run_adds {launches : List Launch} (hinv : Invariant rt s .opened commands)
    (hrun : runSchedule step s (launches.map .add) = some (sections, t)) :
    acceptedLaunches (launches.map .add) sections = launches.filter (rt.Accepts ·) := by
  induction launches generalizing s sections commands with
  | nil =>
    cases hrun
    rfl
  | cons launch rest ih =>
    obtain ⟨sec, s', sections', hstep, hrest, rfl⟩ :=
      (runSchedule_cons_iff step s t (.add launch) (rest.map .add) sections).mp hrun
    have hnext := step_invariant hinv hstep
    have hopened : nextPhase .opened (.add launch) sec = .opened := rfl
    rw [hopened] at hnext
    have haccepted := (step_cases hinv hstep).accepted_of_opened
    have htail := ih hnext hrest
    unfold acceptedLaunches at htail
    rw [acceptedLaunches, List.map_cons, List.zip_cons_cons, List.filterMap_cons, htail,
      List.filter_cons, haccepted]
    by_cases haccepts : rt.Accepts launch
    · simp [haccepts]
    · simp [haccepts]

end BatchSystem

/-- Two dispatches agree on everything that a kernel can see: the pipeline, the call, and the
values bound where its reflection lists a used argument. -/
structure ObservesSame (kernel : ComputePipeline) (recorded separate : RecordedDispatch) :
    Prop where
  pipeline : recorded.encoder.pipeline = separate.encoder.pipeline
  call : recorded.call = separate.call
  buffers : ∀ binding ∈ kernel.bufferBindings,
    recorded.encoder.buffers.get binding.index.toNat =
      separate.encoder.buffers.get binding.index.toNat
  threadgroupMemory : ∀ binding ∈ kernel.threadgroupBindings,
    recorded.encoder.threadgroupMemory.get binding.index.toNat =
      separate.encoder.threadgroupMemory.get binding.index.toNat

/-- An accepted launch sees the same whatever the encoder held before. -/
theorem observesSame_of_accepts {rt : Runtime} {launch : Launch} {kernel : ComputePipeline}
    (haccepts : rt.Accepts launch) (hkernel : launch.pipeline = some kernel)
    (encoder other : Encoder) (call : DispatchCall) :
    ObservesSame kernel ⟨encoder.loaded launch, call⟩ ⟨other.loaded launch, call⟩ := by
  obtain ⟨pipeline, hpipeline, -, -, hbindings, -⟩ := (validate_eq_ok_checks _ _ _).mp haccepts
  cases hkernel.symm.trans hpipeline
  obtain ⟨-, hbuffers, hthreadgroups⟩ := (checkBindings_eq_ok launch kernel).mp hbindings
  refine ⟨rfl, rfl, ?_, ?_⟩
  · intro binding hbinding
    refine SlotTable.get_setFrom_of_mem _ _ ⟨Nat.zero_le _, ?_⟩
    have hcovered := hbuffers binding hbinding
    simpa [Launch.arguments] using hcovered
  · intro binding hbinding
    refine SlotTable.get_setFrom_of_mem _ _ ⟨Nat.zero_le _, ?_⟩
    have hcovered := hthreadgroups binding hbinding
    simpa [Launch.roundedLengths] using hcovered

/-- Each launch of a sequence records its own arguments over some encoder state. -/
theorem Encoder.recordLaunches_forall₂ {rt : Runtime} {launches : List Launch}
    (haccepts : ∀ launch ∈ launches, rt.Accepts launch) (nonUniform : Bool) (encoder : Encoder) :
    List.Forall₂ (fun launch recorded => rt.Accepts launch ∧ ∃ found : Encoder,
        recorded = ⟨found.loaded launch, launch.dispatchCall nonUniform⟩)
      launches (Encoder.recordLaunches nonUniform encoder launches) := by
  induction launches generalizing encoder with
  | nil => exact List.Forall₂.nil
  | cons launch rest ih =>
    exact List.Forall₂.cons ⟨haccepts launch List.mem_cons_self, encoder, rfl⟩
      (ih (fun other hother => haccepts other (List.mem_cons_of_mem launch hother)) _)

/-- `dispatch` of an accepted launch encodes exactly that launch. -/
theorem encoderCommands_dispatch {rt : Runtime} {commandBuffer encoder : Option ℕ}
    {alone : BatchWorld} {launch : Launch} {pipeline : ComputePipeline}
    (hcreate : CommandBatch.create rt commandBuffer encoder = .ok alone)
    (haccepts : rt.Accepts launch) (hpipeline : launch.pipeline = some pipeline)
    (result : GpuResult) :
    encoderCommands ((dispatch launch result).exec alone).2.calls =
      launchCommands launch pipeline rt.supportsNonUniformThreadgroups := by
  obtain ⟨hlife, hnonUniform, hmemory⟩ := CommandBatch.create_lifecycle hcreate
  have hvalid : validate launch rt.supportsNonUniformThreadgroups
    rt.maxThreadgroupMemoryLength = .ok () := haccepts
  rw [← hnonUniform, ← hmemory] at hvalid
  obtain ⟨kernel, hkernel, hadd⟩ := hlife.exec_add hvalid
  cases hkernel.symm.trans hpipeline
  rw [hnonUniform] at hadd
  have hencoded := hlife.encode (launchCommands launch pipeline rt.supportsNonUniformThreadgroups)
  have hcommitted := hencoded.commit
  -- The GPU finishes the committed command buffer before the wait returns.
  have hfinished : Lifecycle { Lifecycle.committedWorld (alone.after
      ((launchCommands launch pipeline rt.supportsNonUniformThreadgroups).map .encode)) with
        gpu := some result } .committed
      ([] ++ launchCommands launch pipeline rt.supportsNonUniformThreadgroups) :=
    ⟨hcommitted.committed, hcommitted.discarded, hcommitted.encoder, hcommitted.commandBuffer,
      hcommitted.calls, fun hphase => absurd rfl hphase⟩
  have hqueries : ∀ call ∈ [MetalCall.waitUntilCompleted], call.isQuery := by decide
  have hwaited := hfinished.query hqueries
  obtain ⟨queries, time, outcome, hmore, -, hfinish⟩ := hwaited.exec_waitFinish
  have hfinal := (hwaited.query hmore).timed time
  rw [dispatch, Method.exec_bind, hadd, Method.andThen_ok, Method.exec_bind,
    hencoded.exec_commitLocked, Method.andThen_ok, Method.exec_bind, Method.exec_modify,
    Method.andThen_ok, Method.exec_bind, hfinished.exec_waitUntilCompleted, Method.andThen_ok,
    hfinish]
  exact hfinal.encoderCommands_calls

/-- A recorded dispatch of a launch agrees with the one that `dispatch` records for the same
launch on any batch of its own. -/
def AgreesWithSeparateRun (rt : Runtime) (launch : Launch) (recorded : RecordedDispatch) : Prop :=
  ∃ kernel, launch.pipeline = some kernel ∧ ∀ commandBuffer encoder alone result,
    CommandBatch.create rt commandBuffer encoder = .ok alone →
    ∃ separate, Encoder.fresh.record
        (encoderCommands ((dispatch launch result).exec alone).2.calls) = [separate] ∧
      ObservesSame kernel recorded separate

/-- Whatever a batch encoded before, the dispatch of each accepted launch sees exactly what
the same launch sees when `dispatch` runs it in a fresh encoder. While the batch is open,
the accepted launches are those that validation accepts. -/
theorem batched_launches_observe_separate_runs {rt : Runtime} {commandBuffer encoder : Option ℕ}
    {world : BatchWorld} {events : List BatchEvent} {sections : List Section} {s : BatchSystem}
    (hcreate : CommandBatch.create rt commandBuffer encoder = .ok world)
    (hrun : runSchedule BatchSystem.step (BatchSystem.initial world) events =
      some (sections, s)) :
    List.Forall₂ (AgreesWithSeparateRun rt) (acceptedLaunches events sections)
      (Encoder.fresh.record (encoderCommands s.world.calls)) ∧
    (∀ launches : List Launch, events = launches.map .add →
      acceptedLaunches events sections = launches.filter (rt.Accepts ·)) := by
  have hinitial := BatchSystem.initial_invariant hcreate
  refine ⟨?_, ?_⟩
  · rw [BatchSystem.run_record hcreate hrun]
    refine (Encoder.recordLaunches_forall₂ (BatchSystem.run_accepts ⟨_, _, hinitial⟩ hrun)
      _ .fresh).imp ?_
    intro launch recorded h
    obtain ⟨haccepts, found, rfl⟩ := h
    obtain ⟨kernel, hkernel, -⟩ := (validate_eq_ok_checks _ _ _).mp haccepts
    refine ⟨kernel, hkernel, ?_⟩
    intro commandBuffer encoder alone result halone
    rw [encoderCommands_dispatch halone haccepts hkernel]
    exact ⟨_, Encoder.record_launchCommands _ hkernel _,
      observesSame_of_accepts haccepts hkernel _ _ _⟩
  · intro launches hevents
    subst hevents
    exact BatchSystem.run_adds hinitial hrun

/-- A launch of a kernel with one argument agrees with a separate run, although the encoder still
holds the scalar and the threadgroup length of the launch before. -/
theorem narrow_launch_observes_separate_run : ∃ sections s first recorded,
    runSchedule BatchSystem.step (BatchSystem.initial appleBatch)
      [.add scaleTileLaunch, .add {}, .add addOneLaunch] = some (sections, s) ∧
    Encoder.fresh.record (encoderCommands s.world.calls) = [first, recorded] ∧
    recorded.encoder.buffers.get 1 = some (.bytes 140000 8) ∧
    recorded.encoder.threadgroupMemory.get 0 = some 112 ∧
    AgreesWithSeparateRun ⟨true, 32768⟩ addOneLaunch recorded := by
  have hrun : runSchedule BatchSystem.step (BatchSystem.initial appleBatch)
    [.add scaleTileLaunch, .add {}, .add addOneLaunch] = some (_, _) := rfl
  have hagree := (batched_launches_observe_separate_runs create_appleBatch hrun).1
  obtain ⟨-, hrest⟩ := List.forall₂_cons.mp hagree
  obtain ⟨hsecond, -⟩ := List.forall₂_cons.mp hrest
  exact ⟨_, _, _, _, hrun, rfl, rfl, rfl, hsecond⟩

end MetalRuntime
