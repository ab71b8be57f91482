import MetalRuntime.BatchBindings
import MetalRuntime.Foundations.ByteMemory
import MetalRuntime.Foundations.Interleavings

/-!
# What a committed batch does to memory

The GPU executes the dispatches of a committed command buffer. A serial encoder runs them one
after the other; a concurrent one lets those between two barriers overlap in any way. What a
dispatch does is a parameter: the sequences of memory actions it may perform, each confined to
a footprint. A batch does what separate runs of its launches do, if it is serial or if the
launches between two barriers do not conflict. The bytes of scalars, which `setBytes` copies,
are taken not to change.
-/

namespace MetalRuntime

open Foundations

/-- `MTL::DispatchType`. -/
inductive DispatchType
  | serial
  | concurrent
  deriving DecidableEq

/-- The kind of encoder that the constructor of `CommandBatch` asks for; without an argument
`computeCommandEncoder` makes a serial one. -/
def CommandBatch.dispatchType (concurrent : Bool) : DispatchType :=
  if concurrent then .concurrent else .serial

/-- What the GPU may do with a dispatch. -/
structure Gpu where
  Runs : RecordedDispatch → List (Memory → Memory) → Prop
  footprint : RecordedDispatch → Footprint ℕ
  confined : ∀ recorded actions, Runs recorded actions →
    ∀ action ∈ actions, (footprint recorded).Confines action

namespace Gpu

/-- A kernel sees nothing of the encoder but its pipeline, the call, and the arguments that
reflection reports as used. -/
def SeesUsedArguments (gpu : Gpu) (kernel : ComputePipeline) : Prop :=
  ∀ recorded separate, recorded.encoder.pipeline = some kernel.handle →
    ObservesSame kernel recorded separate →
    gpu.Runs recorded = gpu.Runs separate ∧ gpu.footprint recorded = gpu.footprint separate

/-- Dispatches that run one after the other. -/
def InOrder (gpu : Gpu) (dispatches : List RecordedDispatch)
    (actions : List (Memory → Memory)) : Prop :=
  ∃ runs, List.Forall₂ gpu.Runs dispatches runs ∧ actions = runs.flatten

/-- Dispatches that overlap. -/
def Overlap (gpu : Gpu) (dispatches : List RecordedDispatch)
    (actions : List (Memory → Memory)) : Prop :=
  ∃ runs, List.Forall₂ gpu.Runs dispatches runs ∧ Interleaving runs actions

end Gpu

namespace Encoder

/-- The dispatches that a sequence of commands records, split at the barriers. -/
def segments (encoder : Encoder) : List EncoderCommand → List (List RecordedDispatch)
  | [] => [[]]
  | .memoryBarrier :: rest => [] :: encoder.segments rest
  | command :: rest =>
    ((encoder.apply command).segments rest).modifyHead
      ((command.dispatch?.map fun call => ⟨encoder, call⟩).toList ++ ·)

end Encoder

/-- The executions of a command buffer that carries the given commands. -/
def Gpu.Executes (gpu : Gpu) (commands : List EncoderCommand) (actions : List (Memory → Memory)) :
    DispatchType → Prop
  | .serial => gpu.InOrder (Encoder.fresh.record commands) actions
  | .concurrent => ∃ parts, List.Forall₂ gpu.Overlap (Encoder.fresh.segments commands) parts ∧
      actions = parts.flatten

/-- The dispatch of a launch that has an encoder of its own. -/
def Launch.separate (rt : Runtime) (launch : Launch) : RecordedDispatch :=
  ⟨Encoder.fresh.loaded launch, launch.dispatchCall rt.supportsNonUniformThreadgroups⟩

/-- Launches that `dispatch` runs one after the other. -/
def Gpu.RunsSeparately (gpu : Gpu) (rt : Runtime) (launches : List Launch)
    (actions : List (Memory → Memory)) : Prop :=
  gpu.InOrder (launches.map (Launch.separate rt)) actions

/-- The section set a barrier. -/
def BatchEvent.fences (event : BatchEvent) (sec : Section) : Bool :=
  match event with
  | .barrier => sec.returned
  | _ => false

/-- The launches that a schedule accepted, split at the barriers that returned. -/
def acceptedSegments : List (BatchEvent × Section) → List (List Launch)
  | [] => [[]]
  | entry :: rest =>
    if entry.1.fences entry.2 then [] :: acceptedSegments rest
    else (acceptedSegments rest).modifyHead ((entry.1.accepted entry.2).toList ++ ·)

/-- There is a segment before the first barrier of a schedule. -/
theorem acceptedSegments_ne_nil (entries : List (BatchEvent × Section)) :
    acceptedSegments entries ≠ [] := by
  induction entries with
  | nil => simp [acceptedSegments]
  | cons entry rest ih =>
    rw [acceptedSegments]
    split <;> simp [ih]

namespace Encoder

/-- Commands without a barrier go before the first segment of what follows. -/
theorem segments_append (encoder : Encoder) {commands : List EncoderCommand}
    (h : .memoryBarrier ∉ commands) (rest : List EncoderCommand) :
    encoder.segments (commands ++ rest) =
      ((encoder.after commands).segments rest).modifyHead (encoder.record commands ++ ·) := by
  induction commands generalizing encoder with
  | nil =>
    cases hsegments : encoder.segments rest with
    | nil => simp [after, hsegments]
    | cons => simp [after, record, hsegments]
  | cons command commands ih =>
    obtain ⟨hcommand, hrest⟩ := List.ne_and_not_mem_of_not_mem_cons h
    have hsplit : encoder.segments (command :: (commands ++ rest)) =
        ((encoder.apply command).segments (commands ++ rest)).modifyHead
          ((command.dispatch?.map fun call => ⟨encoder, call⟩).toList ++ ·) := by
      cases command <;> first | rfl | exact absurd rfl hcommand
    rw [List.cons_append, hsplit, ih _ hrest, List.modifyHead_modifyHead]
    congr 1
    funext tail
    simp [record]

/-- A launch encodes no barrier. -/
theorem barrier_not_mem_launchCommands (launch : Launch) (pipeline : ComputePipeline)
    (nonUniform : Bool) : .memoryBarrier ∉ launchCommands launch pipeline nonUniform := by
  have hindexed : ∀ {α : Type} (command : α → SizeT → EncoderCommand),
      (∀ a index, command a index ≠ .memoryBarrier) → ∀ elements index,
      .memoryBarrier ∉ indexedCommands command elements index := by
    intro α command hcommand elements
    induction elements with
    | nil => simp [indexedCommands]
    | cons a rest ih =>
      intro index
      exact List.not_mem_cons_of_ne_of_not_mem (hcommand a index).symm (ih (index + 1))
  have hdispatch : CommandBatch.dispatchCommand launch nonUniform ≠ .memoryBarrier := by
    simp only [CommandBatch.dispatchCommand]
    cases launch.indirectGrid with
    | some buffer => simp
    | none => cases nonUniform <;> simp
  simp [launchCommands, hdispatch.symm,
    hindexed bufferCommand (by simp [bufferCommand]),
    hindexed scalarCommand (by simp [scalarCommand]),
    hindexed threadgroupCommand (by simp [threadgroupCommand])]

end Encoder

/-- A recorded dispatch of an accepted launch differs from the separate one only in what the
encoder held before. -/
def Launch.RecordedAs (rt : Runtime) (launch : Launch) (recorded : RecordedDispatch) : Prop :=
  rt.Accepts launch ∧ ∃ found : Encoder,
    recorded = ⟨found.loaded launch, launch.dispatchCall rt.supportsNonUniformThreadgroups⟩

/-- A relation to a third list does not distinguish related lists if it does not distinguish their
elements. -/
theorem forall₂_congr_left {α β γ : Type} {R : α → γ → Prop} {S : β → γ → Prop} {as : List α}
    {bs : List β} (h : List.Forall₂ (fun a b => ∀ c, R a c = S b c) as bs) (cs : List γ) :
    List.Forall₂ R as cs ↔ List.Forall₂ S bs cs := by
  induction h generalizing cs with
  | nil => simp [List.forall₂_nil_left_iff]
  | cons hhead _ ih => simp [List.forall₂_cons_left_iff, hhead, ih]

/-- Prepending nothing to the first of some lists. -/
theorem modifyHead_nil_append {α : Type} (lists : List (List α)) :
    lists.modifyHead ([] ++ ·) = lists := by
  cases lists <;> rfl

/-- Prepending related parts to the first of related lists. -/
theorem forall₂_modifyHead {α β : Type} {R : α → β → Prop} {a : List α} {b : List β}
    (hhead : List.Forall₂ R a b) {as : List (List α)} {bs : List (List β)}
    (h : List.Forall₂ (List.Forall₂ R) as bs) :
    List.Forall₂ (List.Forall₂ R) (as.modifyHead (a ++ ·)) (bs.modifyHead (b ++ ·)) := by
  cases h with
  | nil => exact .nil
  | cons hfirst hrest => exact .cons (List.rel_append hhead hfirst) hrest

/-- The segments of a schedule's encodings are those of the launches it accepted. -/
theorem Encoder.segments_returnedEncodings {rt : Runtime} {events : List BatchEvent}
    {sections : List Section} (hall : List.Forall₂
      (fun event sec => ∀ launch, event.accepted sec = some launch → rt.Accepts launch)
      events sections) (encoder : Encoder) :
    List.Forall₂ (List.Forall₂ (Launch.RecordedAs rt)) (acceptedSegments (events.zip sections))
      (encoder.segments (returnedEncodings rt.supportsNonUniformThreadgroups events sections)) := by
  induction hall generalizing encoder with
  | nil => exact .cons .nil .nil
  | @cons event sec events sections hhead _ ih =>
    rw [returnedEncodings, List.zip_cons_cons, List.flatMap_cons, ← returnedEncodings]
    have hsilent : List.Forall₂ (List.Forall₂ (Launch.RecordedAs rt))
        ((acceptedSegments (events.zip sections)).modifyHead ([] ++ ·))
        (encoder.segments
          (returnedEncodings rt.supportsNonUniformThreadgroups events sections)) := by
      rw [modifyHead_nil_append]
      exact ih encoder
    cases hreturned : sec.returned with
    | false =>
      cases event <;>
        simpa [acceptedSegments, BatchEvent.fences, BatchEvent.accepted, hreturned] using hsilent
    | true =>
      cases event with
      | add launch =>
        have haccepts : rt.Accepts launch := hhead launch (if_pos hreturned)
        obtain ⟨pipeline, hpipeline, -⟩ := (validate_eq_ok_checks _ _ _).mp haccepts
        have hencoding : BatchEvent.encoding rt.supportsNonUniformThreadgroups (.add launch) =
            launchCommands launch pipeline rt.supportsNonUniformThreadgroups := by
          simp [BatchEvent.encoding, hpipeline]
        have haccepted : BatchEvent.accepted (.add launch) sec = some launch := if_pos hreturned
        rw [if_pos rfl, hencoding,
          segments_append encoder (barrier_not_mem_launchCommands launch pipeline _),
          after_launchCommands encoder hpipeline, record_launchCommands encoder hpipeline,
          acceptedSegments, if_neg (by simp [BatchEvent.fences]), haccepted]
        exact forall₂_modifyHead (.cons ⟨haccepts, encoder, rfl⟩ .nil) (ih _)
      | barrier =>
        have hfences : BatchEvent.fences .barrier sec = true := hreturned
        rw [if_pos rfl, acceptedSegments, if_pos hfences]
        exact .cons .nil (ih _)
      | _ =>
        simpa [acceptedSegments, BatchEvent.fences, BatchEvent.accepted, BatchEvent.encoding]
          using hsilent

/-- The segments hold the accepted launches in order. -/
theorem flatten_acceptedSegments (entries : List (BatchEvent × Section)) :
    (acceptedSegments entries).flatten =
      entries.filterMap fun entry => entry.1.accepted entry.2 := by
  induction entries with
  | nil => rfl
  | cons entry rest ih =>
    obtain ⟨event, sec⟩ := entry
    have hhead : ∀ {launches : List Launch} {segments : List (List Launch)}, segments ≠ [] →
        (segments.modifyHead (launches ++ ·)).flatten = launches ++ segments.flatten := by
      intro launches segments hne
      cases segments with
      | nil => exact absurd rfl hne
      | cons segment later => simp
    rw [acceptedSegments, List.filterMap_cons]
    by_cases hfences : event.fences sec = true
    · have hnone : event.accepted sec = none := by
        cases event <;> first | rfl | cases hfences
      simp [hfences, hnone, ih]
    · rw [if_neg hfences, hhead (acceptedSegments_ne_nil rest), ih]
      cases event.accepted sec <;> rfl

namespace Gpu

variable {gpu : Gpu} {rt : Runtime}

/-- The GPU does the same with both dispatches. -/
def TreatsAlike (gpu : Gpu) (recorded separate : RecordedDispatch) : Prop :=
  gpu.Runs recorded = gpu.Runs separate ∧ gpu.footprint recorded = gpu.footprint separate

/-- A launch whose kernel sees only used arguments does in a batch what it does on its own. -/
theorem treatsAlike_of_recordedAs {launch : Launch} {recorded : RecordedDispatch}
    (hgpu : ∀ kernel, launch.pipeline = some kernel → gpu.SeesUsedArguments kernel)
    (h : launch.RecordedAs rt recorded) : gpu.TreatsAlike recorded (launch.separate rt) := by
  obtain ⟨haccepts, found, rfl⟩ := h
  obtain ⟨kernel, hkernel, -⟩ := (validate_eq_ok_checks _ _ _).mp haccepts
  refine hgpu kernel hkernel _ _ ?_ (observesSame_of_accepts haccepts hkernel found .fresh _)
  simp [Encoder.loaded, hkernel]

/-- Dispatches that the GPU treats alike run in order alike. -/
theorem inOrder_congr {recordeds separates : List RecordedDispatch}
    (h : List.Forall₂ gpu.TreatsAlike recordeds separates) (actions : List (Memory → Memory)) :
    gpu.InOrder recordeds actions ↔ gpu.InOrder separates actions := by
  have hruns := forall₂_congr_left (R := gpu.Runs) (S := gpu.Runs)
    (h.imp fun _ _ halike => congrFun halike.1)
  simp only [InOrder, hruns]

/-- They overlap alike. -/
theorem overlap_congr {recordeds separates : List RecordedDispatch}
    (h : List.Forall₂ gpu.TreatsAlike recordeds separates) (actions : List (Memory → Memory)) :
    gpu.Overlap recordeds actions = gpu.Overlap separates actions := by
  have hruns := forall₂_congr_left (R := gpu.Runs) (S := gpu.Runs)
    (h.imp fun _ _ halike => congrFun halike.1)
  simp only [Overlap, hruns]

/-- Two lists of dispatches, one after the other. -/
theorem InOrder.append {first second : List RecordedDispatch}
    {actions more : List (Memory → Memory)}
    (hfirst : gpu.InOrder first actions) (hsecond : gpu.InOrder second more) :
    gpu.InOrder (first ++ second) (actions ++ more) := by
  obtain ⟨runs, hruns, rfl⟩ := hfirst
  obtain ⟨later, hlater, rfl⟩ := hsecond
  exact ⟨runs ++ later, List.rel_append hruns hlater, by simp⟩

/-- Runs of dispatches with independent footprints commute. -/
theorem pairwise_allCommute {dispatches : List RecordedDispatch}
    {runs : List (List (Memory → Memory))} (hruns : List.Forall₂ gpu.Runs dispatches runs)
    (h : dispatches.Pairwise fun first second =>
      (gpu.footprint first).Independent (gpu.footprint second)) : runs.Pairwise AllCommute := by
  induction hruns with
  | nil => exact .nil
  | @cons dispatch run dispatches runs hrun hrest ih =>
    obtain ⟨hhead, htail⟩ := List.pairwise_cons.mp h
    refine .cons ?_ (ih htail)
    intro other hother action haction later hlater
    obtain ⟨i, hi, rfl⟩ := List.getElem_of_mem hother
    have hlength := hrest.length_eq
    have hran : gpu.Runs dispatches[i] runs[i] := hrest.get (by omega) hi
    exact (gpu.confined _ _ hrun action haction).commute
      (gpu.confined _ _ hran later hlater) (hhead _ (List.getElem_mem _))

/-- Overlapping dispatches with independent footprints do what they do in order. -/
theorem Overlap.execute_eq {dispatches : List RecordedDispatch}
    {actions : List (Memory → Memory)} (hoverlap : gpu.Overlap dispatches actions)
    (h : dispatches.Pairwise fun first second =>
      (gpu.footprint first).Independent (gpu.footprint second)) :
    ∃ ordered, gpu.InOrder dispatches ordered ∧
      ∀ memory, execute actions memory = execute ordered memory := by
  obtain ⟨runs, hruns, hinterleaving⟩ := hoverlap
  exact ⟨runs.flatten, ⟨runs, hruns, rfl⟩,
    hinterleaving.execute_eq (pairwise_allCommute hruns h)⟩

/-- Segments one after the other, each with independent footprints, do what all their dispatches
do in order. -/
theorem segments_execute_eq {segments : List (List RecordedDispatch)}
    {parts : List (List (Memory → Memory))} (hparts : List.Forall₂ gpu.Overlap segments parts)
    (h : ∀ segment ∈ segments, segment.Pairwise fun first second =>
      (gpu.footprint first).Independent (gpu.footprint second)) :
    ∃ ordered, gpu.InOrder segments.flatten ordered ∧
      ∀ memory, execute parts.flatten memory = execute ordered memory := by
  induction hparts with
  | nil => exact ⟨[], ⟨[], .nil, rfl⟩, fun _ => rfl⟩
  | @cons segment part segments parts hpart _ ih =>
    obtain ⟨first, hfirst, hpart⟩ := hpart.execute_eq (h segment List.mem_cons_self)
    obtain ⟨later, hlater, hparts⟩ :=
      ih fun other hother => h other (List.mem_cons_of_mem segment hother)
    refine ⟨first ++ later, hfirst.append hlater, ?_⟩
    intro memory
    rw [List.flatten_cons, execute_append, execute_append, hpart, hparts]

/-- Dispatches that run in order are one way to run segments that overlap. -/
theorem InOrder.segments {segments : List (List RecordedDispatch)}
    {actions : List (Memory → Memory)} (h : gpu.InOrder segments.flatten actions) :
    ∃ parts, List.Forall₂ gpu.Overlap segments parts ∧ actions = parts.flatten := by
  induction segments generalizing actions with
  | nil =>
    obtain ⟨runs, hruns, rfl⟩ := h
    cases hruns
    exact ⟨[], .nil, rfl⟩
  | cons segment segments ih =>
    obtain ⟨runs, hruns, rfl⟩ := h
    have hfirst : List.Forall₂ gpu.Runs segment (runs.take segment.length) :=
      (List.forall₂_take_append runs segment segments.flatten hruns.flip).flip
    have hlater : List.Forall₂ gpu.Runs segments.flatten (runs.drop segment.length) :=
      (List.forall₂_drop_append runs segment segments.flatten hruns.flip).flip
    obtain ⟨parts, hparts, heq⟩ := ih ⟨_, hlater, rfl⟩
    refine ⟨(runs.take segment.length).flatten :: parts,
      .cons ⟨_, hfirst, Interleaving.flatten _⟩ hparts, ?_⟩
    rw [List.flatten_cons, ← heq, ← List.flatten_append, List.take_append_drop]

end Gpu

namespace BatchSystem

variable {rt : Runtime} {s : BatchSystem} {events : List BatchEvent} {sections : List Section}
  {commandBuffer encoder : Option ℕ} {world : BatchWorld}

/-- A committed command buffer carries the encodings of the schedule from its construction on. -/
theorem run_committedCommands (hcreate : CommandBatch.create rt commandBuffer encoder = .ok world)
    (hrun : runSchedule step (initial world) events = some (sections, s))
    {commands : List EncoderCommand} (hcommitted : s.world.committedCommands = some commands) :
    commands = returnedEncodings rt.supportsNonUniformThreadgroups events sections := by
  have hinitial := initial_invariant hcreate
  have hstart : (initial world).world.calls = [] := hinitial.lifecycle.calls
  have hcommands := run_encoderCommands ⟨_, _, hinitial⟩ hrun
  obtain ⟨phase, encoded, hinv⟩ := run_sound ⟨_, _, hinitial⟩ hrun
  rw [hinv.lifecycle.committedCommands_eq] at hcommitted
  split at hcommitted
  · cases hcommitted
    rw [← hinv.lifecycle.encoderCommands_calls, hcommands, hstart]
    rfl
  · cases hcommitted

/-- The launches that a schedule accepted are accepted by validation, each for its own event. -/
theorem run_accepted_forall₂ (hcreate : CommandBatch.create rt commandBuffer encoder = .ok world)
    (hrun : runSchedule step (initial world) events = some (sections, s)) :
    List.Forall₂ (fun event sec => ∀ launch, event.accepted sec = some launch →
      rt.Accepts launch) events sections :=
  run_sections (fun _ _ _ _ _ hcase => hcase.accepts) ⟨_, _, initial_invariant hcreate⟩ hrun

end BatchSystem

/-- The address that an argument binds. -/
def BoundArgument.address : BoundArgument → Option ℕ
  | .buffer bound offset => some (bound.contents.toNat + offset.toNat)
  | .bytes _ _ => none

/-- The address that the first argument of a dispatch binds. -/
def RecordedDispatch.target (recorded : RecordedDispatch) : Option ℕ :=
  (recorded.encoder.buffers.get 0).bind BoundArgument.address

/-- A GPU on which every kernel sets one byte of its first argument. -/
def fillGpu : Gpu where
  Runs recorded actions :=
    actions = [fun memory a => if recorded.target = some a then 7 else memory a]
  footprint recorded := ⟨∅, {a | recorded.target = some a}⟩
  confined := by
    intro recorded actions hruns action haction
    subst hruns
    cases List.mem_singleton.mp haction
    refine ⟨fun m x hx => if_neg hx, fun m m' _ x hx => ?_⟩
    exact (if_pos hx).trans (if_pos hx).symm

/-- That GPU sees only the argument that `add_one` uses. -/
theorem fillGpu_seesUsedArguments : fillGpu.SeesUsedArguments addOnePipeline := by
  intro recorded separate _ h
  have hslot := h.buffers _ List.mem_cons_self
  have htarget : recorded.target = separate.target :=
    congrArg (fun slot => slot.bind BoundArgument.address) hslot
  simp [fillGpu, htarget]

/-- A launch of the same kernel on another buffer. -/
def otherLaunch : Launch :=
  { addOneLaunch with buffers := ⟨[⟨⟨⟨2, 131072, 16⟩, 16⟩, 0⟩], by decide⟩ }

end MetalRuntime
