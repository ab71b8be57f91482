import MetalRuntime.BatchSystem

/-!
# Every schedule of a shared batch

What holds of a batch under any interleaving of its methods, derived from what one step can
do. The main result is that a committed command buffer carries exactly the calls that
returned.
-/

namespace MetalRuntime

open Foundations

/-- The encoder calls that `add` and `barrier` stand for. -/
def BatchEvent.encoding (nonUniform : Bool) : BatchEvent → List EncoderCommand
  | .add launch =>
    match launch.pipeline with
    | some pipeline => launchCommands launch pipeline nonUniform
    | none => []
  | .barrier => [.memoryBarrier]
  | _ => []

/-- The events that encode when they return. -/
def BatchEvent.encodes : BatchEvent → Bool
  | .add _ | .barrier => true
  | _ => false

/-- The commands a command buffer carries when it is committed, if it ever is. -/
def BatchWorld.committedCommands (world : BatchWorld) : Option (List EncoderCommand) :=
  if .commit ∈ world.calls then
    some (encoderCommands (world.calls.takeWhile fun call => call ≠ .commit))
  else none

/-- The encodings of the `add` and `barrier` calls that returned, in the order of the
schedule, which is the order in which they took the lock. -/
def returnedEncodings (nonUniform : Bool) (events : List BatchEvent) (sections : List Section) :
    List EncoderCommand :=
  (events.zip sections).flatMap fun entry =>
    if entry.2.returned then entry.1.encoding nonUniform else []

/-- The encoder commands of a step are the encoding of its event if it returned. -/
theorem StepCase.encoderCommands_eq {rt : Runtime} {world world' : BatchWorld} {phase : Phase}
    {event : BatchEvent} {sec : Section} (hcase : StepCase rt world phase event sec world') :
    encoderCommands sec.calls =
      if sec.returned then event.encoding rt.supportsNonUniformThreadgroups else [] := by
  cases hcase with
  | encoded launch pipeline hpipeline hvalid =>
    simp [Section.returned, BatchEvent.encoding, hpipeline]
  | rejected => rfl
  | fenced => rfl
  | refused => rfl
  | committed _ hevent => rcases hevent with rfl | ⟨call, rfl⟩ <;> rfl
  | already _ hevent => rcases hevent with rfl | ⟨call, rfl⟩ <;> rfl
  | dead => rfl
  | queried _ outcome queries time hevent hqueries houtcome =>
    rw [encoderCommands_of_queries hqueries]
    rcases hevent with ⟨call, rfl⟩ | ⟨call, rfl⟩ <;> simp [BatchEvent.encoding]
  | dropped => rfl
  | kept => rfl
  | finished => rfl

/-- A section of `add` or `barrier` that returned made exactly the calls of its encoding, and
one that threw made none. -/
theorem StepCase.calls_of_encodes {rt : Runtime} {world world' : BatchWorld} {phase : Phase}
    {event : BatchEvent} {sec : Section} (hcase : StepCase rt world phase event sec world')
    (hencodes : event.encodes) :
    sec.calls = if sec.returned then
      (event.encoding rt.supportsNonUniformThreadgroups).map .encode else [] := by
  cases hcase with
  | encoded launch pipeline hpipeline hvalid =>
    simp [Section.returned, BatchEvent.encoding, hpipeline]
  | rejected => rfl
  | fenced => rfl
  | refused => rfl
  | committed _ hevent => rcases hevent with rfl | ⟨call, rfl⟩ <;> cases hencodes
  | already _ hevent => rcases hevent with rfl | ⟨call, rfl⟩ <;> cases hencodes
  | dead => rfl
  | queried _ outcome queries time hevent hqueries houtcome =>
    rcases hevent with ⟨call, rfl⟩ | ⟨call, rfl⟩ <;> cases hencodes
  | dropped => cases hencodes
  | kept => rfl
  | finished => rfl

/-- The commands of a phase are exactly the encoder commands among the calls. -/
theorem Lifecycle.encoderCommands_calls {world : BatchWorld} {phase : Phase}
    {commands : List EncoderCommand} (hlife : Lifecycle world phase commands) :
    encoderCommands world.calls = commands := by
  have hcalls := hlife.calls
  cases phase with
  | opened =>
    have heq : world.calls = commands.map .encode := hcalls
    rw [heq, encoderCommands_map_encode]
  | committed =>
    obtain ⟨queries, hqueries, heq⟩ := hcalls
    simp [heq, encoderCommands_of_queries hqueries]
  | discarded =>
    have heq : world.calls = commands.map .encode ++ [.endEncoding] := hcalls
    simp [heq]

/-- Only a committed batch has committed commands, and those are all commands encoded. -/
theorem Lifecycle.committedCommands_eq {world : BatchWorld} {phase : Phase}
    {commands : List EncoderCommand} (hlife : Lifecycle world phase commands) :
    world.committedCommands = if phase = .committed then some commands else none := by
  have hcalls := hlife.calls
  cases phase with
  | opened =>
    have heq : world.calls = commands.map .encode := hcalls
    simp [BatchWorld.committedCommands, heq]
  | committed =>
    obtain ⟨queries, hqueries, heq⟩ := hcalls
    have htake : world.calls.takeWhile (fun call => call ≠ .commit) =
        commands.map .encode ++ [.endEncoding] := by
      rw [heq, List.takeWhile_append_of_pos]
      · simp
      · intro call hcall
        obtain ⟨command, -, rfl⟩ := List.mem_map.mp hcall
        simp
    simp only [BatchWorld.committedCommands, htake]
    simp [heq]
  | discarded =>
    have heq : world.calls = commands.map .encode ++ [.endEncoding] := hcalls
    simp [BatchWorld.committedCommands, heq]

namespace BatchSystem

variable {rt : Runtime} {s t : BatchSystem} {events : List BatchEvent} {sections : List Section}
  {phase : Phase} {commands : List EncoderCommand} {event : BatchEvent} {sec : Section}

/-- The flag `committed_` is set exactly in the committed phase. -/
theorem Invariant.committed_iff (hinv : Invariant rt s phase commands) :
    s.world.batch.committed = true ↔ phase = .committed := by
  rw [hinv.lifecycle.committed, decide_eq_true_eq]

/-- The flag `discarded_` is set exactly in the discarded phase. -/
theorem Invariant.discarded_iff (hinv : Invariant rt s phase commands) :
    s.world.batch.discarded = true ↔ phase = .discarded := by
  rw [hinv.lifecycle.discarded, decide_eq_true_eq]

/-- A batch that is no longer open stays in its phase along every schedule. -/
theorem run_closed (hinv : Invariant rt s phase commands) (hphase : phase ≠ .opened)
    (hrun : runSchedule step s events = some (sections, t)) :
    ∃ more, Invariant rt t phase more := by
  refine runSchedule_invariant (fun s => ∃ more, Invariant rt s phase more) ?_ ⟨commands, hinv⟩ hrun
  intro s event sec s' hbefore hstep
  obtain ⟨more, hinv⟩ := hbefore
  have hnext := step_invariant hinv hstep
  rw [nextPhase_of_closed hphase] at hnext
  exact ⟨_, hnext⟩

/-- Along every schedule the system stays sound. -/
theorem run_sound (hsound : Sound rt s) (hrun : runSchedule step s events = some (sections, t)) :
    Sound rt t :=
  runSchedule_invariant (Sound rt) (fun _ _ _ _ => step_sound) hsound hrun

/-- Along every schedule the calls grow by those that the sections made. -/
theorem run_calls (hsound : Sound rt s) (hrun : runSchedule step s events = some (sections, t)) :
    t.world.calls = s.world.calls ++ sections.flatMap Section.calls := by
  refine runSchedule_log (Sound rt) (fun s => s.world.calls) Section.calls ?_ hsound hrun
  intro s event sec s' hsound hstep
  obtain ⟨phase, commands, hinv⟩ := hsound
  exact ⟨(step_cases hinv hstep).calls_eq, ⟨_, _, step_invariant hinv hstep⟩⟩

/-- A property of every single step holds of every section of a schedule. -/
theorem run_sections {Q : BatchEvent → Section → Prop}
    (hcase : ∀ world phase event sec world', StepCase rt world phase event sec world' →
      Q event sec)
    (hsound : Sound rt s) (hrun : runSchedule step s events = some (sections, t)) :
    List.Forall₂ Q events sections := by
  refine runSchedule_observations (Sound rt) Q ?_ hsound hrun
  intro s event sec s' hsound hstep
  obtain ⟨phase, commands, hinv⟩ := hsound
  exact ⟨hcase _ _ _ _ _ (step_cases hinv hstep), ⟨_, _, step_invariant hinv hstep⟩⟩

/-- The encoder commands of a schedule are the encodings of the calls that returned. -/
theorem run_encoderCommands (hsound : Sound rt s)
    (hrun : runSchedule step s events = some (sections, t)) :
    encoderCommands t.world.calls = encoderCommands s.world.calls ++
      returnedEncodings rt.supportsNonUniformThreadgroups events sections := by
  have hlog := runSchedule_log (Sound rt) (fun s => encoderCommands s.world.calls)
    (fun sec => encoderCommands sec.calls) ?_ hsound hrun
  · rw [hlog, returnedEncodings]
    congr 1
    exact flatMap_eq_zip_flatMap
      (run_sections (fun _ _ _ _ _ hcase => hcase.encoderCommands_eq) hsound hrun)
  · intro s event sec s' hsound hstep
    obtain ⟨phase, commands, hinv⟩ := hsound
    refine ⟨?_, ⟨_, _, step_invariant hinv hstep⟩⟩
    rw [(step_cases hinv hstep).calls_eq, encoderCommands_append]

/-- A discarded batch stays uncommitted along every schedule. -/
theorem run_discarded (hsound : Sound rt s) (hdiscarded : s.world.batch.discarded = true)
    (hrun : runSchedule step s events = some (sections, t)) : .commit ∉ t.world.calls := by
  obtain ⟨phase, commands, hinv⟩ := hsound
  have hphase := hinv.discarded_iff.mp hdiscarded
  subst hphase
  obtain ⟨more, hlater⟩ := run_closed hinv (by decide) hrun
  intro hcommit
  cases committed_of_mem hlater hcommit

end BatchSystem

/-- A committed command buffer carries exactly the encodings of the `add` and `barrier`
calls that returned, in lock order. A call that threw encoded nothing, an accepted launch
is always encoded whole, and nothing is committed once the batch was discarded. -/
theorem committed_batch_carries_returned_encodings {rt : Runtime}
    {commandBuffer encoder : Option ℕ} {world : BatchWorld} {events : List BatchEvent}
    {sections : List Section} {s : BatchSystem}
    (hcreate : CommandBatch.create rt commandBuffer encoder = .ok world)
    (hrun : runSchedule BatchSystem.step (BatchSystem.initial world) events = some (sections, s)) :
    (.commit ∈ s.world.calls → s.world.committedCommands =
      some (returnedEncodings rt.supportsNonUniformThreadgroups events sections)) ∧
    s.world.calls = sections.flatMap Section.calls ∧
    List.Forall₂ (fun event sec => event.encodes → sec.calls = if sec.returned then
      (event.encoding rt.supportsNonUniformThreadgroups).map .encode else []) events sections ∧
    (∀ launch, validate launch rt.supportsNonUniformThreadgroups rt.maxThreadgroupMemoryLength =
        .ok () → ∃ pipeline, launch.pipeline = some pipeline ∧
      ∀ world : BatchWorld, world.batch.encoder.isSome →
        world.batch.nonUniform = rt.supportsNonUniformThreadgroups →
        (CommandBatch.encode launch).exec world = (.ok (), world.after
          ((launchCommands launch pipeline rt.supportsNonUniformThreadgroups).map .encode))) ∧
    (s.world.batch.discarded = true → ∀ later more t,
      runSchedule BatchSystem.step s later = some (more, t) → .commit ∉ t.world.calls) := by
  have hinitial := BatchSystem.initial_invariant hcreate
  have hsound : BatchSystem.Sound rt (BatchSystem.initial world) := ⟨_, _, hinitial⟩
  have hstart : world.calls = [] := hinitial.lifecycle.calls
  refine ⟨?_, ?_, ?_, ?_, ?_⟩
  · intro hcommit
    obtain ⟨phase, commands, hinv⟩ := BatchSystem.run_sound hsound hrun
    have hcommands := BatchSystem.run_encoderCommands hsound hrun
    rw [hinv.lifecycle.committedCommands_eq, if_pos (BatchSystem.committed_of_mem hinv hcommit),
      ← hinv.lifecycle.encoderCommands_calls, hcommands]
    simp [BatchSystem.initial, hstart]
  · have hcalls := BatchSystem.run_calls hsound hrun
    simpa [BatchSystem.initial, hstart] using hcalls
  · exact BatchSystem.run_sections (fun _ _ _ _ _ hcase => hcase.calls_of_encodes) hsound hrun
  · intro launch hvalid
    obtain ⟨pipeline, hpipeline, -⟩ := (validate_eq_ok_checks _ _ _).mp hvalid
    refine ⟨pipeline, hpipeline, ?_⟩
    intro world hencoder hnonUniform
    rw [CommandBatch.exec_encode hencoder hpipeline (CommandBatch.rounds_of_validate hvalid),
      hnonUniform]
  · intro hdiscarded later more t hlater
    exact BatchSystem.run_discarded (BatchSystem.run_sound hsound hrun) hdiscarded hlater

/-- A batch just constructed on a device with the usual limits. -/
def appleBatch : BatchWorld where
  batch := {
    commandBuffer := some 1, encoder := some 2
    nonUniform := true, maxThreadgroupMemory := 32768 }

/-- The constructor makes that batch. -/
theorem create_appleBatch :
    CommandBatch.create ⟨true, 32768⟩ (some 1) (some 2) = .ok appleBatch := rfl

/-- Two threads share the batch: one launch is rejected, and one comes after the commit. -/
def racingEvents : List BatchEvent :=
  [.add addOneLaunch, .barrier, .add {}, .commit, .add addOneLaunch, .discard]

/-- The race commits the accepted launch and the barrier. -/
theorem racingEvents_committed : ∃ sections s,
    runSchedule BatchSystem.step (BatchSystem.initial appleBatch) racingEvents =
      some (sections, s) ∧
    s.world.committedCommands =
      some (launchCommands addOneLaunch addOnePipeline true ++ [.memoryBarrier]) := by
  have hrun : runSchedule BatchSystem.step (BatchSystem.initial appleBatch) racingEvents =
    some (_, _) := rfl
  exact ⟨_, _, hrun, (committed_batch_carries_returned_encodings create_appleBatch hrun).1
    (by decide)⟩

end MetalRuntime
