import MetalRuntime.BatchSchedules

/-!
# The protocol of the Metal objects of a batch

Metal aborts the process when an encoder is released before `endEncoding`, used after it,
or when a command buffer is committed twice or with an open encoder. Here the calls of a
batch's whole life, from the constructor to the destructor, are shown to avoid all of these
in every schedule.
-/

namespace MetalRuntime

open Foundations

/-- The protocol of an encoder and its command buffer over their whole life. -/
structure EncodingProtocol (calls : List MetalCall) : Prop where
  endsOnce : calls.count .endEncoding = 1
  commitsAtMostOnce : calls.count .commit ≤ 1
  commitAfterEnd : ∀ before after, calls = before ++ .commit :: after → .endEncoding ∈ before
  noEncodeAfterEnd : ∀ before after, calls = before ++ .endEncoding :: after →
    ∀ command, .encode command ∉ after

/-- Encoded commands are no other call. -/
theorem not_mem_map_encode (commands : List EncoderCommand) {call : MetalCall}
    (h : ∀ command, MetalCall.encode command ≠ call) : call ∉ commands.map MetalCall.encode := by
  intro hmem
  obtain ⟨command, -, heq⟩ := List.mem_map.mp hmem
  exact h command heq

/-- What follows the end of the encoding: nothing, or one commit and queries. -/
def Closing (rest : List MetalCall) : Prop :=
  rest = [] ∨ ∃ queries : List MetalCall, (∀ call ∈ queries, call.isQuery) ∧
    rest = .commit :: queries

/-- A call that is neither a commit nor a query does not follow. -/
theorem Closing.not_mem {rest : List MetalCall} (h : Closing rest) {call : MetalCall}
    (hcommit : call ≠ .commit) (hquery : ¬ call.isQuery) : call ∉ rest := by
  rcases h with rfl | ⟨queries, hqueries, rfl⟩
  · exact List.not_mem_nil
  · rw [List.mem_cons, not_or]
    exact ⟨hcommit, fun hmem => hquery (hqueries call hmem)⟩

/-- Calls that encode and then end the encoding once follow the protocol, if what comes
after is at most one commit, first, and queries. -/
theorem encodingProtocol_of_calls (commands : List EncoderCommand) {rest : List MetalCall}
    (hrest : Closing rest) :
    EncodingProtocol (commands.map .encode ++ .endEncoding :: rest) := by
  have hmapEnd : .endEncoding ∉ commands.map MetalCall.encode :=
    not_mem_map_encode commands fun command heq => by cases heq
  have hmapCommit : .commit ∉ commands.map MetalCall.encode :=
    not_mem_map_encode commands fun command heq => by cases heq
  have hrestEnd : .endEncoding ∉ rest :=
    hrest.not_mem (fun heq => by cases heq) (fun hquery => by cases hquery)
  refine ⟨?_, ?_, ?_, ?_⟩
  · rw [List.count_append, List.count_cons_self, List.count_eq_zero.mpr hmapEnd,
      List.count_eq_zero.mpr hrestEnd]
  · rw [List.count_append, List.count_cons_of_ne (by decide), List.count_eq_zero.mpr hmapCommit,
      zero_add]
    rcases hrest with rfl | ⟨queries, hqueries, rfl⟩
    · exact Nat.zero_le 1
    · have hnone : .commit ∉ queries := fun hmem => by cases hqueries _ hmem
      rw [List.count_cons_self, List.count_eq_zero.mpr hnone]
  · intro before after heq
    have hprefix : .commit ∉ commands.map MetalCall.encode ++ [.endEncoding] := by
      rw [List.mem_append, not_or, List.mem_singleton]
      exact ⟨hmapCommit, fun h => by cases h⟩
    rcases hrest with rfl | ⟨queries, hqueries, rfl⟩
    · rw [heq] at hprefix
      exact absurd (List.mem_append_right before List.mem_cons_self) hprefix
    · -- The one commit splits the calls in one way.
      have hnone : .commit ∉ queries := fun hmem => by cases hqueries _ hmem
      rw [List.append_cons] at heq
      obtain ⟨rfl, -, -⟩ := (List.append_cons_inj_of_notMem hprefix hnone).mp heq
      exact List.mem_append_right _ List.mem_cons_self
  · intro before after heq command
    obtain ⟨-, -, rfl⟩ := (List.append_cons_inj_of_notMem hmapEnd hrestEnd).mp heq
    exact hrest.not_mem (fun h => by cases h) (fun hquery => by cases hquery)

/-- The destructor returns in every phase, and the calls of the whole life follow the
protocol. -/
theorem Lifecycle.destroy_protocol {world : BatchWorld} {phase : Phase}
    {commands : List EncoderCommand} (hlife : Lifecycle world phase commands) :
    ∃ final, CommandBatch.destroy.exec world = (.ok (), final) ∧
      EncodingProtocol final.calls := by
  cases phase with
  | opened =>
    have hcalls : world.calls = commands.map .encode := hlife.calls
    refine ⟨_, hlife.exec_destroy, ?_⟩
    rw [BatchWorld.after_calls, hcalls]
    exact encodingProtocol_of_calls commands (Or.inl rfl)
  | committed =>
    obtain ⟨queries, hqueries, hcalls⟩ := hlife.calls
    refine ⟨_, hlife.exec_destroy_of_closed (by decide), ?_⟩
    rw [hcalls]
    exact encodingProtocol_of_calls commands (Or.inr ⟨queries, hqueries, rfl⟩)
  | discarded =>
    have hcalls : world.calls = commands.map .encode ++ [.endEncoding] := hlife.calls
    refine ⟨_, hlife.exec_destroy_of_closed (by decide), ?_⟩
    rw [hcalls]
    exact encodingProtocol_of_calls commands (Or.inl rfl)

/-- No step dereferences a null handle or reads past a container. -/
theorem StepCase.no_undefinedBehavior {rt : Runtime} {world world' : BatchWorld} {phase : Phase}
    {event : BatchEvent} {sec : Section} (hcase : StepCase rt world phase event sec world') :
    sec.outcome ≠ .error .undefinedBehavior := by
  cases hcase with
  | queried _ outcome queries time hevent hqueries houtcome =>
    rcases houtcome with rfl | ⟨message, rfl⟩
    · exact fun heq => by cases heq
    · exact fun heq => by cases heq
  | _ => exact fun heq => by cases heq

/-- On a discarded batch a step makes no Metal call, and the sections that need a live batch
throw `DispatchError`. -/
theorem StepCase.of_discarded {rt : Runtime} {world world' : BatchWorld} {event : BatchEvent}
    {sec : Section} (hcase : StepCase rt world .discarded event sec world') :
    sec.calls = [] ∧
      (event.needsLiveBatch → ∃ message, sec.outcome = .error (.dispatchError message)) := by
  cases hcase with
  | refused _ _ message => exact ⟨rfl, fun _ => ⟨message, rfl⟩⟩
  | dead _ message => exact ⟨rfl, fun _ => ⟨message, rfl⟩⟩
  | kept => exact ⟨rfl, fun hneeds => by cases hneeds⟩

namespace BatchSystem

variable {rt : Runtime} {s t : BatchSystem} {events : List BatchEvent} {sections : List Section}

/-- No section of a schedule has undefined behaviour. -/
theorem run_defined (hsound : Sound rt s)
    (hrun : runSchedule step s events = some (sections, t)) :
    ∀ sec ∈ sections, sec.outcome ≠ .error .undefinedBehavior := by
  refine runSchedule_observed (Sound rt) _ ?_ hsound hrun
  intro s event sec s' hsound hstep
  obtain ⟨phase, commands, hinv⟩ := hsound
  exact ⟨(step_cases hinv hstep).no_undefinedBehavior, ⟨_, _, step_invariant hinv hstep⟩⟩

/-- `discard` on a committed batch changes nothing. -/
theorem step_discard_of_committed (hsound : Sound rt s)
    (hcommitted : s.world.batch.committed = true) :
    s.step .discard = some (⟨.ok (), []⟩, s) := by
  obtain ⟨phase, commands, hinv⟩ := hsound
  have hphase := hinv.committed_iff.mp hcommitted
  subst hphase
  rw [step, perform_eq (hinv.lifecycle.exec_discard_of_closed (by decide))
    (List.append_nil _).symm]

/-- `discard` on a batch that is not committed leaves it discarded, and ends the encoding once. -/
theorem step_discard_of_uncommitted (hsound : Sound rt s)
    (hcommitted : s.world.batch.committed = false) :
    ∃ s' : BatchSystem, s'.world.batch.discarded = true ∧ s.step .discard =
      some (⟨.ok (), if s.world.batch.discarded then [] else [.endEncoding]⟩, s') := by
  obtain ⟨phase, commands, hinv⟩ := hsound
  cases phase with
  | opened =>
    have hopen : s.world.batch.discarded = false := by simpa using hinv.lifecycle.discarded
    refine ⟨{ s with world := Lifecycle.discardedWorld s.world }, rfl, ?_⟩
    rw [step, perform_eq hinv.lifecycle.exec_discard rfl, hopen]
    rfl
  | committed =>
    rw [hinv.committed_iff.mpr rfl] at hcommitted
    cases hcommitted
  | discarded =>
    have hdead := hinv.discarded_iff.mpr rfl
    refine ⟨s, hdead, ?_⟩
    rw [step, perform_eq (hinv.lifecycle.exec_discard_of_closed (by decide))
      (List.append_nil _).symm, hdead]
    rfl

/-- Both flags stay set along every schedule. -/
theorem run_flags (hsound : Sound rt s)
    (hrun : runSchedule step s events = some (sections, t)) :
    (s.world.batch.committed = true → t.world.batch.committed = true) ∧
      (s.world.batch.discarded = true → t.world.batch.discarded = true) := by
  obtain ⟨phase, commands, hinv⟩ := hsound
  refine ⟨?_, ?_⟩
  · intro hcommitted
    have hphase := hinv.committed_iff.mp hcommitted
    obtain ⟨more, hlater⟩ := run_closed hinv (by rw [hphase]; decide) hrun
    exact hlater.committed_iff.mpr hphase
  · intro hdiscarded
    have hphase := hinv.discarded_iff.mp hdiscarded
    obtain ⟨more, hlater⟩ := run_closed hinv (by rw [hphase]; decide) hrun
    exact hlater.discarded_iff.mpr hphase

/-- After a discard, every section of every schedule is silent, and those that need a live
batch throw `DispatchError`. -/
theorem run_of_discarded (hsound : Sound rt s) (hdiscarded : s.world.batch.discarded = true)
    (hrun : runSchedule step s events = some (sections, t)) :
    List.Forall₂ (fun event sec => sec.calls = [] ∧ (event.needsLiveBatch →
      ∃ message, sec.outcome = .error (.dispatchError message))) events sections := by
  obtain ⟨phase, commands, hinv⟩ := hsound
  have hphase := hinv.discarded_iff.mp hdiscarded
  subst hphase
  refine runSchedule_observations (fun s => ∃ more, Invariant rt s .discarded more) _ ?_
    ⟨commands, hinv⟩ hrun
  intro s event sec s' hbefore hstep
  obtain ⟨more, hinv⟩ := hbefore
  have hnext := step_invariant hinv hstep
  rw [nextPhase_of_closed (by decide)] at hnext
  exact ⟨(step_cases hinv hstep).of_discarded, _, hnext⟩

end BatchSystem

/-- The protocol of a batch over every schedule, split at any point, and its destructor. -/
theorem batch_follows_protocol {rt : Runtime} {commandBuffer encoder : Option ℕ}
    {world : BatchWorld} {earlier later : List BatchEvent} {before after : List Section}
    {m s : BatchSystem}
    (hcreate : CommandBatch.create rt commandBuffer encoder = .ok world)
    (hearlier : runSchedule BatchSystem.step (BatchSystem.initial world) earlier =
      some (before, m))
    (hlater : runSchedule BatchSystem.step m later = some (after, s)) :
    (∃ final, CommandBatch.destroy.exec s.world = (.ok (), final) ∧
      EncodingProtocol final.calls) ∧
    ¬ (s.world.batch.committed = true ∧ s.world.batch.discarded = true) ∧
    (m.world.batch.committed = true → s.world.batch.committed = true) ∧
    (m.world.batch.discarded = true → s.world.batch.discarded = true) ∧
    (∀ sec ∈ before ++ after, sec.outcome ≠ .error .undefinedBehavior) ∧
    (s.world.batch.committed = true → s.step .discard = some (⟨.ok (), []⟩, s)) ∧
    (s.world.batch.committed = false → ∃ s' : BatchSystem, s'.world.batch.discarded = true ∧
      s.step .discard =
        some (⟨.ok (), if s.world.batch.discarded then [] else [.endEncoding]⟩, s')) ∧
    (m.world.batch.discarded = true → List.Forall₂ (fun event sec => sec.calls = [] ∧
      (event.needsLiveBatch → ∃ message, sec.outcome = .error (.dispatchError message)))
      later after) := by
  have hinitial : BatchSystem.Sound rt (BatchSystem.initial world) :=
    ⟨_, _, BatchSystem.initial_invariant hcreate⟩
  have hmiddle := BatchSystem.run_sound hinitial hearlier
  have hfinal := BatchSystem.run_sound hmiddle hlater
  obtain ⟨hcommitted, hdiscarded⟩ := BatchSystem.run_flags hmiddle hlater
  refine ⟨?_, ?_, hcommitted, hdiscarded, ?_, BatchSystem.step_discard_of_committed hfinal,
    BatchSystem.step_discard_of_uncommitted hfinal, ?_⟩
  · obtain ⟨phase, commands, hinv⟩ := hfinal
    exact hinv.lifecycle.destroy_protocol
  · obtain ⟨phase, commands, hinv⟩ := hfinal
    rw [hinv.committed_iff, hinv.discarded_iff]
    intro hboth
    cases hboth.1.symm.trans hboth.2
  · intro sec hsec
    rcases List.mem_append.mp hsec with hsec | hsec
    · exact BatchSystem.run_defined hinitial hearlier sec hsec
    · exact BatchSystem.run_defined hmiddle hlater sec hsec
  · intro hdead
    exact BatchSystem.run_of_discarded hmiddle hdead hlater

/-- A batch discarded between two calls follows the protocol. -/
theorem discarded_batch_follows_protocol : ∃ m s before after,
    runSchedule BatchSystem.step (BatchSystem.initial appleBatch) [.add addOneLaunch, .barrier] =
      some (before, m) ∧
    runSchedule BatchSystem.step m [.discard, .commit] = some (after, s) ∧
    ∃ final, CommandBatch.destroy.exec s.world = (.ok (), final) ∧
      EncodingProtocol final.calls := by
  have hprotocol := @batch_follows_protocol _ _ _ _ [.add addOneLaunch, .barrier]
    [.discard, .commit] _ _ _ _ create_appleBatch rfl rfl
  exact ⟨_, _, _, _, rfl, rfl, hprotocol.1⟩

end MetalRuntime
