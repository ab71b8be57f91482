import MetalRuntime.BatchSchedules
import MetalRuntime.Foundations.Blocks
import MetalRuntime.FrontEnds

/-!
# Batches as contexts

A `with` statement on a batch waits if its body returned and discards the batch if it raised. The
body is any Python program over the methods of the batch, with loops, handlers and further `with`
statements on it. Whatever the body does, the GPU gets all launches that were accepted, or none.
-/

namespace MetalRuntime

open Foundations

/-- What a program does with a batch. The GPU finishes with the given result at the first wait. -/
inductive BatchAction
  | enter
  | add (params : LaunchParams)
  | barrier
  | commit
  | wait (result : GpuResult)
  | discard

namespace BatchAction

/-- The method that an action calls. -/
def method : BatchAction → BatchMethod Unit
  | .enter => pure ()
  | .add params => do
    let prepared ← Method.ofExcept (prepare params)
    CommandBatch.add prepared.launch
  | .barrier => CommandBatch.barrier
  | .commit => CommandBatch.commit
  | .wait result => waitFor result
  | .discard => CommandBatch.discard

/-- What an action that returned has had accepted. -/
def accepts : BatchAction → List BatchEvent
  | .add params =>
    match prepare params with
    | .ok prepared => [.add prepared.launch]
    | .error _ => []
  | .barrier => [.barrier]
  | _ => []

end BatchAction

/-- A batch in a program, with the launches and barriers that were accepted so far. -/
structure BatchTrace where
  world : BatchWorld
  accepted : List BatchEvent := []

namespace BatchTrace

/-- One action. -/
def Performs (action : BatchAction) (s : BatchTrace) (outcome : Except Failure Unit)
    (s' : BatchTrace) : Prop :=
  action.method.exec s.world = (outcome, s'.world) ∧
    s'.accepted = s.accepted ++ outcome.toOption.elim [] fun _ => action.accepts

/-- The encodings of what was accepted. -/
def encodings (nonUniform : Bool) (s : BatchTrace) : List EncoderCommand :=
  s.accepted.flatMap (BatchEvent.encoding nonUniform)

/-- The batch is in a phase, with exactly the encodings of what was accepted. -/
structure Tracks (nonUniform : Bool) (phase : Phase) (s : BatchTrace) : Prop where
  lifecycle : Lifecycle s.world phase (s.encodings nonUniform)
  nonUniform : phase = .opened → s.world.batch.nonUniform = nonUniform

/-- The batch is in some phase. -/
def Tracked (nonUniform : Bool) (s : BatchTrace) : Prop :=
  ∃ phase, s.Tracks nonUniform phase

end BatchTrace

/-- `with batch: body`, where the last wait sees the given result. -/
def withBatch (body : Block BatchAction Failure) (result : GpuResult) : Block BatchAction Failure :=
  .within .enter body (.wait result) .discard

section Actions

variable {nonUniform : Bool} {phase : Phase} {s s' : BatchTrace} {outcome : Except Failure Unit}

/-- An action that throws, or has nothing to accept, has nothing accepted. -/
theorem accepted_of_performs {action : BatchAction} (h : s.Performs action outcome s')
    (hnone : outcome.toOption = none ∨ action.accepts = []) : s'.accepted = s.accepted := by
  obtain ⟨-, haccepted⟩ := h
  rw [haccepted]
  rcases hnone with hnone | hnone
  · rw [hnone, Option.elim_none, List.append_nil]
  · rw [hnone]
    cases outcome <;> simp [Except.toOption]

/-- So it keeps the encodings. -/
theorem encodings_of_performs {action : BatchAction} (h : s.Performs action outcome s')
    (hnone : outcome.toOption = none ∨ action.accepts = []) :
    s'.encodings nonUniform = s.encodings nonUniform := by
  rw [BatchTrace.encodings, accepted_of_performs h hnone, BatchTrace.encodings]

/-- If it leaves the batch alone as well, nothing has changed. -/
theorem eq_of_performs {action : BatchAction} (h : s.Performs action outcome s')
    (hnone : outcome.toOption = none ∨ action.accepts = []) (hworld : s'.world = s.world) :
    s' = s := by
  have haccepted := accepted_of_performs h hnone
  cases s
  cases s'
  cases hworld
  cases haccepted
  rfl

/-- An action that leaves the batch alone. -/
theorem BatchTrace.Tracks.unchanged (h : s.Tracks nonUniform phase) {action : BatchAction}
    (hperforms : s.Performs action outcome s')
    (hnone : outcome.toOption = none ∨ action.accepts = []) (hworld : s'.world = s.world) :
    s'.Tracks nonUniform phase := by
  rw [eq_of_performs hperforms hnone hworld]
  exact h

/-- An open batch accepts a launch whole or not at all; a closed one refuses it. -/
theorem tracks_of_add (h : s.Tracks nonUniform phase) {params : LaunchParams}
    (hperforms : s.Performs (.add params) outcome s') : s'.Tracks nonUniform phase := by
  obtain ⟨hexec, haccepted⟩ := id hperforms
  cases hprepare : prepare params with
  | error failure =>
    rw [BatchAction.method, Method.exec_bind, Method.exec_ofExcept, hprepare,
      Method.andThen_error] at hexec
    obtain ⟨rfl, hworld⟩ := Prod.mk.inj hexec
    exact h.unchanged hperforms (Or.inl rfl) hworld.symm
  | ok prepared =>
    rw [BatchAction.method, Method.exec_bind, Method.exec_ofExcept, hprepare,
      Method.andThen_ok] at hexec
    by_cases hphase : phase = .opened
    · subst hphase
      cases hvalid : validate prepared.launch s.world.batch.nonUniform
          s.world.batch.maxThreadgroupMemory with
      | error failure =>
        rw [h.lifecycle.exec_add_of_rejected hvalid] at hexec
        obtain ⟨rfl, hworld⟩ := Prod.mk.inj hexec
        exact h.unchanged hperforms (Or.inl rfl) hworld.symm
      | ok _ =>
        obtain ⟨pipeline, hpipeline, hadd⟩ := h.lifecycle.exec_add hvalid
        have hsame := h.nonUniform rfl
        rw [hadd] at hexec
        obtain ⟨rfl, hworld⟩ := Prod.mk.inj hexec
        have hencodings : s'.encodings nonUniform = s.encodings nonUniform ++
            launchCommands prepared.launch pipeline nonUniform := by
          rw [BatchTrace.encodings, haccepted]
          simp [BatchAction.accepts, hprepare, BatchEvent.encoding, hpipeline, Except.toOption,
            BatchTrace.encodings]
        refine ⟨?_, fun _ => ?_⟩
        · rw [hencodings, ← hworld, hsame]
          exact h.lifecycle.encode _
        · rw [← hworld]
          exact hsame
    · obtain ⟨message, hadd⟩ := h.lifecycle.exec_add_of_closed hphase prepared.launch
      rw [hadd] at hexec
      obtain ⟨rfl, hworld⟩ := Prod.mk.inj hexec
      exact h.unchanged hperforms (Or.inl rfl) hworld.symm

/-- So does a barrier. -/
theorem tracks_of_barrier (h : s.Tracks nonUniform phase)
    (hperforms : s.Performs .barrier outcome s') : s'.Tracks nonUniform phase := by
  obtain ⟨hexec, haccepted⟩ := id hperforms
  rw [BatchAction.method] at hexec
  by_cases hphase : phase = .opened
  · subst hphase
    rw [h.lifecycle.exec_barrier] at hexec
    obtain ⟨rfl, hworld⟩ := Prod.mk.inj hexec
    have hencodings : s'.encodings nonUniform = s.encodings nonUniform ++ [.memoryBarrier] := by
      rw [BatchTrace.encodings, haccepted]
      simp [BatchAction.accepts, BatchEvent.encoding, Except.toOption, BatchTrace.encodings]
    refine ⟨?_, fun _ => ?_⟩
    · rw [hencodings, ← hworld]
      exact h.lifecycle.encode [.memoryBarrier]
    · rw [← hworld]
      exact h.nonUniform rfl
  · obtain ⟨message, hbarrier⟩ := h.lifecycle.exec_barrier_of_closed hphase
    rw [hbarrier] at hexec
    obtain ⟨rfl, hworld⟩ := Prod.mk.inj hexec
    exact h.unchanged hperforms (Or.inl rfl) hworld.symm

/-- A batch that was not discarded is committed by `commit_locked`. -/
theorem exec_commitLocked_of_tracks (h : s.Tracks nonUniform phase) (hphase : phase ≠ .discarded) :
    ∃ after, CommandBatch.commitLocked.exec s.world = (.ok (), after) ∧
      Lifecycle after .committed (s.encodings nonUniform) ∧ after.gpu = s.world.gpu := by
  cases phase with
  | opened => exact ⟨_, h.lifecycle.exec_commitLocked, h.lifecycle.commit, rfl⟩
  | committed =>
    exact ⟨_, h.lifecycle.exec_commitLocked_of_committed, h.lifecycle, rfl⟩
  | discarded => exact absurd rfl hphase

/-- A commit commits a batch unless it was discarded. -/
theorem tracked_of_commit (h : s.Tracks nonUniform phase)
    (hperforms : s.Performs .commit outcome s') : s'.Tracked nonUniform := by
  obtain ⟨hexec, -⟩ := id hperforms
  rw [BatchAction.method, CommandBatch.commit] at hexec
  by_cases hphase : phase = .discarded
  · subst hphase
    rw [h.lifecycle.exec_commitLocked_of_discarded] at hexec
    obtain ⟨rfl, hworld⟩ := Prod.mk.inj hexec
    exact ⟨_, h.unchanged hperforms (Or.inl rfl) hworld.symm⟩
  · obtain ⟨after, hcommit, hafter, -⟩ := exec_commitLocked_of_tracks h hphase
    rw [hcommit] at hexec
    obtain ⟨rfl, rfl⟩ := Prod.mk.inj hexec
    refine ⟨.committed, ?_, fun hopened => by cases hopened⟩
    rw [encodings_of_performs hperforms (Or.inr rfl)]
    exact hafter

/-- The rest of a `wait` throws exactly if the GPU reported a fault. -/
theorem waitRest_returns_iff {world after : BatchWorld} {commands : List EncoderCommand}
    (h : Lifecycle world .committed commands)
    (hexec : (do
        CommandBatch.waitUntilCompleted
        CommandBatch.waitFinish : BatchMethod Unit).exec world = (outcome, after)) :
    after.gpu = world.gpu ∧ (outcome = .ok () ↔ world.gpu.bind GpuResult.fault = none) := by
  have hqueried : ∀ call ∈ [MetalCall.waitUntilCompleted], call.isQuery := by decide
  have hwaited := h.query hqueried
  have hreturns := hwaited.waitFinish_returns_iff
  obtain ⟨queries, time, result, -, -, hfinish⟩ := hwaited.exec_waitFinish
  rw [Method.exec_bind, h.exec_waitUntilCompleted, Method.andThen_ok, hfinish] at hexec
  rw [hfinish] at hreturns
  obtain ⟨rfl, rfl⟩ := Prod.mk.inj hexec
  exact ⟨rfl, hreturns⟩

/-- A wait commits a batch and throws exactly if the GPU reports a fault, unless the batch was
discarded. -/
theorem wait_cases (h : s.Tracks nonUniform phase) {result : GpuResult}
    (hperforms : s.Performs (.wait result) outcome s') :
    (phase ≠ .discarded ∧ s'.Tracks nonUniform .committed ∧ s'.world.gpu.isSome ∧
      (outcome = .ok () ↔ s'.world.gpu.bind GpuResult.fault = none)) ∨
    phase = .discarded ∧ s'.Tracks nonUniform .discarded ∧ outcome ≠ .ok () := by
  obtain ⟨hexec, -⟩ := id hperforms
  rw [BatchAction.method, waitFor, Method.exec_bind] at hexec
  by_cases hphase : phase = .discarded
  · subst hphase
    rw [h.lifecycle.exec_commitLocked_of_discarded, Method.andThen_error] at hexec
    obtain ⟨rfl, hworld⟩ := Prod.mk.inj hexec
    exact Or.inr ⟨rfl, h.unchanged hperforms (Or.inl rfl) hworld.symm, by simp⟩
  · obtain ⟨committed, hcommit, hcommitted, hgpu⟩ := exec_commitLocked_of_tracks h hphase
    rw [hcommit, Method.andThen_ok, Method.exec_bind, Method.exec_modify,
      Method.andThen_ok] at hexec
    have hfinished := hcommitted.finished (committed.gpu.getD result)
    obtain ⟨ended, after, hrest, hafter, -⟩ := hfinished.exec_waitRest
    obtain ⟨hsame, hreturns⟩ := waitRest_returns_iff hfinished hrest
    rw [hrest] at hexec
    obtain ⟨rfl, rfl⟩ := Prod.mk.inj hexec
    refine Or.inl ⟨hphase, ⟨?_, fun hopened => by cases hopened⟩, ?_, ?_⟩
    · rw [encodings_of_performs hperforms (Or.inr rfl)]
      exact hafter
    · rw [hsame]
      rfl
    · rw [hsame]
      exact hreturns

/-- A discard never throws. It drops an open batch and leaves a closed one alone. -/
theorem discard_cases (h : s.Tracks nonUniform phase)
    (hperforms : s.Performs .discard outcome s') : outcome = .ok () ∧
      ((phase = .opened ∧ s'.Tracks nonUniform .discarded) ∨
        phase ≠ .opened ∧ s' = s) := by
  obtain ⟨hexec, -⟩ := id hperforms
  rw [BatchAction.method] at hexec
  by_cases hphase : phase = .opened
  · subst hphase
    rw [h.lifecycle.exec_discard] at hexec
    obtain ⟨rfl, hworld⟩ := Prod.mk.inj hexec
    refine ⟨rfl, Or.inl ⟨rfl, ?_, fun hopened => by cases hopened⟩⟩
    rw [encodings_of_performs hperforms (Or.inr rfl), ← hworld]
    exact h.lifecycle.discard
  · rw [h.lifecycle.exec_discard_of_closed hphase] at hexec
    obtain ⟨rfl, hworld⟩ := Prod.mk.inj hexec
    exact ⟨rfl, Or.inr ⟨hphase, eq_of_performs hperforms (Or.inr rfl) hworld.symm⟩⟩

/-- Entering returns the batch as it is. -/
theorem enter_cases (hperforms : s.Performs .enter outcome s') : outcome = .ok () ∧ s' = s := by
  obtain ⟨hexec, -⟩ := id hperforms
  rw [BatchAction.method, Method.exec_pure] at hexec
  obtain ⟨rfl, hworld⟩ := Prod.mk.inj hexec
  exact ⟨rfl, eq_of_performs hperforms (Or.inr rfl) hworld.symm⟩

/-- Every action keeps track of what was accepted. -/
theorem tracked_of_performs (nonUniform : Bool) (action : BatchAction) :
    Block.ActTriple (fun action (s : BatchTrace) => s.Performs action)
      (BatchTrace.Tracked nonUniform) action (BatchTrace.Tracked nonUniform)
      fun _ => BatchTrace.Tracked nonUniform := by
  rintro s outcome s' ⟨phase, h⟩ hperforms
  have htracked : s'.Tracked nonUniform := by
    cases action with
    | enter => exact (enter_cases hperforms).2 ▸ ⟨phase, h⟩
    | add params => exact ⟨phase, tracks_of_add h hperforms⟩
    | barrier => exact ⟨phase, tracks_of_barrier h hperforms⟩
    | commit => exact tracked_of_commit h hperforms
    | wait result =>
      rcases wait_cases h hperforms with ⟨-, hcommitted, -⟩ | ⟨-, hdiscarded, -⟩
      · exact ⟨_, hcommitted⟩
      · exact ⟨_, hdiscarded⟩
    | discard =>
      rcases (discard_cases h hperforms).2 with ⟨-, hdiscarded⟩ | ⟨-, rfl⟩
      · exact ⟨_, hdiscarded⟩
      · exact ⟨phase, h⟩
  cases outcome with
  | ok _ => exact htracked
  | error _ => exact htracked

end Actions

/-- What a program makes of a batch. -/
abbrev BatchRuns (block : Block BatchAction Failure) (s : BatchTrace)
    (outcome : Except Failure Unit) (s' : BatchTrace) : Prop :=
  block.Runs (fun action (s : BatchTrace) => s.Performs action) s outcome s'

/-- The GPU gets everything that was accepted. -/
def BatchTrace.GivesAll (nonUniform : Bool) (s : BatchTrace) : Prop :=
  s.world.committedCommands = some (s.encodings nonUniform)

/-- The GPU gets nothing, and the command buffer does not count any more. -/
def BatchTrace.GivesNothing (s : BatchTrace) : Prop :=
  s.world.committedCommands = none ∧ s.world.batch.commandBuffer = none

theorem givesAll_of_tracks {nonUniform : Bool} {s : BatchTrace}
    (h : s.Tracks nonUniform .committed) : s.GivesAll nonUniform := by
  rw [BatchTrace.GivesAll, h.lifecycle.committedCommands_eq, if_pos rfl]

theorem givesNothing_of_tracks {nonUniform : Bool} {s : BatchTrace}
    (h : s.Tracks nonUniform .discarded) : s.GivesNothing := by
  refine ⟨by rw [h.lifecycle.committedCommands_eq, if_neg (by decide)], ?_⟩
  have hcommandBuffer := h.lifecycle.commandBuffer
  rw [decide_eq_false (by simp), Option.isSome_eq_false_iff, Option.isNone_iff_eq_none]
    at hcommandBuffer
  exact hcommandBuffer

/-- A body that adds a launch, has a second one refused, which it handles, and then raises. -/
def raisingBody : Block BatchAction Failure :=
  .seq (.act (.add (offsetParams 4)))
    (.seq (.handle (.act (.add (offsetParams 16))) .skip) (.raise .outOfRange))

/-- The batch after an action. -/
def BatchTrace.next (action : BatchAction) (s : BatchTrace) : BatchTrace :=
  let (outcome, world) := action.method.exec s.world
  ⟨world, s.accepted ++ outcome.toOption.elim [] fun _ => action.accepts⟩

end MetalRuntime
