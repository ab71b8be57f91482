import MetalRuntime.BatchLifecycle
import MetalRuntime.Foundations.Runs

/-!
# A batch shared by threads

The transition system of one `CommandBatch` used from any number of threads. Each section
under the lock is one step, the unlocked block of `wait` is a step of its own, and the GPU
may finish a committed command buffer at any time. A `wait` call is identified by a
number; a thread's successive calls are different numbers, so every schedule of threads
is a schedule of events. `StepCase` says once what a step can do.
-/

namespace MetalRuntime

open Foundations

/-- Where a call of `wait` stands. -/
inductive WaitPhase
  | notStarted
  | blocked
  | unblocked
  | returned
  deriving DecidableEq

/-- A batch and the calls of `wait` in progress on it. -/
structure BatchSystem where
  world : BatchWorld
  waits : ℕ → WaitPhase

/-- A step of some thread, or of the GPU. -/
inductive BatchEvent
  | add (launch : Launch)
  | barrier
  | commit
  | discard
  | waitCommit (call : ℕ)
  | waitBlock (call : ℕ)
  | waitFinish (call : ℕ)
  | gpuFinish (result : GpuResult)

/-- What a step shows: how the section ended, and the Metal calls it made. -/
structure Section where
  outcome : Except Failure Unit
  calls : List MetalCall
  deriving DecidableEq

/-- The section returned normally. -/
def Section.returned (sec : Section) : Bool :=
  match sec.outcome with
  | .ok _ => true
  | .error _ => false

namespace BatchSystem

/-- A batch just constructed, on which nobody waits. -/
def initial (world : BatchWorld) : BatchSystem := ⟨world, fun _ => .notStarted⟩

/-- Run a method as one step. -/
def perform (s : BatchSystem) (method : BatchMethod Unit) : Section × BatchSystem :=
  let result := method.exec s.world
  (⟨result.1, result.2.calls.drop s.world.calls.length⟩, { s with world := result.2 })

/-- Move a call of `wait` on; a section that threw ends the call. -/
def advance (call : ℕ) (next : WaitPhase) (result : Section × BatchSystem) :
    Section × BatchSystem :=
  let phase := if result.1.returned then next else .returned
  (result.1, { result.2 with waits := Function.update result.2.waits call phase })

/-- The next state after an event, if the event can happen. The block of `wait` can end only
when the GPU has finished; a null command buffer does not block. -/
def step (s : BatchSystem) : BatchEvent → Option (Section × BatchSystem)
  | .add launch => some (s.perform (CommandBatch.add launch))
  | .barrier => some (s.perform CommandBatch.barrier)
  | .commit => some (s.perform CommandBatch.commit)
  | .discard => some (s.perform CommandBatch.discard)
  | .waitCommit call =>
    if s.waits call = .notStarted then
      some (advance call .blocked (s.perform CommandBatch.commitLocked))
    else none
  | .waitBlock call =>
    if s.waits call = .blocked ∧ (s.world.batch.commandBuffer = none ∨ s.world.gpu.isSome) then
      some (advance call .unblocked (s.perform CommandBatch.waitUntilCompleted))
    else none
  | .waitFinish call =>
    if s.waits call = .unblocked then
      some (advance call .returned (s.perform CommandBatch.waitFinish))
    else none
  | .gpuFinish result =>
    if .commit ∈ s.world.calls ∧ s.world.gpu.isNone then
      some (⟨.ok (), []⟩, { s with world := { s.world with gpu := some result } })
    else none

/-- The invariant of the system: the batch is in a phase of its life, with the limits it was
constructed with, and only a committed batch has a `wait` past its first section. -/
structure Invariant (rt : Runtime) (s : BatchSystem) (phase : Phase)
    (commands : List EncoderCommand) : Prop where
  lifecycle : Lifecycle s.world phase commands
  nonUniform : s.world.batch.nonUniform = rt.supportsNonUniformThreadgroups
  maxThreadgroupMemory : s.world.batch.maxThreadgroupMemory = rt.maxThreadgroupMemoryLength
  waits : ∀ call, s.waits call = .blocked ∨ s.waits call = .unblocked → phase = .committed

/-- A batch just constructed satisfies the invariant. -/
theorem initial_invariant {rt : Runtime} {commandBuffer encoder : Option ℕ} {world : BatchWorld}
    (h : CommandBatch.create rt commandBuffer encoder = .ok world) :
    Invariant rt (initial world) .opened [] := by
  obtain ⟨hlifecycle, hnonUniform, hmemory⟩ := CommandBatch.create_lifecycle h
  refine ⟨hlifecycle, hnonUniform, hmemory, ?_⟩
  intro call hcall
  rcases hcall with hcall | hcall <;> cases hcall

end BatchSystem

/-- Events whose section starts with the lock and throws on a discarded batch. -/
def BatchEvent.needsLiveBatch : BatchEvent → Bool
  | .add _ | .barrier | .commit | .waitCommit _ => true
  | _ => false

/-- What one step can do to a batch in a given phase. -/
inductive StepCase (rt : Runtime) (world : BatchWorld) :
    Phase → BatchEvent → Section → BatchWorld → Prop
  /-- `add` of an accepted launch encodes it whole. -/
  | encoded (launch : Launch) (pipeline : ComputePipeline)
      (hpipeline : launch.pipeline = some pipeline)
      (hvalid : validate launch rt.supportsNonUniformThreadgroups
        rt.maxThreadgroupMemoryLength = .ok ()) :
      StepCase rt world .opened (.add launch)
        ⟨.ok (), (launchCommands launch pipeline rt.supportsNonUniformThreadgroups).map .encode⟩
        (world.after
          ((launchCommands launch pipeline rt.supportsNonUniformThreadgroups).map .encode))
  /-- `add` of a rejected launch throws what validation throws. -/
  | rejected (launch : Launch) (what : ByteString)
      (hreject : validate launch rt.supportsNonUniformThreadgroups
        rt.maxThreadgroupMemoryLength = .error (.invalidArgument what)) :
      StepCase rt world .opened (.add launch) ⟨.error (.invalidArgument what), []⟩ world
  /-- `barrier` makes its one call. -/
  | fenced : StepCase rt world .opened .barrier ⟨.ok (), [.encode .memoryBarrier]⟩
      (world.after [.encode .memoryBarrier])
  /-- `add` and `barrier` throw on a committed or discarded batch. -/
  | refused (phase : Phase) (event : BatchEvent) (message : ByteString) (hphase : phase ≠ .opened)
      (hevent : (∃ launch, event = .add launch) ∨ event = .barrier) :
      StepCase rt world phase event ⟨.error (.dispatchError message), []⟩ world
  /-- `commit` and the first section of `wait` end the encoding and commit. -/
  | committed (event : BatchEvent) (hevent : event = .commit ∨ ∃ call, event = .waitCommit call) :
      StepCase rt world .opened event ⟨.ok (), [.endEncoding, .commit]⟩
        (Lifecycle.committedWorld world)
  /-- They do nothing on a committed batch. -/
  | already (event : BatchEvent) (hevent : event = .commit ∨ ∃ call, event = .waitCommit call) :
      StepCase rt world .committed event ⟨.ok (), []⟩ world
  /-- They throw on a discarded batch. -/
  | dead (event : BatchEvent) (message : ByteString)
      (hevent : event = .commit ∨ ∃ call, event = .waitCommit call) :
      StepCase rt world .discarded event ⟨.error (.dispatchError message), []⟩ world
  /-- The later parts of `wait` only query a committed command buffer. -/
  | queried (event : BatchEvent) (outcome : Except Failure Unit) (queries : List MetalCall)
      (time : Option Float)
      (hevent : (∃ call, event = .waitBlock call) ∨ ∃ call, event = .waitFinish call)
      (hqueries : ∀ call ∈ queries, call.isQuery)
      (houtcome : outcome = .ok () ∨ ∃ message, outcome = .error (.dispatchError message)) :
      StepCase rt world .committed event ⟨outcome, queries⟩
        (Lifecycle.timedWorld (world.after queries) time)
  /-- `discard` ends the encoding and drops the handles. -/
  | dropped : StepCase rt world .opened .discard ⟨.ok (), [.endEncoding]⟩
      (Lifecycle.discardedWorld world)
  /-- `discard` does nothing on a committed or discarded batch. -/
  | kept (phase : Phase) (hphase : phase ≠ .opened) :
      StepCase rt world phase .discard ⟨.ok (), []⟩ world
  /-- The GPU finishes a committed command buffer. -/
  | finished (result : GpuResult) :
      StepCase rt world .committed (.gpuFinish result) ⟨.ok (), []⟩
        { world with gpu := some result }

/-- The phase after a step. -/
def nextPhase (phase : Phase) (event : BatchEvent) (sec : Section) : Phase :=
  match phase, event, sec.outcome with
  | .opened, .commit, .ok _ => .committed
  | .opened, .waitCommit _, .ok _ => .committed
  | .opened, .discard, .ok _ => .discarded
  | phase, _, _ => phase

/-- A batch that is no longer open stays in its phase. -/
theorem nextPhase_of_closed {phase : Phase} (hphase : phase ≠ .opened) (event : BatchEvent)
    (sec : Section) : nextPhase phase event sec = phase := by
  cases phase with
  | opened => exact absurd rfl hphase
  | committed => rfl
  | discarded => rfl

/-- Calls that only query a command buffer encode nothing. -/
theorem encoderCommands_of_queries {queries : List MetalCall}
    (hqueries : ∀ call ∈ queries, call.isQuery) : encoderCommands queries = [] := by
  rw [encoderCommands, List.filterMap_eq_nil_iff]
  intro call hcall
  have hquery := hqueries call hcall
  cases call <;> first | rfl | cases hquery

namespace StepCase

variable {rt : Runtime} {world world' : BatchWorld} {phase : Phase} {event : BatchEvent}
  {sec : Section} {commands : List EncoderCommand}

/-- A step keeps the life of the batch going, with the commands it encoded appended. -/
theorem lifecycle (hcase : StepCase rt world phase event sec world')
    (hlife : Lifecycle world phase commands) :
    Lifecycle world' (nextPhase phase event sec) (commands ++ encoderCommands sec.calls) := by
  cases hcase with
  | encoded launch pipeline hpipeline hvalid =>
    rw [encoderCommands_map_encode]
    exact hlife.encode _
  | rejected => simpa [nextPhase] using hlife
  | fenced => exact hlife.encode [.memoryBarrier]
  | refused _ _ message hphase hevent =>
    rw [nextPhase_of_closed hphase]
    simpa using hlife
  | committed _ hevent =>
    rcases hevent with rfl | ⟨call, rfl⟩
    · simpa [nextPhase] using hlife.commit
    · simpa [nextPhase] using hlife.commit
  | already => simpa [nextPhase] using hlife
  | dead => simpa [nextPhase] using hlife
  | queried _ outcome queries time hevent hqueries houtcome =>
    rw [nextPhase_of_closed (by decide), encoderCommands_of_queries hqueries, List.append_nil]
    exact (hlife.query hqueries).timed time
  | dropped => simpa [nextPhase] using hlife.discard
  | kept _ hphase =>
    rw [nextPhase_of_closed hphase]
    simpa using hlife
  | finished result =>
    rw [nextPhase_of_closed (by decide)]
    exact ⟨hlife.committed, hlife.discarded, hlife.encoder, hlife.commandBuffer,
      by simpa using hlife.calls, fun hphase => absurd rfl hphase⟩

/-- A step appends the calls it shows to the calls made so far. -/
theorem calls_eq (hcase : StepCase rt world phase event sec world') :
    world'.calls = world.calls ++ sec.calls := by
  cases hcase <;> simp [Lifecycle.committedWorld, Lifecycle.discardedWorld, Lifecycle.timedWorld]

/-- A step never changes the limits of the batch. -/
theorem limits_eq (hcase : StepCase rt world phase event sec world') :
    world'.batch.nonUniform = world.batch.nonUniform ∧
      world'.batch.maxThreadgroupMemory = world.batch.maxThreadgroupMemory := by
  cases hcase <;> exact ⟨rfl, rfl⟩

/-- A step of a thread does not change what the GPU has done. -/
theorem gpu_eq (hcase : StepCase rt world phase event sec world')
    (hevent : ∀ result, event ≠ .gpuFinish result) : world'.gpu = world.gpu := by
  cases hcase with
  | finished result => exact absurd rfl (hevent result)
  | _ => rfl

/-- An `add` that returned met an open batch. -/
theorem opened_of_add {launch : Launch} (hcase : StepCase rt world phase (.add launch) sec world')
    (hreturned : sec.outcome = .ok ()) : phase = .opened := by
  generalize hevent : BatchEvent.add launch = event at hcase
  cases hcase with
  | encoded => rfl
  | rejected => cases hreturned
  | refused => cases hreturned
  | already _ hcommit => rcases hcommit with rfl | ⟨call, rfl⟩ <;> cases hevent
  | committed _ hcommit => rcases hcommit with rfl | ⟨call, rfl⟩ <;> cases hevent
  | dead => cases hreturned
  | queried _ _ _ _ hwait => rcases hwait with ⟨call, rfl⟩ | ⟨call, rfl⟩ <;> cases hevent
  | _ => cases hevent

end StepCase

namespace BatchSystem

variable {rt : Runtime} {s s' : BatchSystem} {phase : Phase} {commands : List EncoderCommand}
  {event : BatchEvent} {sec : Section}

/-- A method whose effect is known, as a step. -/
theorem perform_eq {method : BatchMethod Unit} {outcome : Except Failure Unit}
    {calls : List MetalCall} {world : BatchWorld}
    (hexec : method.exec s.world = (outcome, world))
    (hcalls : world.calls = s.world.calls ++ calls) :
    s.perform method = (⟨outcome, calls⟩, { s with world }) := by
  simp [perform, hexec, hcalls]

/-- What `add` does as a step. -/
theorem add_cases (hinv : Invariant rt s phase commands) (launch : Launch) :
    StepCase rt s.world phase (.add launch) (s.perform (CommandBatch.add launch)).1
      (s.perform (CommandBatch.add launch)).2.world := by
  have hlife := hinv.lifecycle
  by_cases hphase : phase = .opened
  · subst hphase
    cases hvalid : validate launch rt.supportsNonUniformThreadgroups
      rt.maxThreadgroupMemoryLength with
    | ok =>
      rw [← hinv.nonUniform, ← hinv.maxThreadgroupMemory] at hvalid
      obtain ⟨pipeline, hpipeline, hexec⟩ := hlife.exec_add hvalid
      rw [perform_eq hexec rfl, hinv.nonUniform]
      rw [hinv.nonUniform, hinv.maxThreadgroupMemory] at hvalid
      exact .encoded launch pipeline hpipeline hvalid
    | error failure =>
      obtain ⟨what, rfl⟩ := validate_failsOnly _ _ _ failure hvalid
      have hreject := hvalid
      rw [← hinv.nonUniform, ← hinv.maxThreadgroupMemory] at hvalid
      rw [perform_eq (hlife.exec_add_of_rejected hvalid) (List.append_nil _).symm]
      exact .rejected launch what hreject
  · obtain ⟨message, hexec⟩ := hlife.exec_add_of_closed hphase launch
    rw [perform_eq hexec (List.append_nil _).symm]
    exact .refused phase _ message hphase (Or.inl ⟨launch, rfl⟩)

/-- What `barrier` does as a step. -/
theorem barrier_cases (hinv : Invariant rt s phase commands) :
    StepCase rt s.world phase .barrier (s.perform CommandBatch.barrier).1
      (s.perform CommandBatch.barrier).2.world := by
  by_cases hphase : phase = .opened
  · subst hphase
    rw [perform_eq hinv.lifecycle.exec_barrier rfl]
    exact .fenced
  · obtain ⟨message, hexec⟩ := hinv.lifecycle.exec_barrier_of_closed hphase
    rw [perform_eq hexec (List.append_nil _).symm]
    exact .refused phase _ message hphase (Or.inr rfl)

/-- What `commit` and the first section of `wait` do as a step. -/
theorem commitLocked_cases (hinv : Invariant rt s phase commands) {event : BatchEvent}
    (hevent : event = .commit ∨ ∃ call, event = .waitCommit call) :
    StepCase rt s.world phase event (s.perform CommandBatch.commitLocked).1
      (s.perform CommandBatch.commitLocked).2.world := by
  have hlife := hinv.lifecycle
  cases phase with
  | opened =>
    rw [perform_eq hlife.exec_commitLocked rfl]
    exact .committed event hevent
  | committed =>
    rw [perform_eq hlife.exec_commitLocked_of_committed (List.append_nil _).symm]
    exact .already event hevent
  | discarded =>
    rw [perform_eq hlife.exec_commitLocked_of_discarded (List.append_nil _).symm]
    exact .dead event _ hevent

/-- What `discard` does as a step. -/
theorem discard_cases (hinv : Invariant rt s phase commands) :
    StepCase rt s.world phase .discard (s.perform CommandBatch.discard).1
      (s.perform CommandBatch.discard).2.world := by
  by_cases hphase : phase = .opened
  · subst hphase
    rw [perform_eq hinv.lifecycle.exec_discard rfl]
    exact .dropped
  · rw [perform_eq (hinv.lifecycle.exec_discard_of_closed hphase) (List.append_nil _).symm]
    exact .kept phase hphase

/-- What the unlocked block of `wait` does as a step. -/
theorem waitBlock_cases (hinv : Invariant rt s .committed commands) (call : ℕ) :
    StepCase rt s.world .committed (.waitBlock call)
      (s.perform CommandBatch.waitUntilCompleted).1
      (s.perform CommandBatch.waitUntilCompleted).2.world := by
  rw [perform_eq hinv.lifecycle.exec_waitUntilCompleted rfl]
  exact .queried _ _ [.waitUntilCompleted] s.world.batch.gpuTime (Or.inl ⟨call, rfl⟩) (by decide)
    (Or.inl rfl)

/-- What the last section of `wait` does as a step. -/
theorem waitFinish_cases (hinv : Invariant rt s .committed commands) (call : ℕ) :
    StepCase rt s.world .committed (.waitFinish call) (s.perform CommandBatch.waitFinish).1
      (s.perform CommandBatch.waitFinish).2.world := by
  obtain ⟨queries, time, outcome, hqueries, houtcome, hexec⟩ := hinv.lifecycle.exec_waitFinish
  rw [perform_eq hexec rfl]
  exact .queried _ outcome queries time (Or.inr ⟨call, rfl⟩) hqueries houtcome

/-- A batch on whose command buffer `commit` was called is committed. -/
theorem committed_of_mem (hinv : Invariant rt s phase commands)
    (hcommit : .commit ∈ s.world.calls) : phase = .committed := by
  have hcalls := hinv.lifecycle.calls
  cases phase with
  | opened =>
    have heq : s.world.calls = commands.map .encode := hcalls
    simp [heq] at hcommit
  | committed => rfl
  | discarded =>
    have heq : s.world.calls = commands.map .encode ++ [.endEncoding] := hcalls
    simp [heq] at hcommit

/-- Everything a step can do, in any state that satisfies the invariant. -/
theorem step_cases (hinv : Invariant rt s phase commands) (hstep : s.step event = some (sec, s')) :
    StepCase rt s.world phase event sec s'.world := by
  cases event with
  | add launch =>
    cases Option.some.inj hstep
    exact add_cases hinv launch
  | barrier =>
    cases Option.some.inj hstep
    exact barrier_cases hinv
  | commit =>
    cases Option.some.inj hstep
    exact commitLocked_cases hinv (Or.inl rfl)
  | discard =>
    cases Option.some.inj hstep
    exact discard_cases hinv
  | waitCommit call =>
    obtain ⟨-, heq⟩ := Option.ite_none_right_eq_some.mp hstep
    cases Option.some.inj heq
    exact commitLocked_cases hinv (Or.inr ⟨call, rfl⟩)
  | waitBlock call =>
    obtain ⟨hwait, heq⟩ := Option.ite_none_right_eq_some.mp hstep
    cases Option.some.inj heq
    cases hinv.waits call (Or.inl hwait.1)
    exact waitBlock_cases hinv call
  | waitFinish call =>
    obtain ⟨hwait, heq⟩ := Option.ite_none_right_eq_some.mp hstep
    cases Option.some.inj heq
    cases hinv.waits call (Or.inr hwait)
    exact waitFinish_cases hinv call
  | gpuFinish result =>
    obtain ⟨hready, heq⟩ := Option.ite_none_right_eq_some.mp hstep
    cases Option.some.inj heq
    cases committed_of_mem hinv hready.1
    exact .finished result

/-- A call of `wait` is past its first section only if it was before the step, or the step
was that section and returned. -/
theorem step_waits (hstep : s.step event = some (sec, s')) {call : ℕ}
    (hcall : s'.waits call = .blocked ∨ s'.waits call = .unblocked) :
    (s.waits call = .blocked ∨ s.waits call = .unblocked) ∨
      (event = .waitCommit call ∧ sec.returned) := by
  cases event with
  | add launch =>
    cases Option.some.inj hstep
    exact Or.inl hcall
  | barrier =>
    cases Option.some.inj hstep
    exact Or.inl hcall
  | commit =>
    cases Option.some.inj hstep
    exact Or.inl hcall
  | discard =>
    cases Option.some.inj hstep
    exact Or.inl hcall
  | waitCommit other =>
    obtain ⟨-, heq⟩ := Option.ite_none_right_eq_some.mp hstep
    cases Option.some.inj heq
    by_cases hother : call = other
    · subst hother
      refine Or.inr ⟨rfl, ?_⟩
      by_contra hthrew
      simp [hthrew] at hcall
    · simp only [Function.update_of_ne hother] at hcall
      exact Or.inl hcall
  | waitBlock other =>
    obtain ⟨hwait, heq⟩ := Option.ite_none_right_eq_some.mp hstep
    cases Option.some.inj heq
    by_cases hother : call = other
    · subst hother
      exact Or.inl (Or.inl hwait.1)
    · simp only [Function.update_of_ne hother] at hcall
      exact Or.inl hcall
  | waitFinish other =>
    obtain ⟨hwait, heq⟩ := Option.ite_none_right_eq_some.mp hstep
    cases Option.some.inj heq
    by_cases hother : call = other
    · subst hother
      exact Or.inl (Or.inr hwait)
    · simp only [Function.update_of_ne hother] at hcall
      exact Or.inl hcall
  | gpuFinish result =>
    obtain ⟨-, heq⟩ := Option.ite_none_right_eq_some.mp hstep
    cases Option.some.inj heq
    exact Or.inl hcall

/-- A first section of `wait` that returned leaves the batch committed. -/
theorem nextPhase_of_waitCommit {world' : BatchWorld} {call : ℕ}
    (hcase : StepCase rt s.world phase (.waitCommit call) sec world') (hreturned : sec.returned) :
    nextPhase phase (.waitCommit call) sec = .committed := by
  generalize hevent : BatchEvent.waitCommit call = event at hcase
  cases hcase with
  | committed => cases hevent; rfl
  | already => rfl
  | dead => cases hreturned
  | refused => cases hreturned
  | queried => rfl
  | _ => cases hevent

/-- Each step keeps the invariant, in the next phase and with the commands it encoded. -/
theorem step_invariant (hinv : Invariant rt s phase commands)
    (hstep : s.step event = some (sec, s')) :
    Invariant rt s' (nextPhase phase event sec) (commands ++ encoderCommands sec.calls) := by
  have hcase := step_cases hinv hstep
  obtain ⟨hnonUniform, hmemory⟩ := hcase.limits_eq
  refine ⟨hcase.lifecycle hinv.lifecycle, hnonUniform.trans hinv.nonUniform,
    hmemory.trans hinv.maxThreadgroupMemory, ?_⟩
  intro call hcall
  rcases step_waits hstep hcall with hbefore | ⟨rfl, hreturned⟩
  · have hphase := hinv.waits call hbefore
    rw [nextPhase_of_closed (by rw [hphase]; decide), hphase]
  · exact nextPhase_of_waitCommit hcase hreturned

/-- Some phase and commands make the invariant true. -/
def Sound (rt : Runtime) (s : BatchSystem) : Prop :=
  ∃ phase commands, Invariant rt s phase commands

/-- Each step keeps the system sound. -/
theorem step_sound (hsound : Sound rt s) (hstep : s.step event = some (sec, s')) :
    Sound rt s' := by
  obtain ⟨phase, commands, hinv⟩ := hsound
  exact ⟨_, _, step_invariant hinv hstep⟩

end BatchSystem

end MetalRuntime
