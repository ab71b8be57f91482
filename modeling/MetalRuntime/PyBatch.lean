import MetalRuntime.BatchSystem
import MetalRuntime.Prepare

/-!
# The Python batch

`PyBatch` wraps a `CommandBatch` and keeps the Python objects of its launches alive. Any
number of threads call it; each acquisition and each release of `keepalive_mutex_` and of the
batch's own mutex is a step, and so are the section between them, each object that `add` pins,
and the unlocked block of `wait`. The interpreter lock is left out, so the interleavings that
it forbids are allowed here as well. Forgetting the pins leaves a run of the shared
`CommandBatch`.
-/

namespace MetalRuntime

open Foundations

/-- A call of `add` past `prepare`, with what it prepared. -/
structure AddCall where
  params : LaunchParams
  prepared : PreparedLaunch
  prepares : prepare params = .ok prepared

/-- A section of `CommandBatch` under its mutex. -/
inductive StateSection
  | add (adding : AddCall)
  | barrier
  | commit
  | discard
  | waitCommit
  | waitFinish

/-- What the section does. -/
def StateSection.method : StateSection → BatchMethod Unit
  | .add adding => CommandBatch.add adding.prepared.launch
  | .barrier => CommandBatch.barrier
  | .commit => CommandBatch.commit
  | .discard => CommandBatch.discard
  | .waitCommit => CommandBatch.commitLocked
  | .waitFinish => CommandBatch.waitFinish

/-- The section of a call as a step of the shared `CommandBatch`. -/
def StateSection.event (call : ℕ) : StateSection → BatchEvent
  | .add adding => .add adding.prepared.launch
  | .barrier => .barrier
  | .commit => .commit
  | .discard => .discard
  | .waitCommit => .waitCommit call
  | .waitFinish => .waitFinish call

/-- Where a call stands. -/
inductive PyCall
  | notStarted
  /-- `add` has prepared its launch and wants `keepalive_mutex_`. -/
  | prepared (adding : AddCall)
  /-- The call wants the batch's mutex; an `add` holds `keepalive_mutex_`. -/
  | entering (sec : StateSection)
  /-- The call holds the batch's mutex and runs the section next. -/
  | inside (sec : StateSection)
  /-- The section has ended and the call still holds the batch's mutex. -/
  | leaving (sec : StateSection) (outcome : Except Failure Unit)
  /-- `add` holds `keepalive_mutex_` and pins what remains of its objects. -/
  | pinning (adding : AddCall) (remaining : List ℕ)
  /-- An exception leaves `add`, which still holds `keepalive_mutex_`. -/
  | unwinding (adding : AddCall) (failure : Failure)
  /-- `wait` is blocked on the command buffer and holds nothing. -/
  | blocked
  /-- `wait` wants `keepalive_mutex_`. -/
  | releasing
  /-- `wait` holds `keepalive_mutex_` and swaps the map next. -/
  | swapping
  /-- `wait` holds `keepalive_mutex_` and the objects it took. -/
  | swapped (released : List ℕ)
  /-- The call has returned or thrown; the last section it ran, if any. -/
  | ended (last : Option StateSection) (outcome : Except Failure Unit)

namespace PyCall

/-- Where `CommandBatch` sees a call of `wait`. -/
def waitPhase : PyCall → WaitPhase
  | .leaving .waitCommit (.ok _) | .blocked => .blocked
  | .entering .waitFinish | .inside .waitFinish => .unblocked
  | .leaving .waitCommit (.error _) | .leaving .waitFinish _ | .releasing | .swapping
  | .swapped _ | .ended (some .waitCommit) _ | .ended (some .waitFinish) _ => .returned
  | _ => .notStarted

/-- Where a call goes on after its section. -/
def afterSection : StateSection → Except Failure Unit → PyCall
  | .add adding, .ok _ => .pinning adding adding.prepared.keepalive
  | .add adding, .error failure => .unwinding adding failure
  | .waitCommit, .ok _ => .blocked
  | .waitFinish, .ok _ => .releasing
  | sec, outcome => .ended (some sec) outcome

/-- Where a call of `wait` goes on after its unlocked block. -/
def afterBlock : Except Failure Unit → PyCall
  | .ok _ => .entering .waitFinish
  | .error failure => .ended (some .waitCommit) (.error failure)

end PyCall

/-- A call of a method of `PyBatch`. -/
inductive PyMethod
  | add (params : LaunchParams)
  | barrier
  | commit
  | wait
  | discard

/-- Where a call stands when it has begun; an `add` prepares its launch first. -/
def PyMethod.start : PyMethod → PyCall
  | .add params =>
    match h : prepare params with
    | .ok prepared => .prepared ⟨params, prepared, h⟩
    | .error failure => .ended none (.error failure)
  | .barrier => .entering .barrier
  | .commit => .entering .commit
  | .wait => .entering .waitCommit
  | .discard => .entering .discard

/-- A launch that a call of `add` has encoded. -/
structure EncodedLaunch where
  call : ℕ
  adding : AddCall

/-- `PyBatch` and the calls in progress on it. `keepalive` has the keys of `keepalive_`, which
holds one reference to each. The launches encoded so far are an observer's. -/
structure PyBatch where
  world : BatchWorld
  keepalive : List ℕ := []
  keepaliveMutex : Option ℕ := none
  stateMutex : Option ℕ := none
  calls : ℕ → PyCall := fun _ => .notStarted
  encoded : List EncodedLaunch := []

/-- A step of some thread or of the GPU. -/
inductive PyBatchEvent
  | start (call : ℕ) (method : PyMethod)
  | proceed (call : ℕ)
  | gpuFinish (result : GpuResult)

namespace PyBatch

/-- The batch after a call has moved on. -/
def moveTo (s : PyBatch) (call : ℕ) (phase : PyCall) : PyBatch :=
  { s with calls := Function.update s.calls call phase }

/-- The launches encoded once a section has ended. -/
def encodedAfter (s : PyBatch) (call : ℕ) : StateSection → Except Failure Unit →
    List EncodedLaunch
  | .add adding, .ok _ => s.encoded ++ [⟨call, adding⟩]
  | _, _ => s.encoded

/-- Run the section of a call that holds the batch's mutex. -/
def runSection (s : PyBatch) (call : ℕ) (sec : StateSection) : PyBatch :=
  let result := sec.method.exec s.world
  { s with world := result.2, encoded := s.encodedAfter call sec result.1 }.moveTo call
    (.leaving sec result.1)

/-- The unlocked block of `wait`, which can end once the GPU has finished. -/
def unblock (s : PyBatch) (call : ℕ) : Option PyBatch :=
  if s.world.batch.commandBuffer = none ∨ s.world.gpu.isSome then
    let result := CommandBatch.waitUntilCompleted.exec s.world
    some ({ s with world := result.2 }.moveTo call (.afterBlock result.1))
  else none

/-- The next step of a call, if it can take one. -/
def proceed (s : PyBatch) (call : ℕ) : PyCall → Option PyBatch
  | .prepared adding =>
    if s.keepaliveMutex = none then
      some ({ s with keepaliveMutex := some call }.moveTo call (.entering (.add adding)))
    else none
  | .entering sec =>
    if s.stateMutex = none then
      some ({ s with stateMutex := some call }.moveTo call (.inside sec))
    else none
  | .inside sec => some (s.runSection call sec)
  | .leaving sec outcome =>
    some ({ s with stateMutex := none }.moveTo call (.afterSection sec outcome))
  | .pinning adding (object :: remaining) =>
    some ({ s with keepalive := s.keepalive.insert object }.moveTo call (.pinning adding remaining))
  | .pinning adding [] =>
    some ({ s with keepaliveMutex := none }.moveTo call (.ended (some (.add adding)) (.ok ())))
  | .unwinding adding failure =>
    some ({ s with keepaliveMutex := none }.moveTo call
      (.ended (some (.add adding)) (.error failure)))
  | .blocked => s.unblock call
  | .releasing =>
    if s.keepaliveMutex = none then
      some ({ s with keepaliveMutex := some call }.moveTo call .swapping)
    else none
  | .swapping => some ({ s with keepalive := [] }.moveTo call (.swapped s.keepalive))
  | .swapped _ =>
    some ({ s with keepaliveMutex := none }.moveTo call (.ended (some .waitFinish) (.ok ())))
  | .notStarted | .ended _ _ => none

/-- The next state after an event, if the event can happen. -/
def perform (s : PyBatch) : PyBatchEvent → Option PyBatch
  | .start call method =>
    match s.calls call with
    | .notStarted => some (s.moveTo call method.start)
    | _ => none
  | .proceed call => s.proceed call (s.calls call)
  | .gpuFinish result =>
    if .commit ∈ s.world.calls ∧ s.world.gpu.isNone then
      some { s with world := { s.world with gpu := some result } }
    else none

/-- What `CommandBatch` sees of the batch. -/
def commandBatch (s : PyBatch) : BatchSystem := ⟨s.world, fun call => (s.calls call).waitPhase⟩

end PyBatch

/-- One step of a run: the batch before it, the event, and the batch after it. -/
structure PyBatchStep where
  before : PyBatch
  event : PyBatchEvent
  after : PyBatch

/-- The batch with its steps as what it shows. -/
def PyBatch.step (s : PyBatch) (event : PyBatchEvent) : Option (PyBatchStep × PyBatch) :=
  (s.perform event).map fun s' => (⟨s, event, s'⟩, s')

namespace PyBatch

/-- A step is shown as it was performed. -/
theorem step_eq_some_iff {s s' : PyBatch} {event : PyBatchEvent} {shown : PyBatchStep} :
    s.step event = some (shown, s') ↔ s.perform event = some s' ∧ shown = ⟨s, event, s'⟩ := by
  simp only [step, Option.map_eq_some_iff, Prod.mk.injEq]
  constructor
  · intro h
    obtain ⟨s'', hperform, rfl, rfl⟩ := h
    exact ⟨hperform, rfl⟩
  · intro h
    obtain ⟨hperform, rfl⟩ := h
    exact ⟨s', hperform, rfl, rfl⟩

/-- `CommandBatch` sees a call move on as its own call of `wait` moves on. -/
theorem commandBatch_moveTo (s : PyBatch) (call : ℕ) (phase : PyCall) :
    (s.moveTo call phase).commandBatch =
      ⟨s.world, Function.update s.commandBatch.waits call phase.waitPhase⟩ := by
  simp only [commandBatch, moveTo, BatchSystem.mk.injEq, true_and]
  funext other
  by_cases hother : other = call
  · rw [hother, Function.update_self, Function.update_self]
  · rw [Function.update_of_ne hother, Function.update_of_ne hother]

/-- It does not see a call move on between its sections. -/
theorem commandBatch_moveTo_of_eq {s : PyBatch} {call : ℕ} {before phase : PyCall}
    (hbefore : s.calls call = before) (h : phase.waitPhase = before.waitPhase) :
    (s.moveTo call phase).commandBatch = s.commandBatch := by
  rw [commandBatch_moveTo, h, ← hbefore]
  exact congrArg (BatchSystem.mk s.world) (Function.update_eq_self call s.commandBatch.waits)

/-- A call that has begun is not in `wait` yet. -/
theorem waitPhase_start (method : PyMethod) : method.start.waitPhase = .notStarted := by
  cases method with
  | add params =>
    simp only [PyMethod.start]
    split <;> rfl
  | _ => rfl

/-- The first section of `wait` goes on to the block unless it threw. -/
theorem waitPhase_leaving_waitCommit (outcome : Except Failure Unit) (calls : List MetalCall) :
    (PyCall.leaving .waitCommit outcome).waitPhase =
      if (Section.mk outcome calls).returned then .blocked else .returned := by
  cases outcome <;> rfl

/-- The block of `wait` goes on to the last section unless it threw. -/
theorem waitPhase_afterBlock (outcome : Except Failure Unit) (calls : List MetalCall) :
    (PyCall.afterBlock outcome).waitPhase =
      if (Section.mk outcome calls).returned then .unblocked else .returned := by
  cases outcome <;> rfl

/-- Leaving a section does not change where `wait` stands. -/
theorem waitPhase_afterSection (sec : StateSection) (outcome : Except Failure Unit) :
    (PyCall.afterSection sec outcome).waitPhase = (PyCall.leaving sec outcome).waitPhase := by
  cases sec <;> cases outcome <;> rfl

/-- What `CommandBatch` sees of a section that is not one of `wait`. -/
theorem runSection_commandBatch {s : PyBatch} {call : ℕ} {sec : StateSection}
    (hphase : s.calls call = .inside sec) (hwait : sec ≠ .waitCommit ∧ sec ≠ .waitFinish) :
    (s.runSection call sec).commandBatch = (s.commandBatch.perform sec.method).2 := by
  have hwaits : s.commandBatch.waits call = (s.calls call).waitPhase := rfl
  have hsame : (PyCall.leaving sec (sec.method.exec s.world).1).waitPhase =
      s.commandBatch.waits call := by
    rw [hwaits, hphase]
    cases sec with
    | waitCommit => exact absurd rfl hwait.1
    | waitFinish => exact absurd rfl hwait.2
    | _ => rfl
  rw [runSection, commandBatch_moveTo, hsame]
  exact congrArg (BatchSystem.mk _) (Function.update_eq_self call s.commandBatch.waits)

/-- A section of a call is a step of `CommandBatch`. -/
theorem runSection_refines {s : PyBatch} {call : ℕ} {sec : StateSection}
    (hphase : s.calls call = .inside sec) :
    s.commandBatch.step (sec.event call) =
      some ((s.commandBatch.perform sec.method).1, (s.runSection call sec).commandBatch) := by
  have hwaits : s.commandBatch.waits call = (PyCall.inside sec).waitPhase :=
    congrArg PyCall.waitPhase hphase
  cases sec with
  | waitCommit =>
    have hstarts : s.commandBatch.waits call = .notStarted := hwaits
    have hreturned : (PyCall.leaving .waitCommit
        (CommandBatch.commitLocked.exec s.world).1).waitPhase =
          if (s.commandBatch.perform CommandBatch.commitLocked).1.returned then .blocked
          else .returned := waitPhase_leaving_waitCommit _ _
    rw [runSection, commandBatch_moveTo, StateSection.event, BatchSystem.step, if_pos hstarts,
      BatchSystem.advance, StateSection.method, hreturned]
    rfl
  | waitFinish =>
    have hunblocked : s.commandBatch.waits call = .unblocked := hwaits
    rw [runSection, commandBatch_moveTo, StateSection.event, BatchSystem.step, if_pos hunblocked,
      BatchSystem.advance, ite_self]
    rfl
  | _ =>
    rw [runSection_commandBatch hphase (by simp)]
    rfl

/-- The unlocked block of `wait` is a step of `CommandBatch`. -/
theorem unblock_refines {s s' : PyBatch} {call : ℕ} (hphase : s.calls call = .blocked)
    (h : s.unblock call = some s') :
    ∃ shown, s.commandBatch.step (.waitBlock call) = some (shown, s'.commandBatch) := by
  have hwaits : s.commandBatch.waits call = .blocked := congrArg PyCall.waitPhase hphase
  obtain ⟨hready, heq⟩ := Option.ite_none_right_eq_some.mp h
  cases heq
  refine ⟨(s.commandBatch.perform CommandBatch.waitUntilCompleted).1, ?_⟩
  rw [commandBatch_moveTo, BatchSystem.step, if_pos ⟨hwaits, hready⟩, BatchSystem.advance]
  have hreturned : (PyCall.afterBlock (CommandBatch.waitUntilCompleted.exec s.world).1).waitPhase =
      if (s.commandBatch.perform CommandBatch.waitUntilCompleted).1.returned then .unblocked
      else .returned := waitPhase_afterBlock _ _
  rw [hreturned]
  rfl

/-- The next step of a call is a step of the `CommandBatch` in it, or nothing there. -/
theorem proceed_refines {s s' : PyBatch} {call : ℕ} {phase : PyCall}
    (hphase : s.calls call = phase) (h : s.proceed call phase = some s') :
    s'.commandBatch = s.commandBatch ∨
      ∃ event shown, s.commandBatch.step event = some (shown, s'.commandBatch) := by
  cases phase with
  | notStarted => cases h
  | ended last outcome => cases h
  | inside sec =>
    cases h
    exact Or.inr ⟨_, _, runSection_refines hphase⟩
  | blocked =>
    obtain ⟨shown, hstep⟩ := unblock_refines hphase h
    exact Or.inr ⟨_, shown, hstep⟩
  | prepared adding =>
    obtain ⟨-, heq⟩ := Option.ite_none_right_eq_some.mp h
    cases heq
    exact Or.inl (commandBatch_moveTo_of_eq hphase rfl)
  | entering sec =>
    obtain ⟨-, heq⟩ := Option.ite_none_right_eq_some.mp h
    cases heq
    refine Or.inl (commandBatch_moveTo_of_eq hphase ?_)
    cases sec <;> rfl
  | leaving sec outcome =>
    cases h
    exact Or.inl (commandBatch_moveTo_of_eq hphase (waitPhase_afterSection sec outcome))
  | pinning adding remaining =>
    cases remaining with
    | nil =>
      cases h
      exact Or.inl (commandBatch_moveTo_of_eq hphase rfl)
    | cons object remaining =>
      cases h
      exact Or.inl (commandBatch_moveTo_of_eq hphase rfl)
  | unwinding adding failure =>
    cases h
    exact Or.inl (commandBatch_moveTo_of_eq hphase rfl)
  | releasing =>
    obtain ⟨-, heq⟩ := Option.ite_none_right_eq_some.mp h
    cases heq
    exact Or.inl (commandBatch_moveTo_of_eq hphase rfl)
  | swapping =>
    cases h
    exact Or.inl (commandBatch_moveTo_of_eq hphase rfl)
  | swapped released =>
    cases h
    exact Or.inl (commandBatch_moveTo_of_eq hphase rfl)

/-- Every step of the Python batch is a step of the `CommandBatch` in it, or nothing there. -/
theorem perform_refines {s s' : PyBatch} {event : PyBatchEvent} (h : s.perform event = some s') :
    s'.commandBatch = s.commandBatch ∨
      ∃ event shown, s.commandBatch.step event = some (shown, s'.commandBatch) := by
  cases event with
  | start call method =>
    simp only [perform] at h
    split at h
    · next hphase =>
      cases h
      exact Or.inl (commandBatch_moveTo_of_eq hphase (waitPhase_start method))
    · cases h
  | gpuFinish result =>
    obtain ⟨hready, heq⟩ := Option.ite_none_right_eq_some.mp h
    cases heq
    exact Or.inr ⟨.gpuFinish result, _, if_pos hready⟩
  | proceed call => exact proceed_refines rfl h

/-- Every run of the Python batch is a run of the `CommandBatch` in it. -/
theorem run_refines {s t : PyBatch} {events : List PyBatchEvent} {steps : List PyBatchStep}
    (hrun : runSchedule step s events = some (steps, t)) :
    ∃ events sections, runSchedule BatchSystem.step s.commandBatch events =
      some (sections, t.commandBatch) := by
  refine runSchedule_abstraction commandBatch ?_ hrun
  intro s event shown s' hstep
  exact perform_refines (step_eq_some_iff.mp hstep).1

end PyBatch

end MetalRuntime
