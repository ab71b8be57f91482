import MetalRuntime.BatchSystem
import MetalRuntime.LaunchValidity
import MetalRuntime.Foundations.Pools

/-!
# The slots of the command queue

Every batch takes its command buffer from the one queue of the runtime, and `commandBuffer` blocks
while the queue is full. A command buffer fills a slot until it completes if it was committed, and
as long as a handle holds it if it was not. The program uses its batches from any number of
threads and drops them when it likes, also while the GPU works on them; `dispatch` has a batch of
its own, which its destructor gives back whichever way the call ends. A constructor that throws
holds nothing any more, so it is one step that leaves the queue as it was.
-/

namespace MetalRuntime

open Foundations

/-- The slots of a queue from `newCommandQueue`. -/
def maxCommandBufferCount : ℕ := 64

/-- Whether the command buffer of a batch fills a slot. The destructor drops the handles. -/
def BatchWorld.occupies (world : BatchWorld) (alive : Bool) : Bool :=
  if .commit ∈ world.calls then world.gpu.isNone else alive && world.batch.commandBuffer.isSome

/-- Who uses a batch: the program, or a call of `dispatch` with the rest of its body. -/
inductive BatchUser
  | program
  | dispatch (rest : List BatchEvent)

/-- The body of `dispatch` after the constructor of its batch. -/
def dispatchBody (launch : Launch) : List BatchEvent :=
  [.add launch, .waitCommit 0, .waitBlock 0, .waitFinish 0]

/-- The event is not one of a thread. -/
def BatchEvent.isDevice : BatchEvent → Bool
  | .gpuFinish _ => true
  | _ => false

/-- A batch with its user, and whether its destructor has not run yet. -/
structure QueuedBatch where
  user : BatchUser
  system : BatchSystem
  alive : Bool := true

/-- A step of one batch: a section of a method that the program calls or the end of the work on the
GPU; the next section of `dispatch`, or its destructor; the destructor of a batch of the program. -/
inductive QueuedEvent
  | call (event : BatchEvent)
  | proceed
  | drop

/-- The event needs nothing of the program. -/
def QueuedEvent.Unattended : QueuedEvent → Prop
  | .call event => event.isDevice
  | .proceed => True
  | .drop => False

namespace QueuedBatch

/-- The batch is one of the program. -/
def isProgram (b : QueuedBatch) : Bool :=
  match b.user with
  | .program => true
  | .dispatch _ => false

/-- The destructor. -/
def destroy (b : QueuedBatch) : Section × QueuedBatch :=
  let result := b.system.perform CommandBatch.destroy
  (result.1, { b with system := result.2, alive := false })

/-- The next state after an event, if the event can happen. -/
def step (b : QueuedBatch) : QueuedEvent → Option (Section × QueuedBatch)
  | .call event =>
    if event.isDevice ∨ (b.isProgram ∧ b.alive) then
      (b.system.step event).map fun result => (result.1, { b with system := result.2 })
    else none
  | .proceed =>
    if b.alive then
      match b.user with
      | .program => none
      | .dispatch [] => some b.destroy
      | .dispatch (event :: rest) =>
        (b.system.step event).map fun result => (result.1, { b with
          system := result.2
          -- An exception leaves the body.
          user := .dispatch (if result.1.returned then rest else []) })
    else none
  | .drop => if b.isProgram ∧ b.alive then some b.destroy else none

/-- The command buffer fills a slot. -/
def occupies (b : QueuedBatch) : Bool := b.system.world.occupies b.alive

/-- The batch still takes launches. -/
def isOpen (b : QueuedBatch) : Bool :=
  b.alive && !b.system.world.batch.committed && !b.system.world.batch.discarded

/-- The GPU has yet to finish the batch. -/
def inFlight (b : QueuedBatch) : Bool :=
  b.system.world.batch.committed && b.system.world.gpu.isNone

/-- The program keeps the batch open. -/
def isKeptOpen (b : QueuedBatch) : Bool := b.isProgram && b.isOpen

end QueuedBatch

/-- The batches that took a command buffer from the queue. -/
structure CommandQueue where
  batches : List QueuedBatch := []

/-- A constructor of the program or of `dispatch`, given what the queue and the command buffer hand
out, or a step of a batch. -/
inductive QueueEvent
  | newBatch (commandBuffer encoder : Option ℕ)
  | dispatch (launch : Launch) (commandBuffer encoder : Option ℕ)
  | batch (index : ℕ) (event : QueuedEvent)

/-- The event is a constructor, of the program or of `dispatch`. -/
def QueueEvent.Constructs : QueueEvent → Prop
  | .batch _ _ => False
  | _ => True

/-- The event needs nothing of the program, and starts nothing. -/
def QueueEvent.Unattended : QueueEvent → Prop
  | .batch _ event => event.Unattended
  | _ => False

namespace CommandQueue

/-- The slots in use. -/
def slots (q : CommandQueue) : ℕ := q.batches.countP QueuedBatch.occupies

/-- The batches that the program keeps open. -/
def keptOpen (q : CommandQueue) : ℕ := q.batches.countP QueuedBatch.isKeptOpen

/-- The constructor of `CommandBatch`, which blocks while no slot is free. -/
def construct (rt : Runtime) (q : CommandQueue) (user : BatchUser)
    (commandBuffer encoder : Option ℕ) : Option (Except Failure Unit × CommandQueue) :=
  if q.slots < maxCommandBufferCount then
    match CommandBatch.create rt commandBuffer encoder with
    | .error failure => some (.error failure, q)
    | .ok world => some (.ok (), ⟨q.batches ++ [⟨user, .initial world, true⟩]⟩)
  else none

/-- The next state after an event, if the event can happen. -/
def step (rt : Runtime) (q : CommandQueue) :
    QueueEvent → Option (Except Failure Unit × CommandQueue)
  | .newBatch commandBuffer encoder => q.construct rt .program commandBuffer encoder
  | .dispatch launch commandBuffer encoder =>
    q.construct rt (.dispatch (dispatchBody launch)) commandBuffer encoder
  | .batch index event =>
    (poolStep QueuedBatch.step q.batches index event).map fun result =>
      (result.1.outcome, ⟨result.2⟩)

end CommandQueue

section Slots

variable {world world' : BatchWorld} {commands : List EncoderCommand}

/-- An open batch fills a slot as long as it is there. -/
theorem Lifecycle.occupies_opened (h : Lifecycle world .opened commands) (alive : Bool) :
    world.occupies alive = alive := by
  have hcalls : world.calls = commands.map .encode := h.calls
  have hcommandBuffer : world.batch.commandBuffer.isSome := by simpa using h.commandBuffer
  rw [BatchWorld.occupies, if_neg (by simp [hcalls]), hcommandBuffer, Bool.and_true]

/-- A committed batch fills a slot until the GPU has finished. -/
theorem Lifecycle.occupies_committed (h : Lifecycle world .committed commands) (alive : Bool) :
    world.occupies alive = world.gpu.isNone := by
  obtain ⟨queries, -, hcalls⟩ := h.calls
  rw [BatchWorld.occupies, if_pos (by simp [hcalls])]

/-- A discarded batch fills none. -/
theorem Lifecycle.occupies_discarded (h : Lifecycle world .discarded commands) (alive : Bool) :
    world.occupies alive = false := by
  have hcalls : world.calls = commands.map .encode ++ [.endEncoding] := h.calls
  have hcommandBuffer : world.batch.commandBuffer.isSome = false := by simpa using h.commandBuffer
  rw [BatchWorld.occupies, if_neg (by simp [hcalls]), hcommandBuffer, Bool.and_false]

/-- A section of a method takes no slot. -/
theorem StepCase.occupies_of_occupies {rt : Runtime} {phase : Phase} {event : BatchEvent}
    {sec : Section} (hcase : StepCase rt world phase event sec world')
    (hlife : Lifecycle world phase commands) {alive : Bool} (halive : phase = .opened → alive)
    (h : world'.occupies alive) : world.occupies alive := by
  have hlater := hcase.lifecycle hlife
  cases phase with
  | opened =>
    rw [hlife.occupies_opened]
    exact halive rfl
  | committed =>
    rw [nextPhase_of_closed (by decide)] at hlater
    rw [hlater.occupies_committed] at h
    rw [hlife.occupies_committed]
    by_cases hdevice : ∃ result, event = .gpuFinish result
    · obtain ⟨result, rfl⟩ := hdevice
      cases hcase with
      | finished => cases h
      | queried _ _ _ _ hevent => rcases hevent with ⟨call, hcall⟩ | ⟨call, hcall⟩ <;> cases hcall
      | already _ hevent => rcases hevent with hcommit | ⟨call, hcall⟩ <;> contradiction
      | refused => exact h
    · rwa [hcase.gpu_eq fun result hresult => hdevice ⟨result, hresult⟩] at h
  | discarded =>
    rw [nextPhase_of_closed (by decide)] at hlater
    rw [hlater.occupies_discarded] at h
    cases h

end Slots

/-- Where a call of `dispatch` stands, by its batch and the rest of its body. -/
inductive DispatchStands (s : BatchSystem) : Bool → Phase → List BatchEvent → Prop
  | adding (launch : Launch) (hwait : s.waits 0 = .notStarted) :
      DispatchStands s true .opened (dispatchBody launch)
  | committing (hwait : s.waits 0 = .notStarted) :
      DispatchStands s true .opened [.waitCommit 0, .waitBlock 0, .waitFinish 0]
  | refused : DispatchStands s true .opened []
  | blocked (hwait : s.waits 0 = .blocked) :
      DispatchStands s true .committed [.waitBlock 0, .waitFinish 0]
  | finished (hwait : s.waits 0 = .unblocked) (hgpu : s.world.gpu.isSome) :
      DispatchStands s true .committed [.waitFinish 0]
  | ended (alive : Bool) (hgpu : s.world.gpu.isSome) : DispatchStands s alive .committed []

/-- A call of `dispatch` that got past `commit` ends when the GPU has finished. -/
theorem DispatchStands.gpu_of_ended {s : BatchSystem} {alive : Bool} {phase : Phase}
    (h : DispatchStands s alive phase []) (hphase : phase ≠ .opened) :
    phase = .committed ∧ s.world.gpu.isSome := by
  cases h with
  | refused => exact absurd rfl hphase
  | ended _ hgpu => exact ⟨rfl, hgpu⟩

namespace BatchSystem

variable {rt : Runtime} {s s' : BatchSystem} {phase : Phase} {commands : List EncoderCommand}
  {event : BatchEvent} {sec : Section} {rest : List BatchEvent}

/-- The end of the work on the GPU is all that the device does to a batch. -/
theorem step_device (hdevice : event.isDevice) (hstep : s.step event = some (sec, s')) :
    ∃ result, event = .gpuFinish result ∧ .commit ∈ s.world.calls ∧
      s' = { s with world := { s.world with gpu := some result } } := by
  cases event with
  | gpuFinish result =>
    obtain ⟨hready, heq⟩ := Option.ite_none_right_eq_some.mp hstep
    cases Option.some.inj heq
    exact ⟨result, rfl, hready.1, rfl⟩
  | _ => cases hdevice

/-- It does not change where a call of `dispatch` stands. -/
theorem dispatchStands_device (h : Invariant rt s phase commands) {alive : Bool}
    (hstands : DispatchStands s alive phase rest) (hdevice : event.isDevice)
    (hstep : s.step event = some (sec, s')) : DispatchStands s' alive phase rest := by
  obtain ⟨result, rfl, hcommit, rfl⟩ := step_device hdevice hstep
  cases committed_of_mem h hcommit
  cases hstands with
  | blocked hwait => exact .blocked hwait
  | finished hwait => exact .finished hwait rfl
  | ended => exact .ended alive rfl

/-- A section of `dispatch` brings it to the next place of its body, or out of it. -/
theorem dispatchStands_section (h : Invariant rt s phase commands) {alive : Bool}
    (hstands : DispatchStands s alive phase (event :: rest))
    (hstep : s.step event = some (sec, s')) :
    DispatchStands s' alive (nextPhase phase event sec) (if sec.returned then rest else []) := by
  cases hstands with
  | adding launch hwait =>
    have hwaits : s'.waits = s.waits := by
      cases Option.some.inj hstep
      rfl
    rw [← hwaits] at hwait
    have hphase : nextPhase .opened (.add launch) sec = .opened := rfl
    rw [hphase]
    cases sec.returned with
    | true => exact .committing hwait
    | false => exact .refused
  | committing hwait =>
    rw [step, if_pos hwait, perform_eq h.lifecycle.exec_commitLocked rfl] at hstep
    cases hstep
    exact .blocked rfl
  | blocked hwait =>
    obtain ⟨⟨-, hready⟩, heq⟩ := Option.ite_none_right_eq_some.mp hstep
    rw [perform_eq h.lifecycle.exec_waitUntilCompleted rfl] at heq
    cases heq
    have hgpu : s.world.gpu.isSome := by
      rcases hready with hnone | hgpu
      · have hsome := h.lifecycle.commandBuffer_isSome
        rw [hnone] at hsome
        cases hsome
      · exact hgpu
    exact .finished rfl hgpu
  | finished hwait hgpu =>
    rw [nextPhase_of_closed (by decide), ite_self]
    refine .ended _ ?_
    rw [(step_cases h hstep).gpu_eq fun result hresult => by cases hresult]
    exact hgpu

/-- A call of `dispatch` whose batch is open can go on. -/
theorem dispatch_enabled {alive : Bool}
    (hstands : DispatchStands s alive .opened (event :: rest)) :
    ∃ sec s', s.step event = some (sec, s') := by
  cases hstands with
  | adding launch => exact ⟨_, _, rfl⟩
  | committing hwait => exact ⟨_, _, by rw [step, if_pos hwait]⟩

end BatchSystem

/-- What one step can do to a batch: a section of a method, of the device or of the program; the
next section of a call of `dispatch`; or the destructor. -/
inductive QueuedMove (b : QueuedBatch) : QueuedEvent → Section → QueuedBatch → Prop
  | called (event : BatchEvent) (sec : Section) (system : BatchSystem)
      (hallowed : event.isDevice ∨ (b.user = .program ∧ b.alive))
      (hsection : b.system.step event = some (sec, system)) :
      QueuedMove b (.call event) sec { b with system }
  | proceeded (event : BatchEvent) (rest : List BatchEvent) (sec : Section) (system : BatchSystem)
      (huser : b.user = .dispatch (event :: rest)) (halive : b.alive)
      (hsection : b.system.step event = some (sec, system)) :
      QueuedMove b .proceed sec
        { b with system, user := .dispatch (if sec.returned then rest else []) }
  | returned (huser : b.user = .dispatch []) (halive : b.alive) :
      QueuedMove b .proceed b.destroy.1 b.destroy.2
  | dropped (huser : b.user = .program) (halive : b.alive) :
      QueuedMove b .drop b.destroy.1 b.destroy.2

namespace QueuedBatch

variable {rt : Runtime} {b b' : QueuedBatch} {event : QueuedEvent} {sec : Section}

/-- A batch of the program is in no call of `dispatch`. -/
theorem isProgram_iff : b.isProgram ↔ b.user = .program := by
  rw [isProgram]
  cases b.user <;> simp

/-- Everything a step can do. -/
theorem step_moves (hstep : b.step event = some (sec, b')) : QueuedMove b event sec b' := by
  cases event with
  | call batchEvent =>
    obtain ⟨hallowed, heq⟩ := Option.ite_none_right_eq_some.mp hstep
    obtain ⟨⟨sec, system⟩, hsection, hshown⟩ := Option.map_eq_some_iff.mp heq
    cases hshown
    exact .called _ _ _ (hallowed.imp_right (And.imp_left isProgram_iff.mp)) hsection
  | proceed =>
    obtain ⟨halive, heq⟩ := Option.ite_none_right_eq_some.mp hstep
    split at heq
    · cases heq
    · next huser =>
      cases Option.some.inj heq
      exact .returned huser halive
    · next batchEvent rest huser =>
      obtain ⟨⟨sec, system⟩, hsection, hshown⟩ := Option.map_eq_some_iff.mp heq
      cases hshown
      exact .proceeded _ _ _ _ huser halive hsection
  | drop =>
    obtain ⟨⟨hprogram, halive⟩, heq⟩ := Option.ite_none_right_eq_some.mp hstep
    cases Option.some.inj heq
    exact .dropped (isProgram_iff.mp hprogram) halive

/-- What holds of a batch at all times: it is in a phase of its life, or its destructor met it
open. -/
inductive Sound (rt : Runtime) (b : QueuedBatch) : Prop
  | tracked (phase : Phase) (commands : List EncoderCommand)
      (hinv : BatchSystem.Invariant rt b.system phase commands)
      (halive : phase = .opened → b.alive)
      (huser : ∀ rest, b.user = .dispatch rest → DispatchStands b.system b.alive phase rest)
  | dropped (halive : b.alive = false) (hcommit : .commit ∉ b.system.world.calls)
      (hcommitted : b.system.world.batch.committed = false)

/-- A batch that was dropped while it was open fills no slot. -/
theorem occupies_of_dropped (halive : b.alive = false) (hcommit : .commit ∉ b.system.world.calls) :
    b.occupies = false := by
  rw [occupies, BatchWorld.occupies, if_neg hcommit, halive, Bool.false_and]

/-- The slots are those of open batches and of batches in flight. -/
theorem occupies_eq (h : Sound rt b) : b.occupies = (b.isOpen || b.inFlight) := by
  cases h with
  | tracked phase commands hinv halive =>
    have hcommitted := hinv.lifecycle.committed
    have hdiscarded := hinv.lifecycle.discarded
    cases phase with
    | opened =>
      rw [occupies, hinv.lifecycle.occupies_opened, isOpen, inFlight, hcommitted, hdiscarded,
        halive rfl]
      rfl
    | committed =>
      rw [occupies, hinv.lifecycle.occupies_committed, isOpen, inFlight, hcommitted]
      simp
    | discarded =>
      rw [occupies, hinv.lifecycle.occupies_discarded, isOpen, inFlight, hcommitted, hdiscarded]
      simp
  | dropped halive hcommit hcommitted =>
    rw [occupies_of_dropped halive hcommit, isOpen, inFlight, halive, hcommitted]
    rfl

/-- The destructor frees the slot of a batch that is still open. -/
theorem destroy_opened {commands : List EncoderCommand}
    (hinv : BatchSystem.Invariant rt b.system .opened commands) :
    Sound rt b.destroy.2 ∧ b.destroy.2.occupies = false := by
  have hcalls : b.system.world.calls = commands.map .encode := hinv.lifecycle.calls
  have hcommit : .commit ∉ (b.system.world.after [.endEncoding]).calls := by simp [hcalls]
  rw [destroy, BatchSystem.perform_eq hinv.lifecycle.exec_destroy rfl]
  exact ⟨.dropped rfl hcommit hinv.lifecycle.committed, occupies_of_dropped rfl hcommit⟩

/-- The destructor leaves a batch that is sound and takes no slot. -/
theorem destroy_sound (h : Sound rt b) (halive : b.alive)
    (hbody : ∀ rest, b.user = .dispatch rest → rest = []) :
    Sound rt b.destroy.2 ∧ (b.destroy.2.occupies → b.occupies) := by
  cases h with
  | dropped hdead =>
    rw [halive] at hdead
    cases hdead
  | tracked phase commands hinv _ huser =>
    by_cases hphase : phase = .opened
    · subst hphase
      obtain ⟨hsound, hfree⟩ := destroy_opened hinv
      refine ⟨hsound, fun hoccupies => ?_⟩
      rw [hfree] at hoccupies
      cases hoccupies
    · rw [destroy, BatchSystem.perform_eq (hinv.lifecycle.exec_destroy_of_closed hphase)
        (List.append_nil _).symm]
      refine ⟨.tracked phase commands hinv (fun hopened => absurd hopened hphase) ?_, ?_⟩
      · intro rest hrest
        have hstands := huser rest hrest
        cases hbody rest hrest
        obtain ⟨rfl, hgpu⟩ := hstands.gpu_of_ended hphase
        exact .ended false hgpu
      · intro hoccupies
        cases phase with
        | opened => exact absurd rfl hphase
        | committed =>
          rw [occupies, hinv.lifecycle.occupies_committed] at hoccupies ⊢
          exact hoccupies
        | discarded =>
          rw [occupies, hinv.lifecycle.occupies_discarded] at hoccupies
          cases hoccupies

/-- A section of a method keeps the batch sound and takes no slot. -/
theorem section_sound (h : Sound rt b) {batchEvent : BatchEvent} {system : BatchSystem}
    {user : BatchUser} (hstep : b.system.step batchEvent = some (sec, system))
    (hallowed : b.alive ∨ batchEvent.isDevice)
    (huser : ∀ phase commands, BatchSystem.Invariant rt b.system phase commands →
      (∀ rest, b.user = .dispatch rest → DispatchStands b.system b.alive phase rest) →
      ∀ rest, user = .dispatch rest →
        DispatchStands system b.alive (nextPhase phase batchEvent sec) rest) :
    Sound rt { b with system, user } ∧
      (({ b with system, user } : QueuedBatch).occupies → b.occupies) := by
  cases h with
  | tracked phase commands hinv halive hstands =>
    refine ⟨.tracked _ _ (BatchSystem.step_invariant hinv hstep) ?_
      (huser phase commands hinv hstands), ?_⟩
    · intro hopened
      by_cases hphase : phase = .opened
      · exact halive hphase
      · rw [nextPhase_of_closed hphase] at hopened
        exact absurd hopened hphase
    · exact (BatchSystem.step_cases hinv hstep).occupies_of_occupies hinv.lifecycle halive
  | dropped halive hcommit hcommitted =>
    rcases hallowed with hdead | hdevice
    · rw [halive] at hdead
      cases hdead
    · obtain ⟨result, -, hmem, -⟩ := BatchSystem.step_device hdevice hstep
      exact absurd hmem hcommit

/-- Every step keeps a batch sound and takes no slot. -/
theorem step_sound (h : Sound rt b) (hstep : b.step event = some (sec, b')) :
    Sound rt b' ∧ (b'.occupies → b.occupies) := by
  cases step_moves hstep with
  | called batchEvent sec system hallowed hsection =>
    refine section_sound h hsection (hallowed.symm.imp And.right id) ?_
    intro phase commands hinv hstands rest hrest
    rcases hallowed with hdevice | ⟨huser, -⟩
    · obtain ⟨result, rfl, hcommit, -⟩ := BatchSystem.step_device hdevice hsection
      cases BatchSystem.committed_of_mem hinv hcommit
      exact BatchSystem.dispatchStands_device hinv (hstands rest hrest) hdevice hsection
    · cases huser.symm.trans hrest
  | proceeded batchEvent rest sec system huser halive hsection =>
    refine section_sound h hsection (Or.inl halive) ?_
    intro phase commands hinv hstands later hlater
    cases hlater
    exact BatchSystem.dispatchStands_section hinv (hstands _ huser) hsection
  | returned huser halive =>
    refine destroy_sound h halive fun rest hrest => ?_
    cases huser.symm.trans hrest
    rfl
  | dropped huser halive =>
    refine destroy_sound h halive fun rest hrest => ?_
    cases huser.symm.trans hrest

/-- An event that needs nothing of the program leaves its open batches open, and opens none. -/
theorem isKeptOpen_of_unattended (hevent : event.Unattended)
    (hstep : b.step event = some (sec, b')) : b'.isKeptOpen = b.isKeptOpen := by
  cases step_moves hstep with
  | called batchEvent sec system _ hsection =>
    obtain ⟨result, -, -, rfl⟩ := BatchSystem.step_device hevent hsection
    rfl
  | proceeded _ _ _ _ huser => simp only [isKeptOpen, isProgram, huser, Bool.false_and]
  | returned huser => simp only [isKeptOpen, isProgram, destroy, huser, Bool.false_and]
  | dropped => exact hevent.elim

/-- The unattended steps after which the slot of the batch is free, at most. -/
def stepsLeft (b : QueuedBatch) : ℕ :=
  if b.inFlight then 1
  else match b.user with
    | .program => 0
    | .dispatch rest => if b.isOpen then rest.length + 1 else 0

/-- A batch with no such step left fills a slot only if the program keeps it open. -/
theorem isKeptOpen_of_occupies (h : Sound rt b) (hleft : b.stepsLeft = 0) (hslot : b.occupies) :
    b.isKeptOpen := by
  rw [occupies_eq h] at hslot
  cases hflight : b.inFlight with
  | true => simp [stepsLeft, hflight] at hleft
  | false =>
    rw [hflight, Bool.or_false] at hslot
    rw [isKeptOpen, hslot, Bool.and_true, isProgram]
    cases huser : b.user with
    | program => rfl
    | dispatch rest => simp [stepsLeft, hflight, huser, hslot] at hleft

/-- A call of `dispatch` that is over has given its slot back. -/
theorem not_occupies_of_ended (h : Sound rt b) (hdispatch : b.isProgram = false)
    (halive : b.alive = false) : b.occupies = false := by
  cases h with
  | dropped _ hcommit => exact occupies_of_dropped halive hcommit
  | tracked phase commands hinv _ huser =>
    cases hrest : b.user with
    | program =>
      rw [isProgram, hrest] at hdispatch
      cases hdispatch
    | dispatch rest =>
      have hstands := huser rest hrest
      rw [halive] at hstands
      cases hstands with
      | ended _ hgpu =>
        rw [occupies, hinv.lifecycle.occupies_committed, Option.isNone_eq_false_iff]
        exact hgpu

/-- Once a slot is free, no step is left. -/
theorem stepsLeft_of_not_occupies (h : Sound rt b) (hslot : b.occupies = false) :
    b.stepsLeft = 0 := by
  rw [occupies_eq h, Bool.or_eq_false_iff] at hslot
  rw [stepsLeft, hslot.1, hslot.2]
  cases b.user <;> simp

/-- The GPU can finish a batch in flight, whose slot is free then. -/
theorem inFlight_finishes (h : Sound rt b) (hflight : b.inFlight) (result : GpuResult) :
    ∃ sec b', b.step (.call (.gpuFinish result)) = some (sec, b') ∧ b'.occupies = false := by
  cases h with
  | dropped _ _ hcommitted =>
    rw [inFlight, hcommitted] at hflight
    cases hflight
  | tracked phase commands hinv =>
    obtain ⟨hcommitted, hgpu⟩ := Bool.and_eq_true_iff.mp hflight
    rw [hinv.lifecycle.committed, decide_eq_true_eq] at hcommitted
    subst hcommitted
    obtain ⟨queries, -, hcalls⟩ := hinv.lifecycle.calls
    have hcommit : .commit ∈ b.system.world.calls := by simp [hcalls]
    have hsection : b.system.step (.gpuFinish result) = some (⟨.ok (), []⟩,
        { b.system with world := { b.system.world with gpu := some result } }) := by
      rw [BatchSystem.step, if_pos ⟨hcommit, hgpu⟩]
    have hdevice : (BatchEvent.gpuFinish result).isDevice := rfl
    refine ⟨_, _, by rw [step, if_pos (Or.inl hdevice), hsection]; rfl, ?_⟩
    rw [occupies, BatchWorld.occupies, if_pos hcommit]
    rfl

/-- A call of `dispatch` has at most the rest of its body and the destructor before it. -/
theorem stepsLeft_le {rest : List BatchEvent} (huser : b.user = .dispatch rest) :
    b.stepsLeft ≤ rest.length + 1 := by
  rw [stepsLeft, huser]
  split
  · exact Nat.le_add_left 1 _
  · dsimp only
    split
    · exact Nat.le_refl _
    · exact Nat.zero_le _

/-- An open batch of a call of `dispatch` can go on, which leaves fewer steps. -/
theorem dispatch_advances (h : Sound rt b) {rest : List BatchEvent}
    (huser : b.user = .dispatch rest) (hopen : b.isOpen) :
    ∃ sec b', b.step .proceed = some (sec, b') ∧ b'.stepsLeft < rest.length + 1 := by
  simp only [isOpen, Bool.and_eq_true, Bool.not_eq_true'] at hopen
  obtain ⟨⟨halive, hcommitted⟩, hdiscarded⟩ := hopen
  cases h with
  | dropped hdead =>
    rw [halive] at hdead
    cases hdead
  | tracked phase commands hinv _ hstands =>
    have hphase : phase = .opened := by
      rw [hinv.lifecycle.committed] at hcommitted
      rw [hinv.lifecycle.discarded] at hdiscarded
      cases phase with
      | opened => rfl
      | committed => exact absurd hcommitted (by decide)
      | discarded => exact absurd hdiscarded (by decide)
    subst hphase
    cases rest with
    | nil =>
      obtain ⟨hsound, hfree⟩ := destroy_opened hinv
      refine ⟨_, _, by rw [step, if_pos halive, huser], ?_⟩
      rw [stepsLeft_of_not_occupies hsound hfree]
      exact Nat.one_pos
    | cons event rest =>
      obtain ⟨sec, system, hsection⟩ := BatchSystem.dispatch_enabled (hstands _ huser)
      refine ⟨_, _, by rw [step, if_pos halive, huser]; dsimp only; rw [hsection]; rfl, ?_⟩
      refine Nat.lt_of_le_of_lt (stepsLeft_le rfl) ?_
      rw [List.length_cons]
      split
      · exact Nat.lt_succ_self _
      · exact Nat.succ_lt_succ (Nat.succ_pos _)

/-- A batch with steps left has one that needs nothing of the program and leaves fewer. -/
theorem exists_unattended (h : Sound rt b) (hleft : b.stepsLeft ≠ 0) :
    ∃ event sec b', event.Unattended ∧ b.step event = some (sec, b') ∧
      b'.stepsLeft < b.stepsLeft := by
  cases hflight : b.inFlight with
  | true =>
    obtain ⟨sec, b', hstep, hfree⟩ := inFlight_finishes h hflight ⟨0, 0, none⟩
    refine ⟨.call (.gpuFinish ⟨0, 0, none⟩), sec, b', rfl, hstep, ?_⟩
    rw [stepsLeft_of_not_occupies (step_sound h hstep).1 hfree]
    exact Nat.pos_of_ne_zero hleft
  | false =>
    cases huser : b.user with
    | program => simp [stepsLeft, hflight, huser] at hleft
    | dispatch rest =>
      cases hopen : b.isOpen with
      | false => simp [stepsLeft, hflight, huser, hopen] at hleft
      | true =>
        obtain ⟨sec, b', hstep, hless⟩ := dispatch_advances h huser hopen
        refine ⟨.proceed, sec, b', trivial, hstep, ?_⟩
        simpa [stepsLeft, hflight, huser, hopen] using hless

end QueuedBatch

namespace CommandQueue

variable {rt : Runtime} {q q' : CommandQueue} {event : QueueEvent} {outcome : Except Failure Unit}

/-- What holds of the queue at all times. -/
structure Sound (rt : Runtime) (q : CommandQueue) : Prop where
  batches : ∀ b ∈ q.batches, QueuedBatch.Sound rt b
  slots : q.slots ≤ maxCommandBufferCount

/-- A constructor ends with a batch of its user that is open, or leaves the queue as it was; it ran
while a slot was free. -/
theorem construct_cases {user : BatchUser} {commandBuffer encoder : Option ℕ}
    (h : q.construct rt user commandBuffer encoder = some (outcome, q')) :
    q.slots < maxCommandBufferCount ∧ (q' = q ∨ ∃ world,
      CommandBatch.create rt commandBuffer encoder = .ok world ∧
        q' = ⟨q.batches ++ [⟨user, .initial world, true⟩]⟩) := by
  obtain ⟨hslots, heq⟩ := Option.ite_none_right_eq_some.mp h
  refine ⟨hslots, ?_⟩
  split at heq
  · cases heq
    exact Or.inl rfl
  · next world hcreate =>
    cases heq
    exact Or.inr ⟨world, hcreate, rfl⟩

/-- A constructor blocks exactly while no slot is free. -/
theorem constructs_iff (rt : Runtime) (q : CommandQueue) (hconstructs : event.Constructs) :
    (q.step rt event).isSome ↔ q.slots < maxCommandBufferCount := by
  have hconstruct : ∀ user commandBuffer encoder,
      (q.construct rt user commandBuffer encoder).isSome ↔ q.slots < maxCommandBufferCount := by
    intro user commandBuffer encoder
    rw [construct]
    split
    · next hslots =>
      refine iff_of_true ?_ hslots
      split <;> rfl
    · next hslots => exact iff_of_false (by simp) hslots
  cases event with
  | newBatch commandBuffer encoder => exact hconstruct _ _ _
  | dispatch launch commandBuffer encoder => exact hconstruct _ _ _
  | batch index batchEvent => exact hconstructs.elim

/-- A constructor takes at most one slot, which was free. -/
theorem construct_sound (h : Sound rt q) {user : BatchUser} {commandBuffer encoder : Option ℕ}
    (huser : user = .program ∨ ∃ launch, user = .dispatch (dispatchBody launch))
    (hconstruct : q.construct rt user commandBuffer encoder = some (outcome, q')) :
    Sound rt q' := by
  obtain ⟨hslots, rfl | ⟨world, hcreate, rfl⟩⟩ := construct_cases hconstruct
  · exact h
  · have hinv := BatchSystem.initial_invariant hcreate
    refine ⟨List.forall_mem_append.mpr ⟨h.batches, ?_⟩, ?_⟩
    · rw [List.forall_mem_singleton]
      refine .tracked .opened [] hinv (fun _ => rfl) fun rest hrest => ?_
      rcases huser with rfl | ⟨launch, rfl⟩
      · cases hrest
      · cases hrest
        exact .adding launch rfl
    · rw [slots, List.countP_append, List.countP_singleton]
      split
      · exact hslots
      · exact h.slots

/-- A step of the queue is a constructor, or a step of one batch. -/
theorem step_cases (hstep : q.step rt event = some (outcome, q')) :
    (∃ user commandBuffer encoder,
      (user = .program ∨ ∃ launch, user = .dispatch (dispatchBody launch)) ∧
        q.construct rt user commandBuffer encoder = some (outcome, q')) ∨
    ∃ index batchEvent sec b b', event = .batch index batchEvent ∧ q.batches[index]? = some b ∧
      b.step batchEvent = some (sec, b') ∧ q' = ⟨q.batches.set index b'⟩ := by
  cases event with
  | newBatch commandBuffer encoder => exact Or.inl ⟨_, _, _, Or.inl rfl, hstep⟩
  | dispatch launch commandBuffer encoder => exact Or.inl ⟨_, _, _, Or.inr ⟨launch, rfl⟩, hstep⟩
  | batch index batchEvent =>
    obtain ⟨⟨sec, batches⟩, hpool, hshown⟩ := Option.map_eq_some_iff.mp hstep
    cases hshown
    obtain ⟨b, b', hget, hbatch, rfl⟩ := poolStep_eq_some_iff.mp hpool
    exact Or.inr ⟨index, batchEvent, sec, b, b', rfl, hget, hbatch, rfl⟩

/-- Every step keeps the queue sound. -/
theorem step_sound (h : Sound rt q) (hstep : q.step rt event = some (outcome, q')) :
    Sound rt q' := by
  rcases step_cases hstep with ⟨user, commandBuffer, encoder, huser, hconstruct⟩ |
    ⟨index, batchEvent, sec, b, b', rfl, hget, hbatch, rfl⟩
  · exact construct_sound h huser hconstruct
  · obtain ⟨hsound, hoccupies⟩ :=
      QueuedBatch.step_sound (h.batches b (List.mem_of_getElem? hget)) hbatch
    exact ⟨forall_mem_set h.batches hsound, (countP_set_le hget hoccupies).trans h.slots⟩

/-- The program keeps as many batches open after an event that needs nothing of it. -/
theorem keptOpen_of_unattended (hevent : event.Unattended)
    (hstep : q.step rt event = some (outcome, q')) : q'.keptOpen = q.keptOpen := by
  rcases event with _ | _ | ⟨index, batchEvent⟩
  · exact hevent.elim
  · exact hevent.elim
  · obtain ⟨⟨sec, batches⟩, hpool, hshown⟩ := Option.map_eq_some_iff.mp hstep
    cases hshown
    obtain ⟨b, b', hget, hbatch, rfl⟩ := poolStep_eq_some_iff.mp hpool
    exact countP_set_eq hget (QueuedBatch.isKeptOpen_of_unattended hevent hbatch)

/-- Every batch that the program keeps open fills a slot. -/
theorem keptOpen_le_slots (h : Sound rt q) : q.keptOpen ≤ q.slots := by
  refine List.countP_mono_left fun b hb hkept => ?_
  rw [QueuedBatch.occupies_eq (h.batches b hb), (Bool.and_eq_true_iff.mp hkept).2, Bool.true_or]

/-- So it does after any number of them. -/
theorem keptOpen_of_run {events : List QueueEvent} {shown : List (Except Failure Unit)}
    (hevents : ∀ event ∈ events, event.Unattended)
    (hrun : runSchedule (step rt) q events = some (shown, q')) : q'.keptOpen = q.keptOpen := by
  refine runSchedule_frame (fun _ => True) keptOpen ?_ trivial hrun
  intro event hevent q outcome q' _ hstep
  exact ⟨keptOpen_of_unattended (hevents event hevent) hstep, trivial⟩

/-- A queue whose batches have no step left is as full as the program keeps it. -/
theorem slots_le_keptOpen (h : Sound rt q)
    (hdone : (q.batches.map QueuedBatch.stepsLeft).sum = 0) : q.slots ≤ q.keptOpen := by
  rw [List.sum_eq_zero_iff_forall_eq_nat, List.forall_mem_map] at hdone
  exact List.countP_mono_left fun b hb hslot =>
    QueuedBatch.isKeptOpen_of_occupies (h.batches b hb) (hdone b hb) hslot

/-- While a batch has steps left, one of them needs nothing of the program and leaves fewer. -/
theorem exists_unattended (h : Sound rt q)
    (hleft : (q.batches.map QueuedBatch.stepsLeft).sum ≠ 0) :
    ∃ event outcome q', event.Unattended ∧ q.step rt event = some (outcome, q') ∧ Sound rt q' ∧
      (q'.batches.map QueuedBatch.stepsLeft).sum < (q.batches.map QueuedBatch.stepsLeft).sum := by
  obtain ⟨b, hb, hsteps⟩ : ∃ b ∈ q.batches, b.stepsLeft ≠ 0 := by
    by_contra hnone
    push Not at hnone
    exact hleft (List.sum_eq_zero_iff_forall_eq_nat.mpr (List.forall_mem_map.mpr hnone))
  obtain ⟨index, hget⟩ := List.mem_iff_getElem?.mp hb
  obtain ⟨batchEvent, sec, b', hevent, hbatch, hless⟩ :=
    QueuedBatch.exists_unattended (h.batches b hb) hsteps
  have hstep : q.step rt (.batch index batchEvent) =
      some (sec.outcome, ⟨q.batches.set index b'⟩) := by
    rw [step, poolStep_eq_some_iff.mpr ⟨b, b', hget, hbatch, rfl⟩]
    rfl
  exact ⟨.batch index batchEvent, _, _, hevent, hstep, step_sound h hstep,
    sum_map_set_lt hget hless⟩

/-- All slots but those of the batches that the program keeps open come back without it. -/
theorem drains (h : Sound rt q) :
    ∃ later shown q', runSchedule (step rt) q later = some (shown, q') ∧
      (∀ event ∈ later, event.Unattended) ∧ q'.slots ≤ q.keptOpen := by
  obtain ⟨later, shown, q', hrun, hsound, hdone, -, hall⟩ :=
    runSchedule_drains (Sound rt) QueueEvent.Unattended _ (fun q h => exists_unattended h) h
  exact ⟨later, shown, q', hrun, hall, keptOpen_of_run hall hrun ▸ slots_le_keptOpen hsound hdone⟩

end CommandQueue

/-- Over every interleaving of constructors, of methods on the batches of the program by any number
of threads, of calls of `dispatch`, which may throw, of destructors and of the GPU finishing its
work: at most as many slots are in use as the queue has, and these are the slots of the batches
that are open or in flight; a call of `dispatch` that is over has given its slot back; and a
constructor that blocks can go on without the program doing anything with its batches, exactly if
the program keeps fewer batches open than the queue has slots. -/
theorem queue_slots_come_back {rt : Runtime} {events : List QueueEvent}
    {shown : List (Except Failure Unit)} {q : CommandQueue}
    (hrun : runSchedule (CommandQueue.step rt) {} events = some (shown, q)) :
    q.slots ≤ maxCommandBufferCount ∧
    (∀ b ∈ q.batches, b.occupies ↔ b.isOpen ∨ b.inFlight) ∧
    (∀ b ∈ q.batches, b.isProgram = false → b.alive = false → b.occupies = false) ∧
    ∀ event : QueueEvent, event.Constructs → ((∃ later more q',
      runSchedule (CommandQueue.step rt) q later = some (more, q') ∧
        (∀ other ∈ later, other.Unattended) ∧ (q'.step rt event).isSome) ↔
      q.keptOpen < maxCommandBufferCount) := by
  have hsound : ∀ {q q' : CommandQueue} {events shown}, CommandQueue.Sound rt q →
      runSchedule (CommandQueue.step rt) q events = some (shown, q') →
        CommandQueue.Sound rt q' := by
    intro q q' events shown h hrun
    refine runSchedule_invariant (CommandQueue.Sound rt) ?_ h hrun
    intro q event outcome q' h hstep
    exact CommandQueue.step_sound h hstep
  have hq : CommandQueue.Sound rt q :=
    hsound ⟨fun b hb => absurd hb List.not_mem_nil, Nat.zero_le _⟩ hrun
  refine ⟨hq.slots, ?_, ?_, ?_⟩
  · intro b hb
    rw [QueuedBatch.occupies_eq (hq.batches b hb), Bool.or_eq_true]
  · intro b hb
    exact QueuedBatch.not_occupies_of_ended (hq.batches b hb)
  · intro event hconstructs
    simp only [CommandQueue.constructs_iff rt _ hconstructs]
    constructor
    · rintro ⟨later, more, q', hlater, hall, hslots⟩
      rw [← CommandQueue.keptOpen_of_run hall hlater]
      exact (CommandQueue.keptOpen_le_slots (hsound hq hlater)).trans_lt hslots
    · intro hkept
      obtain ⟨later, more, q', hlater, hall, hslots⟩ := CommandQueue.drains hq
      exact ⟨later, more, q', hlater, hall, hslots.trans_lt hkept⟩

/-- As many `with` statements as the queue has slots, whose bodies raise; the program keeps all
their batches. -/
def raisingBlocks : List QueueEvent :=
  (List.range maxCommandBufferCount).flatMap fun index =>
    [.newBatch (some index) (some index), .batch index (.call .discard)]

/-- A `run` after them finds a slot. -/
theorem raising_blocks_free_slots : ∃ shown q,
    runSchedule (CommandQueue.step ⟨true, 32768⟩) {} raisingBlocks = some (shown, q) ∧
    q.batches.length = maxCommandBufferCount ∧ ∃ later more q',
      runSchedule (CommandQueue.step ⟨true, 32768⟩) q later = some (more, q') ∧
        (∀ event ∈ later, event.Unattended) ∧
        (q'.step ⟨true, 32768⟩ (.dispatch addOneLaunch (some 64) (some 64))).isSome := by
  have hrun : (runSchedule (CommandQueue.step ⟨true, 32768⟩) {} raisingBlocks).map
      (fun result => (result.2.batches.length, result.2.keptOpen)) = some (64, 0) := by
    decide +kernel
  obtain ⟨⟨shown, q⟩, hrun, hcounts⟩ := Option.map_eq_some_iff.mp hrun
  obtain ⟨hlength, hkept⟩ := Prod.mk.inj hcounts
  obtain ⟨-, -, -, hslots⟩ := queue_slots_come_back hrun
  refine ⟨shown, q, hrun, hlength, (hslots (.dispatch _ _ _) trivial).mpr ?_⟩
  rw [hkept]
  exact Nat.succ_pos 63

end MetalRuntime
