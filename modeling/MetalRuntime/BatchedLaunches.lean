import MetalRuntime.BatchProtocol
import MetalRuntime.Foundations.Handles
import MetalRuntime.Foundations.RelatedLists

/-!
# Batches and their launches

The `Batch` objects of a program, with the launches in the command buffer of each. Before it is
committed, a command buffer lives as long as its batch. From then on the GPU runs its launches in
whatever order, also after the batch is gone, and Metal has it until it completes.

What a launch points to is a parameter, so that batches on memory and on separate buffers are the
same. Batches whose launches correspond make the same steps.
-/

namespace MetalRuntime

open Foundations

/-- The batches, and the launches in the command buffer of each, with whether the GPU has run them.
A command buffer that is gone has none. -/
structure Batches (Flight : Type) where
  systems : Handles BatchSystem
  flights : ℕ → List (Flight × Bool)

/-- The GPU has run every launch, or stops at a fault. -/
def GpuResult.Ends {Flight : Type} (result : GpuResult) (flights : List (Flight × Bool)) : Prop :=
  result.fault = none → ∀ entry ∈ flights, entry.2 = true

instance {Flight : Type} (result : GpuResult) (flights : List (Flight × Bool)) :
    Decidable (result.Ends flights) := inferInstanceAs (Decidable (_ → _))

/-- An event other than `add`, which brings its launch. -/
def BatchEvent.Allowed {Flight : Type} (flights : List (Flight × Bool)) : BatchEvent → Prop
  | .add _ => False
  | .gpuFinish result => result.Ends flights
  | _ => True

instance {Flight : Type} (flights : List (Flight × Bool)) (event : BatchEvent) :
    Decidable (event.Allowed flights) :=
  match event with
  | .add _ => inferInstanceAs (Decidable False)
  | .gpuFinish result => inferInstanceAs (Decidable (result.Ends flights))
  | .barrier | .commit | .discard | .waitCommit _ | .waitBlock _ | .waitFinish _ =>
    inferInstanceAs (Decidable True)

namespace Batches

variable {F G : Type}

/-- No batch yet. -/
def initial : Batches F := ⟨.empty, fun _ => []⟩

/-- The constructor, given what Metal hands out. -/
def create (batches : Batches F) (rt : Runtime) (commandBuffer encoder : Option ℕ) :
    Except Failure (ℕ × Batches F) := do
  let world ← CommandBatch.create rt commandBuffer encoder
  .ok (batches.systems.next, { batches with systems := batches.systems.create (.initial world) })

/-- What is left of the launches: a command buffer goes when it is reset, and when it completes. -/
def left (world : BatchWorld) (flights : List (F × Bool)) : List (F × Bool) :=
  if world.batch.commandBuffer = none ∨ world.gpu.isSome then [] else flights

/-- A step of one batch. -/
def perform (batches : Batches F) (number : ℕ) (event : BatchEvent) :
    Option (Except Failure Unit × Batches F) := do
  let system ← batches.systems.live number
  let (sec, system') ← system.step event
  some (sec.outcome, {
    systems := batches.systems.set number system'
    flights := Function.update batches.flights number
      (left system'.world (batches.flights number)) })

/-- `add` encodes the launch, unless it throws. -/
def add (batches : Batches F) (number : ℕ) (launch : Launch) (flight : F) :
    Option (Except Failure Unit × Batches F) := do
  let (outcome, after) ← batches.perform number (.add launch)
  match outcome with
  | .error failure => some (.error failure, after)
  | .ok () => some (.ok (), { after with
      flights := Function.update after.flights number (after.flights number ++ [(flight, false)]) })

/-- A section of another method, or the end of the command buffer. -/
def step (batches : Batches F) (number : ℕ) (event : BatchEvent) :
    Option (Except Failure Unit × Batches F) :=
  if event.Allowed (batches.flights number) then batches.perform number event else none

/-- The GPU runs one launch of a committed command buffer. -/
def run (batches : Batches F) (number position : ℕ) : Option (F × Batches F) := do
  let system ← batches.systems.live number
  let (flight, ran) ← (batches.flights number)[position]?
  if system.world.batch.committed = true ∧ ran = false then
    some (flight, { batches with
      flights := Function.update batches.flights number
        ((batches.flights number).set position (flight, true)) })
  else none

/-- The destructor: what is committed goes on without the batch. -/
def drop (batches : Batches F) (number : ℕ) : Batches F :=
  if (batches.systems.live number).any fun system => system.world.batch.committed then batches
  else {
    systems := batches.systems.release (some number)
    flights := Function.update batches.flights number [] }

/-- The invariant: the batches are sound, and only they have launches. -/
structure Sound (batches : Batches F) : Prop where
  bounded : batches.systems.Bounded
  flights : ∀ number, batches.systems.next ≤ number → batches.flights number = []
  systems : batches.systems.All fun system => ∃ rt, BatchSystem.Sound rt system

/-- No batch is sound. -/
theorem initial_sound : (initial : Batches F).Sound :=
  ⟨Handles.bounded_empty, fun _ _ => rfl, Handles.all_empty _⟩

/-- A step of one batch keeps all sound, and has no undefined behavior. -/
theorem perform_sound {batches after : Batches F} (h : batches.Sound) {number : ℕ}
    {event : BatchEvent} {outcome : Except Failure Unit}
    (hperform : batches.perform number event = some (outcome, after)) :
    outcome ≠ .error .undefinedBehavior ∧ after.Sound ∧ number < after.systems.next := by
  obtain ⟨system, hlive, hrest⟩ := Option.bind_eq_some_iff.mp hperform
  obtain ⟨⟨sec, system'⟩, hstep, hsame⟩ := Option.bind_eq_some_iff.mp hrest
  cases hsame
  obtain ⟨rt, phase, commands, hinv⟩ := h.systems number system hlive
  have hlt : number < batches.systems.next := by
    by_contra hle
    rw [h.bounded number (not_lt.mp hle)] at hlive
    cases hlive
  refine ⟨(BatchSystem.step_cases hinv hstep).no_undefinedBehavior, ⟨?_, ?_, ?_⟩, hlt⟩
  · exact h.bounded.set (Option.isSome_of_eq_some hlive) system'
  · intro other hle
    exact (Function.update_of_ne (hlt.trans_le hle).ne' _ _).trans (h.flights other hle)
  · exact h.systems.set number ⟨rt, _, _, BatchSystem.step_invariant hinv hstep⟩

/-- The constructor returns or throws. -/
theorem create_defined (batches : Batches F) (rt : Runtime) (commandBuffer encoder : Option ℕ) :
    Defined (batches.create rt commandBuffer encoder) := by
  refine FailsOnly.bind ?_ fun world _ => failsOnly_ok _ _
  refine (failsOnly_rejectIf (by simp)).bind fun _ _ => ?_
  exact (failsOnly_rejectIf (by simp)).bind fun _ _ => failsOnly_ok _ _

/-- A new batch keeps all sound. -/
theorem create_sound {batches after : Batches F} (h : batches.Sound) {rt : Runtime}
    {commandBuffer encoder : Option ℕ} {number : ℕ}
    (hcreate : batches.create rt commandBuffer encoder = .ok (number, after)) : after.Sound := by
  obtain ⟨world, hworld, hsame⟩ := bind_eq_ok_iff.mp hcreate
  cases hsame
  refine ⟨h.bounded.create _, ?_, ?_⟩
  · exact fun other hle => h.flights other ((Nat.le_succ _).trans hle)
  · exact h.systems.create ⟨rt, _, _, BatchSystem.initial_invariant hworld⟩

/-- So does `add`. -/
theorem add_sound {batches after : Batches F} (h : batches.Sound) {number : ℕ} {launch : Launch}
    {flight : F} {outcome : Except Failure Unit}
    (hadd : batches.add number launch flight = some (outcome, after)) :
    outcome ≠ .error .undefinedBehavior ∧ after.Sound := by
  obtain ⟨⟨result, performed⟩, hperform, hrest⟩ := Option.bind_eq_some_iff.mp hadd
  obtain ⟨hdefined, hsound, hlt⟩ := perform_sound h hperform
  cases result with
  | error failure =>
    cases hrest
    exact ⟨hdefined, hsound⟩
  | ok =>
    cases hrest
    refine ⟨hdefined, hsound.bounded, ?_, hsound.systems⟩
    intro other hle
    exact (Function.update_of_ne (hlt.trans_le hle).ne' _ _).trans (hsound.flights other hle)

/-- So does a section, or the end of a command buffer. -/
theorem step_sound {batches after : Batches F} (h : batches.Sound) {number : ℕ}
    {event : BatchEvent} {outcome : Except Failure Unit}
    (hstep : batches.step number event = some (outcome, after)) :
    outcome ≠ .error .undefinedBehavior ∧ after.Sound := by
  obtain ⟨-, hperform⟩ := Option.ite_none_right_eq_some.mp hstep
  obtain ⟨hdefined, hsound, -⟩ := perform_sound h hperform
  exact ⟨hdefined, hsound⟩

/-- A launch that the GPU runs changes no batch. -/
theorem run_sound {batches after : Batches F} (h : batches.Sound) {number position : ℕ} {flight : F}
    (hrun : batches.run number position = some (flight, after)) : after.Sound := by
  obtain ⟨system, hlive, hrest⟩ := Option.bind_eq_some_iff.mp hrun
  obtain ⟨⟨found, ran⟩, -, hrest⟩ := Option.bind_eq_some_iff.mp hrest
  obtain ⟨-, hsame⟩ := Option.ite_none_right_eq_some.mp hrest
  cases hsame
  refine ⟨h.bounded, ?_, h.systems⟩
  intro other hle
  have hne : other ≠ number := by
    rintro rfl
    rw [h.bounded other hle] at hlive
    cases hlive
  exact (Function.update_of_ne hne _ _).trans (h.flights other hle)

/-- The destructor keeps the other batches sound. -/
theorem drop_sound {batches : Batches F} (h : batches.Sound) (number : ℕ) :
    (batches.drop number).Sound := by
  unfold drop
  split
  · exact h
  · refine ⟨h.bounded.release _, ?_, h.systems.release (some number)⟩
    intro other hle
    by_cases heq : other = number
    · subst heq
      exact Function.update_self _ _ _
    · exact (Function.update_of_ne heq _ _).trans (h.flights other hle)

/-- The same batches, with launches that correspond. -/
structure Related (R : F → G → Prop) (batches : Batches F) (others : Batches G) : Prop where
  systems : others.systems = batches.systems
  flights : ∀ number, List.Forall₂ (fun entry other => R entry.1 other.1 ∧ entry.2 = other.2)
    (batches.flights number) (others.flights number)

section Related

variable {R : F → G → Prop} {batches after : Batches F} {others : Batches G} {number : ℕ}

/-- Launches that correspond in another way. -/
theorem Related.mono {S : F → G → Prop} (h : Related R batches others)
    (hmono : ∀ number, ∀ entry ∈ batches.flights number, ∀ other, R entry.1 other →
      S entry.1 other) : Related S batches others := by
  refine ⟨h.systems, fun number => ?_⟩
  have hmem := (List.forall₂_and_left _ _).mpr
    ⟨fun entry (hentry : entry ∈ batches.flights number) => hentry, h.flights number⟩
  exact hmem.imp fun entry other hboth =>
    ⟨hmono number entry hboth.1 other.1 hboth.2.1, hboth.2.2⟩

/-- The launches of one command buffer change. -/
theorem Related.update (h : Related R batches others) {flights : List (F × Bool)}
    {others' : List (G × Bool)}
    (hflights : List.Forall₂ (fun entry other => R entry.1 other.1 ∧ entry.2 = other.2)
      flights others') (other : ℕ) :
    List.Forall₂ (fun entry other => R entry.1 other.1 ∧ entry.2 = other.2)
      (Function.update batches.flights number flights other)
      (Function.update others.flights number others' other) := by
  by_cases heq : other = number
  · subst heq
    rw [Function.update_self, Function.update_self]
    exact hflights
  · rw [Function.update_of_ne heq, Function.update_of_ne heq]
    exact h.flights other

/-- A batch is created on both sides. -/
theorem Related.create (h : Related R batches others) {rt : Runtime}
    {commandBuffer encoder : Option ℕ}
    (hcreate : batches.create rt commandBuffer encoder = .ok (number, after)) :
    ∃ after', others.create rt commandBuffer encoder = .ok (number, after') ∧
      Related R after after' := by
  obtain ⟨world, hworld, hsame⟩ := bind_eq_ok_iff.mp hcreate
  cases hsame
  rw [Batches.create, hworld, h.systems]
  exact ⟨_, rfl, rfl, h.flights⟩

/-- The constructor throws on both. -/
theorem create_error {rt : Runtime} {commandBuffer encoder : Option ℕ} {failure : Failure}
    (hcreate : batches.create rt commandBuffer encoder = .error failure) :
    others.create rt commandBuffer encoder = .error failure := by
  rw [Batches.create] at hcreate ⊢
  cases hworld : CommandBatch.create rt commandBuffer encoder with
  | error other =>
    rw [hworld] at hcreate
    cases hcreate
    rfl
  | ok world =>
    rw [hworld] at hcreate
    cases hcreate

/-- A step of one batch is one on both. -/
theorem Related.perform (h : Related R batches others) {event : BatchEvent}
    {outcome : Except Failure Unit}
    (hperform : batches.perform number event = some (outcome, after)) :
    ∃ after', others.perform number event = some (outcome, after') ∧ Related R after after' := by
  obtain ⟨system, hlive, hrest⟩ := Option.bind_eq_some_iff.mp hperform
  obtain ⟨⟨sec, system'⟩, hstep, hsame⟩ := Option.bind_eq_some_iff.mp hrest
  cases hsame
  simp only [Batches.perform, h.systems, hlive, hstep, Option.bind_eq_bind, Option.bind_some]
  refine ⟨_, rfl, rfl, h.update ?_⟩
  unfold left
  split
  · exact .nil
  · exact h.flights number

/-- `add` encodes on both, or throws on both. -/
theorem Related.add (h : Related R batches others) {launch : Launch} {flight : F} {other : G}
    (hflight : R flight other) {outcome : Except Failure Unit}
    (hadd : batches.add number launch flight = some (outcome, after)) :
    ∃ after', others.add number launch other = some (outcome, after') ∧
      Related R after after' := by
  obtain ⟨⟨result, performed⟩, hperform, hrest⟩ := Option.bind_eq_some_iff.mp hadd
  obtain ⟨performed', hperform', hrelated⟩ := h.perform hperform
  simp only [Batches.add, hperform', Option.bind_eq_bind, Option.bind_some]
  cases result with
  | error failure =>
    cases hrest
    exact ⟨_, rfl, hrelated⟩
  | ok =>
    cases hrest
    exact ⟨_, rfl, hrelated.systems, hrelated.update
      (List.rel_append (hrelated.flights number) (.cons ⟨hflight, rfl⟩ .nil))⟩

/-- Launches that correspond let the same events happen. -/
theorem Related.allowed_iff (h : Related R batches others) (event : BatchEvent) :
    event.Allowed (others.flights number) ↔ event.Allowed (batches.flights number) := by
  cases event with
  | gpuFinish result =>
    have hran : (∀ entry ∈ others.flights number, entry.2 = true) ↔
        ∀ entry ∈ batches.flights number, entry.2 = true := by
      have hflights := h.flights number
      generalize batches.flights number = flights at hflights
      generalize others.flights number = flights' at hflights
      induction hflights with
      | nil => simp
      | cons hhead _ ih =>
        rw [List.forall_mem_cons, List.forall_mem_cons, hhead.2]
        exact and_congr_right fun _ => ih
    exact imp_congr_right fun _ => hran
  | _ => exact Iff.rfl

/-- A section or the end of a command buffer is one on both. -/
theorem Related.step (h : Related R batches others) {event : BatchEvent}
    {outcome : Except Failure Unit}
    (hstep : batches.step number event = some (outcome, after)) :
    ∃ after', others.step number event = some (outcome, after') ∧ Related R after after' := by
  obtain ⟨hallowed, hperform⟩ := Option.ite_none_right_eq_some.mp hstep
  rw [Batches.step, if_pos ((h.allowed_iff event).mpr hallowed)]
  exact h.perform hperform

/-- The GPU runs launches that correspond. -/
theorem Related.run (h : Related R batches others) {position : ℕ} {flight : F}
    (hrun : batches.run number position = some (flight, after)) :
    ∃ other after', others.run number position = some (other, after') ∧ R flight other ∧
      Related R after after' := by
  obtain ⟨system, hlive, hrest⟩ := Option.bind_eq_some_iff.mp hrun
  obtain ⟨⟨found, ran⟩, hfound, hrest⟩ := Option.bind_eq_some_iff.mp hrest
  obtain ⟨hready, hafter⟩ := Option.ite_none_right_eq_some.mp hrest
  cases hafter
  obtain ⟨⟨other, ran'⟩, hother, hsame, hran⟩ := forall₂_getElem? (h.flights number) hfound
  cases hran
  simp only [Batches.run, h.systems, hlive, hother, Option.bind_eq_bind, Option.bind_some]
  rw [if_pos hready]
  exact ⟨other, _, rfl, hsame, rfl, h.update
    (forall₂_set (h.flights number) position ⟨hsame, rfl⟩)⟩

/-- The destructor does the same on both. -/
theorem Related.drop (h : Related R batches others) (number : ℕ) :
    Related R (batches.drop number) (others.drop number) := by
  unfold Batches.drop
  rw [h.systems]
  split
  · exact h
  · exact ⟨rfl, h.update .nil⟩

end Related

end Batches

end MetalRuntime
