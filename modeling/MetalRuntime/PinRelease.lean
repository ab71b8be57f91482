import MetalRuntime.PinnedObjects

/-!
# When the pins are dropped

Only a `wait` that returns drops the pins of a batch. A batch that was discarded, or whose
command buffer faulted, keeps the kernel and the buffers of its launches for as long as the
batch object itself lives, although nothing will execute them any more.
-/

namespace MetalRuntime

open Foundations

namespace PyBatch

/-- A call has ended after which the command buffer can execute nothing: a `discard` on a batch
that is discarded, or a `wait` that has seen the command buffer finish. -/
def Over (s : PyBatch) : Prop :=
  ∃ call outcome, (s.calls call = .ended (some .discard) outcome ∧
    s.world.batch.discarded = true) ∨ s.calls call = .ended (some .waitFinish) outcome

/-- No `add` is in progress. -/
def Idle (s : PyBatch) : Prop := ∀ call, (s.calls call).isAdd = false

variable {rt : Runtime} {s : PyBatch}

/-- The GPU never runs a discarded batch. -/
theorem gpu_of_discarded (h : Invariant rt s) (hdiscarded : s.world.batch.discarded = true) :
    s.world.gpu = none := by
  obtain ⟨phase, commands, hinv⟩ := h.sound
  have hphase := hinv.discarded_iff.mp hdiscarded
  exact hinv.lifecycle.gpu (by rw [hphase]; decide)

/-- While no `add` is in progress, the kernel of a launch is pinned until the GPU has finished
without a fault. -/
theorem kernel_pinned (h : Invariant rt s) (hidle : s.Idle)
    (hrunning : ¬ Succeeded s.world.gpu) {launch : EncodedLaunch} (hlaunch : launch ∈ s.encoded) :
    launch.adding.params.kernel.object ∈ s.keepalive := by
  rcases holds_of_invariant h hrunning hlaunch List.mem_cons_self with hpinned | ⟨hadd, -⟩
  · exact hpinned
  · rw [hidle launch.call] at hadd
    cases hadd

/-- A batch that is over, with no fault and not discarded, has been released. -/
theorem released_of_over (h : Invariant rt s) (hover : s.Over)
    (hdiscarded : s.world.batch.discarded = false)
    (hfault : s.world.gpu.bind GpuResult.fault = none) :
    ∃ call, (s.calls call).hasReleased = true := by
  obtain ⟨call, outcome, ⟨-, hdropped⟩ | hended⟩ := hover
  · rw [hdropped] at hdiscarded
    cases hdiscarded
  · have hseen := h.seen call
    rw [hended] at hseen
    have hreturned := hseen.2.mpr hfault
    refine ⟨call, ?_⟩
    rw [hended, hreturned]
    rfl

/-- Once a batch is over and no `add` is in progress, nothing is pinned exactly when no launch
was encoded, or the batch was not discarded and its command buffer did not fault. -/
theorem keepalive_eq_nil_iff (h : Invariant rt s) (hover : s.Over) (hidle : s.Idle) :
    s.keepalive = [] ↔ s.encoded = [] ∨
      (s.world.batch.discarded = false ∧ s.world.gpu.bind GpuResult.fault = none) := by
  constructor
  · intro hempty
    by_contra hkept
    obtain ⟨hencoded, hended⟩ := not_or.mp hkept
    have hrunning : ¬ Succeeded s.world.gpu := by
      intro hsucceeded
      refine hended ⟨?_, hsucceeded.2⟩
      by_contra hdiscarded
      have hgpu := gpu_of_discarded h (Bool.eq_true_of_not_eq_false hdiscarded)
      rw [hgpu] at hsucceeded
      cases hsucceeded.1
    obtain ⟨launch, hlaunch⟩ := List.exists_mem_of_ne_nil _ hencoded
    have hpinned := kernel_pinned h hidle hrunning hlaunch
    rw [hempty] at hpinned
    exact absurd hpinned List.not_mem_nil
  · intro hcase
    refine (h.empty (hcase.imp id fun hended => ?_)).1
    exact released_of_over h hover hended.1 hended.2

end PyBatch

/-- Over every interleaving of calls, in every state reached in which the command buffer can
execute nothing more and no `add` is in progress: the batch holds no object exactly when no
launch was encoded, or the batch was not discarded and its command buffer did not fault. -/
theorem pins_released_iff {rt : Runtime} {commandBuffer encoder : Option ℕ} {world : BatchWorld}
    (hcreate : CommandBatch.create rt commandBuffer encoder = .ok world)
    {events : List PyBatchEvent} {steps : List PyBatchStep} {s : PyBatch}
    (hrun : runSchedule PyBatch.step (.initial world) events = some (steps, s))
    (hover : s.Over) (hidle : s.Idle) :
    s.keepalive = [] ↔ s.encoded = [] ∨
      (s.world.batch.discarded = false ∧ s.world.gpu.bind GpuResult.fault = none) :=
  PyBatch.keepalive_eq_nil_iff (PyBatch.run_invariant hcreate hrun) hover hidle

/-- One thread adds a launch and pins both of its objects. -/
def addedEvents : List PyBatchEvent := .start 0 (.add addOneParams) :: List.replicate 7 (.proceed 0)

/-- Then another waits for the GPU, which finishes without a fault. -/
def waitedEvents : List PyBatchEvent :=
  addedEvents ++ .start 1 .wait :: List.replicate 3 (.proceed 1) ++
    .gpuFinish ⟨0, 1, none⟩ :: List.replicate 7 (.proceed 1)

/-- The wait has dropped both pins. -/
theorem waited_batch_released : ∃ steps s,
    runSchedule PyBatch.step (.initial appleBatch) waitedEvents = some (steps, s) ∧
    s.Over ∧ s.encoded ≠ [] ∧ s.keepalive = [] := by
  have hrun : runSchedule PyBatch.step (.initial appleBatch) waitedEvents = some (_, _) := rfl
  refine ⟨_, _, hrun, ⟨1, .ok (), Or.inr rfl⟩, List.cons_ne_nil _ _, ?_⟩
  refine (pins_released_iff create_appleBatch hrun ⟨1, .ok (), Or.inr rfl⟩ ?_).mpr
    (Or.inr ⟨rfl, rfl⟩)
  intro call
  match call with
  | 0 => rfl
  | 1 => rfl
  | _ + 2 => rfl

/-- Or the batch is discarded instead. -/
def discardedEvents : List PyBatchEvent :=
  addedEvents ++ .start 1 .discard :: List.replicate 3 (.proceed 1)

/-- A discarded batch goes on holding the kernel and the buffer. -/
theorem discarded_batch_keeps_pins : ¬ ∀ rt commandBuffer encoder world events steps s,
    CommandBatch.create rt commandBuffer encoder = .ok world →
    runSchedule PyBatch.step (.initial world) events = some (steps, s) →
    s.Over → s.Idle → s.keepalive = [] := by
  intro hall
  have hrun : runSchedule PyBatch.step (.initial appleBatch) discardedEvents = some (_, _) := rfl
  have hempty := hall _ _ _ _ _ _ _ create_appleBatch hrun ⟨1, .ok (), Or.inl ⟨rfl, rfl⟩⟩ (by
    intro call
    match call with
    | 0 => rfl
    | 1 => rfl
    | _ + 2 => rfl)
  cases hempty

end MetalRuntime
