import MetalRuntime.BatchSchedules

/-!
# What the calls of `wait` report

Any number of threads may wait for one batch. Whatever they do, every call of `wait` that gets
to its last section reports the one result of the command buffer, a fault as often as it is
asked for, and the execution time is recorded once, by the first of them.
-/

namespace MetalRuntime

open Foundations

/-- What `wait` throws for the result of a command buffer. -/
def GpuResult.outcome (result : GpuResult) : Except Failure Unit :=
  match result.fault with
  | none => .ok ()
  | some fault =>
    .error (.dispatchError (ascii "kernel execution failed: " ++ describe fault))

/-- The execution time of a command buffer. -/
def GpuResult.duration (result : GpuResult) : Float := result.endTime - result.startTime

namespace Lifecycle

variable {world : BatchWorld} {commands : List EncoderCommand} {result : GpuResult}

/-- The fault check reports the result. -/
theorem exec_throwOnFault_fst (h : Lifecycle world .committed commands)
    (hgpu : world.gpu = some result) :
    (CommandBatch.throwOnFault.exec world).1 = result.outcome := by
  cases hfault : result.fault <;>
    simp [CommandBatch.throwOnFault, CommandBatch.exec_callCommandBuffer, h.commandBuffer_isSome,
      hgpu, GpuResult.outcome, hfault]

/-- The fault check changes neither the recorded time nor the result. -/
theorem exec_throwOnFault_snd (h : Lifecycle world .committed commands) :
    (CommandBatch.throwOnFault.exec world).2.batch.gpuTime = world.batch.gpuTime ∧
      (CommandBatch.throwOnFault.exec world).2.gpu = world.gpu := by
  obtain ⟨queries, outcome, -, -, hthrow⟩ := h.exec_throwOnFault
  rw [hthrow]
  exact ⟨rfl, rfl⟩

/-- The time of the result is recorded unless there is one already. -/
theorem exec_recordGpuTime_snd (h : Lifecycle world .committed commands)
    (hgpu : world.gpu = some result) :
    (CommandBatch.recordGpuTime.exec world).2.batch.gpuTime =
        some (world.batch.gpuTime.getD result.duration) ∧
      (CommandBatch.recordGpuTime.exec world).2.gpu = world.gpu := by
  cases hgpuTime : world.batch.gpuTime with
  | none =>
    simp [CommandBatch.recordGpuTime, CommandBatch.readGpuTime, hgpuTime,
      CommandBatch.exec_callCommandBuffer, h.commandBuffer_isSome, hgpu, GpuResult.duration]
  | some time => simp [CommandBatch.recordGpuTime, hgpuTime]

/-- The last section of `wait` reports the result and records its time. -/
theorem exec_waitFinish_of_result (h : Lifecycle world .committed commands)
    (hgpu : world.gpu = some result) :
    (CommandBatch.waitFinish.exec world).1 = result.outcome ∧
      (CommandBatch.waitFinish.exec world).2.batch.gpuTime =
        some (world.batch.gpuTime.getD result.duration) ∧
      (CommandBatch.waitFinish.exec world).2.gpu = some result := by
  obtain ⟨queries, time, hqueries, hrecord⟩ := h.exec_recordGpuTime
  have hrecorded := h.exec_recordGpuTime_snd hgpu
  have hlater := (h.query hqueries).timed time
  rw [hrecord, hgpu] at hrecorded
  obtain ⟨htime, hsame⟩ := hlater.exec_throwOnFault_snd
  rw [CommandBatch.waitFinish, Method.exec_bind, hrecord, Method.andThen_ok]
  exact ⟨hlater.exec_throwOnFault_fst hrecorded.2, htime.trans hrecorded.1,
    hsame.trans hrecorded.2⟩

end Lifecycle

/-- A step that is neither of the later parts of `wait` leaves the recorded time alone. -/
theorem StepCase.gpuTime_eq {rt : Runtime} {world world' : BatchWorld} {phase : Phase}
    {event : BatchEvent} {sec : Section} (hcase : StepCase rt world phase event sec world')
    (hblock : ∀ call, event ≠ .waitBlock call) (hfinish : ∀ call, event ≠ .waitFinish call) :
    world'.batch.gpuTime = world.batch.gpuTime := by
  cases hcase with
  | queried _ _ _ _ hevent =>
    rcases hevent with ⟨call, rfl⟩ | ⟨call, rfl⟩
    · exact absurd rfl (hblock call)
    · exact absurd rfl (hfinish call)
  | _ => rfl

namespace BatchSystem

variable {rt : Runtime} {s s' : BatchSystem} {event : BatchEvent} {sec : Section}

/-- A `wait` past its block has seen the GPU finish, and a recorded time is the time of the
result. -/
structure Timed (rt : Runtime) (s : BatchSystem) : Prop where
  sound : Sound rt s
  unblocked : ∀ call, s.waits call = .unblocked → s.world.gpu.isSome
  recorded : ∀ time, s.world.batch.gpuTime = some time →
    ∃ result, s.world.gpu = some result ∧ time = result.duration

/-- The block of `wait` returns, once the GPU has finished. -/
theorem step_waitBlock {call : ℕ} (h : Timed rt s)
    (hstep : s.step (.waitBlock call) = some (sec, s')) :
    s.world.gpu.isSome ∧ sec.outcome = .ok () ∧
      s'.world.batch.gpuTime = s.world.batch.gpuTime ∧ s'.world.gpu = s.world.gpu := by
  obtain ⟨phase, commands, hinv⟩ := h.sound
  obtain ⟨⟨hblocked, hready⟩, heq⟩ := Option.ite_none_right_eq_some.mp hstep
  cases hinv.waits call (Or.inl hblocked)
  have hgpu : s.world.gpu.isSome := by
    rcases hready with hnone | hgpu
    · have hsome := hinv.lifecycle.commandBuffer_isSome
      rw [hnone] at hsome
      cases hsome
    · exact hgpu
  rw [perform_eq hinv.lifecycle.exec_waitUntilCompleted rfl] at heq
  cases heq
  exact ⟨hgpu, rfl, rfl, rfl⟩

/-- The last section of `wait` reports the result and sees its time recorded. -/
theorem step_waitFinish {call : ℕ} (h : Timed rt s)
    (hstep : s.step (.waitFinish call) = some (sec, s')) :
    ∃ result, s.world.gpu = some result ∧ s'.world.gpu = some result ∧
      sec.outcome = result.outcome ∧ s'.world.batch.gpuTime = some result.duration := by
  obtain ⟨phase, commands, hinv⟩ := h.sound
  obtain ⟨hunblocked, heq⟩ := Option.ite_none_right_eq_some.mp hstep
  cases hinv.waits call (Or.inr hunblocked)
  obtain ⟨result, hresult⟩ := Option.isSome_iff_exists.mp (h.unblocked call hunblocked)
  obtain ⟨houtcome, htime, hgpu⟩ := hinv.lifecycle.exec_waitFinish_of_result hresult
  cases Option.some.inj heq
  refine ⟨result, hresult, hgpu, houtcome, htime.trans (congrArg some ?_)⟩
  cases hrecorded : s.world.batch.gpuTime with
  | none => rfl
  | some time =>
    obtain ⟨other, hother, rfl⟩ := h.recorded time hrecorded
    cases hresult.symm.trans hother
    rfl

/-- A result of the GPU stays. -/
theorem step_gpu (h : Timed rt s) (hstep : s.step event = some (sec, s')) {result : GpuResult}
    (hgpu : s.world.gpu = some result) : s'.world.gpu = some result := by
  obtain ⟨phase, commands, hinv⟩ := h.sound
  have hcase := step_cases hinv hstep
  by_cases hfinish : ∃ other, event = .gpuFinish other
  · obtain ⟨other, rfl⟩ := hfinish
    obtain ⟨⟨-, hnone⟩, -⟩ := Option.ite_none_right_eq_some.mp hstep
    rw [hgpu] at hnone
    cases hnone
  · rw [hcase.gpu_eq fun other hother => hfinish ⟨other, hother⟩]
    exact hgpu

/-- The recorded time changes only in the last section of a `wait`. -/
theorem step_gpuTime (h : Timed rt s) (hstep : s.step event = some (sec, s'))
    (hfinish : ∀ call, event ≠ .waitFinish call) :
    s'.world.batch.gpuTime = s.world.batch.gpuTime := by
  by_cases hblock : ∃ call, event = .waitBlock call
  · obtain ⟨call, rfl⟩ := hblock
    exact (step_waitBlock h hstep).2.2.1
  · obtain ⟨phase, commands, hinv⟩ := h.sound
    exact (step_cases hinv hstep).gpuTime_eq (fun call hcall => hblock ⟨call, hcall⟩) hfinish

/-- Only the block of a `wait` moves it past the block. -/
theorem step_unblocked (hstep : s.step event = some (sec, s')) {call : ℕ}
    (hcall : s'.waits call = .unblocked) :
    s.waits call = .unblocked ∨ event = .waitBlock call := by
  have hmoved : ∀ {other : ℕ} {next : WaitPhase} {result : Section × BatchSystem},
      result.2.waits = s.waits → (advance other next result) = (sec, s') →
      next ≠ .unblocked → s.waits call = .unblocked := by
    intro other next result hsame heq hnext
    cases heq
    by_cases hother : call = other
    · subst hother
      simp only [Function.update_self] at hcall
      split at hcall
      · exact absurd hcall hnext
      · cases hcall
    · simpa only [Function.update_of_ne hother, hsame] using hcall
  cases event with
  | waitBlock other =>
    by_cases hother : call = other
    · exact Or.inr (congrArg BatchEvent.waitBlock hother.symm)
    · obtain ⟨-, heq⟩ := Option.ite_none_right_eq_some.mp hstep
      cases Option.some.inj heq
      simp only [Function.update_of_ne hother] at hcall
      exact Or.inl hcall
  | waitCommit other =>
    obtain ⟨-, heq⟩ := Option.ite_none_right_eq_some.mp hstep
    exact Or.inl (hmoved rfl (Option.some.inj heq) (by decide))
  | waitFinish other =>
    obtain ⟨-, heq⟩ := Option.ite_none_right_eq_some.mp hstep
    exact Or.inl (hmoved rfl (Option.some.inj heq) (by decide))
  | gpuFinish result =>
    obtain ⟨-, heq⟩ := Option.ite_none_right_eq_some.mp hstep
    cases Option.some.inj heq
    exact Or.inl hcall
  | _ =>
    cases Option.some.inj hstep
    exact Or.inl hcall

/-- Each step keeps the invariant. -/
theorem step_timed (h : Timed rt s) (hstep : s.step event = some (sec, s')) : Timed rt s' := by
  have hkeep : ∀ {result : GpuResult}, s.world.gpu = some result →
      s'.world.gpu = some result := step_gpu h hstep
  refine ⟨step_sound h.sound hstep, ?_, ?_⟩
  · intro call hcall
    have hsome : s.world.gpu.isSome := by
      rcases step_unblocked hstep hcall with hbefore | rfl
      · exact h.unblocked call hbefore
      · exact (step_waitBlock h hstep).1
    obtain ⟨result, hresult⟩ := Option.isSome_iff_exists.mp hsome
    exact Option.isSome_of_eq_some (hkeep hresult)
  · intro time htime
    by_cases hfinish : ∃ call, event = .waitFinish call
    · obtain ⟨call, rfl⟩ := hfinish
      obtain ⟨result, -, hgpu, -, hrecorded⟩ := step_waitFinish h hstep
      exact ⟨result, hgpu, Option.some.inj (htime.symm.trans hrecorded)⟩
    · rw [step_gpuTime h hstep fun call hcall => hfinish ⟨call, hcall⟩] at htime
      obtain ⟨result, hgpu, heq⟩ := h.recorded time htime
      exact ⟨result, hkeep hgpu, heq⟩

/-- What the later parts of `wait` have shown by the time of a state. -/
def Reported (s : BatchSystem) (event : BatchEvent) (sec : Section) : Prop :=
  match event with
  | .waitBlock _ => sec.outcome = .ok ()
  | .waitFinish _ => ∃ result, s.world.gpu = some result ∧ sec.outcome = result.outcome ∧
      s.world.batch.gpuTime = some result.duration
  | _ => True

/-- A step shows what it reports. -/
theorem step_reported (h : Timed rt s) (hstep : s.step event = some (sec, s')) :
    s'.Reported event sec := by
  cases event with
  | waitBlock call => exact (step_waitBlock h hstep).2.1
  | waitFinish call =>
    obtain ⟨result, -, hgpu, houtcome, htime⟩ := step_waitFinish h hstep
    exact ⟨result, hgpu, houtcome, htime⟩
  | _ => trivial

/-- What was reported stays true. -/
theorem reported_of_step (h : Timed rt s) {earlier : BatchEvent} {shown : Section}
    (hreported : s.Reported earlier shown) (hstep : s.step event = some (sec, s')) :
    s'.Reported earlier shown := by
  cases earlier with
  | waitBlock call => exact hreported
  | waitFinish call =>
    obtain ⟨result, hgpu, houtcome, htime⟩ := hreported
    have hlater := step_gpu h hstep hgpu
    refine ⟨result, hlater, houtcome, ?_⟩
    by_cases hfinish : ∃ other, event = .waitFinish other
    · obtain ⟨other, rfl⟩ := hfinish
      obtain ⟨same, -, hsame, -, hrecorded⟩ := step_waitFinish h hstep
      cases hlater.symm.trans hsame
      exact hrecorded
    · rw [step_gpuTime h hstep fun other hother => hfinish ⟨other, hother⟩]
      exact htime
  | _ => trivial

/-- A batch just constructed satisfies the invariant. -/
theorem initial_timed {commandBuffer encoder : Option ℕ} {world : BatchWorld}
    (hcreate : CommandBatch.create rt commandBuffer encoder = .ok world) :
    Timed rt (initial world) where
  sound := ⟨_, _, initial_invariant hcreate⟩
  unblocked := fun _ hcall => by cases hcall
  recorded := by
    intro time htime
    simp only [CommandBatch.create, check_bind_eq_ok, rejectIf_eq_ok, Except.ok.injEq] at hcreate
    obtain ⟨-, -, rfl⟩ := hcreate
    cases htime

end BatchSystem

/-- Over every interleaving of calls on a batch: the block of a `wait` never throws, every last
section of a `wait` reports the one result of the command buffer, throwing exactly if it faulted,
and the recorded time is that of the result once such a section has ended, and none before. -/
theorem waits_report_result {rt : Runtime} {commandBuffer encoder : Option ℕ}
    {world : BatchWorld} {events : List BatchEvent} {sections : List Section} {s : BatchSystem}
    (hcreate : CommandBatch.create rt commandBuffer encoder = .ok world)
    (hrun : runSchedule BatchSystem.step (BatchSystem.initial world) events =
      some (sections, s)) :
    List.Forall₂ s.Reported events sections ∧
    ((∀ call, .waitFinish call ∉ events) → s.world.batch.gpuTime = none) := by
  have hinitial := BatchSystem.initial_timed hcreate
  refine ⟨?_, ?_⟩
  · refine runSchedule_settled (BatchSystem.Timed rt) BatchSystem.Reported ?_ ?_ hinitial hrun
    · intro s event sec s' h hstep
      exact ⟨BatchSystem.step_reported h hstep, BatchSystem.step_timed h hstep⟩
    · intro s event sec s' earlier shown h hreported hstep
      exact BatchSystem.reported_of_step h hreported hstep
  · intro hnone
    have hstart : (BatchSystem.initial world).world.batch.gpuTime = none := by
      cases htime : (BatchSystem.initial world).world.batch.gpuTime with
      | none => rfl
      | some time =>
        obtain ⟨result, hgpu, -⟩ := hinitial.recorded time htime
        rw [(BatchSystem.initial_invariant hcreate).lifecycle.gpu (by decide)] at hgpu
        cases hgpu
    refine (runSchedule_frame (BatchSystem.Timed rt) (fun s => s.world.batch.gpuTime) ?_ hinitial
      hrun).trans hstart
    intro event hevent s sec s' h hstep
    refine ⟨BatchSystem.step_gpuTime h hstep fun call hcall => ?_, BatchSystem.step_timed h hstep⟩
    exact hnone call (hcall ▸ hevent)

/-- Two waits on a batch that faults both throw. -/
def faultEvents : List BatchEvent :=
  [.add addOneLaunch, .waitCommit 0, .waitCommit 1, .gpuFinish ⟨1, 3, some none⟩,
    .waitBlock 0, .waitBlock 1, .waitFinish 0, .waitFinish 1]

/-- The second one reports the fault as the first one does. -/
theorem both_waits_report_fault : ∃ sections s sec,
    runSchedule BatchSystem.step (BatchSystem.initial appleBatch) faultEvents =
      some (sections, s) ∧
    sections[7]? = some sec ∧ sec.outcome = .error (.dispatchError
      (ascii "kernel execution failed: unknown error")) ∧
    ∃ result, s.world.gpu = some result ∧ s.world.batch.gpuTime = some result.duration := by
  have hrun : runSchedule BatchSystem.step (BatchSystem.initial appleBatch) faultEvents =
    some (_, _) := rfl
  obtain ⟨hreported, -⟩ := waits_report_result create_appleBatch hrun
  have hlast := hreported.get (i := 7) (by decide) (by decide)
  obtain ⟨result, hgpu, -, htime⟩ := hlast
  exact ⟨_, _, _, hrun, rfl, rfl, result, hgpu, htime⟩

end MetalRuntime
