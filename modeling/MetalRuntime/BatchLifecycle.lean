import MetalRuntime.BatchEncoding

/-!
# The three phases of a batch

A batch is open, committed or discarded. The phase fixes both flags, both handles and the
shape of the calls made so far. One lemma for each method says what the method does in
each phase; every property of a batch in use is derived from these lemmas.
-/

namespace MetalRuntime

open Foundations

/-- The phases of a batch's life. -/
inductive Phase
  | opened
  | committed
  | discarded
  deriving DecidableEq

/-- A call that waits for a command buffer or reads its results. -/
def MetalCall.isQuery : MetalCall → Bool
  | .waitUntilCompleted | .gpuStartTime | .gpuEndTime | .status | .error => true
  | _ => false

/-- The calls made on the Metal objects of a batch into which `commands` were encoded. -/
def CallsInPhase (commands : List EncoderCommand) (calls : List MetalCall) : Phase → Prop
  | .opened => calls = commands.map .encode
  | .committed => ∃ queries : List MetalCall, (∀ call ∈ queries, call.isQuery) ∧
      calls = commands.map .encode ++ .endEncoding :: .commit :: queries
  | .discarded => calls = commands.map .encode ++ [.endEncoding]

/-- The invariant of a batch: flags, handles and calls agree with its phase. -/
structure Lifecycle (world : BatchWorld) (phase : Phase) (commands : List EncoderCommand) :
    Prop where
  committed : world.batch.committed = decide (phase = .committed)
  discarded : world.batch.discarded = decide (phase = .discarded)
  encoder : world.batch.encoder.isSome = decide (phase ≠ .discarded)
  commandBuffer : world.batch.commandBuffer.isSome = decide (phase ≠ .discarded)
  calls : CallsInPhase commands world.calls phase
  gpu : phase ≠ .committed → world.gpu = none

/-- A batch just constructed is open and has encoded nothing. -/
theorem CommandBatch.create_lifecycle {rt : Runtime} {commandBuffer encoder : Option ℕ}
    {world : BatchWorld} (h : CommandBatch.create rt commandBuffer encoder = .ok world) :
    Lifecycle world .opened [] ∧ world.batch.nonUniform = rt.supportsNonUniformThreadgroups ∧
      world.batch.maxThreadgroupMemory = rt.maxThreadgroupMemoryLength := by
  simp only [create, check_bind_eq_ok, rejectIf_eq_ok, Except.ok.injEq] at h
  obtain ⟨hcommandBuffer, hencoder, rfl⟩ := h
  refine ⟨⟨rfl, rfl, ?_, ?_, rfl, fun _ => rfl⟩, rfl, rfl⟩
  · simpa using Option.ne_none_iff_isSome.mp hencoder
  · simpa using Option.ne_none_iff_isSome.mp hcommandBuffer

namespace Lifecycle

variable {world : BatchWorld} {phase : Phase} {commands : List EncoderCommand}

/-- The encoder is there while the batch is open. -/
theorem encoder_isSome (h : Lifecycle world .opened commands) :
    world.batch.encoder.isSome := by
  simpa using h.encoder

/-- The command buffer is there once the batch is committed. -/
theorem commandBuffer_isSome (h : Lifecycle world .committed commands) :
    world.batch.commandBuffer.isSome := by
  simpa using h.commandBuffer

/-- Encoding on an open batch extends its commands. -/
theorem encode (h : Lifecycle world .opened commands) (more : List EncoderCommand) :
    Lifecycle (world.after (more.map .encode)) .opened (commands ++ more) where
  committed := h.committed
  discarded := h.discarded
  encoder := h.encoder
  commandBuffer := h.commandBuffer
  calls := by
    have hcalls : world.calls = commands.map .encode := h.calls
    change world.calls ++ more.map .encode = (commands ++ more).map .encode
    rw [hcalls, List.map_append]
  gpu := h.gpu

/-- Queries on a committed batch leave it committed. -/
theorem query (h : Lifecycle world .committed commands) {queries : List MetalCall}
    (hqueries : ∀ call ∈ queries, call.isQuery) :
    Lifecycle (world.after queries) .committed commands where
  committed := h.committed
  discarded := h.discarded
  encoder := h.encoder
  commandBuffer := h.commandBuffer
  calls := by
    obtain ⟨before, hbefore, hcalls⟩ := h.calls
    refine ⟨before ++ queries, ?_, ?_⟩
    · intro call hcall
      exact (List.mem_append.mp hcall).elim (hbefore call) (hqueries call)
    · rw [BatchWorld.after_calls, hcalls]
      simp
  gpu := fun hphase => absurd rfl hphase

/-- The open guard passes on an open batch. -/
theorem exec_checkOpen (h : Lifecycle world .opened commands) (what : ByteString) :
    (CommandBatch.checkOpen what).exec world = (.ok (), world) := by
  have hcommitted : world.batch.committed = false := by simpa using h.committed
  have hdiscarded : world.batch.discarded = false := by simpa using h.discarded
  simp [CommandBatch.checkOpen, hcommitted, hdiscarded]

/-- The open guard throws `DispatchError` on a batch that is no longer open. -/
theorem exec_checkOpen_of_closed (h : Lifecycle world phase commands)
    (hphase : phase ≠ .opened) (what : ByteString) :
    ∃ message, (CommandBatch.checkOpen what).exec world =
      (.error (.dispatchError message), world) := by
  refine ⟨what ++ (if world.batch.committed then ascii "committed" else ascii "discarded"), ?_⟩
  have hclosed : world.batch.committed ∨ world.batch.discarded := by
    rw [h.committed, h.discarded]
    cases phase with
    | opened => exact absurd rfl hphase
    | committed => exact Or.inl rfl
    | discarded => exact Or.inr rfl
  simp [CommandBatch.checkOpen, hclosed]

/-- `add` of an accepted launch to an open batch encodes it whole. -/
theorem exec_add (h : Lifecycle world .opened commands) {launch : Launch}
    (hvalid : validate launch world.batch.nonUniform world.batch.maxThreadgroupMemory = .ok ()) :
    ∃ pipeline, launch.pipeline = some pipeline ∧
      (CommandBatch.add launch).exec world = (.ok (), world.after
        ((launchCommands launch pipeline world.batch.nonUniform).map .encode)) := by
  obtain ⟨pipeline, hpipeline, -⟩ := (validate_eq_ok_checks _ _ _).mp hvalid
  refine ⟨pipeline, hpipeline, ?_⟩
  rw [CommandBatch.add, Method.exec_bind, h.exec_checkOpen, Method.andThen_ok, Method.exec_bind,
    Method.exec_get, Method.andThen_ok, Method.exec_bind, Method.exec_ofExcept, hvalid,
    Method.andThen_ok, CommandBatch.exec_encode h.encoder_isSome hpipeline
      (CommandBatch.rounds_of_validate hvalid)]

/-- `add` of a rejected launch to an open batch throws validation's error and calls nothing. -/
theorem exec_add_of_rejected (h : Lifecycle world .opened commands) {launch : Launch}
    {failure : Failure}
    (hreject : validate launch world.batch.nonUniform world.batch.maxThreadgroupMemory =
      .error failure) :
    (CommandBatch.add launch).exec world = (.error failure, world) := by
  rw [CommandBatch.add, Method.exec_bind, h.exec_checkOpen, Method.andThen_ok, Method.exec_bind,
    Method.exec_get, Method.andThen_ok, Method.exec_bind, Method.exec_ofExcept, hreject,
    Method.andThen_error]

/-- `add` to a batch that is no longer open throws `DispatchError` and calls nothing. -/
theorem exec_add_of_closed (h : Lifecycle world phase commands) (hphase : phase ≠ .opened)
    (launch : Launch) :
    ∃ message, (CommandBatch.add launch).exec world =
      (.error (.dispatchError message), world) := by
  obtain ⟨message, hguard⟩ := h.exec_checkOpen_of_closed hphase
    (ascii "cannot add to a batch that has already been ")
  refine ⟨message, ?_⟩
  rw [CommandBatch.add, Method.exec_bind, hguard, Method.andThen_error]

/-- `barrier` on an open batch makes its one call. -/
theorem exec_barrier (h : Lifecycle world .opened commands) :
    CommandBatch.barrier.exec world = (.ok (), world.after [.encode .memoryBarrier]) := by
  rw [CommandBatch.barrier, Method.exec_bind, h.exec_checkOpen, Method.andThen_ok,
    CommandBatch.exec_callEncoder h.encoder_isSome]

/-- `barrier` on a batch that is no longer open throws `DispatchError` and calls nothing. -/
theorem exec_barrier_of_closed (h : Lifecycle world phase commands) (hphase : phase ≠ .opened) :
    ∃ message, CommandBatch.barrier.exec world =
      (.error (.dispatchError message), world) := by
  obtain ⟨message, hguard⟩ := h.exec_checkOpen_of_closed hphase
    (ascii "cannot add a barrier to a batch that has already been ")
  refine ⟨message, ?_⟩
  rw [CommandBatch.barrier, Method.exec_bind, hguard, Method.andThen_error]

/-- The world that `commit_locked` makes of an open batch. -/
def committedWorld (world : BatchWorld) : BatchWorld :=
  { world with
    batch := { world.batch with committed := true }
    calls := world.calls ++ [.endEncoding, .commit] }

/-- `commit_locked` on an open batch ends the encoding and commits. -/
theorem exec_commitLocked (h : Lifecycle world .opened commands) :
    CommandBatch.commitLocked.exec world = (.ok (), committedWorld world) := by
  have hdiscarded : world.batch.discarded = false := by simpa using h.discarded
  have hcommitted : world.batch.committed = false := by simpa using h.committed
  have hcommandBuffer : world.batch.commandBuffer.isSome := by simpa using h.commandBuffer
  simp [CommandBatch.commitLocked, hdiscarded, hcommitted, CommandBatch.exec_callEncoder,
    CommandBatch.exec_callCommandBuffer, h.encoder_isSome, hcommandBuffer, committedWorld,
    BatchWorld.after]

/-- A batch that `commit_locked` has just committed. -/
theorem commit (h : Lifecycle world .opened commands) :
    Lifecycle (committedWorld world) .committed commands where
  committed := rfl
  discarded := h.discarded
  encoder := h.encoder
  commandBuffer := h.commandBuffer
  calls := by
    refine ⟨[], fun call hcall => absurd hcall List.not_mem_nil, ?_⟩
    have hcalls : world.calls = commands.map .encode := h.calls
    rw [committedWorld, hcalls]
  gpu := fun hphase => absurd rfl hphase

/-- `commit_locked` on a committed batch does nothing. -/
theorem exec_commitLocked_of_committed (h : Lifecycle world .committed commands) :
    CommandBatch.commitLocked.exec world = (.ok (), world) := by
  have hdiscarded : world.batch.discarded = false := by simpa using h.discarded
  have hcommitted : world.batch.committed = true := by simpa using h.committed
  simp [CommandBatch.commitLocked, hdiscarded, hcommitted]

/-- `commit_locked` on a discarded batch throws `DispatchError` and calls nothing. -/
theorem exec_commitLocked_of_discarded (h : Lifecycle world .discarded commands) :
    CommandBatch.commitLocked.exec world = (.error (.dispatchError
      (ascii "this batch was discarded without being committed")), world) := by
  have hdiscarded : world.batch.discarded = true := by simpa using h.discarded
  simp [CommandBatch.commitLocked, hdiscarded]

/-- The unlocked block of `wait` on a committed batch makes its one call. -/
theorem exec_waitUntilCompleted (h : Lifecycle world .committed commands) :
    CommandBatch.waitUntilCompleted.exec world = (.ok (), world.after [.waitUntilCompleted]) :=
  CommandBatch.exec_callCommandBuffer h.commandBuffer_isSome _

/-- The world with a recorded GPU time. -/
def timedWorld (world : BatchWorld) (time : Option Float) : BatchWorld :=
  { world with batch := { world.batch with gpuTime := time } }

/-- Recording the GPU time does not change the phase. -/
theorem timed (h : Lifecycle world phase commands) (time : Option Float) :
    Lifecycle (timedWorld world time) phase commands :=
  ⟨h.committed, h.discarded, h.encoder, h.commandBuffer, h.calls, h.gpu⟩

/-- Recording the time of a committed batch only queries its command buffer. -/
theorem exec_recordGpuTime (h : Lifecycle world .committed commands) :
    ∃ queries time, (∀ call ∈ queries, call.isQuery) ∧ CommandBatch.recordGpuTime.exec world =
      (.ok (), timedWorld (world.after queries) time) := by
  cases hgpuTime : world.batch.gpuTime with
  | none =>
    refine ⟨[.gpuEndTime, .gpuStartTime],
      some (world.gpu.elim 0 fun gpu => gpu.endTime - gpu.startTime), by decide, ?_⟩
    simp [CommandBatch.recordGpuTime, CommandBatch.readGpuTime, hgpuTime,
      CommandBatch.exec_callCommandBuffer, h.commandBuffer_isSome, timedWorld]
  | some time =>
    refine ⟨[], world.batch.gpuTime, fun call hcall => absurd hcall List.not_mem_nil, ?_⟩
    rw [BatchWorld.after_nil]
    change _ = (Except.ok (), world)
    simp [CommandBatch.recordGpuTime, hgpuTime]

/-- The fault check of a committed batch only queries its command buffer, and throws nothing
but `DispatchError`. -/
theorem exec_throwOnFault (h : Lifecycle world .committed commands) :
    ∃ queries outcome, (∀ call ∈ queries, call.isQuery) ∧
      (outcome = .ok () ∨ ∃ message, outcome = .error (.dispatchError message)) ∧
      CommandBatch.throwOnFault.exec world = (outcome, world.after queries) := by
  cases hfault : world.gpu.bind GpuResult.fault with
  | none =>
    refine ⟨[.status], .ok (), by decide, Or.inl rfl, ?_⟩
    simp [CommandBatch.throwOnFault, CommandBatch.exec_callCommandBuffer, h.commandBuffer_isSome,
      hfault]
  | some fault =>
    refine ⟨[.status, .error], .error (.dispatchError
      (ascii "kernel execution failed: " ++ describe fault)), by decide, Or.inr ⟨_, rfl⟩, ?_⟩
    simp [CommandBatch.throwOnFault, CommandBatch.exec_callCommandBuffer, h.commandBuffer_isSome,
      hfault]

/-- The last section of `wait` on a committed batch only queries the command buffer; it
throws nothing but `DispatchError`. -/
theorem exec_waitFinish (h : Lifecycle world .committed commands) :
    ∃ queries time outcome, (∀ call ∈ queries, call.isQuery) ∧
      (outcome = .ok () ∨ ∃ message, outcome = .error (.dispatchError message)) ∧
      CommandBatch.waitFinish.exec world =
        (outcome, timedWorld (world.after queries) time) := by
  obtain ⟨first, time, hfirst, hrecord⟩ := h.exec_recordGpuTime
  obtain ⟨second, outcome, hsecond, houtcome, hthrow⟩ :=
    ((h.query hfirst).timed time).exec_throwOnFault
  refine ⟨first ++ second, time, outcome, ?_, houtcome, ?_⟩
  · intro call hcall
    exact (List.mem_append.mp hcall).elim (hfirst call) (hsecond call)
  · rw [CommandBatch.waitFinish, Method.exec_bind, hrecord, Method.andThen_ok, hthrow]
    simp [timedWorld, BatchWorld.after]

/-- The fault check of a committed batch returns exactly when there is no fault. -/
theorem throwOnFault_returns_iff (h : Lifecycle world .committed commands) :
    (CommandBatch.throwOnFault.exec world).1 = .ok () ↔ world.gpu.bind GpuResult.fault = none := by
  cases hfault : world.gpu.bind GpuResult.fault <;>
    simp [CommandBatch.throwOnFault, CommandBatch.exec_callCommandBuffer, h.commandBuffer_isSome,
      hfault]

/-- The last section of `wait` on a committed batch returns exactly when there is no fault. -/
theorem waitFinish_returns_iff (h : Lifecycle world .committed commands) :
    (CommandBatch.waitFinish.exec world).1 = .ok () ↔ world.gpu.bind GpuResult.fault = none := by
  obtain ⟨queries, time, hqueries, hrecord⟩ := h.exec_recordGpuTime
  rw [CommandBatch.waitFinish, Method.exec_bind, hrecord, Method.andThen_ok]
  exact ((h.query hqueries).timed time).throwOnFault_returns_iff

/-- The world that `discard` makes of an open batch. -/
def discardedWorld (world : BatchWorld) : BatchWorld :=
  { world with
    batch := { world.batch with discarded := true, encoder := none, commandBuffer := none }
    calls := world.calls ++ [.endEncoding] }

/-- `discard` on an open batch ends the encoding and drops both handles. -/
theorem exec_discard (h : Lifecycle world .opened commands) :
    CommandBatch.discard.exec world = (.ok (), discardedWorld world) := by
  have hdiscarded : world.batch.discarded = false := by simpa using h.discarded
  have hcommitted : world.batch.committed = false := by simpa using h.committed
  simp [CommandBatch.discard, hdiscarded, hcommitted, CommandBatch.exec_callEncoder,
    h.encoder_isSome, discardedWorld, BatchWorld.after]

/-- A batch that `discard` has just dropped. -/
theorem discard (h : Lifecycle world .opened commands) :
    Lifecycle (discardedWorld world) .discarded commands where
  committed := h.committed
  discarded := rfl
  encoder := rfl
  commandBuffer := rfl
  calls := by
    have hcalls : world.calls = commands.map .encode := h.calls
    change world.calls ++ [.endEncoding] = _
    rw [hcalls]
  gpu := fun _ => h.gpu (by decide)

/-- `discard` on a batch that is no longer open does nothing. -/
theorem exec_discard_of_closed (h : Lifecycle world phase commands) (hphase : phase ≠ .opened) :
    CommandBatch.discard.exec world = (.ok (), world) := by
  have hclosed : world.batch.committed ∨ world.batch.discarded := by
    rw [h.committed, h.discarded]
    cases phase with
    | opened => exact absurd rfl hphase
    | committed => exact Or.inl rfl
    | discarded => exact Or.inr rfl
  simp [CommandBatch.discard, hclosed]

/-- The destructor ends the encoding of a batch that is still open. -/
theorem exec_destroy (h : Lifecycle world .opened commands) :
    CommandBatch.destroy.exec world = (.ok (), world.after [.endEncoding]) := by
  have hcommitted : world.batch.committed = false := by simpa using h.committed
  simp [CommandBatch.destroy, hcommitted, h.encoder_isSome, CommandBatch.exec_callEncoder]

/-- The destructor calls nothing on a batch whose encoding has ended. -/
theorem exec_destroy_of_closed (h : Lifecycle world phase commands) (hphase : phase ≠ .opened) :
    CommandBatch.destroy.exec world = (.ok (), world) := by
  have hcommitted := h.committed
  have hencoder := h.encoder
  cases phase with
  | opened => exact absurd rfl hphase
  | committed => simp [CommandBatch.destroy, hcommitted]
  | discarded => simp [CommandBatch.destroy, hencoder]

end Lifecycle

end MetalRuntime
