import MetalRuntime.BatchBindings

/-!
# Threadgroup memory over a whole batch

`validate` charges a launch as if the encoder were fresh, but the encoder keeps every
threadgroup length until its index is set again. A launch that lists fewer lengths than an
earlier one of its batch dispatches with the rest of the earlier lengths still set. The
budget holds at every dispatch exactly when each launch leaves room for what earlier
launches left behind.
-/

namespace MetalRuntime

open Foundations

/-- The threadgroup memory that a dispatch is charged: the static memory of its pipeline and
every length still set. -/
def RecordedDispatch.threadgroupMemory (recorded : RecordedDispatch) : ℕ :=
  recorded.encoder.pipeline.elim 0 (fun state => state.staticThreadgroupMemoryLength.toNat) +
    recorded.encoder.threadgroupMemory.total UInt64.toNat

/-- The static threadgroup memory of the launched pipeline. -/
def Launch.staticMemory (launch : Launch) : ℕ :=
  launch.pipeline.elim 0 fun pipeline => pipeline.staticThreadgroupMemoryLength.toNat

/-- The threadgroup lengths of a launch, rounded up in unbounded arithmetic. -/
def Launch.lengths (launch : Launch) : List ℕ :=
  launch.threadgroupMemory.toList.map fun length => roundUp 16 length.toNat

/-- The threadgroup memory for which validation charges the launch. -/
def Launch.ownMemory (launch : Launch) : ℕ := launch.staticMemory + launch.lengths.sum

/-- The lengths set after a launch: its own, then those that earlier launches of the batch
set at the indices it does not list. -/
def Launch.lengthsAfter (launch : Launch) (held : List ℕ) : List ℕ :=
  launch.lengths ++ held.drop launch.lengths.length

/-- The lengths of earlier launches at the indices this launch does not list fit into what it
leaves of the budget. -/
def Launch.LeavesRoom (launch : Launch) (budget : ℕ) (held : List ℕ) : Prop :=
  (held.drop launch.lengths.length).sum ≤ budget - launch.ownMemory

/-- Each launch of a sequence leaves room for the lengths that the launches before it left. -/
def AllLeaveRoom (budget : ℕ) : List ℕ → List Launch → Prop
  | _, [] => True
  | held, launch :: rest =>
    launch.LeavesRoom budget held ∧ AllLeaveRoom budget (launch.lengthsAfter held) rest

/-- Accepted launches are within the budget by themselves. -/
theorem Runtime.Accepts.ownMemory_le {rt : Runtime} {launch : Launch} (h : rt.Accepts launch) :
    launch.ownMemory ≤ rt.maxThreadgroupMemoryLength.toNat := by
  obtain ⟨pipeline, hpipeline, -, -, -, hmemory, -⟩ := (validate_eq_ok_checks _ _ _).mp h
  rw [checkThreadgroupMemory_eq_ok] at hmemory
  rw [Launch.ownMemory, Launch.staticMemory, hpipeline]
  exact hmemory

/-- The encoder receives the lengths of an accepted launch rounded exactly. -/
theorem Runtime.Accepts.map_roundedLengths {rt : Runtime} {launch : Launch}
    (h : rt.Accepts launch) : launch.roundedLengths.map UInt64.toNat = launch.lengths := by
  rw [Launch.roundedLengths, Launch.lengths, List.map_map]
  refine List.map_congr_left fun length hlength => ?_
  exact UInt64.toNat_ofNat_of_lt (CommandBatch.rounds_of_validate h length hlength)

/-- An encoder holds the given lengths at the indices from zero on, and nothing after. -/
def Encoder.HoldsLengths (encoder : Encoder) (held : List ℕ) : Prop :=
  encoder.threadgroupMemory.slots.map (fun slot => slot.elim 0 UInt64.toNat) = held

/-- A launch replaces the lengths at the indices it lists. -/
theorem Encoder.HoldsLengths.loaded {rt : Runtime} {launch : Launch} {encoder : Encoder}
    {held : List ℕ} (hholds : encoder.HoldsLengths held) (haccepts : rt.Accepts launch) :
    (encoder.loaded launch).HoldsLengths (launch.lengthsAfter held) := by
  have hlengths := haccepts.map_roundedLengths
  have hcount : launch.roundedLengths.length = launch.lengths.length := by
    rw [← hlengths, List.length_map]
  unfold HoldsLengths at hholds
  rw [HoldsLengths, Encoder.loaded, SlotTable.slots_setFrom_zero, List.map_append, List.map_map,
    List.map_drop, hholds, hcount, Launch.lengthsAfter, ← hlengths]
  rfl

/-- What a dispatch is charged: its own memory and the lengths left at other indices. -/
theorem Encoder.HoldsLengths.threadgroupMemory_loaded {rt : Runtime} {launch : Launch}
    {encoder : Encoder} {held : List ℕ} (hholds : encoder.HoldsLengths held)
    (haccepts : rt.Accepts launch) (call : DispatchCall) :
    RecordedDispatch.threadgroupMemory ⟨encoder.loaded launch, call⟩ =
      launch.ownMemory + (held.drop launch.lengths.length).sum := by
  have hloaded := hholds.loaded haccepts
  unfold HoldsLengths at hloaded
  have hstatic : (encoder.loaded launch).pipeline.elim 0
      (fun state => state.staticThreadgroupMemoryLength.toNat) = launch.staticMemory := by
    rw [Launch.staticMemory, Encoder.loaded]
    cases launch.pipeline <;> rfl
  rw [RecordedDispatch.threadgroupMemory, SlotTable.total, hloaded, hstatic, Launch.lengthsAfter,
    List.sum_append, Launch.ownMemory, Nat.add_assoc]

/-- From any encoder, the budget holds at every dispatch exactly when every launch leaves
room. -/
theorem recordLaunches_within_budget_iff {rt : Runtime} {launches : List Launch}
    (haccepts : ∀ launch ∈ launches, rt.Accepts launch) (nonUniform : Bool) {encoder : Encoder}
    {held : List ℕ} (hholds : encoder.HoldsLengths held) :
    (∀ recorded ∈ Encoder.recordLaunches nonUniform encoder launches,
        recorded.threadgroupMemory ≤ rt.maxThreadgroupMemoryLength.toNat) ↔
      AllLeaveRoom rt.maxThreadgroupMemoryLength.toNat held launches := by
  induction launches generalizing encoder held with
  | nil => simp [Encoder.recordLaunches, AllLeaveRoom]
  | cons launch rest ih =>
    have haccept := haccepts launch List.mem_cons_self
    have hrest := ih (fun other hother => haccepts other (List.mem_cons_of_mem launch hother))
      (hholds.loaded haccept)
    have hown := haccept.ownMemory_le
    rw [Encoder.recordLaunches, List.forall_mem_cons, hrest,
      hholds.threadgroupMemory_loaded haccept, AllLeaveRoom, Launch.LeavesRoom]
    refine and_congr_left fun _ => ?_
    omega

/-- Launches that never list fewer lengths than an earlier one leave nothing behind. -/
theorem allLeaveRoom_of_pairwise (budget : ℕ) {launches : List Launch} {held : List ℕ}
    (hheld : ∀ launch ∈ launches, held.length ≤ launch.lengths.length)
    (hgrow : launches.Pairwise fun earlier later =>
      earlier.lengths.length ≤ later.lengths.length) :
    AllLeaveRoom budget held launches := by
  induction launches generalizing held with
  | nil => trivial
  | cons launch rest ih =>
    obtain ⟨hlater, hrest⟩ := List.pairwise_cons.mp hgrow
    have hcovered : held.drop launch.lengths.length = [] :=
      List.drop_eq_nil_of_le (hheld launch List.mem_cons_self)
    refine ⟨?_, ih ?_ hrest⟩
    · rw [Launch.LeavesRoom, hcovered]
      exact Nat.zero_le _
    · intro other hother
      rw [Launch.lengthsAfter, hcovered, List.append_nil]
      exact hlater other hother

/-- Over every schedule of a batch, each dispatch is within the device's budget if and only if
each accepted launch leaves room for the lengths that earlier accepted launches set at the
indices it does not list. It is so when no launch lists fewer lengths than an earlier one. -/
theorem batch_within_budget_iff {rt : Runtime} {commandBuffer encoder : Option ℕ}
    {world : BatchWorld} {events : List BatchEvent} {sections : List Section} {s : BatchSystem}
    (hcreate : CommandBatch.create rt commandBuffer encoder = .ok world)
    (hrun : runSchedule BatchSystem.step (BatchSystem.initial world) events =
      some (sections, s)) :
    ((∀ recorded ∈ Encoder.fresh.record (encoderCommands s.world.calls),
        recorded.threadgroupMemory ≤ rt.maxThreadgroupMemoryLength.toNat) ↔
      AllLeaveRoom rt.maxThreadgroupMemoryLength.toNat [] (acceptedLaunches events sections)) ∧
    ((acceptedLaunches events sections).Pairwise (fun earlier later =>
        earlier.lengths.length ≤ later.lengths.length) →
      AllLeaveRoom rt.maxThreadgroupMemoryLength.toNat [] (acceptedLaunches events sections)) := by
  have hinitial := BatchSystem.initial_invariant hcreate
  refine ⟨?_, allLeaveRoom_of_pairwise _ fun _ _ => Nat.zero_le _⟩
  rw [BatchSystem.run_record hcreate hrun]
  exact recordLaunches_within_budget_iff (BatchSystem.run_accepts ⟨_, _, hinitial⟩ hrun) _ rfl

/-- A launch of a kernel with two threadgroup arguments of half the budget each. -/
def pairLaunch : Launch :=
  { addOneLaunch with
    pipeline := some { addOnePipeline with
      threadgroupBindings := [⟨0, ascii "left", 0⟩, ⟨1, ascii "right", 0⟩] }
    threadgroupMemory := ⟨[16384, 16384], by decide⟩ }

/-- A launch of a kernel with one threadgroup argument of the whole budget. -/
def tileLaunch : Launch :=
  { addOneLaunch with
    pipeline := some { addOnePipeline with threadgroupBindings := [⟨0, ascii "tile", 0⟩] }
    threadgroupMemory := ⟨[32768], by decide⟩ }

/-- In the order that grows the number of lengths, both dispatches are within the budget. -/
theorem tile_then_pair_within_budget : ∃ sections s,
    runSchedule BatchSystem.step (BatchSystem.initial appleBatch)
      [.add tileLaunch, .add pairLaunch] = some (sections, s) ∧
    ∀ recorded ∈ Encoder.fresh.record (encoderCommands s.world.calls),
      recorded.threadgroupMemory ≤ 32768 := by
  have hrun : runSchedule BatchSystem.step (BatchSystem.initial appleBatch)
    [.add tileLaunch, .add pairLaunch] = some (_, _) := rfl
  obtain ⟨hiff, hgrowing⟩ := batch_within_budget_iff create_appleBatch hrun
  exact ⟨_, _, hrun, hiff.mpr (hgrowing (by decide))⟩

/-- In the other order both launches are accepted, and the second dispatch is charged one and
a half times the budget. -/
theorem pair_then_tile_exceeds_budget : ∃ sections s recorded,
    runSchedule BatchSystem.step (BatchSystem.initial appleBatch)
      [.add pairLaunch, .add tileLaunch] = some (sections, s) ∧
    (∀ sec ∈ sections, sec.returned = true) ∧
    recorded ∈ Encoder.fresh.record (encoderCommands s.world.calls) ∧
    appleBatch.batch.maxThreadgroupMemory.toNat < recorded.threadgroupMemory := by
  have hrun : runSchedule BatchSystem.step (BatchSystem.initial appleBatch)
    [.add pairLaunch, .add tileLaunch] = some (_, _) := rfl
  exact ⟨_, _, _, hrun, by decide, List.mem_cons_of_mem _ List.mem_cons_self, by decide⟩

end MetalRuntime
