import MetalRuntime.BatchSchedules

/-!
# Argument-table indices

A compute encoder has 31 entries in its buffer table and 31 in its threadgroup-memory
table. `validate` counts the buffers and scalars against the first table; the threadgroup
lengths it only charges against a byte budget, which entries of zero bytes do not use. The
indices stay in both tables exactly for the launches with at most 31 lengths.
-/

namespace MetalRuntime

open Foundations

/-- The number of entries in each argument table of a compute encoder. -/
def argumentTableSize : ℕ := 31

/-- The argument-table index that a command passes, if it sets an entry. -/
def EncoderCommand.tableIndex? : EncoderCommand → Option SizeT
  | .setBuffer _ _ index => some index
  | .setBytes _ _ index => some index
  | .setThreadgroupMemoryLength _ index => some index
  | _ => none

/-- Every table index that a list of commands passes is an entry of its table. -/
def IndicesInTables (commands : List EncoderCommand) : Prop :=
  ∀ command ∈ commands, ∀ index, command.tableIndex? = some index → index.toNat < argumentTableSize

/-- Commands in a row stay in the tables exactly when both parts do. -/
theorem indicesInTables_append (commands more : List EncoderCommand) :
    IndicesInTables (commands ++ more) ↔ IndicesInTables commands ∧ IndicesInTables more :=
  List.forall_mem_append

/-- A command that sets no entry is in the tables. -/
theorem indicesInTables_singleton {command : EncoderCommand} (h : command.tableIndex? = none) :
    IndicesInTables [command] := by
  intro other hother index hindex
  rw [List.mem_singleton.mp hother, h] at hindex
  cases hindex

/-- Commands at consecutive indices stay in the tables exactly when the last index does. -/
theorem indicesInTables_indexedCommands {α : Type} {command : α → SizeT → EncoderCommand}
    (hcommand : ∀ a index, (command a index).tableIndex? = some index) {elements : List α}
    {start : SizeT} (hfits : start.toNat + elements.length < wordSize) :
    IndicesInTables (indexedCommands command elements start) ↔
      elements = [] ∨ start.toNat + elements.length ≤ argumentTableSize := by
  induction elements generalizing start with
  | nil =>
    simp only [indexedCommands, true_or, iff_true]
    intro other hother
    cases hother
  | cons a rest ih =>
    rw [List.length_cons] at hfits
    have hnext : (start + 1).toNat = start.toNat + 1 := toNat_add_of_lt (by
      rw [UInt64.toNat_one]
      omega)
    have hhead : IndicesInTables [command a start] ↔ start.toNat < argumentTableSize := by
      simp [IndicesInTables, hcommand]
    have hrest := @ih (start + 1) (by omega)
    rw [indexedCommands, ← List.singleton_append, indicesInTables_append, hhead, hrest, hnext,
      List.length_cons]
    cases rest with
    | nil =>
      simp only [List.length_nil, List.cons_ne_nil, false_or, true_or, and_true, zero_add]
      exact Nat.succ_le_iff.symm
    | cons b tail => simp; omega

/-- The buffers and scalars of an accepted launch stay in the buffer table; the lengths stay
in the threadgroup-memory table exactly when there are at most 31. -/
theorem indicesInTables_launchCommands_iff {launch : Launch} {pipeline : ComputePipeline}
    {nonUniform : Bool} {budget : SizeT} (hvalid : validate launch nonUniform budget = .ok ()) :
    IndicesInTables (launchCommands launch pipeline nonUniform) ↔
      launch.threadgroupMemory.toList.length ≤ argumentTableSize := by
  obtain ⟨accepted, haccepted, -, -, hbindings, -⟩ := (validate_eq_ok_checks _ _ _).mp hvalid
  obtain ⟨hcount, -⟩ := (checkBindings_eq_ok launch accepted).mp hbindings
  have hlengths := launch.threadgroupMemory.size_le
  have hbuffers : IndicesInTables (indexedCommands bufferCommand launch.buffers.toList 0) := by
    rw [indicesInTables_indexedCommands (fun _ _ => rfl)] <;>
      simp only [UInt64.toNat_zero, wordSize, argumentTableSize] <;> omega
  have hscalars : IndicesInTables
      (indexedCommands scalarCommand launch.scalars.toList launch.buffers.size) := by
    rw [indicesInTables_indexedCommands (fun _ _ => rfl)] <;>
      simp only [StdVector.toNat_size, wordSize, argumentTableSize] <;> omega
  have hthreadgroup : IndicesInTables
      (indexedCommands threadgroupCommand launch.threadgroupMemory.toList 0) ↔
        launch.threadgroupMemory.toList.length ≤ argumentTableSize := by
    rw [indicesInTables_indexedCommands (fun _ _ => rfl), UInt64.toNat_zero, Nat.zero_add,
      or_iff_right_of_imp]
    · intro hnil
      simp [hnil]
    · simp only [maxVectorSize, UInt64.toNat_zero, wordSize] at *
      omega
  have hpipelineCall : IndicesInTables [.setComputePipelineState pipeline.handle] :=
    indicesInTables_singleton rfl
  have hdispatch : IndicesInTables [CommandBatch.dispatchCommand launch nonUniform] := by
    refine indicesInTables_singleton ?_
    simp only [CommandBatch.dispatchCommand]
    cases launch.indirectGrid <;> cases nonUniform <;> rfl
  rw [launchCommands, ← List.singleton_append]
  simp only [indicesInTables_append, hpipelineCall, hbuffers, hscalars, hthreadgroup, hdispatch,
    true_and, and_true]

/-- The encoder commands that a call of `add` makes. -/
def addedCommands (world : BatchWorld) (launch : Launch) : List EncoderCommand :=
  encoderCommands (((CommandBatch.add launch).exec world).2.calls.drop world.calls.length)

/-- They are the calls that the launch stands for. -/
theorem addedCommands_eq {world : BatchWorld} {commands : List EncoderCommand} {launch : Launch}
    (hopen : Lifecycle world .opened commands)
    (hvalid : validate launch world.batch.nonUniform world.batch.maxThreadgroupMemory = .ok ()) :
    ∃ pipeline, launch.pipeline = some pipeline ∧
      addedCommands world launch = launchCommands launch pipeline world.batch.nonUniform := by
  obtain ⟨pipeline, hpipeline, hexec⟩ := hopen.exec_add hvalid
  refine ⟨pipeline, hpipeline, ?_⟩
  rw [addedCommands, hexec, BatchWorld.after_calls, List.drop_left, encoderCommands_map_encode]

/-- `add` of an accepted launch to an open batch passes only indices inside the argument
tables if and only if the launch lists at most 31 threadgroup lengths. -/
theorem added_indices_in_tables_iff {world : BatchWorld} {commands : List EncoderCommand}
    {launch : Launch} (hopen : Lifecycle world .opened commands)
    (hvalid : validate launch world.batch.nonUniform world.batch.maxThreadgroupMemory = .ok ()) :
    IndicesInTables (addedCommands world launch) ↔
      launch.threadgroupMemory.toList.length ≤ argumentTableSize := by
  obtain ⟨pipeline, -, hadded⟩ := addedCommands_eq hopen hvalid
  rw [hadded]
  exact indicesInTables_launchCommands_iff hvalid

/-- A launch with the given number of empty threadgroup allocations. -/
def emptyLengthsLaunch (count : ℕ) (hcount : count ≤ maxVectorSize) : Launch :=
  { addOneLaunch with threadgroupMemory := ⟨List.replicate count 0, by simpa using hcount⟩ }

/-- With 31 empty allocations, every index is in its table. -/
theorem emptyLengthsLaunch_in_tables :
    IndicesInTables (addedCommands appleBatch (emptyLengthsLaunch 31 (by decide))) :=
  (added_indices_in_tables_iff (CommandBatch.create_lifecycle create_appleBatch).1
    (by decide)).mpr (by decide)

/-- With 32, the launch is accepted all the same, and its last length goes to index 31. -/
theorem emptyLengthsLaunch_past_tables :
    validate (emptyLengthsLaunch 32 (by decide)) appleBatch.batch.nonUniform
      appleBatch.batch.maxThreadgroupMemory = .ok () ∧
    .setThreadgroupMemoryLength 0 31 ∈
      addedCommands appleBatch (emptyLengthsLaunch 32 (by decide)) ∧
    ¬ IndicesInTables (addedCommands appleBatch (emptyLengthsLaunch 32 (by decide))) := by
  have hvalid : validate (emptyLengthsLaunch 32 (by decide)) appleBatch.batch.nonUniform
      appleBatch.batch.maxThreadgroupMemory = .ok () := by decide
  have hmem : .setThreadgroupMemoryLength 0 31 ∈
      addedCommands appleBatch (emptyLengthsLaunch 32 (by decide)) := by
    obtain ⟨pipeline, hpipeline, hadded⟩ :=
      addedCommands_eq (CommandBatch.create_lifecycle create_appleBatch).1 hvalid
    cases hpipeline
    rw [hadded]
    decide
  refine ⟨hvalid, hmem, ?_⟩
  intro hin
  exact absurd (hin _ hmem 31 rfl) (by decide)

end MetalRuntime
