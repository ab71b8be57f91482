import MetalRuntime.BatchBindings
import Mathlib.Data.Fin.VecNotation

/-!
# The threads that a dispatch runs

A device with non-uniform threadgroups takes the grid as it is and cuts the last threadgroups
short; an older one takes a number of whole threadgroups, for which validation makes the grid
divide evenly. Either way a thread is given by its threadgroup and its place in it, and every
position of the grid belongs to exactly one of the threads that run.
-/

namespace MetalRuntime

open Foundations

/-- The components of an extent. -/
def Dim3.axes (d : Dim3) : Fin 3 → ℕ := ![d.x.toNat, d.y.toNat, d.z.toNat]

/-- A thread of a dispatch: its threadgroup, and its place in the threadgroup. -/
structure Thread where
  group : Fin 3 → ℕ
  place : Fin 3 → ℕ

/-- The position of a thread in the grid. -/
def Thread.position (thread : Thread) (threadgroup : Dim3) : Fin 3 → ℕ :=
  fun c => thread.group c * threadgroup.axes c + thread.place c

/-- The threads that Metal runs for a call. The counts are those that the GPU reads from a buffer
at an offset. -/
def DispatchCall.Runs (counts : MTLBuffer → SizeT → Fin 3 → ℕ) (thread : Thread) :
    DispatchCall → Prop
  | .threads grid threadgroup =>
    ∀ c, thread.place c < threadgroup.axes c ∧ thread.position threadgroup c < grid.axes c
  | .threadgroups groups threadgroup =>
    ∀ c, thread.group c < groups.axes c ∧ thread.place c < threadgroup.axes c
  | .threadgroupsIndirect buffer offset threadgroup =>
    ∀ c, thread.group c < counts buffer offset c ∧ thread.place c < threadgroup.axes c

/-- The extent that a launch asks for: its grid, or its threadgroup as many times as the indirect
buffer says. -/
def Launch.extent (counts : MTLBuffer → SizeT → Fin 3 → ℕ) (launch : Launch) : Fin 3 → ℕ :=
  match launch.indirectGrid with
  | some buffer => fun c =>
    counts buffer.handle launch.indirectOffset c * launch.threadgroup.axes c
  | none => launch.grid.axes

/-- The call runs every position inside an extent exactly once, and no other. -/
structure DispatchCall.Covers (counts : MTLBuffer → SizeT → Fin 3 → ℕ) (call : DispatchCall)
    (threadgroup : Dim3) (extent : Fin 3 → ℕ) : Prop where
  inside : ∀ thread, call.Runs counts thread → ∀ c, thread.position threadgroup c < extent c
  once : ∀ position : Fin 3 → ℕ, (∀ c, position c < extent c) →
    ∃! thread, call.Runs counts thread ∧ thread.position threadgroup = position

/-- The thread at a position. -/
def Thread.at (threadgroup : Dim3) (position : Fin 3 → ℕ) : Thread :=
  ⟨fun c => position c / threadgroup.axes c, fun c => position c % threadgroup.axes c⟩

namespace Thread

variable {threadgroup : Dim3}

/-- It is at that position. -/
theorem position_at (threadgroup : Dim3) (position : Fin 3 → ℕ) :
    (Thread.at threadgroup position).position threadgroup = position := by
  funext c
  exact Nat.div_add_mod' (position c) (threadgroup.axes c)

/-- No other thread with a place in the threadgroup is at that position. -/
theorem eq_at {thread : Thread} (hplace : ∀ c, thread.place c < threadgroup.axes c) :
    thread = Thread.at threadgroup (thread.position threadgroup) := by
  have hunique : ∀ c, thread.position threadgroup c / threadgroup.axes c = thread.group c ∧
      thread.position threadgroup c % threadgroup.axes c = thread.place c := by
    intro c
    rw [Nat.div_mod_unique (Nat.zero_lt_of_lt (hplace c))]
    exact ⟨by rw [position, Nat.add_comm, Nat.mul_comm], hplace c⟩
  cases thread
  simp only [Thread.at, mk.injEq]
  exact ⟨funext fun c => (hunique c).1.symm, funext fun c => (hunique c).2.symm⟩

end Thread

namespace DispatchCall

variable {counts : MTLBuffer → SizeT → Fin 3 → ℕ} {call : DispatchCall} {threadgroup : Dim3}
  {extent : Fin 3 → ℕ}

/-- A call covers an extent if it runs the threads with a place whose position is inside. -/
theorem covers_of_runs_iff (hpositive : ∀ c, 0 < threadgroup.axes c)
    (h : ∀ thread, call.Runs counts thread ↔ ∀ c, thread.place c < threadgroup.axes c ∧
      thread.position threadgroup c < extent c) : call.Covers counts threadgroup extent where
  inside := fun thread hruns c => ((h thread).mp hruns c).2
  once := by
    intro position hposition
    refine ⟨Thread.at threadgroup position, ⟨(h _).mpr fun c => ⟨Nat.mod_lt _ (hpositive c), ?_⟩,
      Thread.position_at threadgroup position⟩, ?_⟩
    · rw [Thread.position_at]
      exact hposition c
    · rintro thread ⟨hruns, rfl⟩
      exact Thread.eq_at fun c => ((h thread).mp hruns c).1

/-- Whole threadgroups: a thread with a place is in one of the first ones exactly when its position
is inside them all. -/
theorem group_lt_iff {thread : Thread} {c : Fin 3} (hplace : thread.place c < threadgroup.axes c)
    (groups : ℕ) : thread.group c < groups ↔
      thread.position threadgroup c < groups * threadgroup.axes c := by
  constructor
  · intro hgroup
    calc thread.position threadgroup c
        < thread.group c * threadgroup.axes c + threadgroup.axes c := Nat.add_lt_add_left hplace _
      _ = (thread.group c + 1) * threadgroup.axes c := (Nat.succ_mul _ _).symm
      _ ≤ groups * threadgroup.axes c := Nat.mul_le_mul_right _ hgroup
  · intro hposition
    by_contra hgroup
    have hle := Nat.mul_le_mul_right (threadgroup.axes c) (Nat.le_of_not_lt hgroup)
    exact absurd hposition (Nat.not_lt.mpr (Nat.le_trans hle (Nat.le_add_right _ _)))

/-- A call that runs whole threadgroups covers as many as it runs. -/
theorem covers_of_groups {groups : Fin 3 → ℕ} (hpositive : ∀ c, 0 < threadgroup.axes c)
    (h : ∀ thread, call.Runs counts thread ↔ ∀ c, thread.group c < groups c ∧
      thread.place c < threadgroup.axes c) :
    call.Covers counts threadgroup fun c => groups c * threadgroup.axes c := by
  refine covers_of_runs_iff hpositive fun thread => (h thread).trans (forall_congr' fun c => ?_)
  rw [and_comm]
  exact and_congr_right fun hplace => group_lt_iff hplace (groups c)

end DispatchCall

/-- A property of every component of an extent. -/
theorem Dim3.forall_axes {p : ℕ → Prop} {d : Dim3} :
    (∀ c, p (d.axes c)) ↔ p d.x.toNat ∧ p d.y.toNat ∧ p d.z.toNat := by
  simp [Fin.forall_fin_succ, Dim3.axes]

/-- An accepted launch has a threadgroup without empty components. -/
theorem threadgroup_pos_of_accepts {rt : Runtime} {launch : Launch} (h : rt.Accepts launch)
    (c : Fin 3) : 0 < launch.threadgroup.axes c := by
  obtain ⟨pipeline, -, -, hthreadgroup, -⟩ := (validate_eq_ok_checks _ _ _).mp h
  simp only [checkThreadgroup, check_bind_eq_ok, rejectIf_eq_ok, not_or,
    ← UInt64.toNat_inj, UInt64.toNat_zero, ← Nat.pos_iff_ne_zero] at hthreadgroup
  exact Dim3.forall_axes.mpr hthreadgroup.1 c

/-- Without non-uniform threadgroups, the grid of an accepted direct launch is a whole number of
threadgroups. -/
theorem groups_of_accepts {rt : Runtime} {launch : Launch} (h : rt.Accepts launch)
    (hdirect : launch.indirectGrid = none) (huniform : rt.supportsNonUniformThreadgroups = false)
    (c : Fin 3) : (Dim3.mk (launch.grid.x / launch.threadgroup.x)
      (launch.grid.y / launch.threadgroup.y) (launch.grid.z / launch.threadgroup.z)).axes c *
        launch.threadgroup.axes c = launch.grid.axes c := by
  obtain ⟨pipeline, -, -, -, -, -, -, -, hdispatch⟩ := (validate_eq_ok_checks _ _ _).mp h
  have hvalid := checkDispatch_eq_ok.mp hdispatch
  simp only [DispatchIsValid, hdirect, huniform, Bool.false_eq_true, false_or] at hvalid
  obtain ⟨hx, hy, hz⟩ := hvalid
  revert c
  simp [Fin.forall_fin_succ, Dim3.axes, Nat.div_mul_cancel hx, Nat.div_mul_cancel hy,
    Nat.div_mul_cancel hz]

/-- The call of an accepted launch covers the extent that the launch asks for. -/
theorem dispatchCall_covers {rt : Runtime} {launch : Launch} (h : rt.Accepts launch)
    (counts : MTLBuffer → SizeT → Fin 3 → ℕ) :
    (launch.dispatchCall rt.supportsNonUniformThreadgroups).Covers counts launch.threadgroup
      (launch.extent counts) := by
  have hpositive := threadgroup_pos_of_accepts h
  cases hindirect : launch.indirectGrid with
  | some buffer =>
    simp only [Launch.dispatchCall, Launch.extent, hindirect]
    exact DispatchCall.covers_of_groups hpositive fun thread => Iff.rfl
  | none =>
    simp only [Launch.dispatchCall, Launch.extent, hindirect]
    cases huniform : rt.supportsNonUniformThreadgroups with
    | true =>
      rw [if_pos rfl]
      exact DispatchCall.covers_of_runs_iff hpositive fun thread => Iff.rfl
    | false =>
      rw [if_neg Bool.false_ne_true, ← funext (groups_of_accepts h hindirect huniform)]
      exact DispatchCall.covers_of_groups hpositive fun thread => Iff.rfl

/-- Over every interleaving of calls on a batch, on devices with and without non-uniform
threadgroups: the dispatch recorded for each accepted launch runs every position of the grid of
the launch in exactly one thread, and no position outside. -/
theorem accepted_launches_run_whole_grid {rt : Runtime} {commandBuffer encoder : Option ℕ}
    {world : BatchWorld} {events : List BatchEvent} {sections : List Section} {s : BatchSystem}
    (hcreate : CommandBatch.create rt commandBuffer encoder = .ok world)
    (hrun : runSchedule BatchSystem.step (BatchSystem.initial world) events = some (sections, s))
    (counts : MTLBuffer → SizeT → Fin 3 → ℕ) :
    List.Forall₂ (fun launch recorded => recorded.call.Covers counts launch.threadgroup
        (launch.extent counts))
      (acceptedLaunches events sections)
      (Encoder.fresh.record (encoderCommands s.world.calls)) := by
  have hinitial := BatchSystem.initial_invariant hcreate
  rw [BatchSystem.run_record hcreate hrun]
  refine (Encoder.recordLaunches_forall₂ (BatchSystem.run_accepts ⟨_, _, hinitial⟩ hrun)
    _ .fresh).imp ?_
  rintro launch recorded ⟨haccepts, found, rfl⟩
  exact dispatchCall_covers haccepts counts

/-- A batch on a device without non-uniform threadgroups. -/
def uniformBatch : BatchWorld :=
  { appleBatch with batch := { appleBatch.batch with nonUniform := false } }

/-- There, eight threads in threadgroups of four are two whole ones. With non-uniform threadgroups,
ten threads take two whole ones and one that is cut short. -/
theorem several_threadgroups_run_whole_grid : ∃ uniform nonUniform s s' recorded recorded',
    runSchedule BatchSystem.step (BatchSystem.initial uniformBatch)
      [.add { scaleTileLaunch with grid := { x := 8 } }] = some (uniform, s) ∧
    Encoder.fresh.record (encoderCommands s.world.calls) = [recorded] ∧
    recorded.call = .threadgroups { x := 2 } { x := 4 } ∧
    recorded.call.Covers (fun _ _ _ => 0) { x := 4 } ![8, 1, 1] ∧
    runSchedule BatchSystem.step (BatchSystem.initial appleBatch) [.add scaleTileLaunch] =
      some (nonUniform, s') ∧
    Encoder.fresh.record (encoderCommands s'.world.calls) = [recorded'] ∧
    recorded'.call = .threads { x := 10 } { x := 4 } ∧
    recorded'.call.Covers (fun _ _ _ => 0) { x := 4 } ![10, 1, 1] := by
  have hcreate : CommandBatch.create ⟨false, 32768⟩ (some 1) (some 2) = .ok uniformBatch := rfl
  have huniform : runSchedule BatchSystem.step (BatchSystem.initial uniformBatch)
    [.add { scaleTileLaunch with grid := { x := 8 } }] = some (_, _) := rfl
  have hnonUniform : runSchedule BatchSystem.step (BatchSystem.initial appleBatch)
    [.add scaleTileLaunch] = some (_, _) := rfl
  obtain ⟨hcovers, -⟩ := List.forall₂_cons.mp
    (accepted_launches_run_whole_grid hcreate huniform fun _ _ _ => 0)
  obtain ⟨hcovers', -⟩ := List.forall₂_cons.mp
    (accepted_launches_run_whole_grid create_appleBatch hnonUniform fun _ _ _ => 0)
  exact ⟨_, _, _, _, _, _, huniform, rfl, rfl, hcovers, hnonUniform, rfl, rfl, hcovers'⟩

end MetalRuntime
