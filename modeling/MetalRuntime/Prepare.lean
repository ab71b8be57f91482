import MetalRuntime.BufferSizes
import MetalRuntime.HostArrays
import MetalRuntime.Launch

/-!
# Launches prepared from Python objects

`prepare` turns the arguments of `run` and of `Batch.add` into a `Launch` and a list of the
Python objects that the launch points into. Dispatch runs without the interpreter lock, so
this list is all that keeps those objects alive. It has the kernel, the buffer of an indirect
grid and every bound buffer.
-/

namespace MetalRuntime

open Foundations

/-- A Python object that holds a `PyKernel`, with its pipeline. -/
structure PyKernelObject where
  object : ℕ
  pipeline : ComputePipeline
  deriving DecidableEq

/-- A Python object that holds a `PyBuffer`. -/
structure PyBufferObject extends PyBuffer where
  object : ℕ
  deriving DecidableEq

/-- `Extent`. -/
inductive Extent
  | size (n : SizeT)
  | dims (dims : List SizeT)
  deriving DecidableEq

/-- `GridArg`. -/
inductive GridArg
  | extent (extent : Extent)
  | indirect (buffer : PyBufferObject)
  deriving DecidableEq

/-- `BufferArg`; Python's `None` converts to a null pointer. -/
inductive BufferArg
  | plain (buffer : Option PyBufferObject)
  | pair (buffer : Option PyBufferObject) (offset : SizeT)
  deriving DecidableEq

/-- The buffer of an argument. -/
def BufferArg.buffer : BufferArg → Option PyBufferObject
  | .plain buffer => buffer
  | .pair buffer _ => buffer

/-- The byte offset of an argument. -/
def BufferArg.offset : BufferArg → SizeT
  | .plain _ => 0
  | .pair _ offset => offset

/-- `METAL_RUNTIME_LAUNCH_PARAMS`. -/
structure LaunchParams where
  kernel : PyKernelObject
  grid : GridArg
  threadgroup : Option Extent := none
  buffers : List BufferArg := []
  scalars : List HostArray := []
  threadgroupMemory : StdVector SizeT := .empty
  indirectOffset : SizeT := 0

/-- `PreparedLaunch`. -/
structure PreparedLaunch where
  launch : Launch
  keepalive : List ℕ
  scalars : List HostArray

/-- `to_dim3`. -/
def toDim3 (extent : Extent) (what : ByteString) : Except Failure Dim3 :=
  match extent with
  | .size n => .ok { x := n }
  | .dims [x] => .ok { x }
  | .dims [x, y] => .ok { x, y }
  | .dims [x, y, z] => .ok { x, y, z }
  | .dims dims => .error (.invalidArgument (what ++ ascii " must have 1 to 3 dimensions, got " ++
      decimal dims.length))

/-- The part of `prepare` about the grid and the threadgroup. -/
def prepareGrid (params : LaunchParams) (prepared : PreparedLaunch) :
    Except Failure PreparedLaunch :=
  match params.grid, params.threadgroup with
  | .indirect _, none => .error (.invalidArgument (
      ascii "an indirect grid needs an explicit threadgroup size: the buffer holds " ++
      ascii "threadgroup counts, so there is no thread total to derive one from"))
  | .indirect indirect, some extent => do
    let threadgroup ← toDim3 extent (ascii "threadgroup")
    .ok { prepared with
      launch := { prepared.launch with
        indirectGrid := some indirect.buffer
        indirectOffset := params.indirectOffset
        threadgroup }
      keepalive := prepared.keepalive ++ [indirect.object] }
  | .extent extent, threadgroup => do
    rejectIf (params.indirectOffset ≠ 0) (.invalidArgument (
      ascii "indirect_offset is only meaningful when grid is a Buffer of threadgroup counts"))
    let grid ← toDim3 extent (ascii "grid")
    let threadgroup ← threadgroup.elim
      (.ok (params.kernel.pipeline.defaultThreadgroup grid))
      fun extent => toDim3 extent (ascii "threadgroup")
    .ok { prepared with launch := { prepared.launch with grid, threadgroup } }

/-- The loop of `prepare` over the buffers. -/
def prepareBuffers (params : LaunchParams) (prepared : PreparedLaunch) :
    Except Failure PreparedLaunch := do
  let bound ← params.buffers.mapM fun arg =>
    match arg.buffer with
    | none => .error (.invalidArgument (ascii "buffers contains None"))
    | some buffer => .ok (buffer, arg.offset)
  let buffers ← StdVector.ofList (bound.map fun entry => ⟨entry.1.buffer, entry.2⟩)
  .ok { prepared with
    launch := { prepared.launch with buffers }
    keepalive := prepared.keepalive ++ bound.map fun entry => entry.1.object }

/-- The loop of `prepare` over the scalars. -/
def prepareScalars (prepared : PreparedLaunch) : Except Failure PreparedLaunch := do
  let checked ← prepared.scalars.zipIdx.mapM fun entry => do
    checkScalarDtype entry.1.dtype entry.2
    .ok ⟨entry.1.address, UInt64.ofNat entry.1.nbytes⟩
  let scalars ← StdVector.ofList checked
  .ok { prepared with launch := { prepared.launch with scalars } }

/-- `prepare`. -/
def prepare (params : LaunchParams) : Except Failure PreparedLaunch := do
  let prepared ← prepareGrid params {
    launch := {
      pipeline := some params.kernel.pipeline
      threadgroupMemory := params.threadgroupMemory }
    keepalive := [params.kernel.object]
    scalars := params.scalars }
  let prepared ← prepareBuffers params prepared
  prepareScalars prepared

namespace LaunchParams

/-- The buffer of an indirect grid. -/
def indirectBuffer (params : LaunchParams) : Option PyBufferObject :=
  match params.grid with
  | .indirect buffer => some buffer
  | .extent _ => none

/-- The buffers that the launch binds. -/
def boundBuffers (params : LaunchParams) : List PyBufferObject :=
  params.buffers.filterMap BufferArg.buffer

/-- A launch points into the objects of its arguments: its pipeline is the kernel's, and its
buffers are those of the arguments. -/
structure Owns (params : LaunchParams) (launch : Launch) : Prop where
  pipeline : launch.pipeline = some params.kernel.pipeline
  indirectGrid : launch.indirectGrid = params.indirectBuffer.map (·.buffer)
  buffers : launch.buffers.toList.map BufferBinding.buffer =
    params.boundBuffers.map (·.buffer)

/-- The kernel, the buffer of an indirect grid and every bound buffer. -/
def objects (params : LaunchParams) : List ℕ :=
  params.kernel.object :: ((params.indirectBuffer.map PyBufferObject.object).toList ++
    params.boundBuffers.map PyBufferObject.object)

end LaunchParams

/-- The grid adds the buffer of an indirect grid, and nothing else about objects. -/
theorem prepareGrid_eq_ok {params : LaunchParams} {prepared result : PreparedLaunch}
    (h : prepareGrid params prepared = .ok result)
    (hfresh : prepared.launch.indirectGrid = none) :
    result.launch.pipeline = prepared.launch.pipeline ∧
      result.launch.indirectGrid = params.indirectBuffer.map (·.buffer) ∧
      result.keepalive = prepared.keepalive ++
        (params.indirectBuffer.map PyBufferObject.object).toList := by
  unfold prepareGrid at h
  split at h
  · cases h
  · next indirect extent hgrid _ =>
    obtain ⟨threadgroup, -, hresult⟩ := bind_eq_ok_iff.mp h
    cases hresult
    simp [LaunchParams.indirectBuffer, hgrid]
  · next extent threadgroup hgrid =>
    obtain ⟨-, hgridArg⟩ := check_bind_eq_ok.mp h
    obtain ⟨grid, -, hthreadgroup⟩ := bind_eq_ok_iff.mp hgridArg
    obtain ⟨tg, -, hresult⟩ := bind_eq_ok_iff.mp hthreadgroup
    cases hresult
    simp [LaunchParams.indirectBuffer, hgrid, hfresh]

/-- The arguments that the loop over the buffers accepts have buffers. -/
theorem boundBuffers_of_mapM {args : List BufferArg} {bound : List (PyBufferObject × SizeT)}
    (h : List.Forall₂ (fun (arg : BufferArg) entry => (match arg.buffer with
      | none => .error (.invalidArgument (ascii "buffers contains None"))
      | some buffer => .ok (buffer, arg.offset) : Except Failure _) = .ok entry) args bound) :
    args.filterMap BufferArg.buffer = bound.map Prod.fst := by
  induction h with
  | nil => rfl
  | @cons arg entry _ _ hhead _ ih =>
    cases hbuffer : arg.buffer with
    | none =>
      rw [hbuffer] at hhead
      cases hhead
    | some buffer =>
      rw [hbuffer] at hhead
      cases hhead
      rw [List.filterMap_cons_some hbuffer, ih, List.map_cons]

/-- The buffers bind in order and are recorded in order. -/
theorem prepareBuffers_eq_ok {params : LaunchParams} {prepared result : PreparedLaunch}
    (h : prepareBuffers params prepared = .ok result) :
    result.launch.pipeline = prepared.launch.pipeline ∧
      result.launch.indirectGrid = prepared.launch.indirectGrid ∧
      result.launch.buffers.toList.map BufferBinding.buffer =
        params.boundBuffers.map (·.buffer) ∧
      result.keepalive = prepared.keepalive ++ params.boundBuffers.map PyBufferObject.object := by
  obtain ⟨bound, hbound, hrest⟩ := bind_eq_ok_iff.mp h
  obtain ⟨buffers, hbuffers, hresult⟩ := bind_eq_ok_iff.mp hrest
  cases hresult
  have hargs : params.boundBuffers = bound.map Prod.fst :=
    boundBuffers_of_mapM (mapM_eq_ok_iff.mp hbound)
  simp [StdVector.toList_of_ofList hbuffers, hargs, Function.comp_def]

/-- The scalars are copied when they are encoded; no object is recorded for them. -/
theorem prepareScalars_eq_ok {prepared result : PreparedLaunch}
    (h : prepareScalars prepared = .ok result) :
    result.launch.pipeline = prepared.launch.pipeline ∧
      result.launch.indirectGrid = prepared.launch.indirectGrid ∧
      result.launch.buffers = prepared.launch.buffers ∧
      result.keepalive = prepared.keepalive := by
  obtain ⟨checked, -, hrest⟩ := bind_eq_ok_iff.mp h
  obtain ⟨scalars, -, hresult⟩ := bind_eq_ok_iff.mp hrest
  cases hresult
  exact ⟨rfl, rfl, rfl, rfl⟩

/-- Every object that the prepared launch points into is recorded. -/
theorem prepare_eq_ok {params : LaunchParams} {prepared : PreparedLaunch}
    (h : prepare params = .ok prepared) :
    params.Owns prepared.launch ∧ prepared.keepalive = params.objects := by
  obtain ⟨withGrid, hgrid, hrest⟩ := bind_eq_ok_iff.mp h
  obtain ⟨withBuffers, hbuffers, hscalars⟩ := bind_eq_ok_iff.mp hrest
  obtain ⟨hpipeline, hindirect, hkept⟩ := prepareGrid_eq_ok hgrid rfl
  obtain ⟨hpipeline', hindirect', hbound, hkept'⟩ := prepareBuffers_eq_ok hbuffers
  obtain ⟨hpipeline'', hindirect'', hbound', hkept''⟩ := prepareScalars_eq_ok hscalars
  refine ⟨⟨?_, ?_, ?_⟩, ?_⟩
  · rw [hpipeline'', hpipeline', hpipeline]
  · rw [hindirect'', hindirect', hindirect]
  · rw [hbound', hbound]
  · rw [hkept'', hkept', hkept, LaunchParams.objects, List.append_assoc, List.singleton_append]

/-- An extent has one to three dimensions, or is refused. -/
theorem toDim3_defined (extent : Extent) (what : ByteString) : Defined (toDim3 extent what) := by
  unfold toDim3
  split
  all_goals first | exact failsOnly_ok _ _ | exact failsOnly_error (by simp)

/-- The grid is read, or refused. -/
theorem prepareGrid_defined (params : LaunchParams) (prepared : PreparedLaunch) :
    Defined (prepareGrid params prepared) := by
  unfold prepareGrid
  split
  · exact failsOnly_error (by simp)
  · exact (toDim3_defined _ _).bind fun _ _ => failsOnly_ok _ _
  · refine (failsOnly_rejectIf (by simp)).bind fun _ _ => ?_
    refine (toDim3_defined _ _).bind fun grid _ => FailsOnly.bind ?_ fun _ _ => failsOnly_ok _ _
    cases params.threadgroup with
    | none => exact failsOnly_ok _ _
    | some extent => exact toDim3_defined _ _

/-- `prepare` refuses its arguments, or follows no pointer that is null. -/
theorem prepare_defined (params : LaunchParams) : Defined (prepare params) := by
  refine (prepareGrid_defined params _).bind fun withGrid _ => FailsOnly.bind ?_ fun rest _ => ?_
  · refine (failsOnly_mapM fun arg _ => ?_).bind fun bound _ =>
      (StdVector.ofList_defined _).bind fun _ _ => failsOnly_ok _ _
    split
    · exact failsOnly_error (by simp)
    · exact failsOnly_ok _ _
  · refine (failsOnly_mapM fun entry _ => ?_).bind fun checked _ =>
      (StdVector.ofList_defined _).bind fun _ _ => failsOnly_ok _ _
    exact (checkScalarDtype_defined _ _).bind fun _ _ => failsOnly_ok _ _

end MetalRuntime
