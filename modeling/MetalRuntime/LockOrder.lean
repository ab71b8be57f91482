import MetalRuntime.Foundations.ScopedLocks

/-!
# The locks of the process

Every entry point of the bindings and of the C API as the scopes of its lock guards and of
`gil_scoped_release`, in the order of the source. What a section under a lock does, and whether
it throws, is left open. A Python thread holds the interpreter's lock and calls bindings in any
order; arguments and released objects may run Python code, which calls bindings again. The order
of the locks is: the interpreter's, the keepalive mutex of a batch, then any one other mutex.

The module is built `FREE_THREADED`: an interpreter may have no such lock, and then its scopes do
nothing. Python code also calls the C API, through `ctypes`, which gives the lock back meanwhile.
-/

namespace MetalRuntime

open Foundations

/-- The interpreter's lock and the mutexes of the runtime. -/
inductive RuntimeLock
  | gil
  | keepaliveMutex (batch : ℕ)
  | stateMutex (batch : ℕ)
  /-- The guard of the static in `runtime()`. -/
  | runtimeGuard
  | librariesMutex
  | pipelinesMutex (library : ℕ)
  | captureMutex
  deriving DecidableEq

/-- What only the device brings about: a free slot of the command queue, the end of a batch. -/
inductive DeviceSignal
  | queueSlot
  | completed (batch : ℕ)
  deriving DecidableEq

/-- Code of the runtime, by its locks. -/
abbrev LockCode := ScopedCode RuntimeLock DeviceSignal

/-- `gil_scoped_release`, on an interpreter that has a lock or none. -/
def gilScopedRelease (hasGil : Bool) (body : LockCode) : LockCode :=
  if hasGil then .release .gil body else body

/-- Code of a thread while it runs Python code. -/
def gilScopedAcquire (hasGil : Bool) (body : LockCode) : LockCode :=
  if hasGil then .hold .gil body else body

/-- What a thread holds of the interpreter while it runs Python code. -/
def interpreterLocks (hasGil : Bool) : Set RuntimeLock := if hasGil then {.gil} else ∅

/-- `runtime()`: the first call constructs the runtime under a guard. -/
def runtimeLocks : LockCode := .either (.hold .runtimeGuard .skip) .skip

namespace CommandBatch

/-- The constructor: a full queue blocks `commandBuffer`. -/
def createLocks : LockCode := .await .queueSlot

/-- `add`, `barrier`, `commit`, `discard` and `gpu_time` are one section each. -/
def sectionLocks (batch : ℕ) : LockCode := .hold (.stateMutex batch) .skip

/-- `wait` blocks between two sections. -/
def waitLocks (batch : ℕ) : LockCode :=
  .seq (sectionLocks batch) (.seq (.await (.completed batch)) (sectionLocks batch))

end CommandBatch

/-- `dispatch`. -/
def dispatchLocks (batch : ℕ) : LockCode :=
  .seq CommandBatch.createLocks (.seq (CommandBatch.sectionLocks batch)
    (CommandBatch.waitLocks batch))

/-- A lookup that may end the call, and an insertion after the build. -/
def cachedLocks (mutex : RuntimeLock) : LockCode :=
  .seq (.hold mutex .skip) (.either .skip (.hold mutex .skip))

/-- `library_for`. -/
def libraryForLocks : LockCode := cachedLocks .librariesMutex

/-- `pipeline_for`. -/
def pipelineForLocks (library : ℕ) : LockCode := cachedLocks (.pipelinesMutex library)

namespace PyBatch

/-- `PyBatch::add` encodes and pins under one guard. -/
def addLocks (batch : ℕ) : LockCode :=
  .hold (.keepaliveMutex batch) (CommandBatch.sectionLocks batch)

/-- `PyBatch::commit`. -/
def commitLocks (hasGil : Bool) (batch : ℕ) : LockCode :=
  gilScopedRelease hasGil (CommandBatch.sectionLocks batch)

/-- `PyBatch::wait` drops the pinned objects outside the guard. -/
def waitLocks (hasGil : Bool) (batch : ℕ) : LockCode :=
  .seq (gilScopedRelease hasGil (CommandBatch.waitLocks batch))
    (.ensure (.hold (.keepaliveMutex batch) .skip) .callback)

end PyBatch

/-- What a thread does without the interpreter's lock: it becomes a Python thread for a while, or
calls the C API. -/
inductive ThreadCall
  | python
  | mrCompileLibrary
  | mrGetPipeline (library : ℕ)
  | mrDeviceInfo
  | mrWrapBuffer
  | mrDispatch (batch : ℕ)
  | mrBatchCreate
  | mrBatchAdd (batch : ℕ)
  | mrBatchCommit (batch : ℕ)
  | mrBatchWait (batch : ℕ)

/-- The locks of such a call. -/
def ThreadCall.locks (hasGil : Bool) : ThreadCall → LockCode
  | .python => gilScopedAcquire hasGil .callback
  | .mrCompileLibrary => runtimeLocks
  | .mrGetPipeline library => pipelineForLocks library
  | .mrDeviceInfo => runtimeLocks
  | .mrWrapBuffer => runtimeLocks
  | .mrDispatch batch => .seq runtimeLocks (dispatchLocks batch)
  | .mrBatchCreate => .seq runtimeLocks CommandBatch.createLocks
  | .mrBatchAdd batch => CommandBatch.sectionLocks batch
  | .mrBatchCommit batch => CommandBatch.sectionLocks batch
  | .mrBatchWait batch => CommandBatch.waitLocks batch

/-- The functions and methods of the module that take a lock, the switch of threads between two
instructions of the interpreter, and calls through `ctypes`. -/
inductive BindingCall
  | newBuffer
  | newKernel (library : ℕ)
  | run (batch : ℕ)
  | newBatch
  | add (batch : ℕ)
  | barrier (batch : ℕ)
  | commit (batch : ℕ)
  | wait (batch : ℕ)
  | exit (batch : ℕ)
  | gpuTime (batch : ℕ)
  | deviceInfo
  | libraryCacheSize
  | setLibraryCacheLimit
  | clearLibraryCache
  | startCapture
  | stopCapture
  | isCapturing
  | switch
  | ctypes (entry : ThreadCall)

/-- A binding: converting the arguments and releasing them may run Python code. -/
def bindingLocks (body : LockCode) : LockCode := .seq .callback (.ensure body .callback)

/-- A binding whose body is one section of the runtime. -/
def runtimeSectionLocks (mutex : RuntimeLock) : LockCode :=
  bindingLocks (.seq runtimeLocks (.hold mutex .skip))

/-- The locks of a binding, which is called with the interpreter's lock. -/
def BindingCall.locks (hasGil : Bool) : BindingCall → LockCode
  | .newBuffer => bindingLocks runtimeLocks
  | .newKernel library =>
    -- The constants are parsed after the library is there.
    bindingLocks (.seq runtimeLocks (.seq libraryForLocks
      (.seq .callback (pipelineForLocks library))))
  | .run batch =>
    bindingLocks (gilScopedRelease hasGil (.seq runtimeLocks (dispatchLocks batch)))
  | .newBatch =>
    bindingLocks (gilScopedRelease hasGil (.seq runtimeLocks CommandBatch.createLocks))
  | .add batch => bindingLocks (PyBatch.addLocks batch)
  | .barrier batch => bindingLocks (CommandBatch.sectionLocks batch)
  | .commit batch => bindingLocks (PyBatch.commitLocks hasGil batch)
  | .wait batch => bindingLocks (PyBatch.waitLocks hasGil batch)
  | .exit batch =>
    bindingLocks (.either (PyBatch.waitLocks hasGil batch) (CommandBatch.sectionLocks batch))
  | .gpuTime batch => bindingLocks (CommandBatch.sectionLocks batch)
  | .deviceInfo => bindingLocks runtimeLocks
  | .libraryCacheSize => runtimeSectionLocks .librariesMutex
  | .setLibraryCacheLimit => runtimeSectionLocks .librariesMutex
  | .clearLibraryCache => runtimeSectionLocks .librariesMutex
  | .startCapture => runtimeSectionLocks .captureMutex
  | .stopCapture => runtimeSectionLocks .captureMutex
  | .isCapturing => runtimeSectionLocks .captureMutex
  | .switch => gilScopedRelease hasGil .skip
  | .ctypes entry => bindingLocks (gilScopedRelease hasGil (entry.locks hasGil))

/-- The process: threads call, and Python code calls bindings. -/
def lockProgram (hasGil : Bool) : LockProgram RuntimeLock DeviceSignal ThreadCall BindingCall :=
  ⟨ThreadCall.locks hasGil, BindingCall.locks hasGil⟩

/-- The order in which locks are taken. -/
def RuntimeLock.rank : RuntimeLock → ℕ
  | .gil => 0
  | .keepaliveMutex _ => 1
  | _ => 2

/-- No lock ranks above two. -/
theorem RuntimeLock.rank_le (lock : RuntimeLock) : lock.rank ≤ 2 := by
  cases lock <;> simp [rank]

/-- Code that calls back with the interpreter's lock only. -/
abbrev LockCode.OrderedFrom (hasGil : Bool) (held : Set RuntimeLock) (code : LockCode) : Prop :=
  code.Ordered RuntimeLock.rank (interpreterLocks hasGil) held

section Ordered

variable {hasGil : Bool} {held : Set RuntimeLock}

/-- One section is ordered from locks that rank below its mutex. -/
theorem hold_ordered {mutex : RuntimeLock} (h : RanksBelow RuntimeLock.rank held mutex) :
    LockCode.OrderedFrom hasGil held (.hold mutex .skip) := ⟨h, trivial⟩

/-- Nothing is held below any mutex. -/
theorem ranksBelow_empty (mutex : RuntimeLock) : RanksBelow RuntimeLock.rank ∅ mutex :=
  fun _ h => absurd h (Set.notMem_empty _)

/-- Only the interpreter's lock is held in Python code. -/
theorem eq_gil_of_mem {lock : RuntimeLock} (h : lock ∈ interpreterLocks hasGil) : lock = .gil := by
  cases hasGil with
  | true => exact h
  | false => exact absurd h (Set.notMem_empty _)

/-- The interpreter's lock ranks below every mutex. -/
theorem ranksBelow_gil {mutex : RuntimeLock} (h : 0 < mutex.rank) :
    RanksBelow RuntimeLock.rank (interpreterLocks hasGil) mutex := by
  intro other hother
  rw [eq_gil_of_mem hother]
  exact h

/-- `runtime()` is ordered wherever the guard ranks highest. -/
theorem runtimeLocks_ordered (h : RanksBelow RuntimeLock.rank held .runtimeGuard) :
    LockCode.OrderedFrom hasGil held runtimeLocks := ⟨hold_ordered h, trivial⟩

/-- A cached build is two sections. -/
theorem cachedLocks_ordered {mutex : RuntimeLock} (h : RanksBelow RuntimeLock.rank held mutex) :
    LockCode.OrderedFrom hasGil held (cachedLocks mutex) :=
  ⟨hold_ordered h, trivial, hold_ordered h⟩

/-- `wait` is ordered from no lock on. -/
theorem waitLocks_ordered (batch : ℕ) :
    LockCode.OrderedFrom hasGil ∅ (CommandBatch.waitLocks batch) :=
  ⟨hold_ordered (ranksBelow_empty _), rfl, hold_ordered (ranksBelow_empty _)⟩

/-- `dispatch` is ordered from no lock on. -/
theorem dispatchLocks_ordered (batch : ℕ) : LockCode.OrderedFrom hasGil ∅ (dispatchLocks batch) :=
  ⟨rfl, hold_ordered (ranksBelow_empty _), waitLocks_ordered batch⟩

/-- Code that is ordered from no lock on is ordered with the interpreter's lock released. -/
theorem release_ordered {body : LockCode} (h : LockCode.OrderedFrom hasGil ∅ body) :
    LockCode.OrderedFrom hasGil (interpreterLocks hasGil) (gilScopedRelease hasGil body) := by
  cases hasGil with
  | false => exact h
  | true =>
    have hnone : ({.gil} : Set RuntimeLock) \ {.gil} = ∅ := Set.sdiff_self
    refine ⟨Set.mem_singleton _, ?_, ?_⟩
    · rw [interpreterLocks, if_pos rfl, hnone]
      exact ranksBelow_empty _
    · rw [interpreterLocks, if_pos rfl, hnone]
      exact h

/-- Python code is ordered in a thread that holds nothing. -/
theorem acquire_ordered :
    LockCode.OrderedFrom hasGil ∅ (gilScopedAcquire hasGil .callback) := by
  cases hasGil with
  | false => exact rfl
  | true => exact ⟨ranksBelow_empty _, insert_empty_eq _⟩

/-- A binding is ordered if its body is. -/
theorem bindingLocks_ordered {body : LockCode}
    (h : LockCode.OrderedFrom hasGil (interpreterLocks hasGil) body) :
    LockCode.OrderedFrom hasGil (interpreterLocks hasGil) (bindingLocks body) := ⟨rfl, h, rfl⟩

/-- So is one whose body is a section of the runtime. -/
theorem runtimeSectionLocks_ordered {mutex : RuntimeLock} (h : 0 < mutex.rank) :
    LockCode.OrderedFrom hasGil (interpreterLocks hasGil) (runtimeSectionLocks mutex) :=
  bindingLocks_ordered ⟨runtimeLocks_ordered (ranksBelow_gil (Nat.succ_pos 1)),
    hold_ordered (ranksBelow_gil h)⟩

/-- `PyBatch::add` takes the mutex of the batch inside the keepalive mutex. -/
theorem addLocks_ordered (batch : ℕ) :
    LockCode.OrderedFrom hasGil (interpreterLocks hasGil) (PyBatch.addLocks batch) := by
  refine ⟨ranksBelow_gil Nat.one_pos, hold_ordered ?_⟩
  intro other hother
  rcases hother with rfl | hgil
  · exact Nat.one_lt_two
  · rw [eq_gil_of_mem hgil]
    exact Nat.two_pos

/-- `PyBatch::wait` waits without the interpreter's lock, and calls back outside the guard. -/
theorem pyBatch_waitLocks_ordered (batch : ℕ) :
    LockCode.OrderedFrom hasGil (interpreterLocks hasGil) (PyBatch.waitLocks hasGil batch) :=
  ⟨release_ordered (waitLocks_ordered batch), hold_ordered (ranksBelow_gil Nat.one_pos), rfl⟩

/-- Every call of a thread takes its locks in order, and waits for the device without any. -/
theorem threadCall_ordered (entry : ThreadCall) :
    LockCode.OrderedFrom hasGil ∅ (entry.locks hasGil) := by
  have hruntime : LockCode.OrderedFrom hasGil ∅ runtimeLocks :=
    runtimeLocks_ordered (ranksBelow_empty .runtimeGuard)
  cases entry with
  | python => exact acquire_ordered
  | mrCompileLibrary => exact hruntime
  | mrGetPipeline library => exact cachedLocks_ordered (ranksBelow_empty _)
  | mrDeviceInfo => exact hruntime
  | mrWrapBuffer => exact hruntime
  | mrDispatch batch => exact ⟨hruntime, dispatchLocks_ordered batch⟩
  | mrBatchCreate => exact ⟨hruntime, rfl⟩
  | mrBatchAdd batch => exact hold_ordered (ranksBelow_empty _)
  | mrBatchCommit batch => exact hold_ordered (ranksBelow_empty _)
  | mrBatchWait batch => exact waitLocks_ordered batch

end Ordered

/-- So does every entry point. -/
theorem lockProgram_ordered (hasGil : Bool) :
    (lockProgram hasGil).Ordered RuntimeLock.rank (interpreterLocks hasGil) where
  calls entry := threadCall_ordered entry
  callbacks entry := by
    have hruntime : LockCode.OrderedFrom hasGil (interpreterLocks hasGil) runtimeLocks :=
      runtimeLocks_ordered (ranksBelow_gil Nat.two_pos)
    cases entry with
    | newBuffer => exact bindingLocks_ordered hruntime
    | deviceInfo => exact bindingLocks_ordered hruntime
    | newKernel library =>
      exact bindingLocks_ordered ⟨hruntime, cachedLocks_ordered (ranksBelow_gil Nat.two_pos), rfl,
        cachedLocks_ordered (ranksBelow_gil Nat.two_pos)⟩
    | run batch =>
      exact bindingLocks_ordered (release_ordered
        ⟨runtimeLocks_ordered (ranksBelow_empty _), dispatchLocks_ordered batch⟩)
    | newBatch =>
      exact bindingLocks_ordered (release_ordered ⟨runtimeLocks_ordered (ranksBelow_empty _), rfl⟩)
    | add batch => exact bindingLocks_ordered (addLocks_ordered batch)
    | commit batch =>
      exact bindingLocks_ordered (release_ordered (hold_ordered (ranksBelow_empty _)))
    | wait batch => exact bindingLocks_ordered (pyBatch_waitLocks_ordered batch)
    | exit batch =>
      exact bindingLocks_ordered ⟨pyBatch_waitLocks_ordered batch,
        hold_ordered (ranksBelow_gil Nat.two_pos)⟩
    | barrier batch => exact bindingLocks_ordered (hold_ordered (ranksBelow_gil Nat.two_pos))
    | gpuTime batch => exact bindingLocks_ordered (hold_ordered (ranksBelow_gil Nat.two_pos))
    | switch => exact release_ordered trivial
    | ctypes entry => exact bindingLocks_ordered (release_ordered (threadCall_ordered entry))
    | _ => exact runtimeSectionLocks_ordered Nat.two_pos

/-- Any number of threads run Python code and the C API, in every interleaving, with exceptions
wherever they may be thrown: no thread takes a lock that it holds already; a thread that waits
for the device holds no lock, so not the interpreter's either; Python code runs with the
interpreter's lock, if it has one, and no mutex; and if no thread can go on, then every thread in a
call waits for the device. -/
theorem process_never_deadlocks {hasGil : Bool} {events : List (LockEvent ThreadCall BindingCall)}
    {shown : List Unit} {s : LockState RuntimeLock DeviceSignal}
    (hrun : runSchedule (LockState.step (lockProgram hasGil)) .initial events = some (shown, s)) :
    (∀ thread lock, wantedLock (s.stack thread) = some lock → s.owner lock ≠ some thread) ∧
    (∀ thread signal, awaitedSignal (s.stack thread) = some signal →
      ∀ lock, s.owner lock ≠ some thread) ∧
    (∀ thread rest, s.stack thread = .run .callback :: rest →
      ∀ lock, s.owner lock = some thread ↔ hasGil = true ∧ lock = .gil) ∧
    ((∀ thread, ¬ s.CanAdvance thread) → ∀ thread, s.stack thread = [] ∨
      ∃ signal, awaitedSignal (s.stack thread) = some signal) := by
  have hfits : s.Fits RuntimeLock.rank (interpreterLocks hasGil) := by
    apply runSchedule_invariant (LockState.Fits RuntimeLock.rank (interpreterLocks hasGil)) _
      (LockState.initial_fits _ _) hrun
    intro s event shown s' h hstep
    exact LockState.step_fits (lockProgram_ordered hasGil) h hstep
  refine ⟨?_, ?_, ?_, LockState.awaits_of_stuck hfits RuntimeLock.rank_le⟩
  · intro thread lock hwanted howner
    exact ((hfits thread).wanted hwanted).not_mem howner
  · intro thread signal hawaited lock howner
    have hlock : lock ∈ ownedBy s.owner thread := howner
    rw [(hfits thread).awaited hawaited] at hlock
    exact hlock
  · intro thread rest hstack lock
    have hthread := hfits thread
    rw [hstack] at hthread
    have howned : ownedBy s.owner thread = interpreterLocks hasGil := hthread.1
    have hmem : lock ∈ interpreterLocks hasGil ↔ hasGil = true ∧ lock = .gil := by
      cases hasGil <;> simp [interpreterLocks]
    exact (Set.ext_iff.mp howned lock).trans hmem

/-- A Python thread waits for a batch; another one then takes the interpreter's lock and adds to
a batch. -/
def waitingEvents : List (LockEvent ThreadCall BindingCall) :=
  [.call 0 .python, .advance 0 true, .callback 0 (.wait 7)] ++
    List.replicate 10 (.advance 0 true) ++
    [.call 1 .python, .advance 1 true, .callback 1 (.add 8)]

/-- The first holds nothing while the batch runs, and the second runs Python code with the
interpreter's lock. -/
theorem waiting_thread_holds_nothing : ∃ shown s,
    runSchedule (LockState.step (lockProgram true)) .initial waitingEvents = some (shown, s) ∧
    awaitedSignal (s.stack 0) = some (.completed 7) ∧ (∀ lock, s.owner lock ≠ some 0) ∧
    s.owner .gil = some 1 := by
  have hrun : runSchedule (LockState.step (lockProgram true)) .initial waitingEvents =
      some (_, _) := rfl
  obtain ⟨-, hawaits, -, -⟩ := process_never_deadlocks hrun
  exact ⟨_, _, hrun, rfl, hawaits 0 (.completed 7) rfl, rfl⟩

end MetalRuntime
