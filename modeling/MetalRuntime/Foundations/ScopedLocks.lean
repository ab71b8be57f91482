import MetalRuntime.Foundations.Runs
import Mathlib.Logic.Function.Basic
import Mathlib.Order.BooleanAlgebra.Set

/-!
# Locks held by scopes

Code that takes its locks by scopes: a guard holds a lock around a body, and a lock that is held
can be released around a body and is taken again after it. An exception may leave any number of
scopes, and the guards on the way still act. Any number of threads run such code, each call as
often as it likes; some code calls back into other code. If every lock is taken only by threads
whose locks rank below it, and nobody waits for a signal with a lock, then the threads never
block each other for good.
-/

namespace Foundations

variable {L W C K : Type*}

/-- Code, by what it does to locks. It may wait for a signal from outside, and call back. -/
inductive ScopedCode (L W : Type*)
  | skip
  | await (signal : W)
  | hold (lock : L) (body : ScopedCode L W)
  | release (lock : L) (body : ScopedCode L W)
  | seq (first second : ScopedCode L W)
  | either (left right : ScopedCode L W)
  /-- The cleanup runs also if the body throws. -/
  | ensure (body cleanup : ScopedCode L W)
  | callback
  deriving DecidableEq

/-- What a thread has left to do. An exception drops code, but nothing else. -/
inductive ScopeFrame (L W : Type*)
  | run (code : ScopedCode L W)
  | cleanup (code : ScopedCode L W)
  | unlock (lock : L)
  | relock (lock : L)
  deriving DecidableEq

/-- Whether a frame survives an exception. -/
def ScopeFrame.isExit : ScopeFrame L W → Bool
  | .run _ => false
  | _ => true

/-- The owner of each lock, and what each thread has left to do. -/
structure LockState (L W : Type*) where
  owner : L → Option ℕ
  stack : ℕ → List (ScopeFrame L W)

/-- The calls that a thread may start, and the code that may be called back. -/
structure LockProgram (L W C K : Type*) where
  calls : C → ScopedCode L W
  callbacks : K → ScopedCode L W

/-- A step of some thread: it starts a call, calls back, goes on by itself, sees its signal, or
throws out of a number of frames. -/
inductive LockEvent (C K : Type*)
  | call (thread : ℕ) (entry : C)
  | callback (thread : ℕ) (entry : K)
  | advance (thread : ℕ) (left : Bool)
  | signal (thread : ℕ)
  | throw (thread depth : ℕ)

/-- The lock that a thread takes next, if it takes one. -/
def wantedLock : List (ScopeFrame L W) → Option L
  | .run (.hold lock _) :: _ => some lock
  | .relock lock :: _ => some lock
  | _ => none

/-- The signal that a thread waits for, if it waits for one. -/
def awaitedSignal : List (ScopeFrame L W) → Option W
  | .run (.await signal) :: _ => some signal
  | _ => none

/-- Every lock of a set ranks below a lock. -/
def RanksBelow (rank : L → ℕ) (held : Set L) (lock : L) : Prop :=
  ∀ other ∈ held, rank other < rank lock

/-- Code that, started with some locks held, takes its locks in the order of their ranks, waits
for signals with none held, and calls back only with certain ones held. -/
def ScopedCode.Ordered (rank : L → ℕ) (back : Set L) : Set L → ScopedCode L W → Prop
  | _, .skip => True
  | held, .await _ => held = ∅
  | held, .hold lock body => RanksBelow rank held lock ∧ Ordered rank back (insert lock held) body
  | held, .release lock body => lock ∈ held ∧ RanksBelow rank (held \ {lock}) lock ∧
      Ordered rank back (held \ {lock}) body
  | held, .seq first second => Ordered rank back held first ∧ Ordered rank back held second
  | held, .either left right => Ordered rank back held left ∧ Ordered rank back held right
  | held, .ensure body cleanup => Ordered rank back held body ∧ Ordered rank back held cleanup
  | held, .callback => held = back

/-- Frames that fit the locks a thread owns. -/
def FramesFit (rank : L → ℕ) (back : Set L) : Set L → List (ScopeFrame L W) → Prop
  | held, [] => held = ∅
  | held, .run code :: rest => code.Ordered rank back held ∧ FramesFit rank back held rest
  | held, .cleanup code :: rest => code.Ordered rank back held ∧ FramesFit rank back held rest
  | held, .unlock lock :: rest => lock ∈ held ∧ FramesFit rank back (held \ {lock}) rest
  | held, .relock lock :: rest =>
    RanksBelow rank held lock ∧ FramesFit rank back (insert lock held) rest

/-- A program whose calls are ordered from no lock on, and whose callbacks are ordered from the
locks with which it calls back. -/
structure LockProgram.Ordered (program : LockProgram L W C K) (rank : L → ℕ) (back : Set L) :
    Prop where
  calls : ∀ entry, (program.calls entry).Ordered rank back ∅
  callbacks : ∀ entry, (program.callbacks entry).Ordered rank back back

section Ranks

variable {rank : L → ℕ} {held : Set L} {lock : L}

/-- A lock that ranks above the locks held is none of them. -/
theorem RanksBelow.not_mem (h : RanksBelow rank held lock) : lock ∉ held :=
  fun hmem => lt_irrefl _ (h lock hmem)

end Ranks

section Frames

variable {rank : L → ℕ} {back held : Set L} {stack : List (ScopeFrame L W)}

/-- An exception leaves frames that fit. -/
theorem FramesFit.throw (h : FramesFit rank back held stack) (depth : ℕ) :
    FramesFit rank back held
      ((stack.take depth).filter ScopeFrame.isExit ++ stack.drop depth) := by
  induction stack generalizing held depth with
  | nil => simpa using h
  | cons frame rest ih =>
    cases depth with
    | zero => simpa using h
    | succ depth =>
      rw [List.take_succ_cons, List.drop_succ_cons]
      cases frame with
      | run code => exact ih h.2 depth
      | cleanup code => exact ⟨h.1, ih h.2 depth⟩
      | unlock lock => exact ⟨h.1, ih h.2 depth⟩
      | relock lock => exact ⟨h.1, ih h.2 depth⟩

/-- A thread takes a lock only above its own. -/
theorem FramesFit.wanted (h : FramesFit rank back held stack) {lock : L}
    (hwanted : wantedLock stack = some lock) : RanksBelow rank held lock := by
  cases stack with
  | nil => cases hwanted
  | cons frame rest =>
    cases frame with
    | run code =>
      cases code with
      | hold other body =>
        cases hwanted
        exact h.1.1
      | _ => cases hwanted
    | relock other =>
      cases hwanted
      exact h.1
    | cleanup code => cases hwanted
    | unlock other => cases hwanted

/-- A thread waits for a signal with no lock. -/
theorem FramesFit.awaited (h : FramesFit rank back held stack) {signal : W}
    (hawaited : awaitedSignal stack = some signal) : held = ∅ := by
  cases stack with
  | nil => cases hawaited
  | cons frame rest =>
    cases frame with
    | run code =>
      cases code with
      | await other => exact h.1
      | _ => cases hawaited
    | cleanup code => cases hawaited
    | unlock other => cases hawaited
    | relock other => cases hawaited

end Frames

variable [DecidableEq L]

/-- What a thread does by itself. It takes a lock only if nobody owns it, and never skips a
signal. -/
def advance (owner : L → Option ℕ) (thread : ℕ) (left : Bool) :
    List (ScopeFrame L W) → Option ((L → Option ℕ) × List (ScopeFrame L W))
  | [] => none
  | .run .skip :: rest => some (owner, rest)
  | .run (.await _) :: _ => none
  | .run (.hold lock body) :: rest =>
    if owner lock = none then
      some (Function.update owner lock (some thread), .run body :: .unlock lock :: rest)
    else none
  | .run (.release lock body) :: rest =>
    some (Function.update owner lock none, .run body :: .relock lock :: rest)
  | .run (.seq first second) :: rest => some (owner, .run first :: .run second :: rest)
  | .run (.either left' right) :: rest => some (owner, .run (if left then left' else right) :: rest)
  | .run (.ensure body cleanup) :: rest => some (owner, .run body :: .cleanup cleanup :: rest)
  | .run .callback :: rest => some (owner, rest)
  | .cleanup code :: rest => some (owner, .run code :: rest)
  | .unlock lock :: rest => some (Function.update owner lock none, rest)
  | .relock lock :: rest =>
    if owner lock = none then some (Function.update owner lock (some thread), rest) else none

namespace LockState

/-- No lock is owned and no thread is in a call. -/
def initial : LockState L W := ⟨fun _ => none, fun _ => []⟩

/-- The state after a thread's frames were replaced. -/
def withStack (s : LockState L W) (thread : ℕ) (stack : List (ScopeFrame L W)) : LockState L W :=
  { s with stack := Function.update s.stack thread stack }

/-- The next state after an event, if the event can happen. -/
def step (program : LockProgram L W C K) (s : LockState L W) :
    LockEvent C K → Option (Unit × LockState L W)
  | .call thread entry =>
    match s.stack thread with
    | [] => some ((), s.withStack thread [.run (program.calls entry)])
    | _ => none
  | .callback thread entry =>
    match s.stack thread with
    | .run .callback :: rest => some ((), s.withStack thread
        (.run (program.callbacks entry) :: .run .callback :: rest))
    | _ => none
  | .advance thread left =>
    match advance s.owner thread left (s.stack thread) with
    | some (owner, stack) => some ((), { s with owner }.withStack thread stack)
    | none => none
  | .signal thread =>
    match s.stack thread with
    | .run (.await _) :: rest => some ((), s.withStack thread rest)
    | _ => none
  | .throw thread depth => some ((), s.withStack thread
      (((s.stack thread).take depth).filter ScopeFrame.isExit ++ (s.stack thread).drop depth))

end LockState

/-- A thread that cannot go on is in no call, waits for a signal, or wants a lock. -/
theorem blocked_of_advance {owner : L → Option ℕ} {thread : ℕ} {left : Bool}
    {stack : List (ScopeFrame L W)} (h : advance owner thread left stack = none) :
    stack = [] ∨ (∃ signal, awaitedSignal stack = some signal) ∨
      ∃ lock, wantedLock stack = some lock := by
  cases stack with
  | nil => exact Or.inl rfl
  | cons frame rest =>
    cases frame with
    | run code =>
      cases code with
      | await signal => exact Or.inr (Or.inl ⟨signal, rfl⟩)
      | hold lock body => exact Or.inr (Or.inr ⟨lock, rfl⟩)
      | _ => cases h
    | relock lock => exact Or.inr (Or.inr ⟨lock, rfl⟩)
    | cleanup code => cases h
    | unlock lock => cases h

/-- A lock that keeps a thread from going on has an owner. -/
theorem owner_of_wanted {owner : L → Option ℕ} {thread : ℕ} {left : Bool}
    {stack : List (ScopeFrame L W)} {lock : L} (hwanted : wantedLock stack = some lock)
    (h : advance owner thread left stack = none) : ∃ holder, owner lock = some holder := by
  apply Option.ne_none_iff_exists'.mp
  intro hfree
  cases stack with
  | nil => cases hwanted
  | cons frame rest =>
    cases frame with
    | run code =>
      cases code with
      | hold other body =>
        cases hwanted
        simp [advance, hfree] at h
      | _ => cases hwanted
    | relock other =>
      cases hwanted
      simp [advance, hfree] at h
    | cleanup code => cases hwanted
    | unlock other => cases hwanted

/-- The locks that a thread owns. -/
def ownedBy (owner : L → Option ℕ) (thread : ℕ) : Set L := {lock | owner lock = some thread}

section Owners

variable {owner : L → Option ℕ} {lock : L} {thread other : ℕ}

/-- A thread that takes a lock owns it besides its own. -/
theorem ownedBy_take (owner : L → Option ℕ) (lock : L) (thread : ℕ) :
    ownedBy (Function.update owner lock (some thread)) thread =
      insert lock (ownedBy owner thread) := by
  ext l
  by_cases hl : l = lock
  · subst hl
    simp [ownedBy]
  · simp [ownedBy, hl]

/-- Taking a free lock takes it from nobody. -/
theorem ownedBy_take_of_ne (hfree : owner lock = none) (hother : other ≠ thread) :
    ownedBy (Function.update owner lock (some thread)) other = ownedBy owner other := by
  ext l
  by_cases hl : l = lock
  · subst hl
    simp [ownedBy, hfree, hother.symm]
  · simp [ownedBy, Function.update_of_ne hl]

/-- A thread that gives up a lock owns its other locks. -/
theorem ownedBy_drop (owner : L → Option ℕ) (lock : L) (thread : ℕ) :
    ownedBy (Function.update owner lock none) thread = ownedBy owner thread \ {lock} := by
  ext l
  by_cases hl : l = lock
  · subst hl
    simp [ownedBy]
  · simp [ownedBy, hl]

/-- Giving up a lock takes nothing from the other threads. -/
theorem ownedBy_drop_of_ne (howner : owner lock = some thread) (hother : other ≠ thread) :
    ownedBy (Function.update owner lock none) other = ownedBy owner other := by
  ext l
  by_cases hl : l = lock
  · subst hl
    simp [ownedBy, howner, hother.symm]
  · simp [ownedBy, Function.update_of_ne hl]

end Owners

/-- What a thread does by itself keeps the frames of every thread fitting. -/
theorem advance_fits {rank : L → ℕ} {back : Set L} {owner owner' : L → Option ℕ} {thread : ℕ}
    {left : Bool} {stack stack' : List (ScopeFrame L W)}
    (h : FramesFit rank back (ownedBy owner thread) stack)
    (hadvance : advance owner thread left stack = some (owner', stack')) :
    FramesFit rank back (ownedBy owner' thread) stack' ∧
      ∀ other, other ≠ thread → ownedBy owner' other = ownedBy owner other := by
  have hdropped : ∀ lock, lock ∈ ownedBy owner thread → ∀ other, other ≠ thread →
      ownedBy (Function.update owner lock none) other = ownedBy owner other :=
    fun lock hlock other hother => ownedBy_drop_of_ne hlock hother
  cases stack with
  | nil => cases hadvance
  | cons frame rest =>
    cases frame with
    | run code =>
      cases code with
      | await signal => cases hadvance
      | skip =>
        cases hadvance
        exact ⟨h.2, fun _ _ => rfl⟩
      | callback =>
        cases hadvance
        exact ⟨h.2, fun _ _ => rfl⟩
      | seq first second =>
        cases hadvance
        exact ⟨⟨h.1.1, h.1.2, h.2⟩, fun _ _ => rfl⟩
      | ensure body cleanup =>
        cases hadvance
        exact ⟨⟨h.1.1, h.1.2, h.2⟩, fun _ _ => rfl⟩
      | either first second =>
        cases hadvance
        refine ⟨⟨?_, h.2⟩, fun _ _ => rfl⟩
        cases left with
        | true => exact h.1.1
        | false => exact h.1.2
      | hold lock body =>
        obtain ⟨hfree, heq⟩ := Option.ite_none_right_eq_some.mp hadvance
        cases heq
        obtain ⟨⟨hbelow, hbody⟩, hrest⟩ := h
        refine ⟨?_, fun other hother => ownedBy_take_of_ne hfree hother⟩
        rw [ownedBy_take]
        refine ⟨hbody, Set.mem_insert lock _, ?_⟩
        rwa [Set.insert_sdiff_self_of_notMem hbelow.not_mem]
      | release lock body =>
        cases hadvance
        obtain ⟨⟨hlock, hbelow, hbody⟩, hrest⟩ := h
        refine ⟨?_, hdropped lock hlock⟩
        rw [ownedBy_drop]
        refine ⟨hbody, hbelow, ?_⟩
        rwa [Set.insert_sdiff_self_of_mem hlock]
    | cleanup code =>
      cases hadvance
      exact ⟨h, fun _ _ => rfl⟩
    | unlock lock =>
      cases hadvance
      refine ⟨?_, hdropped lock h.1⟩
      rw [ownedBy_drop]
      exact h.2
    | relock lock =>
      obtain ⟨hfree, heq⟩ := Option.ite_none_right_eq_some.mp hadvance
      cases heq
      refine ⟨?_, fun other hother => ownedBy_take_of_ne hfree hother⟩
      rw [ownedBy_take]
      exact h.2

namespace LockState

variable {program : LockProgram L W C K} {rank : L → ℕ} {back : Set L} {s s' : LockState L W}
  {event : LockEvent C K} {shown : Unit} {bound : ℕ}

/-- The frames of every thread fit the locks it owns. -/
def Fits (rank : L → ℕ) (back : Set L) (s : LockState L W) : Prop :=
  ∀ thread, FramesFit rank back (ownedBy s.owner thread) (s.stack thread)

omit [DecidableEq L] in
/-- Nobody is in a call at first. -/
theorem initial_fits (rank : L → ℕ) (back : Set L) : (initial : LockState L W).Fits rank back := by
  intro thread
  apply Set.eq_empty_of_forall_notMem
  intro lock hlock
  cases hlock

omit [DecidableEq L] in
/-- Replacing the frames of one thread by others that fit keeps the frames fitting. -/
theorem Fits.withStack (h : s.Fits rank back) {thread : ℕ} {stack : List (ScopeFrame L W)}
    (hstack : FramesFit rank back (ownedBy s.owner thread) stack) :
    (s.withStack thread stack).Fits rank back := by
  intro other
  by_cases hother : other = thread
  · subst hother
    simpa only [LockState.withStack, Function.update_self] using hstack
  · simpa only [LockState.withStack, Function.update_of_ne hother] using h other

/-- Every step of an ordered program keeps the frames fitting. -/
theorem step_fits (hprogram : program.Ordered rank back) (h : s.Fits rank back)
    (hstep : s.step program event = some (shown, s')) : s'.Fits rank back := by
  cases event with
  | call thread entry =>
    have hthread := h thread
    simp only [step] at hstep
    split at hstep
    · next hstack =>
      cases hstep
      rw [hstack] at hthread
      apply h.withStack
      rw [show ownedBy s.owner thread = ∅ from hthread]
      exact ⟨hprogram.calls entry, rfl⟩
    · cases hstep
  | callback thread entry =>
    have hthread := h thread
    simp only [step] at hstep
    split at hstep
    · next rest hstack =>
      cases hstep
      rw [hstack] at hthread
      apply h.withStack
      refine ⟨?_, hthread⟩
      rw [show ownedBy s.owner thread = back from hthread.1]
      exact hprogram.callbacks entry
    · cases hstep
  | advance thread left =>
    simp only [step] at hstep
    split at hstep
    · next owner stack hadvance =>
      cases hstep
      obtain ⟨hstack, hothers⟩ := advance_fits (h thread) hadvance
      intro other
      by_cases hother : other = thread
      · subst hother
        simpa only [LockState.withStack, Function.update_self] using hstack
      · simpa only [LockState.withStack, Function.update_of_ne hother, hothers other hother]
          using h other
    · cases hstep
  | signal thread =>
    have hthread := h thread
    simp only [step] at hstep
    split at hstep
    · next signal rest hstack =>
      cases hstep
      rw [hstack] at hthread
      exact h.withStack hthread.2
    · cases hstep
  | throw thread depth =>
    cases Option.some.inj hstep
    exact h.withStack ((h thread).throw depth)

/-- A thread goes on by itself. -/
def CanAdvance (s : LockState L W) (thread : ℕ) : Prop :=
  ∃ left result, advance s.owner thread left (s.stack thread) = some result

/-- What a thread that cannot go on would do next. -/
theorem advance_of_stuck {thread : ℕ} (hstuck : ¬ s.CanAdvance thread) :
    advance s.owner thread true (s.stack thread) = none := by
  by_contra hsome
  obtain ⟨result, hresult⟩ := Option.ne_none_iff_exists'.mp hsome
  exact hstuck ⟨true, result, hresult⟩

/-- If nobody can go on, then nobody wants a lock: the owner of a wanted lock wants a lock that
ranks higher. -/
theorem not_wanted_of_stuck (h : s.Fits rank back) (hbound : ∀ lock, rank lock ≤ bound)
    (hstuck : ∀ thread, ¬ s.CanAdvance thread) (thread : ℕ) (lock : L) :
    wantedLock (s.stack thread) ≠ some lock := by
  intro hwanted
  -- The rank of the wanted lock can only grow so far.
  induction hleft : bound - rank lock using Nat.strong_induction_on generalizing thread lock with
  | _ left ih =>
    obtain ⟨holder, hholder⟩ := owner_of_wanted hwanted (advance_of_stuck (hstuck thread))
    have howned : lock ∈ ownedBy s.owner holder := hholder
    rcases blocked_of_advance (advance_of_stuck (hstuck holder)) with
      hnil | ⟨signal, hsignal⟩ | ⟨next, hnext⟩
    · have hempty := h holder
      rw [hnil] at hempty
      rw [show ownedBy s.owner holder = ∅ from hempty] at howned
      exact howned
    · rw [(h holder).awaited hsignal] at howned
      exact howned
    · have hhigher := (h holder).wanted hnext lock howned
      have hle := hbound next
      exact ih (bound - rank next) (by omega) holder next hnext rfl

/-- If nobody can go on, every thread in a call waits for a signal. -/
theorem awaits_of_stuck (h : s.Fits rank back) (hbound : ∀ lock, rank lock ≤ bound)
    (hstuck : ∀ thread, ¬ s.CanAdvance thread) (thread : ℕ) :
    s.stack thread = [] ∨ ∃ signal, awaitedSignal (s.stack thread) = some signal := by
  rcases blocked_of_advance (advance_of_stuck (hstuck thread)) with hnil | hsignal | ⟨lock, hwanted⟩
  · exact Or.inl hnil
  · exact Or.inr hsignal
  · exact absurd hwanted (not_wanted_of_stuck h hbound hstuck thread lock)

end LockState

end Foundations
