import Mathlib.Logic.Function.Basic
import Mathlib.Data.Set.Function

/-!
# Objects behind handles

A library in C hands out pointers to objects and is given them back. A table has the objects that
are live. A handle is used for one object only, and a pointer is null or a handle. What holds of
every live object is kept by each operation, and an operation on one handle leaves the objects
behind all others alone.
-/

namespace Foundations

variable {α : Type*}

/-- The live objects by their handles, and the next handle. -/
structure Handles (α : Type*) where
  live : ℕ → Option α
  next : ℕ

namespace Handles

/-- No object yet. -/
def empty : Handles α := ⟨fun _ => none, 0⟩

/-- A new object behind a new handle. -/
def create (table : Handles α) (object : α) : Handles α :=
  ⟨Function.update table.live table.next (some object), table.next + 1⟩

/-- Replace the object behind a handle. -/
def set (table : Handles α) (handle : ℕ) (object : α) : Handles α :=
  { table with live := Function.update table.live handle (some object) }

/-- Delete the object behind a pointer; deleting null does nothing. -/
def release (table : Handles α) : Option ℕ → Handles α
  | none => table
  | some handle => { table with live := Function.update table.live handle none }

/-- The object behind a pointer, if it is not null. -/
def find (table : Handles α) (pointer : Option ℕ) : Option α := pointer.bind table.live

/-- A pointer that may be passed: it is null, or its object is live. -/
def Valid (table : Handles α) (pointer : Option ℕ) : Prop :=
  ∀ handle ∈ pointer, (table.live handle).isSome

instance (table : Handles α) (pointer : Option ℕ) : Decidable (table.Valid pointer) :=
  match pointer with
  | none => isTrue fun _ h => by cases h
  | some handle => decidable_of_iff (table.live handle).isSome ⟨fun h _ heq => by
      cases heq
      exact h, fun h => h handle rfl⟩

/-- Handles from the next one on are not in use. -/
def Bounded (table : Handles α) : Prop := ∀ handle, table.next ≤ handle → table.live handle = none

/-- Every live object has a property. -/
def All (P : α → Prop) (table : Handles α) : Prop :=
  ∀ handle object, table.live handle = some object → P object

section Lookup

variable (table : Handles α) {handle other : ℕ} {pointer : Option ℕ} (object : α)

@[simp] theorem live_create_self : (table.create object).live table.next = some object :=
  Function.update_self _ _ _

theorem live_create_of_ne (h : handle ≠ table.next) :
    (table.create object).live handle = table.live handle := Function.update_of_ne h _ _

@[simp] theorem live_set_self : (table.set handle object).live handle = some object :=
  Function.update_self _ _ _

theorem live_set_of_ne (h : other ≠ handle) :
    (table.set handle object).live other = table.live other := Function.update_of_ne h _ _

@[simp] theorem live_release_self : (table.release (some handle)).live handle = none :=
  Function.update_self _ _ _

theorem live_release_of_ne (h : pointer ≠ some handle) :
    (table.release pointer).live handle = table.live handle := by
  cases pointer with
  | none => rfl
  | some released => exact Function.update_of_ne (fun heq => h (congrArg some heq.symm)) _ _

/-- An object that is live after a release was live before. -/
theorem live_of_release {table : Handles α} {object : α} (pointer : Option ℕ)
    (h : (table.release pointer).live handle = some object) :
    table.live handle = some object := by
  cases pointer with
  | none => exact h
  | some released =>
    by_cases heq : handle = released
    · subst heq
      rw [live_release_self] at h
      cases h
    · rwa [live_release_of_ne _ fun hsame => heq (Option.some.inj hsame).symm] at h

/-- Putting back the object that is there changes nothing. -/
theorem set_eq_self {table : Handles α} {object : α} (h : table.live handle = some object) :
    table.set handle object = table := by
  rw [set, ← h, Function.update_eq_self]

/-- Only the last object put behind a handle counts. -/
@[simp] theorem set_set (later : α) :
    (table.set handle object).set handle later = table.set handle later := by
  rw [set, set, set, Function.update_idem]

/-- What a pointer finds is behind its handle. -/
theorem find_eq_some_iff {table : Handles α} {object : α} : table.find pointer = some object ↔
    ∃ handle, pointer = some handle ∧ table.live handle = some object :=
  Option.bind_eq_some_iff

end Lookup

section Bounded

variable {table : Handles α} {handle : ℕ} {object : α}

theorem bounded_empty : (empty : Handles α).Bounded := fun _ _ => rfl

theorem Bounded.create (h : table.Bounded) (object : α) : (table.create object).Bounded := by
  intro handle hle
  have hle' : table.next < handle := hle
  rw [live_create_of_ne _ _ (Nat.ne_of_gt hle')]
  exact h handle hle'.le

/-- The next handle is new. -/
theorem Bounded.ne_next (h : table.Bounded) (hlive : table.live handle = some object) :
    handle ≠ table.next := by
  rintro rfl
  rw [h _ le_rfl] at hlive
  cases hlive

/-- Creating an object leaves the others alone. -/
theorem Bounded.live_create (h : table.Bounded) (hlive : table.live handle = some object)
    (new : α) : (table.create new).live handle = some object :=
  (live_create_of_ne _ _ (h.ne_next hlive)).trans hlive

/-- An object is replaced only where one is live. -/
theorem Bounded.set (h : table.Bounded) (hlive : (table.live handle).isSome) (object : α) :
    (table.set handle object).Bounded := by
  intro other hle
  have hother := h other hle
  rw [live_set_of_ne]
  · exact hother
  · intro heq
    rw [← heq, hother] at hlive
    cases hlive

theorem Bounded.release (h : table.Bounded) (pointer : Option ℕ) :
    (table.release pointer).Bounded := by
  cases pointer with
  | none => exact h
  | some handle =>
    intro other hle
    by_cases heq : other = handle
    · subst heq
      exact Function.update_self _ _ _
    · exact (Function.update_of_ne heq _ _).trans (h other hle)

end Bounded

section All

variable {P : α → Prop} {table : Handles α} {object : α}

theorem all_empty (P : α → Prop) : (empty : Handles α).All P := fun _ _ h => by cases h

theorem All.create (h : table.All P) (hobject : P object) : (table.create object).All P := by
  intro handle found hfound
  by_cases heq : handle = table.next
  · subst heq
    rw [live_create_self] at hfound
    cases hfound
    exact hobject
  · rw [live_create_of_ne _ _ heq] at hfound
    exact h handle found hfound

theorem All.set (h : table.All P) (handle : ℕ) (hobject : P object) :
    (table.set handle object).All P := by
  intro other found hfound
  by_cases heq : other = handle
  · subst heq
    rw [live_set_self] at hfound
    cases hfound
    exact hobject
  · rw [live_set_of_ne _ _ heq] at hfound
    exact h other found hfound

theorem All.release (h : table.All P) (pointer : Option ℕ) : (table.release pointer).All P :=
  fun handle found hfound => h handle found (live_of_release pointer hfound)

theorem All.find (h : table.All P) {pointer : Option ℕ} (hfind : table.find pointer = some object) :
    P object := by
  obtain ⟨handle, -, hlive⟩ := find_eq_some_iff.mp hfind
  exact h handle object hlive

/-- A property that follows from another one. -/
theorem All.mono {Q : α → Prop} (h : table.All P) (hPQ : ∀ object, P object → Q object) :
    table.All Q := fun handle object hlive => hPQ object (h handle object hlive)

end All

end Handles

end Foundations
