import Mathlib.Algebra.GroupWithZero.Nat
import Mathlib.Algebra.Order.BigOperators.Group.List
import Mathlib.Data.List.Basic

/-!
# Tables whose slots keep their last value

An argument table has a slot for each index. Setting a slot replaces its value and leaves
every other slot as it was; nothing is ever cleared. A table is a list of optional values,
extended with empty slots when an index beyond its end is set, so that the total weight
of everything it holds is a finite sum.
-/

namespace Foundations

variable {α : Type*}

/-- A table of slots, each empty or holding the value last set. -/
structure SlotTable (α : Type*) where
  slots : List (Option α)
  deriving DecidableEq

namespace SlotTable

/-- The table in which nothing was set. -/
def empty : SlotTable α := ⟨[]⟩

/-- The value last set at an index. -/
def get (table : SlotTable α) (index : ℕ) : Option α := table.slots[index]?.join

/-- Set a slot of a list of slots, extending the list as far as needed. -/
def setSlot (a : α) : List (Option α) → ℕ → List (Option α)
  | [], 0 => [some a]
  | [], index + 1 => none :: setSlot a [] index
  | _ :: rest, 0 => some a :: rest
  | slot :: rest, index + 1 => slot :: setSlot a rest index

/-- Set the value at an index. -/
def set (table : SlotTable α) (index : ℕ) (a : α) : SlotTable α :=
  ⟨setSlot a table.slots index⟩

/-- Set consecutive slots from a first index on. -/
def setFrom (table : SlotTable α) (first : ℕ) : List α → SlotTable α
  | [] => table
  | a :: rest => setFrom (table.set first a) (first + 1) rest

/-- A list of slots after setting one of them. -/
private theorem getElem?_setSlot (a : α) (slots : List (Option α)) (index other : ℕ) :
    (setSlot a slots index)[other]?.join =
      if other = index then some a else slots[other]?.join := by
  induction slots, index using setSlot.induct generalizing other with
  | case1 => cases other <;> simp [setSlot]
  | case2 index ih =>
    cases other with
    | zero => simp [setSlot]
    | succ other => simpa [setSlot] using ih other
  | case3 => cases other <;> simp [setSlot]
  | case4 slot rest index ih =>
    cases other with
    | zero => simp [setSlot]
    | succ other => simpa [setSlot] using ih other

/-- Reading after setting: the new value at its index, the old values elsewhere. -/
theorem get_set (table : SlotTable α) (index other : ℕ) (a : α) :
    (table.set index a).get other = if other = index then some a else table.get other :=
  getElem?_setSlot a table.slots index other

/-- Reading after setting consecutive slots. -/
theorem get_setFrom (table : SlotTable α) (first other : ℕ) (values : List α) :
    (table.setFrom first values).get other =
      if first ≤ other ∧ other < first + values.length then values[other - first]?
      else table.get other := by
  induction values generalizing table first with
  | nil =>
    rw [setFrom, if_neg]
    simp only [List.length_nil]
    omega
  | cons a rest ih =>
    rw [setFrom, ih, get_set, List.length_cons]
    by_cases hfirst : other = first
    · subst hfirst
      simp
    · by_cases hrange : first + 1 ≤ other ∧ other < first + 1 + rest.length
      · rw [if_pos hrange, if_pos (by omega), show other - first = other - (first + 1) + 1 by omega,
          List.getElem?_cons_succ]
      · rw [if_neg hrange, if_neg hfirst, if_neg (by omega)]

/-- A slot inside the range that was set does not depend on the table before. -/
theorem get_setFrom_of_mem (table other : SlotTable α) {first index : ℕ} {values : List α}
    (hindex : first ≤ index ∧ index < first + values.length) :
    (table.setFrom first values).get index = (other.setFrom first values).get index := by
  rw [get_setFrom, get_setFrom, if_pos hindex, if_pos hindex]

/-- Setting the slot after a prefix of the slots. -/
private theorem setSlot_append (a : α) (before after : List (Option α)) :
    setSlot a (before ++ after) before.length = before ++ some a :: after.drop 1 := by
  induction before with
  | nil => cases after <;> rfl
  | cons slot rest ih =>
    rw [List.cons_append, List.length_cons, setSlot, ih]
    rfl

/-- Setting consecutive slots after a prefix of the slots. -/
private theorem slots_setFrom_append (values : List α) (before after : List (Option α)) :
    (setFrom ⟨before ++ after⟩ before.length values).slots =
      before ++ (values.map some ++ after.drop values.length) := by
  induction values generalizing before after with
  | nil => rfl
  | cons a rest ih =>
    have hset : set ⟨before ++ after⟩ before.length a =
        ⟨before ++ some a :: after.drop 1⟩ := congrArg SlotTable.mk (setSlot_append a before after)
    have hrest := ih (before ++ [some a]) (after.drop 1)
    rw [List.append_assoc, List.length_append] at hrest
    rw [setFrom, hset, List.map_cons, List.length_cons, Nat.add_comm rest.length, ← List.drop_drop]
    exact hrest.trans (List.append_assoc _ _ _)

/-- Setting slots from the start replaces as many slots as there are values. -/
theorem slots_setFrom_zero (table : SlotTable α) (values : List α) :
    (table.setFrom 0 values).slots = values.map some ++ table.slots.drop values.length :=
  slots_setFrom_append values [] table.slots

/-- Setting two lists of values in a row. -/
theorem setFrom_append (table : SlotTable α) (first : ℕ) (values more : List α) :
    table.setFrom first (values ++ more) =
      (table.setFrom first values).setFrom (first + values.length) more := by
  induction values generalizing table first with
  | nil => rfl
  | cons a rest ih =>
    rw [List.cons_append, setFrom, ih, setFrom, List.length_cons, Nat.add_right_comm, Nat.add_assoc]

/-- The total weight of all values held. -/
def total (weight : α → ℕ) (table : SlotTable α) : ℕ :=
  (table.slots.map fun slot => slot.elim 0 weight).sum

end SlotTable

end Foundations
