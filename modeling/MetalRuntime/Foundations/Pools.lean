import MetalRuntime.Foundations.Runs
import Mathlib.Algebra.BigOperators.Group.List.Basic
import Mathlib.Algebra.GroupWithZero.Nat
import Mathlib.Order.Nat

/-!
# Pools of independent parts

A list of parts with states of their own. A step goes on with one part and leaves the others
alone, so what is true of all parts, the number of parts of some kind and the sum of a measure
over all parts change by that part only.
-/

namespace Foundations

variable {β ε ω : Type*}

/-- A step of the part at an index. -/
def poolStep (step : β → ε → Option (ω × β)) (pool : List β) (index : ℕ) (event : ε) :
    Option (ω × List β) :=
  match pool[index]? with
  | none => none
  | some part => (step part event).map (Prod.map id (pool.set index))

section Steps

variable {step : β → ε → Option (ω × β)} {pool pool' : List β} {index : ℕ} {event : ε} {shown : ω}

/-- A pool steps exactly where one of its parts does. -/
theorem poolStep_eq_some_iff :
    poolStep step pool index event = some (shown, pool') ↔
      ∃ part part', pool[index]? = some part ∧ step part event = some (shown, part') ∧
        pool' = pool.set index part' := by
  rw [poolStep]
  cases pool[index]? with
  | none => simp
  | some part =>
    simp only [Option.map_eq_some_iff, Prod.exists, Prod.map_apply, id_eq, Prod.mk.injEq,
      Option.some.injEq]
    constructor
    · rintro ⟨_, part', hstep, rfl, rfl⟩
      exact ⟨part, part', rfl, hstep, rfl⟩
    · rintro ⟨_, part', rfl, hstep, rfl⟩
      exact ⟨shown, part', hstep, rfl, rfl⟩

end Steps

section Set

variable {pool : List β} {index : ℕ} {part part' : β}

/-- What is true of all parts stays true if it is true of the changed one. -/
theorem forall_mem_set {P : β → Prop} (h : ∀ other ∈ pool, P other) (hpart : P part') :
    ∀ other ∈ pool.set index part', P other := by
  intro other hother
  rcases List.mem_or_eq_of_mem_set hother with hmem | rfl
  · exact h other hmem
  · exact hpart

/-- The parts of some kind after a change of one part. -/
theorem countP_set_add (kind : β → Bool) (h : pool[index]? = some part) (part' : β) :
    (pool.set index part').countP kind + (kind part).toNat =
      pool.countP kind + (kind part').toNat := by
  obtain ⟨hlt, rfl⟩ := List.getElem?_eq_some_iff.mp h
  have hle := List.boole_getElem_le_countP (p := kind) hlt
  rw [List.countP_set hlt]
  cases hpart : kind pool[index] with
  | false => cases kind part' <;> simp
  | true =>
    rw [hpart, if_pos rfl] at hle
    cases kind part' <;> simp <;> omega

/-- There are no more parts of a kind if the changed part is of it only where it was before. -/
theorem countP_set_le {kind : β → Bool} (h : pool[index]? = some part)
    (hkind : kind part' → kind part) : (pool.set index part').countP kind ≤ pool.countP kind := by
  have hcount := countP_set_add kind h part'
  cases hpart : kind part' with
  | false =>
    rw [hpart] at hcount
    exact Nat.le_of_add_right_le hcount.le
  | true =>
    rw [hpart, hkind hpart] at hcount
    exact (Nat.add_right_cancel hcount).le

/-- There are as many parts of a kind if the changed part is of it exactly where it was before. -/
theorem countP_set_eq {kind : β → Bool} (h : pool[index]? = some part)
    (hkind : kind part' = kind part) : (pool.set index part').countP kind = pool.countP kind := by
  have hcount := countP_set_add kind h part'
  rw [hkind] at hcount
  exact Nat.add_right_cancel hcount

/-- A part with less left makes for less in the whole pool. -/
theorem sum_map_set_lt {left : β → ℕ} (h : pool[index]? = some part)
    (hless : left part' < left part) :
    ((pool.set index part').map left).sum < (pool.map left).sum := by
  induction pool generalizing index with
  | nil => cases h
  | cons first rest ih =>
    cases index with
    | zero =>
      cases h
      simpa only [List.set_cons_zero, List.map_cons, List.sum_cons] using
        Nat.add_lt_add_right hless _
    | succ index =>
      rw [List.getElem?_cons_succ] at h
      simpa only [List.set_cons_succ, List.map_cons, List.sum_cons] using
        Nat.add_lt_add_left (ih h) _

end Set

end Foundations
