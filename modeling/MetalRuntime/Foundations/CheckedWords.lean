import MetalRuntime.Foundations.WordArithmetic

/-!
# Checked word arithmetic

A computation in wrapping words makes no hidden step when it can be repeated with every
operation checked: the operations below fail where the wrapping ones would wrap or divide by
zero, and return the same word everywhere else. The `bind` lemmas run such a repetition one
operation at a time.
-/

namespace Foundations

/-- A sum that fails when it does not fit a word. -/
def checkedAdd (a b : UInt64) : Option UInt64 :=
  if a.toNat + b.toNat < wordSize then some (a + b) else none

/-- A difference that fails when it is negative. -/
def checkedSub (a b : UInt64) : Option UInt64 := if b ≤ a then some (a - b) else none

/-- A product that fails when it does not fit a word. -/
def checkedMul (a b : UInt64) : Option UInt64 :=
  if a.toNat * b.toNat < wordSize then some (a * b) else none

/-- A quotient that fails on a zero divisor. -/
def checkedDiv (a b : UInt64) : Option UInt64 := if b = 0 then none else some (a / b)

variable {α : Type} (next : UInt64 → Option α)

/-- A sum that fits a word, followed by the rest of the computation. -/
theorem checkedAdd_bind {a b : UInt64} (h : a.toNat + b.toNat < wordSize) :
    (checkedAdd a b >>= next) = next (a + b) := by
  rw [checkedAdd, if_pos h]
  rfl

/-- A sum that does not fit a word ends the computation. -/
theorem checkedAdd_bind_of_wraps {a b : UInt64} (h : wordSize ≤ a.toNat + b.toNat) :
    (checkedAdd a b >>= next) = none := by
  rw [checkedAdd, if_neg (Nat.not_lt.mpr h)]
  rfl

/-- A difference that is not negative, followed by the rest of the computation. -/
theorem checkedSub_bind {a b : UInt64} (h : b.toNat ≤ a.toNat) :
    (checkedSub a b >>= next) = next (a - b) := by
  rw [checkedSub, if_pos (UInt64.le_iff_toNat_le.mpr h)]
  rfl

/-- A product that fits a word, followed by the rest of the computation. -/
theorem checkedMul_bind {a b : UInt64} (h : a.toNat * b.toNat < wordSize) :
    (checkedMul a b >>= next) = next (a * b) := by
  rw [checkedMul, if_pos h]
  rfl

/-- A quotient by a positive word, followed by the rest of the computation. -/
theorem checkedDiv_bind (a : UInt64) {b : UInt64} (h : 1 ≤ b.toNat) :
    (checkedDiv a b >>= next) = next (a / b) := by
  have hne : b ≠ 0 := by
    intro hzero
    rw [hzero] at h
    exact absurd h (by decide)
  rw [checkedDiv, if_neg hne]
  rfl

/-- The greatest number below a sum that fits a word. -/
theorem checkedAdd_checkedSub_one {n unit : UInt64} (hunit : 1 ≤ unit.toNat)
    (hfits : n.toNat + unit.toNat < wordSize) :
    (checkedAdd n unit >>= fun sum => checkedSub sum 1) = some (n + unit - 1) := by
  have hpositive : (1 : UInt64).toNat ≤ (n + unit).toNat := by
    rw [toNat_add_of_lt hfits, UInt64.toNat_one]
    omega
  rw [checkedAdd_bind _ hfits, checkedSub, if_pos (UInt64.le_iff_toNat_le.mpr hpositive)]

/-- Rounding down to a multiple of a positive word, followed by the rest of the computation. -/
theorem checkedDiv_checkedMul_bind (a : UInt64) {unit : UInt64} (hunit : 1 ≤ unit.toNat) :
    (checkedDiv a unit >>= fun quotient => checkedMul quotient unit >>= next) =
      next (a / unit * unit) := by
  have hproduct : (a / unit).toNat * unit.toNat < wordSize := by
    rw [UInt64.toNat_div]
    exact lt_of_le_of_lt (Nat.div_mul_le_self _ _) (toNat_lt_wordSize _)
  rw [checkedDiv_bind _ _ hunit, checkedMul_bind _ hproduct]

end Foundations
