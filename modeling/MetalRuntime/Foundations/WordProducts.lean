import Mathlib.Algebra.BigOperators.Group.List.Basic
import Mathlib.Algebra.GroupWithZero.Nat
import Mathlib.Data.List.TakeWhile
import MetalRuntime.Foundations.CheckedWords

/-!
# Products of words

A loop that multiplies words and stops where a product does not fit a word. A zero factor
makes every later product zero, so the loop reaches its end exactly when the product in front
of the first zero fits, whatever comes behind. The order of the factors therefore decides when
some of them are zero and the others multiply to more than a word.
-/

namespace Foundations

/-- The product of the numbers in front of the first zero. -/
def leadingProduct (factors : List ℕ) : ℕ := (factors.takeWhile (· ≠ 0)).prod

/-- The product of the numbers that are not zero. -/
def nonzeroProduct (factors : List ℕ) : ℕ := (factors.filter (· ≠ 0)).prod

/-- Nothing stands in front of a zero that comes first. -/
theorem leadingProduct_zero_cons (factors : List ℕ) : leadingProduct (0 :: factors) = 1 := by
  simp [leadingProduct]

/-- A factor that is not zero belongs to the product. -/
theorem leadingProduct_cons {factor : ℕ} (h : factor ≠ 0) (factors : List ℕ) :
    leadingProduct (factor :: factors) = factor * leadingProduct factors := by
  simp [leadingProduct, h]

/-- A factor that is not zero belongs to the product. -/
theorem nonzeroProduct_cons {factor : ℕ} (h : factor ≠ 0) (factors : List ℕ) :
    nonzeroProduct (factor :: factors) = factor * nonzeroProduct factors := by
  simp [nonzeroProduct, h]

/-- The product in front of the first zero is positive. -/
theorem leadingProduct_pos (factors : List ℕ) : 0 < leadingProduct factors := by
  refine List.prod_pos_iff_forall_pos_nat.mpr ?_
  intro factor hfactor
  have hne := List.mem_takeWhile_imp hfactor
  exact Nat.pos_of_ne_zero (of_decide_eq_true hne)

/-- The product of the numbers that are not zero is positive. -/
theorem nonzeroProduct_pos (factors : List ℕ) : 0 < nonzeroProduct factors := by
  refine List.prod_pos_iff_forall_pos_nat.mpr ?_
  intro factor hfactor
  exact Nat.pos_of_ne_zero (of_decide_eq_true (List.mem_filter.mp hfactor).2)

/-- The numbers in front of the first zero are among those that are not zero. -/
theorem leadingProduct_le_nonzeroProduct (factors : List ℕ) :
    leadingProduct factors ≤ nonzeroProduct factors := by
  induction factors with
  | nil => exact Nat.le_refl 1
  | cons factor rest ih =>
    by_cases hzero : factor = 0
    · subst hzero
      rw [leadingProduct_zero_cons]
      exact nonzeroProduct_pos _
    · rw [leadingProduct_cons hzero, nonzeroProduct_cons hzero]
      exact Nat.mul_le_mul_left factor ih

/-- Without a zero, every factor stands in front of the first one. -/
theorem leadingProduct_of_not_mem {factors : List ℕ} (h : 0 ∉ factors) :
    leadingProduct factors = factors.prod := by
  induction factors with
  | nil => rfl
  | cons factor rest ih =>
    rw [List.mem_cons, not_or] at h
    rw [leadingProduct_cons (Ne.symm h.1), ih h.2, List.prod_cons]

/-- With a zero, the product is zero. -/
theorem prod_of_zero_mem {factors : List ℕ} (h : 0 ∈ factors) : factors.prod = 0 :=
  List.prod_eq_zero_iff_exists_zero_nat.mpr ⟨0, h, rfl⟩

/-- The whole product is zero or in front of the first zero. -/
theorem prod_le_leadingProduct (factors : List ℕ) : factors.prod ≤ leadingProduct factors := by
  by_cases hzero : 0 ∈ factors
  · rw [prod_of_zero_mem hzero]
    exact Nat.zero_le _
  · rw [leadingProduct_of_not_mem hzero]

/-- Factors that are not zero, put in front of zeros, all belong to the product in front of the
first zero. -/
theorem leadingProduct_filter_append {factors zeros : List ℕ} (h : ∀ factor ∈ zeros, factor = 0) :
    leadingProduct (factors.filter (· ≠ 0) ++ zeros) = nonzeroProduct factors := by
  have hfirst : ∀ factor ∈ factors.filter (· ≠ 0), decide (factor ≠ 0) = true := by
    intro factor hfactor
    exact (List.mem_filter.mp hfactor).2
  have hothers : zeros.takeWhile (· ≠ 0) = [] := by
    cases zeros with
    | nil => rfl
    | cons factor rest =>
      rw [h factor List.mem_cons_self]
      rfl
  rw [leadingProduct, nonzeroProduct, List.takeWhile_append_of_pos hfirst, hothers,
    List.append_nil]

/-- The product of the factors that are not zero does not depend on their order. -/
theorem nonzeroProduct_perm {factors others : List ℕ} (h : factors.Perm others) :
    nonzeroProduct factors = nonzeroProduct others := (h.filter _).prod_eq

/-- Multiply words, failing at the first product that does not fit a word. -/
def checkedProduct (product : UInt64) (factors : List UInt64) : Option UInt64 :=
  factors.foldlM checkedMul product

/-- A loop whose body fails with one error where a checked operation fails is the loop of that
operation. -/
theorem foldlM_eq_elim {α β ε : Type} {body : β → α → Except ε β} {checked : β → α → Option β}
    {error : ε} (hbody : ∀ b a, body b a = (checked b a).elim (.error error) .ok) (b : β)
    (elements : List α) :
    elements.foldlM body b = (elements.foldlM checked b).elim (.error error) .ok := by
  induction elements generalizing b with
  | nil => rfl
  | cons a rest ih =>
    rw [List.foldlM_cons, List.foldlM_cons, hbody]
    cases checked b a with
    | none => rfl
    | some c => exact ih c

/-- A word that holds a number below the word size. -/
theorem toNat_ofNat_of_lt {n : ℕ} (h : n < wordSize) : (UInt64.ofNat n).toNat = n := by
  rw [UInt64.toNat_ofNat']
  exact Nat.mod_eq_of_lt h

/-- The loop reaches its end exactly when the product in front of the first zero fits a word,
and then with the exact product. -/
theorem checkedProduct_eq (product : UInt64) (factors : List UInt64) :
    checkedProduct product factors =
      if product.toNat * leadingProduct (factors.map UInt64.toNat) < wordSize then
        some (UInt64.ofNat (product.toNat * (factors.map UInt64.toNat).prod))
      else none := by
  induction factors generalizing product with
  | nil =>
    have hlt : product.toNat * 1 < wordSize := by
      rw [Nat.mul_one]
      exact toNat_lt_wordSize product
    rw [List.map_nil, List.prod_nil, leadingProduct, List.takeWhile_nil, List.prod_nil,
      if_pos hlt, Nat.mul_one, UInt64.ofNat_toNat]
    rfl
  | cons factor rest ih =>
    rw [checkedProduct, List.foldlM_cons, List.map_cons, List.prod_cons, ← Nat.mul_assoc]
    by_cases hzero : factor.toNat = 0
    · have hproduct : product * factor = 0 := by
        have hfactor : factor = 0 := UInt64.toNat_inj.mp hzero
        rw [hfactor, UInt64.mul_zero]
      have hone : product.toNat * 1 < wordSize := by
        rw [Nat.mul_one]
        exact toNat_lt_wordSize product
      rw [checkedMul_bind _ (by rw [hzero]; exact Nat.two_pow_pos 64), hzero,
        leadingProduct_zero_cons, if_pos hone, ← checkedProduct, ih, hproduct]
      simp [wordSize]
    · rw [leadingProduct_cons hzero, ← Nat.mul_assoc]
      by_cases hfits : product.toNat * factor.toNat < wordSize
      · rw [checkedMul_bind _ hfits, ← checkedProduct, ih, toNat_mul_of_lt hfits]
      · have hle := Nat.le_mul_of_pos_right (product.toNat * factor.toNat)
          (leadingProduct_pos (rest.map UInt64.toNat))
        rw [checkedMul, if_neg hfits, if_neg (by omega)]
        rfl

end Foundations
