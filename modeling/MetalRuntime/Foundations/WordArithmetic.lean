import Mathlib.Data.UInt
import Mathlib.Tactic.Ring

/-!
# Unsigned 64-bit arithmetic without wraparound

The facts that turn a wrapping 64-bit computation into the computation in unbounded
arithmetic, given the bound that an earlier check has established: sums, three-factor
products, rounding up to a multiple, and clearing the low bits of an address.
-/

namespace Foundations

/-- One more than the largest 64-bit word. -/
def wordSize : ℕ := 2 ^ 64

/-- Every word is below the word size. -/
theorem toNat_lt_wordSize (a : UInt64) : a.toNat < wordSize := a.toNat_lt

/-- A sum that fits a word is computed exactly. -/
theorem toNat_add_of_lt {a b : UInt64} (h : a.toNat + b.toNat < wordSize) :
    (a + b).toNat = a.toNat + b.toNat := by
  rw [UInt64.toNat_add]
  exact Nat.mod_eq_of_lt h

/-- A product that fits a word is computed exactly. -/
theorem toNat_mul_of_lt {a b : UInt64} (h : a.toNat * b.toNat < wordSize) :
    (a * b).toNat = a.toNat * b.toNat := by
  rw [UInt64.toNat_mul]
  exact Nat.mod_eq_of_lt h

/-- The guard `b > max - a` is exactly the overflow of `a + b`. -/
theorem gt_max_sub_iff (a b : UInt64) :
    b > 18446744073709551615 - a ↔ wordSize ≤ a.toNat + b.toNat := by
  have ha := toNat_lt_wordSize a
  have hle : a ≤ 18446744073709551615 := by
    rw [UInt64.le_iff_toNat_le]
    exact Nat.le_of_lt_succ ha
  rw [gt_iff_lt, UInt64.lt_iff_toNat_lt, UInt64.toNat_sub_of_le _ _ hle]
  simp only [wordSize, UInt64.reduceToNat] at *
  omega

/-- The guard `b ≠ 0 && a > max / b` is exactly the overflow of `a * b`. -/
theorem gt_max_div_iff (a b : UInt64) :
    b ≠ 0 ∧ a > 18446744073709551615 / b ↔ wordSize ≤ a.toNat * b.toNat := by
  by_cases hzero : b = 0
  · subst hzero
    simp [wordSize]
  · have hpositive : 0 < b.toNat := by
      rw [Nat.pos_iff_ne_zero]
      exact fun h => hzero (UInt64.toNat_inj.mp h)
    rw [and_iff_right hzero, gt_iff_lt, UInt64.lt_iff_toNat_lt, UInt64.toNat_div,
      Nat.div_lt_iff_lt_mul hpositive]
    exact Nat.lt_iff_add_one_le

/-- Three factors that each stay below a common bound multiply exactly when the cube of the
bound fits a word. -/
theorem toNat_mul_mul_of_le {a b c : UInt64} (bound : ℕ) (ha : a.toNat ≤ bound)
    (hb : b.toNat ≤ bound) (hc : c.toNat ≤ bound) (hcube : bound * bound * bound < wordSize) :
    (a * b * c).toNat = a.toNat * b.toNat * c.toNat := by
  have hab : a.toNat * b.toNat ≤ bound * bound := Nat.mul_le_mul ha hb
  have habc : a.toNat * b.toNat * c.toNat < wordSize :=
    lt_of_le_of_lt (Nat.mul_le_mul hab hc) hcube
  have hfirst : (a * b).toNat = a.toNat * b.toNat := by
    rcases Nat.eq_zero_or_pos bound with hzero | hpos
    · have hz : a.toNat = 0 := by omega
      exact toNat_mul_of_lt (by simp [hz, wordSize])
    · refine toNat_mul_of_lt (lt_of_le_of_lt hab (lt_of_le_of_lt ?_ hcube))
      exact Nat.le_mul_of_pos_right _ hpos
  rw [toNat_mul_of_lt (by rwa [hfirst]), hfirst]

/-- The least multiple of `unit` that is at least `n`, for a positive `unit`. -/
def roundUp (unit n : ℕ) : ℕ := (n + unit - 1) / unit * unit

/-- Rounding up yields a multiple. -/
theorem dvd_roundUp (unit n : ℕ) : unit ∣ roundUp unit n := Dvd.intro_left _ rfl

/-- Rounding up never decreases. -/
theorem le_roundUp {unit : ℕ} (hunit : 0 < unit) (n : ℕ) : n ≤ roundUp unit n := by
  have h := Nat.lt_div_mul_add (a := n + unit - 1) hunit
  unfold roundUp
  omega

/-- Rounding up gives the least multiple: it is below every multiple that bounds the value. -/
theorem roundUp_le_of_dvd {unit n m : ℕ} (hunit : 0 < unit) (hdvd : unit ∣ m) (hle : n ≤ m) :
    roundUp unit n ≤ m := by
  obtain ⟨k, rfl⟩ := hdvd
  have hlt : (n + unit - 1) / unit < k + 1 := by
    rw [Nat.div_lt_iff_lt_mul hunit, Nat.add_mul, Nat.mul_comm k]
    omega
  rw [roundUp, Nat.mul_comm unit k]
  exact Nat.mul_le_mul_right unit (Nat.le_of_lt_succ hlt)

/-- Rounding up gives the least multiple that is at least the value. -/
theorem isLeast_roundUp {unit : ℕ} (hunit : 0 < unit) (n : ℕ) :
    IsLeast {m | unit ∣ m ∧ n ≤ m} (roundUp unit n) := by
  refine ⟨⟨dvd_roundUp unit n, le_roundUp hunit n⟩, ?_⟩
  intro m hm
  exact roundUp_le_of_dvd hunit hm.1 hm.2

/-- Rounding down gives the greatest multiple that is at most the value. -/
theorem isGreatest_div_mul {unit : ℕ} (hunit : 0 < unit) (n : ℕ) :
    IsGreatest {m | unit ∣ m ∧ m ≤ n} (n / unit * unit) := by
  refine ⟨⟨Nat.dvd_mul_left unit (n / unit), Nat.div_mul_le_self n unit⟩, ?_⟩
  intro m hm
  obtain ⟨⟨q, rfl⟩, hle⟩ := hm
  rw [Nat.mul_comm unit q] at hle ⊢
  exact Nat.mul_le_mul_right unit ((Nat.le_div_iff_mul_le hunit).mpr hle)

/-- Rounding up commutes with adding a multiple. -/
theorem add_roundUp_of_dvd {unit a : ℕ} (hunit : 0 < unit) (hdvd : unit ∣ a) (n : ℕ) :
    a + roundUp unit n = roundUp unit (a + n) := by
  obtain ⟨q, rfl⟩ := hdvd
  have hsum : unit * q + n + unit - 1 = n + unit - 1 + unit * q := by omega
  rw [roundUp, roundUp, hsum, Nat.add_mul_div_left _ _ hunit, Nat.add_mul, Nat.mul_comm q]
  omega

/-- Rounding up reaches a multiple exactly for the values above the multiple before it. -/
theorem le_roundUp_iff_of_dvd {unit limit : ℕ} (hunit : 0 < unit) (hlimit : unit ≤ limit)
    (hdvd : unit ∣ limit) (n : ℕ) : limit ≤ roundUp unit n ↔ limit - unit < n := by
  constructor
  · intro hle
    by_contra hnot
    have hbefore := roundUp_le_of_dvd hunit (Nat.dvd_sub hdvd (Nat.dvd_refl unit))
      (Nat.le_of_not_lt hnot)
    omega
  · intro hlt
    obtain ⟨q, hq⟩ := dvd_roundUp unit n
    obtain ⟨r, rfl⟩ := hdvd
    have hle := le_roundUp hunit n
    have hbetween : unit * r < unit * (q + 1) := by
      rw [Nat.mul_add, Nat.mul_one]
      omega
    rw [hq]
    exact Nat.mul_le_mul_left unit (Nat.le_of_lt_succ (Nat.lt_of_mul_lt_mul_left hbetween))

/-- The wrapping computation of a round-up is exact when its first addition fits a word. -/
theorem toNat_roundUp (unit n : UInt64) (hunit : 0 < unit.toNat)
    (hfits : n.toNat + (unit.toNat - 1) < wordSize) :
    ((n + unit - 1) / unit * unit).toNat = roundUp unit.toNat n.toNat := by
  have hsum : (n + unit - 1).toNat = n.toNat + unit.toNat - 1 := by
    have hn := toNat_lt_wordSize n
    have hu := toNat_lt_wordSize unit
    simp only [wordSize] at *
    simp only [UInt64.toNat_sub, UInt64.toNat_add, UInt64.reduceToNat]
    omega
  have hle := Nat.div_mul_le_self (n.toNat + unit.toNat - 1) unit.toNat
  have hfit : n.toNat + unit.toNat - 1 < wordSize := by omega
  rw [toNat_mul_of_lt] <;> rw [UInt64.toNat_div, hsum]
  · rfl
  · exact lt_of_le_of_lt hle hfit

/-- A word is the sum of its bits outside a mask and its bits inside it. -/
private theorem and_not_add_and (a mask : UInt64) : (a &&& ~~~mask) + (a &&& mask) = a := by
  apply UInt64.toBitVec_inj.mp
  rw [UInt64.toBitVec_add, BitVec.add_eq_or_of_and_eq_zero]
  · ext i hi
    simp only [UInt64.toBitVec_and, UInt64.toBitVec_not, BitVec.getElem_or, BitVec.getElem_and,
      BitVec.getElem_not]
    cases a.toBitVec[i] <;> cases mask.toBitVec[i] <;> rfl
  · ext i hi
    simp only [UInt64.toBitVec_and, UInt64.toBitVec_not, BitVec.getElem_and, BitVec.getElem_not,
      BitVec.getElem_zero]
    cases a.toBitVec[i] <;> cases mask.toBitVec[i] <;> rfl

/-- The low bits below a power of two are the remainder. -/
theorem toNat_and_pred (a : UInt64) {unit : UInt64} {k : ℕ} (hunit : unit.toNat = 2 ^ k) :
    (a &&& (unit - 1)).toNat = a.toNat % unit.toNat := by
  have hone : (1 : UInt64) ≤ unit := by
    rw [UInt64.le_iff_toNat_le, hunit]
    exact Nat.one_le_two_pow
  rw [UInt64.toNat_and, UInt64.toNat_sub_of_le _ _ hone, hunit]
  exact Nat.and_two_pow_sub_one_eq_mod a.toNat k

/-- Clearing the bits below a power of two rounds down to a multiple of it. -/
theorem toNat_and_not_pred (a : UInt64) {unit : UInt64} {k : ℕ} (hunit : unit.toNat = 2 ^ k) :
    (a &&& ~~~(unit - 1)).toNat = a.toNat / unit.toNat * unit.toNat := by
  have hle : (a &&& ~~~(unit - 1)).toNat ≤ a.toNat := by
    rw [UInt64.toNat_and]
    exact Nat.and_le_left
  have hsplit := congrArg UInt64.toNat (and_not_add_and a (unit - 1))
  have hlow := toNat_and_pred a hunit
  have hdiv := Nat.div_add_mod' a.toNat unit.toNat
  have hlt := toNat_lt_wordSize a
  have hmod := Nat.mod_le a.toNat unit.toNat
  rw [UInt64.toNat_add, hlow] at hsplit
  simp only [wordSize] at *
  omega

end Foundations
