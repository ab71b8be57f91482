import Mathlib.Data.UInt
import Mathlib.Data.List.Basic

/-!
# Decimal numerals as bytes

Numbers written in base ten as ASCII bytes. A numeral consists of digit bytes only and
determines its number, so it can be read back from any text in which a non-digit byte,
or nothing, follows it.
-/

namespace Foundations

/-- The bytes of an ASCII literal. -/
def ascii (text : String) : List UInt8 := text.toList.map fun c => c.toNat.toUInt8

/-- The base-ten numeral of a natural number, most significant digit first. -/
def decimal (n : ℕ) : List UInt8 := (Nat.toDigits 10 n).map fun c => c.toNat.toUInt8

/-- The bytes `0` to `9`. -/
def IsDigitByte (b : UInt8) : Prop := 48 ≤ b ∧ b ≤ 57

instance : DecidablePred IsDigitByte := fun b => inferInstanceAs (Decidable (48 ≤ b ∧ b ≤ 57))

/-- The first byte of the text, if any, is not a digit. -/
def StartsWithoutDigit (text : List UInt8) : Prop := ∀ b ∈ text.head?, ¬ IsDigitByte b

/-- The code of a decimal digit character is its ASCII value. -/
private theorem isDigit_bounds {c : Char} (hc : c.isDigit) : 48 ≤ c.toNat ∧ c.toNat ≤ 57 := by
  simp only [Char.isDigit, Bool.and_eq_true, decide_eq_true_eq] at hc
  exact ⟨UInt32.le_iff_toNat_le.mp hc.1, UInt32.le_iff_toNat_le.mp hc.2⟩

/-- The byte of a decimal digit character has the character's code. -/
private theorem toNat_digitByte {c : Char} (hc : c.isDigit) : c.toNat.toUInt8.toNat = c.toNat := by
  have hbounds := isDigit_bounds hc
  simp only [Nat.toUInt8_eq, UInt8.toNat_ofNat']
  omega

/-- A numeral consists of digit bytes. -/
theorem isDigitByte_of_mem_decimal {n : ℕ} {b : UInt8} (hb : b ∈ decimal n) : IsDigitByte b := by
  obtain ⟨c, hc, rfl⟩ := List.mem_map.mp hb
  have hdigit := Nat.isDigit_of_mem_toDigits (by decide) (by decide) hc
  have hbounds := isDigit_bounds hdigit
  constructor <;> rw [UInt8.le_iff_toNat_le, toNat_digitByte hdigit]
  · exact hbounds.1
  · exact hbounds.2

/-- A numeral has at least one digit. -/
theorem decimal_ne_nil (n : ℕ) : decimal n ≠ [] := by
  simp [decimal, Nat.toDigits_ne_nil]

/-- The number that a string of digit bytes denotes. -/
def readDecimal (digits : List UInt8) : ℕ :=
  digits.foldl (fun value b => 10 * value + (b.toNat - 48)) 0

/-- Reading a numeral gives back its number. -/
theorem readDecimal_decimal (n : ℕ) : readDecimal (decimal n) = n := by
  have hread : readDecimal (decimal n) = Nat.ofDigitChars 10 (Nat.toDigits 10 n) 0 := by
    rw [readDecimal, decimal, List.foldl_map, Nat.ofDigitChars_eq_foldl]
    apply List.foldl_ext
    intro value c hc
    rw [toNat_digitByte (Nat.isDigit_of_mem_toDigits (by decide) (by decide) hc)]
    rfl
  rw [hread, Nat.ofDigitChars_ten_toDigits]

/-- A numeral determines its number. -/
theorem decimal_injective : Function.Injective decimal :=
  Function.LeftInverse.injective readDecimal_decimal

end Foundations
