import Mathlib.Data.Nat.Digits.Defs
import Mathlib.Data.UInt
import Mathlib.Tactic.Ring

/-!
# Little-endian integers

A list of bytes denotes a number in base 256, least significant byte first, and a signed
integer by two's complement. Bytes of one length are determined by what they denote, so an
encoding is known once its value is.
-/

namespace Foundations

/-- The number that bytes denote, least significant byte first. -/
def littleEndian (bytes : List UInt8) : ℕ := Nat.ofDigits 256 (bytes.map UInt8.toNat)

/-- The low bytes of a number, least significant byte first. -/
def toLittleEndian (size n : ℕ) : List UInt8 :=
  (List.range size).map fun i => UInt8.ofNat (n / 256 ^ i)

/-- The low bytes are as many as asked for. -/
@[simp] theorem length_toLittleEndian (size n : ℕ) : (toLittleEndian size n).length = size := by
  simp [toLittleEndian]

/-- The low bytes denote the number modulo their range. -/
theorem littleEndian_toLittleEndian (size n : ℕ) :
    littleEndian (toLittleEndian size n) = n % 256 ^ size := by
  induction size with
  | zero => simp [littleEndian, toLittleEndian, Nat.mod_one]
  | succ size ih =>
    have hbyte : (UInt8.ofNat (n / 256 ^ size)).toNat = n / 256 ^ size % 256 :=
      UInt8.toNat_ofNat'
    rw [littleEndian, toLittleEndian] at ih
    rw [littleEndian, toLittleEndian, List.range_succ, List.map_append, List.map_append,
      Nat.ofDigits_append, ih, List.map_singleton, List.map_singleton, Nat.ofDigits_singleton,
      List.length_map, List.length_map, List.length_range, hbyte, Nat.mod_pow_succ]

/-- A byte is a digit. -/
private theorem digit_lt (bytes : List UInt8) : ∀ digit ∈ bytes.map UInt8.toNat, digit < 256 := by
  intro digit hdigit
  obtain ⟨byte, -, rfl⟩ := List.mem_map.mp hdigit
  exact byte.toNat_lt

/-- Bytes denote a number within their range. -/
theorem littleEndian_lt (bytes : List UInt8) : littleEndian bytes < 256 ^ bytes.length := by
  have hlt := Nat.ofDigits_lt_base_pow_length (by decide : 1 < 256) (digit_lt bytes)
  rwa [List.length_map] at hlt

/-- Bytes of one length are determined by the number they denote. -/
theorem littleEndian_injective {bytes others : List UInt8} (hlength : bytes.length = others.length)
    (hvalue : littleEndian bytes = littleEndian others) : bytes = others := by
  have hdigits := Nat.ofDigits_inj_of_len_eq (by decide : 1 < 256) (by simpa using hlength)
    (digit_lt bytes) (digit_lt others) hvalue
  exact (List.map_inj_right fun _ _ h => UInt8.toNat_inj.mp h).mp hdigits

/-- The integers of a given signedness and size in bytes. -/
def InIntegerRange (signed : Bool) (size : ℕ) (v : ℤ) : Prop :=
  if signed then -2 ^ (8 * size - 1) ≤ v ∧ v ≤ 2 ^ (8 * size - 1) - 1
  else 0 ≤ v ∧ v ≤ 2 ^ (8 * size) - 1

instance (signed : Bool) (size : ℕ) (v : ℤ) : Decidable (InIntegerRange signed size v) := by
  unfold InIntegerRange
  infer_instance

/-- The integer that bytes denote: a signed one whose top bit is set is negative. -/
def decodeInteger (signed : Bool) (bytes : List UInt8) : ℤ :=
  let value : ℤ := littleEndian bytes
  let count : ℤ := 256 ^ bytes.length
  if signed ∧ count ≤ 2 * value then value - count else value

/-- The two's complement bytes of an integer. -/
def encodeInteger (size : ℕ) (v : ℤ) : List UInt8 := toLittleEndian size (v % 256 ^ size).toNat

/-- The integer is as long as asked for. -/
@[simp] theorem length_encodeInteger (size : ℕ) (v : ℤ) : (encodeInteger size v).length = size :=
  length_toLittleEndian size _

/-- The range of an integer type in terms of its number of values. -/
theorem inIntegerRange_iff {signed : Bool} {size : ℕ} (hsize : 0 < size) (v : ℤ) :
    InIntegerRange signed size v ↔
      if signed then -(256 ^ size : ℤ) ≤ 2 * v ∧ 2 * v < 256 ^ size
      else 0 ≤ v ∧ v < 256 ^ size := by
  have hpow : (256 ^ size : ℤ) = 2 ^ (8 * size) := by
    rw [pow_mul]
    rfl
  have hhalf : (2 : ℤ) ^ (8 * size) = 2 * 2 ^ (8 * size - 1) := by
    rw [← pow_succ']
    congr 1
    omega
  rw [InIntegerRange, hpow]
  cases signed with
  | true =>
    rw [if_pos rfl, if_pos rfl, hhalf]
    omega
  | false =>
    rw [if_neg Bool.false_ne_true, if_neg Bool.false_ne_true]
    omega

/-- Two's complement adds the number of values to a negative integer. -/
private theorem emod_of_bounds {m v : ℤ} (hlow : -m ≤ v) (hhigh : v < m) :
    v % m = if v < 0 then v + m else v := by
  by_cases hneg : v < 0
  · rw [if_pos hneg, ← Int.add_emod_right]
    exact Int.emod_eq_of_lt (by omega) (by omega)
  · rw [if_neg hneg]
    exact Int.emod_eq_of_lt (Int.not_lt.mp hneg) hhigh

/-- Decoding the bytes of an integer in the range of its type gives the integer back. -/
theorem decodeInteger_encodeInteger {signed : Bool} {size : ℕ} (hsize : 0 < size) {v : ℤ}
    (h : InIntegerRange signed size v) : decodeInteger signed (encodeInteger size v) = v := by
  rw [inIntegerRange_iff hsize] at h
  have hpositive : (0 : ℤ) < 256 ^ size := by positivity
  have hbounds : -(256 ^ size : ℤ) ≤ v ∧ v < 256 ^ size := by
    cases signed <;> simp only [if_true, Bool.false_eq_true, if_false] at h <;> omega
  have hmod := emod_of_bounds hbounds.1 hbounds.2
  have hvalue : (littleEndian (encodeInteger size v) : ℤ) = v % 256 ^ size := by
    have hnonneg := Int.emod_nonneg v hpositive.ne'
    have hfits : (v % 256 ^ size).toNat < 256 ^ size := by
      have hlt := Int.emod_lt_of_pos v hpositive
      zify
      omega
    rw [encodeInteger, littleEndian_toLittleEndian, Nat.mod_eq_of_lt hfits,
      Int.toNat_of_nonneg hnonneg]
  simp only [decodeInteger, length_encodeInteger, hvalue, hmod]
  cases signed with
  | true =>
    simp only [if_true] at h
    by_cases hneg : v < 0
    · rw [if_pos hneg, if_pos ⟨rfl, by omega⟩]
      omega
    · rw [if_neg hneg, if_neg (by omega)]
  | false =>
    simp only [Bool.false_eq_true, if_false] at h
    rw [if_neg (by simp), if_neg (by omega)]

/-- Bytes of one length are determined by the integer they denote. -/
theorem decodeInteger_injective {signed : Bool} {bytes others : List UInt8}
    (hlength : bytes.length = others.length)
    (hvalue : decodeInteger signed bytes = decodeInteger signed others) : bytes = others := by
  have hlt := littleEndian_lt bytes
  have hlt' := littleEndian_lt others
  refine littleEndian_injective hlength ?_
  rw [hlength] at hlt
  simp only [decodeInteger, hlength] at hvalue
  zify at hlt hlt' ⊢
  split at hvalue <;> split at hvalue <;> omega

end Foundations
