import MetalRuntime.Foundations.DecimalText
import Mathlib.Data.List.Forall2

/-!
# Text that can be read back

A key concatenates numerals, length-prefixed strings and tags. Each piece can be taken off
the front of the text that follows it, so the whole text determines the pieces: a length
prefix says where its string ends, and a numeral ends at the first byte that is no digit.
-/

namespace Foundations

variable {α : Type*}

/-- A string preceded by its length. -/
def lengthPrefixed (text : List UInt8) : List UInt8 := decimal text.length ++ ascii ":" ++ text

/-- The numeral of an integer, with a minus sign if it is negative. -/
def signedDecimal (v : ℤ) : List UInt8 :=
  if v < 0 then ascii "-" ++ decimal v.natAbs else decimal v.natAbs

/-- The text begins with a byte that is not a digit. -/
def Delimits (text : List UInt8) : Prop := ∃ b rest, text = b :: rest ∧ ¬ IsDigitByte b

/-- The empty text has no first digit. -/
theorem startsWithoutDigit_nil : StartsWithoutDigit [] := fun _ hb => by cases hb

/-- A text that begins with another byte has no first digit. -/
theorem startsWithoutDigit_cons {b : UInt8} (hb : ¬ IsDigitByte b) (rest : List UInt8) :
    StartsWithoutDigit (b :: rest) := by
  intro c hc
  cases hc
  exact hb

/-- A delimiting text has no first digit, whatever follows it. -/
theorem Delimits.startsWithoutDigit {text : List UInt8} (h : Delimits text)
    (more : List UInt8) : StartsWithoutDigit (text ++ more) := by
  obtain ⟨b, rest, rfl, hb⟩ := h
  exact startsWithoutDigit_cons hb (rest ++ more)

/-- Digits in front of a text without a first digit can be taken off. -/
theorem digits_append_inj {digits others t u : List UInt8} (hdigits : ∀ b ∈ digits, IsDigitByte b)
    (hothers : ∀ b ∈ others, IsDigitByte b) (ht : StartsWithoutDigit t)
    (hu : StartsWithoutDigit u) (h : digits ++ t = others ++ u) : digits = others ∧ t = u := by
  induction digits generalizing others with
  | nil =>
    cases others with
    | nil => exact ⟨rfl, h⟩
    | cons b rest =>
      rw [List.nil_append, List.cons_append] at h
      exact absurd (hothers b List.mem_cons_self) (ht b (by rw [h]; rfl))
  | cons a tail ih =>
    cases others with
    | nil =>
      rw [List.nil_append, List.cons_append] at h
      exact absurd (hdigits a List.mem_cons_self) (hu a (by rw [← h]; rfl))
    | cons b rest =>
      obtain ⟨rfl, htail⟩ := List.cons.inj h
      obtain ⟨rfl, hrest⟩ := ih (fun c hc => hdigits c (List.mem_cons_of_mem a hc))
        (fun c hc => hothers c (List.mem_cons_of_mem a hc)) htail
      exact ⟨rfl, hrest⟩

/-- A numeral in front of a text without a first digit can be read. -/
theorem decimal_append_inj {n m : ℕ} {t u : List UInt8} (ht : StartsWithoutDigit t)
    (hu : StartsWithoutDigit u) (h : decimal n ++ t = decimal m ++ u) : n = m ∧ t = u := by
  obtain ⟨hdigits, hrest⟩ := digits_append_inj (fun _ => isDigitByte_of_mem_decimal)
    (fun _ => isDigitByte_of_mem_decimal) ht hu h
  exact ⟨decimal_injective hdigits, hrest⟩

/-- A length-prefixed string can be read off any text. -/
theorem lengthPrefixed_append_inj {s s' t u : List UInt8}
    (h : lengthPrefixed s ++ t = lengthPrefixed s' ++ u) : s = s' ∧ t = u := by
  simp only [lengthPrefixed, List.append_assoc] at h
  have hcolon : ∀ rest, StartsWithoutDigit (ascii ":" ++ rest) :=
    startsWithoutDigit_cons (by decide)
  obtain ⟨hlength, hrest⟩ := decimal_append_inj (hcolon _) (hcolon _) h
  exact List.append_inj (List.append_cancel_left hrest) hlength

/-- A signed numeral in front of a text without a first digit can be read. -/
theorem signedDecimal_append_inj {v w : ℤ} {t u : List UInt8} (ht : StartsWithoutDigit t)
    (hu : StartsWithoutDigit u) (h : signedDecimal v ++ t = signedDecimal w ++ u) :
    v = w ∧ t = u := by
  have hminus : ∀ (n : ℕ) (t rest : List UInt8), decimal n ++ t ≠ ascii "-" ++ rest := by
    intro n t rest heq
    obtain ⟨digit, digits, hdigits⟩ := List.exists_cons_of_ne_nil (decimal_ne_nil n)
    have hdigit := isDigitByte_of_mem_decimal (n := n) (b := digit) (by rw [hdigits]; simp)
    rw [hdigits] at heq
    obtain ⟨rfl, -⟩ := List.cons.inj heq
    revert hdigit
    decide
  rw [signedDecimal, signedDecimal] at h
  split at h
  · rename_i hv
    split at h
    · rename_i hw
      rw [List.append_assoc, List.append_assoc] at h
      obtain ⟨habs, hrest⟩ := decimal_append_inj ht hu (List.append_cancel_left h)
      exact ⟨by omega, hrest⟩
    · rw [List.append_assoc] at h
      exact absurd h.symm (hminus _ _ _)
  · rename_i hv
    split at h
    · rw [List.append_assoc] at h
      exact absurd h (hminus _ _ _)
    · rename_i hw
      obtain ⟨habs, hrest⟩ := decimal_append_inj ht hu h
      exact ⟨by omega, hrest⟩

/-- Elements written one after the other, each beginning with a delimiter, can be read one
after the other. -/
theorem flatMap_append_inj {R : α → α → Prop} {encode : α → List UInt8}
    (hdelimits : ∀ a, Delimits (encode a))
    (hinj : ∀ a b t u, StartsWithoutDigit t → StartsWithoutDigit u →
      encode a ++ t = encode b ++ u → R a b ∧ t = u)
    {as bs : List α} (h : as.flatMap encode = bs.flatMap encode) : List.Forall₂ R as bs := by
  have hstarts : ∀ rest : List α, StartsWithoutDigit (rest.flatMap encode) := by
    intro rest
    cases rest with
    | nil => exact startsWithoutDigit_nil
    | cons a rest => exact (hdelimits a).startsWithoutDigit _
  induction as generalizing bs with
  | nil =>
    cases bs with
    | nil => exact List.Forall₂.nil
    | cons b rest =>
      obtain ⟨c, text, hencode, -⟩ := hdelimits b
      rw [List.flatMap_nil, List.flatMap_cons, hencode] at h
      cases h
  | cons a tail ih =>
    cases bs with
    | nil =>
      obtain ⟨c, text, hencode, -⟩ := hdelimits a
      rw [List.flatMap_nil, List.flatMap_cons, hencode] at h
      cases h
    | cons b rest =>
      rw [List.flatMap_cons, List.flatMap_cons] at h
      obtain ⟨hhead, htail⟩ := hinj a b _ _ (hstarts tail) (hstarts rest) h
      exact List.Forall₂.cons hhead (ih htail)

end Foundations
