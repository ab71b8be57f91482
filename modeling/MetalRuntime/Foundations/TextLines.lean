import Mathlib.Data.List.Basic

/-!
# Lines of a text

Texts joined by a separator fall back into the pieces of each of them, in order, so a file that
is put together line by line can be read line by line. Over any alphabet.
-/

namespace Foundations

variable {α β γ : Type*}

/-- Splitting what was joined gives the pieces of every part. -/
theorem splitOn_intercalate [DecidableEq α] (separator : α) {parts : List (List α)}
    (h : parts ≠ []) :
    ([separator].intercalate parts).splitOn separator = parts.flatMap (List.splitOn separator) := by
  induction parts with
  | nil => exact absurd rfl h
  | cons part rest ih =>
    rw [List.flatMap_cons]
    by_cases hrest : rest = []
    · rw [hrest, List.intercalate_singleton, List.flatMap_nil, List.append_nil]
    · rw [List.intercalate_cons_of_ne_nil hrest, List.append_assoc, List.singleton_append,
        List.splitOn_append_cons_self, ih hrest]

/-- A text in one piece has no separator. -/
theorem not_mem_of_length_splitOn [DecidableEq α] {separator : α} {text : List α}
    (h : (text.splitOn separator).length = 1) : separator ∉ text := by
  intro hmem
  obtain ⟨before, after, rfl⟩ := List.append_of_mem hmem
  have hbefore := List.length_pos_of_ne_nil (List.splitOn_ne_nil separator before)
  have hafter := List.length_pos_of_ne_nil (List.splitOn_ne_nil separator after)
  rw [List.splitOn_append_cons_self, List.length_append] at h
  omega

/-- Longer pieces make a longer text. -/
theorem length_flatMap_le {short : α → List β} {long : α → List γ}
    (h : ∀ a, (short a).length ≤ (long a).length) (elements : List α) :
    (elements.flatMap short).length ≤ (elements.flatMap long).length := by
  induction elements with
  | nil => exact Nat.le_refl 0
  | cons a rest ih =>
    have ha := h a
    rw [List.flatMap_cons, List.flatMap_cons, List.length_append, List.length_append]
    omega

/-- If longer pieces make no longer text, none of them is longer. -/
theorem length_eq_of_flatMap {short : α → List β} {long : α → List γ}
    (h : ∀ a, (short a).length ≤ (long a).length) {elements : List α}
    (hequal : (elements.flatMap short).length = (elements.flatMap long).length) :
    ∀ a ∈ elements, (short a).length = (long a).length := by
  induction elements with
  | nil => exact fun a ha => absurd ha List.not_mem_nil
  | cons b rest ih =>
    have hb := h b
    have hrest := length_flatMap_le h rest
    rw [List.flatMap_cons, List.flatMap_cons, List.length_append, List.length_append] at hequal
    intro a ha
    rcases List.mem_cons.mp ha with rfl | hmem
    · omega
    · exact ih (by omega) a hmem

end Foundations
