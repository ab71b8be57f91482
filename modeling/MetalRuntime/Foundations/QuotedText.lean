import Mathlib.Data.List.Basic

/-!
# Quoted text

A text between quotes, in which an escape symbol stands in front of every quote and of every
escape symbol that belongs to the text. A reader that takes each escaped symbol as it is stops
at the closing quote and gives the text back, over any alphabet.
-/

namespace Foundations

variable {α : Type*} [DecidableEq α]

/-- Replace every occurrence of one symbol. -/
def replaceEach (old : α) (new text : List α) : List α :=
  text.flatMap fun c => if c = old then new else [c]

/-- Put an escape symbol in front of every quote and every escape symbol. -/
def escapeText (escape quote : α) (text : List α) : List α :=
  text.flatMap fun c => if c = escape ∨ c = quote then [escape, c] else [c]

/-- Read up to the first quote that is not escaped, undoing the escapes: the text and what
follows the quote. -/
def readQuoted (escape quote : α) : List α → Option (List α × List α)
  | [] => none
  | [c] => if c = quote then some ([], []) else none
  | c :: d :: rest =>
    if c = quote then some ([], d :: rest)
    else if c = escape then (readQuoted escape quote rest).map (Prod.map (List.cons d) id)
    else (readQuoted escape quote (d :: rest)).map (Prod.map (List.cons c) id)

variable {escape quote : α}

/-- Escaping the escape symbols first and the quotes after them escapes both. -/
theorem replaceEach_replaceEach (h : escape ≠ quote) (text : List α) :
    replaceEach quote [escape, quote] (replaceEach escape [escape, escape] text) =
      escapeText escape quote text := by
  rw [replaceEach, replaceEach, List.flatMap_assoc, escapeText]
  apply List.flatMap_congr
  intro c _
  by_cases hescape : c = escape
  · subst hescape
    simp [h]
  · by_cases hquote : c = quote
    · subst hquote
      simp [hescape]
    · simp [hescape, hquote]

/-- Escaping adds nothing but escape symbols. -/
theorem mem_escapeText_iff {c : α} (hc : c ≠ escape) {text : List α} :
    c ∈ escapeText escape quote text ↔ c ∈ text := by
  rw [escapeText, List.mem_flatMap]
  constructor
  · intro h
    obtain ⟨d, hd, hmem⟩ := h
    split at hmem
    · rcases List.mem_cons.mp hmem with hescape | hrest
      · exact absurd hescape hc
      · rwa [List.mem_singleton.mp hrest]
    · rwa [List.mem_singleton.mp hmem]
  · intro h
    refine ⟨c, h, ?_⟩
    split
    · exact List.mem_cons_of_mem _ List.mem_cons_self
    · exact List.mem_singleton_self c

/-- A closing quote ends the text. -/
theorem readQuoted_quote (rest : List α) :
    readQuoted escape quote (quote :: rest) = some ([], rest) := by
  cases rest with
  | nil => exact if_pos rfl
  | cons d rest => exact if_pos rfl

/-- An escaped symbol is read as it is. -/
theorem readQuoted_escape (h : escape ≠ quote) (c : α) (rest : List α) :
    readQuoted escape quote (escape :: c :: rest) =
      (readQuoted escape quote rest).map (Prod.map (List.cons c) id) := by
  rw [readQuoted, if_neg h, if_pos rfl]

/-- Any other symbol is read as it is when something follows. -/
theorem readQuoted_cons {c : α} (hescape : c ≠ escape) (hquote : c ≠ quote) {rest : List α}
    (hrest : rest ≠ []) :
    readQuoted escape quote (c :: rest) =
      (readQuoted escape quote rest).map (Prod.map (List.cons c) id) := by
  cases rest with
  | nil => exact absurd rfl hrest
  | cons d rest => rw [readQuoted, if_neg hquote, if_neg hescape]

/-- An escaped text is read up to its closing quote and given back. -/
theorem readQuoted_escapeText (h : escape ≠ quote) (text rest : List α) :
    readQuoted escape quote (escapeText escape quote text ++ quote :: rest) =
      some (text, rest) := by
  induction text with
  | nil => exact readQuoted_quote rest
  | cons c text ih =>
    have hrest : escapeText escape quote text ++ quote :: rest ≠ [] := by simp
    by_cases hspecial : c = escape ∨ c = quote
    · have hhead : escapeText escape quote (c :: text) =
          escape :: c :: escapeText escape quote text := by
        rw [escapeText, List.flatMap_cons, if_pos hspecial]
        rfl
      rw [hhead, List.cons_append, List.cons_append, readQuoted_escape h, ih]
      rfl
    · have hhead : escapeText escape quote (c :: text) = c :: escapeText escape quote text := by
        rw [escapeText, List.flatMap_cons, if_neg hspecial]
        rfl
      rw [not_or] at hspecial
      rw [hhead, List.cons_append, readQuoted_cons hspecial.1 hspecial.2 hrest, ih]
      rfl

end Foundations
