import Mathlib.Data.Set.Basic
import Mathlib.Logic.Function.Conjugate

/-!
# Interleavings of actions on a memory

Several sequences of actions run at the same time: what happens is some interleaving that
keeps the order of each sequence. An action touches only its footprint, the places it may
read and the places it may write. Sequences whose footprints do not conflict commute, so
every interleaving of them does what running one after the other does.
-/

namespace Foundations

variable {α σ : Type*}

/-- A merge of two sequences that keeps the order of each. -/
inductive Merge : List α → List α → List α → Prop
  | nil : Merge [] [] []
  | left {a : α} {first second merged : List α} :
      Merge first second merged → Merge (a :: first) second (a :: merged)
  | right {a : α} {first second merged : List α} :
      Merge first second merged → Merge first (a :: second) (a :: merged)

/-- A merge of any number of sequences that keeps the order of each. -/
inductive Interleaving : List (List α) → List α → Prop
  | nil : Interleaving [] []
  | cons {sequence merged result : List α} {rest : List (List α)} :
      Interleaving rest merged → Merge sequence merged result →
        Interleaving (sequence :: rest) result

/-- Perform actions one after the other. -/
def execute (actions : List (σ → σ)) (s : σ) : σ := actions.foldl (fun s action => action s) s

/-- No actions do nothing. -/
@[simp] theorem execute_nil (s : σ) : execute [] s = s := rfl

/-- The first action comes first. -/
@[simp] theorem execute_cons (action : σ → σ) (rest : List (σ → σ)) (s : σ) :
    execute (action :: rest) s = execute rest (action s) := rfl

/-- Two sequences in a row. -/
@[simp] theorem execute_append (first second : List (σ → σ)) (s : σ) :
    execute (first ++ second) s = execute second (execute first s) := List.foldl_append

/-- An action that commutes with every action of a sequence commutes with the sequence. -/
theorem execute_commute {action : σ → σ} {actions : List (σ → σ)}
    (h : ∀ other ∈ actions, Function.Commute action other) (s : σ) :
    execute actions (action s) = action (execute actions s) := by
  induction actions generalizing s with
  | nil => rfl
  | cons other rest ih =>
    have hother := h other List.mem_cons_self s
    simp only [execute_cons, ← hother]
    exact ih (fun later hlater => h later (List.mem_cons_of_mem other hlater)) (other s)

/-- Every action of one sequence commutes with every action of the other. -/
def AllCommute (first second : List (σ → σ)) : Prop :=
  ∀ action ∈ first, ∀ other ∈ second, Function.Commute action other

/-- A merge of sequences that commute does what the first and then the second does. -/
theorem Merge.execute_eq {first second merged : List (σ → σ)} (h : Merge first second merged)
    (hcommute : AllCommute first second) (s : σ) :
    execute merged s = execute second (execute first s) := by
  induction h generalizing s with
  | nil => rfl
  | left _ ih =>
    exact ih (fun action haction => hcommute action (List.mem_cons_of_mem _ haction)) _
  | @right action first second merged _ ih =>
    have hfirst : ∀ other ∈ first, Function.Commute action other :=
      fun other hother => (hcommute other hother action List.mem_cons_self).symm
    rw [execute_cons, ih (fun other hother later hlater =>
      hcommute other hother later (List.mem_cons_of_mem _ hlater)), execute_commute hfirst]
    rfl

/-- Merging keeps the elements of both sequences. -/
theorem Merge.mem_iff {first second merged : List α} (h : Merge first second merged) (a : α) :
    a ∈ merged ↔ a ∈ first ∨ a ∈ second := by
  induction h with
  | nil => simp
  | left _ ih => simp [ih, or_assoc]
  | right _ ih => simp [ih, or_left_comm]

/-- An interleaving keeps the elements of all sequences. -/
theorem Interleaving.mem_iff {sequences : List (List α)} {merged : List α}
    (h : Interleaving sequences merged) (a : α) :
    a ∈ merged ↔ ∃ sequence ∈ sequences, a ∈ sequence := by
  induction h with
  | nil => simp
  | cons _ hmerge ih => simp [hmerge.mem_iff, ih]

/-- An interleaving of sequences that commute does what they do one after the other. -/
theorem Interleaving.execute_eq {sequences : List (List (σ → σ))} {merged : List (σ → σ)}
    (h : Interleaving sequences merged) (hcommute : sequences.Pairwise AllCommute) (s : σ) :
    execute merged s = execute sequences.flatten s := by
  induction h generalizing s with
  | nil => rfl
  | @cons sequence merged result rest hrest hmerge ih =>
    obtain ⟨hfirst, hlater⟩ := List.pairwise_cons.mp hcommute
    have hall : AllCommute sequence merged := by
      intro action haction other hother
      obtain ⟨later, hmem, hother⟩ := (hrest.mem_iff other).mp hother
      exact hfirst later hmem action haction other hother
    rw [hmerge.execute_eq hall, ih hlater, List.flatten_cons, execute_append]

/-- One sequence before the other is a merge of them. -/
theorem Merge.append (first second : List α) : Merge first second (first ++ second) := by
  induction first with
  | nil =>
    induction second with
    | nil => exact .nil
    | cons a rest ih => exact .right ih
  | cons a rest ih => exact .left ih

/-- One sequence after the other is an interleaving of them. -/
theorem Interleaving.flatten (sequences : List (List α)) :
    Interleaving sequences sequences.flatten := by
  induction sequences with
  | nil => exact .nil
  | cons sequence rest ih => exact .cons ih (Merge.append sequence rest.flatten)

variable {A B : Type*}

/-- The places that an action may read, and those that it may write. -/
structure Footprint (A : Type*) where
  reads : Set A
  writes : Set A

namespace Footprint

/-- Neither footprint writes what the other one reads or writes. -/
structure Independent (first second : Footprint A) : Prop where
  left : ∀ x ∈ first.writes, x ∉ second.reads ∪ second.writes
  right : ∀ x ∈ second.writes, x ∉ first.reads ∪ first.writes

/-- Independence is symmetric. -/
theorem Independent.symm {first second : Footprint A} (h : first.Independent second) :
    second.Independent first := ⟨h.right, h.left⟩

/-- The action changes nothing that its footprint does not write, and what it writes depends on
nothing that its footprint does not read. -/
structure Confines (footprint : Footprint A) (action : (A → B) → A → B) : Prop where
  frame : ∀ m x, x ∉ footprint.writes → action m x = m x
  depends : ∀ m m', (∀ x ∈ footprint.reads, m x = m' x) →
    ∀ x ∈ footprint.writes, action m x = action m' x

/-- An action gives the same place the same value after an independent action as before it. -/
theorem Confines.apply_of_independent {first second : Footprint A}
    {action other : (A → B) → A → B} (haction : first.Confines action)
    (hother : second.Confines other) (h : first.Independent second) (m : A → B) {x : A}
    (hx : x ∉ second.writes) : action (other m) x = action m x := by
  by_cases hwrites : x ∈ first.writes
  · refine haction.depends _ _ (fun y hy => hother.frame m y ?_) x hwrites
    exact fun hy' => h.right _ hy' (Or.inl hy)
  · rw [haction.frame _ x hwrites, haction.frame _ x hwrites, hother.frame m x hx]

/-- Actions with independent footprints commute. -/
theorem Confines.commute {first second : Footprint A} {action other : (A → B) → A → B}
    (haction : first.Confines action) (hother : second.Confines other)
    (h : first.Independent second) : Function.Commute action other := by
  intro m
  funext x
  by_cases hwrites : x ∈ second.writes
  · have hframe : x ∉ first.writes :=
      fun hx => h.left _ hx (Or.inr hwrites)
    rw [haction.frame _ x hframe, hother.apply_of_independent haction h.symm m hframe]
  · rw [hother.frame _ x hwrites, haction.apply_of_independent hother h m hwrites]

end Footprint

end Foundations
