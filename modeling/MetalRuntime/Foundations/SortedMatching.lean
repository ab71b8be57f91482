import Mathlib.Data.List.Forall2
import Mathlib.Data.List.Basic

/-!
# Matching strictly sorted lists

Two lists strictly sorted by a key, each element of one having a partner with its key in the
other, are matched element by element. So sorting makes a set of keyed entries independent of
the order they came in. Entries with distinct keys are strictly sorted once they are sorted.
-/

namespace Foundations

variable {α β κ : Type*}

/-- Every element of lists matched element by element has a partner. -/
theorem partners_of_forall₂ {R : α → β → Prop} {as : List α} {bs : List β}
    (h : List.Forall₂ R as bs) : (∀ a ∈ as, ∃ b ∈ bs, R a b) ∧ ∀ b ∈ bs, ∃ a ∈ as, R a b := by
  induction h with
  | nil => simp
  | cons hhead _ ih =>
    simp only [List.mem_cons, forall_eq_or_imp, exists_eq_or_imp]
    refine ⟨⟨Or.inl hhead, ?_⟩, Or.inl hhead, ?_⟩
    · intro a ha
      exact Or.inr (ih.1 a ha)
    · intro b hb
      exact Or.inr (ih.2 b hb)

/-- The first elements of matched sorted lists are partners, and the rest are matched. -/
theorem matched_cons {lt : κ → κ → Prop} [Std.Asymm lt] {left : α → κ} {right : β → κ}
    {R : α → β → Prop} (hkey : ∀ a b, R a b → left a = right b) {a : α} {b : β} {as : List α}
    {bs : List β} (ha : ∀ a' ∈ as, lt (left a) (left a')) (hb : ∀ b' ∈ bs, lt (right b) (right b'))
    (hright : ∀ a' ∈ a :: as, ∃ b' ∈ b :: bs, R a' b')
    (hleft : ∀ b' ∈ b :: bs, ∃ a' ∈ a :: as, R a' b') :
    R a b ∧ ∀ a' ∈ as, ∃ b' ∈ bs, R a' b' := by
  have hhead : R a b := by
    obtain ⟨b', hb', hab'⟩ := hright a List.mem_cons_self
    obtain ⟨a', ha', ha'b⟩ := hleft b List.mem_cons_self
    cases hb' with
    | head => exact hab'
    | tail _ hb' =>
      cases ha' with
      | head => exact ha'b
      | tail _ ha' =>
        -- Each head would come strictly before the other.
        have hba := hb b' hb'
        have hab := ha a' ha'
        rw [← hkey a b' hab'] at hba
        rw [hkey a' b ha'b] at hab
        exact absurd hab (Std.Asymm.asymm _ _ hba)
  refine ⟨hhead, ?_⟩
  intro a' ha'
  obtain ⟨b', hb', hab'⟩ := hright a' (List.mem_cons_of_mem _ ha')
  cases hb' with
  | head =>
    have hab := ha a' ha'
    rw [hkey a' b hab', ← hkey a b hhead] at hab
    exact absurd hab (Std.Asymm.asymm _ _ hab)
  | tail _ hb' => exact ⟨b', hb', hab'⟩

/-- Strictly sorted lists with partners both ways are matched element by element. -/
theorem forall₂_of_sorted {lt : κ → κ → Prop} [Std.Asymm lt] {left : α → κ} {right : β → κ}
    {R : α → β → Prop} (hkey : ∀ a b, R a b → left a = right b) {as : List α} {bs : List β}
    (has : as.Pairwise fun a a' => lt (left a) (left a'))
    (hbs : bs.Pairwise fun b b' => lt (right b) (right b'))
    (hright : ∀ a ∈ as, ∃ b ∈ bs, R a b) (hleft : ∀ b ∈ bs, ∃ a ∈ as, R a b) :
    List.Forall₂ R as bs := by
  induction as generalizing bs with
  | nil =>
    cases bs with
    | nil => exact List.Forall₂.nil
    | cons b bs =>
      obtain ⟨a, ha, -⟩ := hleft b List.mem_cons_self
      exact absurd ha List.not_mem_nil
  | cons a as ih =>
    cases bs with
    | nil =>
      obtain ⟨b, hb, -⟩ := hright a List.mem_cons_self
      exact absurd hb List.not_mem_nil
    | cons b bs =>
      obtain ⟨ha, has⟩ := List.pairwise_cons.mp has
      obtain ⟨hb, hbs⟩ := List.pairwise_cons.mp hbs
      obtain ⟨hhead, hright'⟩ := matched_cons hkey ha hb hright hleft
      have hflip : ∀ b a, R a b → right b = left a := fun b a h => (hkey a b h).symm
      obtain ⟨-, hleft'⟩ := matched_cons hflip hb ha hleft hright
      exact List.Forall₂.cons hhead (ih has hbs hright' hleft')

/-- A sorted list with distinct keys is strictly sorted. -/
theorem strictly_sorted {lt : κ → κ → Prop} [Std.Trichotomous lt] {key : α → κ} {l : List α}
    (hsorted : l.Pairwise fun a a' => ¬ lt (key a') (key a)) (hdistinct : (l.map key).Nodup) :
    l.Pairwise fun a a' => lt (key a) (key a') := by
  have hne : l.Pairwise fun a a' => key a ≠ key a' := List.pairwise_map.mp hdistinct
  refine (hsorted.and hne).imp ?_
  intro a a' h
  by_contra hlt
  exact h.2 (Std.Trichotomous.trichotomous _ _ hlt h.1)

end Foundations
