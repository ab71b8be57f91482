import Mathlib.Data.List.Forall2

/-!
# Related lists

Two lists related element by element have related elements at an index, and stay related when both
change there.
-/

namespace Foundations

variable {α β γ δ : Type*} {R : α → β → Prop} {as : List α} {bs : List β}

/-- Related lists have related elements at an index. -/
theorem forall₂_getElem? (h : List.Forall₂ R as bs) {i : ℕ} {a : α} (ha : as[i]? = some a) :
    ∃ b, bs[i]? = some b ∧ R a b := by
  induction h generalizing i with
  | nil => cases ha
  | cons hhead _ ih =>
    cases i with
    | zero =>
      cases ha
      exact ⟨_, rfl, hhead⟩
    | succ i => exact ih ha

/-- Related lists stay related when both get related elements at an index. -/
theorem forall₂_set (h : List.Forall₂ R as bs) (i : ℕ) {a : α} {b : β} (hab : R a b) :
    List.Forall₂ R (as.set i a) (bs.set i b) := by
  induction h generalizing i with
  | nil => exact List.Forall₂.nil
  | cons hhead htail ih =>
    cases i with
    | zero => exact List.Forall₂.cons hab htail
    | succ i => exact List.Forall₂.cons hhead (ih i)

/-- Related lists have one image if related elements have. -/
theorem map_eq_of_forall₂ {f : α → γ} {g : β → γ} (h : List.Forall₂ R as bs)
    (hfg : ∀ a b, R a b → f a = g b) : as.map f = bs.map g := by
  induction h with
  | nil => rfl
  | cons hhead _ ih => rw [List.map_cons, List.map_cons, hfg _ _ hhead, ih]

/-- Lists with one image under two functions, the second with values of its own. -/
theorem forall₂_zipWith_of_map_eq {f : α → γ} {g : β → γ} {combine : β → α → δ}
    (h : as.map f = bs.map g) :
    List.Forall₂ (fun a d => ∃ b ∈ bs, f a = g b ∧ d = combine b a) as
      (List.zipWith combine bs as) := by
  induction as generalizing bs with
  | nil =>
    cases bs with
    | nil => exact List.Forall₂.nil
    | cons b bs => cases h
  | cons a as ih =>
    cases bs with
    | nil => cases h
    | cons b bs =>
      obtain ⟨hhead, htail⟩ := List.cons.inj h
      refine List.Forall₂.cons ⟨b, List.mem_cons_self, hhead, rfl⟩ ((ih htail).imp ?_)
      intro a d hrest
      obtain ⟨b', hmem, hsame⟩ := hrest
      exact ⟨b', List.mem_cons_of_mem b hmem, hsame⟩

end Foundations
