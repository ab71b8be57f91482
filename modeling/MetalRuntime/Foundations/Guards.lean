import Mathlib.Logic.Basic
import Mathlib.Data.List.Basic
import Mathlib.Data.List.Forall2

/-!
# Sequences of throwing checks

A validator is a sequence of guards `if (bad) throw error`, some of them inside a loop
over a list. These lemmas say when such a sequence returns, namely when every guard in it
passes, and which errors it can throw. Which error comes first is decided by the
definitions.
-/

namespace Foundations

variable {ε α : Type*}

/-- The guard `if (bad) throw error`. -/
def rejectIf (bad : Prop) [Decidable bad] (error : ε) : Except ε Unit :=
  if bad then .error error else .ok ()

/-- A guard passes exactly when its condition is false. -/
@[simp] theorem rejectIf_eq_ok {bad : Prop} [Decidable bad] {error : ε} {u : Unit} :
    rejectIf bad error = .ok u ↔ ¬ bad := by
  by_cases h : bad <;> simp [rejectIf, h]

/-- A check inside a loop over a list, left at the first element that throws. -/
def forEach (check : α → Except ε Unit) : List α → Except ε Unit
  | [] => .ok ()
  | a :: rest => do
    check a
    forEach check rest

/-- Two computations in sequence return exactly when both do. -/
theorem bind_eq_ok_iff {β γ : Type} {x : Except ε β} {next : β → Except ε γ} {c : γ} :
    (x >>= next) = .ok c ↔ ∃ b, x = .ok b ∧ next b = .ok c := by
  cases x with
  | error e => simp [bind, Except.bind]
  | ok b => simp [bind, Except.bind]

/-- A result that is only renamed is returned exactly when the computation returns. -/
theorem map_eq_ok_iff {β γ : Type} {x : Except ε β} {f : β → γ} {c : γ} :
    x.map f = .ok c ↔ ∃ b, x = .ok b ∧ f b = c := by
  cases x with
  | error e => simp [Except.map]
  | ok b => simp [Except.map]

/-- A check followed by a computation returns exactly when the check passes and the
computation returns. -/
@[simp] theorem check_bind_eq_ok {γ : Type} {x : Except ε Unit} {next : Unit → Except ε γ}
    {c : γ} : (x >>= next) = .ok c ↔ x = .ok () ∧ next () = .ok c := by
  rw [bind_eq_ok_iff]
  constructor
  · rintro ⟨⟨⟩, hx, hnext⟩
    exact ⟨hx, hnext⟩
  · rintro ⟨hx, hnext⟩
    exact ⟨(), hx, hnext⟩

/-- A loop of checks passes exactly when every element passes. -/
@[simp] theorem forEach_eq_ok {check : α → Except ε Unit} {elements : List α} {u : Unit} :
    forEach check elements = .ok u ↔ ∀ a ∈ elements, check a = .ok () := by
  induction elements with
  | nil => simp [forEach]
  | cons a rest ih => simp [forEach, ih]

/-- A loop that collects results returns exactly when every element does, and then their results
in order. -/
theorem mapM_eq_ok_iff {β γ : Type} {body : β → Except ε γ} {elements : List β}
    {results : List γ} : elements.mapM body = .ok results ↔
      List.Forall₂ (fun b c => body b = .ok c) elements results := by
  induction elements generalizing results with
  | nil =>
    rw [List.mapM_nil, List.forall₂_nil_left_iff]
    exact ⟨fun h => by cases h; rfl, fun h => by rw [h]; rfl⟩
  | cons b rest ih =>
    rw [List.mapM_cons, bind_eq_ok_iff, List.forall₂_cons_left_iff]
    refine exists_congr fun c => ?_
    rw [bind_eq_ok_iff]
    constructor
    · intro h
      obtain ⟨hb, cs, hrest, hcons⟩ := h
      cases hcons
      exact ⟨cs, hb, ih.mp hrest, rfl⟩
    · intro h
      obtain ⟨cs, hb, hrest, rfl⟩ := h
      exact ⟨hb, cs, ih.mpr hrest, rfl⟩

/-- Every error of the computation satisfies the predicate. -/
def FailsOnly (P : ε → Prop) (x : Except ε α) : Prop := ∀ e, x = .error e → P e

/-- A returning computation has no error. -/
theorem failsOnly_ok (P : ε → Prop) (a : α) : FailsOnly P (.ok a : Except ε α) := by
  intro e h
  cases h

/-- A thrown error is the only one. -/
theorem failsOnly_error {P : ε → Prop} {e : ε} (h : P e) :
    FailsOnly P (.error e : Except ε α) := by
  intro e' heq
  cases heq
  exact h

/-- A guard throws only its own error. -/
theorem failsOnly_rejectIf {P : ε → Prop} {bad : Prop} [Decidable bad] {error : ε}
    (h : P error) : FailsOnly P (rejectIf bad error) := by
  by_cases hbad : bad
  · rw [rejectIf, if_pos hbad]
    exact failsOnly_error h
  · rw [rejectIf, if_neg hbad]
    exact failsOnly_ok P ()

/-- A sequence throws what its first part throws, or what the rest throws after the first
part has returned. -/
theorem FailsOnly.bind {β γ : Type} {P : ε → Prop} {x : Except ε β} {next : β → Except ε γ}
    (hx : FailsOnly P x) (hnext : ∀ b, x = .ok b → FailsOnly P (next b)) :
    FailsOnly P (x >>= next) := by
  cases x with
  | error e => exact failsOnly_error (hx e rfl)
  | ok b => exact hnext b rfl

/-- Errors of one kind are errors of every wider kind. -/
theorem FailsOnly.mono {P Q : ε → Prop} {x : Except ε α} (h : FailsOnly P x)
    (hwider : ∀ e, P e → Q e) : FailsOnly Q x := fun e he => hwider e (h e he)

/-- Renaming a result throws what the computation throws. -/
theorem FailsOnly.map {β γ : Type} {P : ε → Prop} {x : Except ε β} (h : FailsOnly P x)
    (f : β → γ) : FailsOnly P (x.map f) := by
  cases x with
  | error e => exact failsOnly_error (h e rfl)
  | ok b => exact failsOnly_ok P (f b)

/-- A loop throws what the check of one of its elements throws. -/
theorem failsOnly_forEach {P : ε → Prop} {check : α → Except ε Unit} {elements : List α}
    (h : ∀ a ∈ elements, FailsOnly P (check a)) : FailsOnly P (forEach check elements) := by
  induction elements with
  | nil => exact failsOnly_ok P ()
  | cons a rest ih =>
    unfold forEach
    exact (h a List.mem_cons_self).bind fun _ _ =>
      ih fun b hb => h b (List.mem_cons_of_mem a hb)

/-- A loop that collects results throws what the body throws for one of its elements. -/
theorem failsOnly_mapM {β γ : Type} {P : ε → Prop} {body : β → Except ε γ} {elements : List β}
    (h : ∀ b ∈ elements, FailsOnly P (body b)) : FailsOnly P (elements.mapM body) := by
  induction elements with
  | nil =>
    rw [List.mapM_nil]
    exact failsOnly_ok P []
  | cons b rest ih =>
    rw [List.mapM_cons]
    refine (h b List.mem_cons_self).bind fun c _ => ?_
    exact (ih fun other hother => h other (List.mem_cons_of_mem b hother)).bind fun cs _ =>
      failsOnly_ok P (c :: cs)

end Foundations
