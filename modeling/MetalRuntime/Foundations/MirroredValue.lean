import MetalRuntime.Foundations.Runs

/-!
# A shared value and a mirrored one

A front side and a back side work on one value. Either they share it, or the back side works
on a mirror of its own that a publication copies to the front. The mirror never receives what
the front side writes, so the two arrangements show the same exactly when what the back side
publishes does not depend on those writes.
-/

namespace Foundations

variable {α : Type*}

/-- An access of one side to the value. -/
inductive Access (α : Type*)
  | write (update : α → α)
  | look
  | compute (update : α → α)
  | publish

namespace Access

/-- What an access makes of a value that both sides share. -/
def apply (value : α) : Access α → α
  | write update | compute update => update value
  | look | publish => value

/-- Whether the access belongs to the back side. -/
def isCompute : Access α → Bool
  | compute _ => true
  | write _ | look | publish => false

end Access

/-- One step on a shared value, with what the front side sees. -/
def sharedStep (value : α) : Access α → Option (Option α × α)
  | .write update => some (none, update value)
  | .look => some (some value, value)
  | .compute update => some (none, update value)
  | .publish => some (some value, value)

/-- One step on a front value with a mirror at the back. -/
def mirroredStep (values : α × α) : Access α → Option (Option α × (α × α))
  | .write update => some (none, (update values.1, values.2))
  | .look => some (some values.1, values)
  | .compute update => some (none, (values.1, update values.2))
  | .publish => some (some values.2, (values.2, values.2))

/-- Every computation is published before the front side next looks or writes. -/
def Disciplined : Bool → List (Access α) → Prop
  | _, [] => True
  | pending, .write _ :: rest => pending = false ∧ Disciplined pending rest
  | pending, .look :: rest => pending = false ∧ Disciplined pending rest
  | _, .compute _ :: rest => Disciplined true rest
  | _, .publish :: rest => Disciplined false rest

/-- At every publication, the computations since the one before make the same value with the
writes in between as without them. `base` is the value at the earlier publication and `since`
are the accesses after it. -/
def WritesHidden : α → List (Access α) → List (Access α) → Prop
  | _, _, [] => True
  | base, since, .write update :: rest => WritesHidden base (since ++ [.write update]) rest
  | base, since, .look :: rest => WritesHidden base (since ++ [.look]) rest
  | base, since, .compute update :: rest => WritesHidden base (since ++ [.compute update]) rest
  | base, since, .publish :: rest =>
    since.foldl Access.apply base = (since.filter Access.isCompute).foldl Access.apply base ∧
      WritesHidden (since.foldl Access.apply base) [] rest

/-- The value after one more access. -/
theorem foldl_concat_apply (base : α) (since : List (Access α)) (access : Access α) :
    (since ++ [access]).foldl Access.apply base =
      Access.apply (since.foldl Access.apply base) access := by
  rw [List.foldl_append]
  rfl

/-- While nothing is pending, the front value follows the accesses of the front side. -/
theorem apply_front {base front : α} {since : List (Access α)}
    (hfront : front = since.foldl Access.apply base) (access : Access α) :
    Access.apply front access = (since ++ [access]).foldl Access.apply base := by
  rw [foldl_concat_apply, hfront]

/-- One more computation acts on what the computations before it made. -/
theorem foldl_filter_concat_compute (base : α) (since : List (Access α)) (update : α → α) :
    ((since ++ [Access.compute update]).filter Access.isCompute).foldl Access.apply base =
      update ((since.filter Access.isCompute).foldl Access.apply base) := by
  rw [List.filter_append]
  exact foldl_concat_apply base _ _

/-- An access of the front side is none of the computations. -/
theorem filter_concat_isCompute_of_front (since : List (Access α)) {access : Access α}
    (h : access.isCompute = false) :
    (since ++ [access]).filter Access.isCompute = since.filter Access.isCompute := by
  rw [List.filter_append, List.filter_singleton, h]
  exact List.append_nil _

/-- Two runs show the same exactly when their first steps do and the rest does. -/
theorem cons_shown_eq_iff {shown shown' rest rest' : List (Option α)} {first first' : Option α}
    (h : shown = first :: rest) (h' : shown' = first' :: rest') :
    shown' = shown ↔ first' = first ∧ rest' = rest := by
  rw [h, h', List.cons.injEq]

/-- A disciplined caller sees the same of a mirrored value as of a shared one exactly when no
publication depends on the writes before it. -/
theorem shown_eq_iff_writesHidden {pending : Bool} {base front t : α} {t' : α × α}
    {since accesses : List (Access α)} {shown shown' : List (Option α)}
    (hdisciplined : Disciplined pending accesses)
    (hfront : pending = false → front = since.foldl Access.apply base)
    (hshared : runSchedule sharedStep (since.foldl Access.apply base) accesses = some (shown, t))
    (hmirrored : runSchedule mirroredStep
      (front, (since.filter Access.isCompute).foldl Access.apply base) accesses =
        some (shown', t')) :
    shown' = shown ↔ WritesHidden base since accesses := by
  -- `base` and `since` determine the shared value and the mirror at every point of the runs.
  induction accesses generalizing pending base front since shown shown' with
  | nil =>
    cases hshared
    cases hmirrored
    exact iff_of_true rfl trivial
  | cons access rest ih =>
    obtain ⟨o, s, os, hstep, hrest, hshown⟩ := (runSchedule_cons_iff _ _ _ _ _ _).mp hshared
    obtain ⟨o', s', os', hstep', hrest', hshown'⟩ := (runSchedule_cons_iff _ _ _ _ _ _).mp hmirrored
    rw [cons_shown_eq_iff hshown hshown']
    have hvalue := foldl_concat_apply base since access
    cases access with
    | write update =>
      cases hstep
      cases hstep'
      obtain ⟨hpending, hlater⟩ := hdisciplined
      rw [and_iff_right rfl, WritesHidden]
      rw [← filter_concat_isCompute_of_front since
        (rfl : (Access.write update).isCompute = false)] at hrest'
      exact ih hlater (fun _ => apply_front (hfront hpending) _) (hvalue ▸ hrest) hrest'
    | look =>
      cases hstep
      cases hstep'
      obtain ⟨hpending, hlater⟩ := hdisciplined
      rw [and_iff_right (congrArg some (hfront hpending)), WritesHidden]
      rw [← filter_concat_isCompute_of_front since
        (rfl : (Access.look : Access α).isCompute = false)] at hrest'
      exact ih hlater (fun _ => apply_front (hfront hpending) _) (hvalue ▸ hrest) hrest'
    | compute update =>
      cases hstep
      cases hstep'
      rw [and_iff_right rfl, WritesHidden]
      have hmirror := foldl_filter_concat_compute base since update
      exact ih hdisciplined (fun hsettled => nomatch hsettled) (hvalue ▸ hrest) (hmirror ▸ hrest')
    | publish =>
      cases hstep
      cases hstep'
      rw [Option.some.injEq, WritesHidden, eq_comm]
      refine and_congr_right fun hpublished => ?_
      rw [← hpublished] at hrest'
      exact ih hdisciplined (fun _ => rfl) hrest hrest'

end Foundations
