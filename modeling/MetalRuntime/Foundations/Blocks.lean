import Mathlib.Logic.Basic

/-!
# Programs that raise

Structured programs over atomic actions that may raise exceptions: sequences, choices, loops,
handlers and contexts. A context performs an action before its body and one of two others after
it, depending on whether the body raised. Triples have two postconditions, one for each way to end.
-/

namespace Foundations

variable {α ε σ : Type*}

/-- A program over actions `α` that may raise `ε`. -/
inductive Block (α ε : Type*)
  | skip
  | act (action : α)
  | raise (error : ε)
  | seq (first second : Block α ε)
  | choice (first second : Block α ε)
  | loop (body : Block α ε)
  | handle (body handler : Block α ε)
  | within (enter : α) (body : Block α ε) (leave abandon : α)

namespace Block

/-- How a program can end. A choice may go either way, a loop may stop before each round, and a
handler may take an exception or not. -/
inductive Runs (perform : α → σ → Except ε Unit → σ → Prop) :
    Block α ε → σ → Except ε Unit → σ → Prop
  | skip {s : σ} : Runs perform .skip s (.ok ()) s
  | act {action : α} {s s' : σ} {outcome : Except ε Unit} (h : perform action s outcome s') :
      Runs perform (.act action) s outcome s'
  | raise {error : ε} {s : σ} : Runs perform (.raise error) s (.error error) s
  | seq {first second : Block α ε} {s s' t : σ} {outcome : Except ε Unit}
      (hfirst : Runs perform first s (.ok ()) s') (hsecond : Runs perform second s' outcome t) :
      Runs perform (.seq first second) s outcome t
  | seqRaised {first second : Block α ε} {s s' : σ} {error : ε}
      (hfirst : Runs perform first s (.error error) s') :
      Runs perform (.seq first second) s (.error error) s'
  | choiceFirst {first second : Block α ε} {s s' : σ} {outcome : Except ε Unit}
      (h : Runs perform first s outcome s') : Runs perform (.choice first second) s outcome s'
  | choiceSecond {first second : Block α ε} {s s' : σ} {outcome : Except ε Unit}
      (h : Runs perform second s outcome s') : Runs perform (.choice first second) s outcome s'
  | loopEnd {body : Block α ε} {s : σ} : Runs perform (.loop body) s (.ok ()) s
  | loopAgain {body : Block α ε} {s s' t : σ} {outcome : Except ε Unit}
      (hbody : Runs perform body s (.ok ()) s')
      (hrest : Runs perform (.loop body) s' outcome t) : Runs perform (.loop body) s outcome t
  | loopRaised {body : Block α ε} {s s' : σ} {error : ε}
      (hbody : Runs perform body s (.error error) s') :
      Runs perform (.loop body) s (.error error) s'
  | handled {body handler : Block α ε} {s s' t : σ} {error : ε} {outcome : Except ε Unit}
      (hbody : Runs perform body s (.error error) s')
      (hhandler : Runs perform handler s' outcome t) :
      Runs perform (.handle body handler) s outcome t
  | unhandled {body handler : Block α ε} {s s' : σ} {outcome : Except ε Unit}
      (hbody : Runs perform body s outcome s') : Runs perform (.handle body handler) s outcome s'
  | refused {enter leave abandon : α} {body : Block α ε} {s s' : σ} {error : ε}
      (henter : perform enter s (.error error) s') :
      Runs perform (.within enter body leave abandon) s (.error error) s'
  | left {enter leave abandon : α} {body : Block α ε} {s s₁ s₂ t : σ} {outcome : Except ε Unit}
      (henter : perform enter s (.ok ()) s₁) (hbody : Runs perform body s₁ (.ok ()) s₂)
      (hleave : perform leave s₂ outcome t) :
      Runs perform (.within enter body leave abandon) s outcome t
  | abandoned {enter leave abandon : α} {body : Block α ε} {s s₁ s₂ t : σ} {error : ε}
      (henter : perform enter s (.ok ()) s₁) (hbody : Runs perform body s₁ (.error error) s₂)
      (habandon : perform abandon s₂ (.ok ()) t) :
      Runs perform (.within enter body leave abandon) s (.error error) t
  | abandonRaised {enter leave abandon : α} {body : Block α ε} {s s₁ s₂ t : σ} {error raised : ε}
      (henter : perform enter s (.ok ()) s₁) (hbody : Runs perform body s₁ (.error error) s₂)
      (habandon : perform abandon s₂ (.error raised) t) :
      Runs perform (.within enter body leave abandon) s (.error raised) t

/-- One postcondition for each way to end. -/
def Ends (Q : σ → Prop) (R : ε → σ → Prop) : Except ε Unit → σ → Prop
  | .ok _, s => Q s
  | .error error, s => R error s

/-- From `P`, a program that returns reaches `Q` and one that raises reaches `R`. -/
def Triple (perform : α → σ → Except ε Unit → σ → Prop) (P : σ → Prop) (block : Block α ε)
    (Q : σ → Prop) (R : ε → σ → Prop) : Prop :=
  ∀ s outcome s', P s → Runs perform block s outcome s' → Ends Q R outcome s'

/-- The same for one action. -/
def ActTriple (perform : α → σ → Except ε Unit → σ → Prop) (P : σ → Prop) (action : α)
    (Q : σ → Prop) (R : ε → σ → Prop) : Prop :=
  ∀ s outcome s', P s → perform action s outcome s' → Ends Q R outcome s'

section Rules

variable {perform : α → σ → Except ε Unit → σ → Prop} {P Q M : σ → Prop} {R S : ε → σ → Prop}
  {first second body handler : Block α ε} {action enter leave abandon : α}

theorem Triple.skip : Triple perform P .skip P R := by
  intro s outcome s' hP hrun
  cases hrun
  exact hP

theorem Triple.act (h : ActTriple perform P action Q R) : Triple perform P (.act action) Q R := by
  intro s outcome s' hP hrun
  cases hrun with
  | act hperform => exact h s outcome s' hP hperform

theorem Triple.raise {error : ε} (h : ∀ s, P s → R error s) :
    Triple perform P (.raise error) Q R := by
  intro s outcome s' hP hrun
  cases hrun
  exact h s hP

theorem Triple.seq (hfirst : Triple perform P first M R) (hsecond : Triple perform M second Q R) :
    Triple perform P (.seq first second) Q R := by
  intro s outcome t hP hrun
  cases hrun with
  | seq hrun₁ hrun₂ => exact hsecond _ _ _ (hfirst _ _ _ hP hrun₁) hrun₂
  | seqRaised hrun₁ => exact hfirst _ _ _ hP hrun₁

theorem Triple.choice (hfirst : Triple perform P first Q R)
    (hsecond : Triple perform P second Q R) : Triple perform P (.choice first second) Q R := by
  intro s outcome s' hP hrun
  cases hrun with
  | choiceFirst h => exact hfirst _ _ _ hP h
  | choiceSecond h => exact hsecond _ _ _ hP h

/-- A loop keeps what each round keeps. -/
theorem Triple.loop (hbody : Triple perform P body P R) : Triple perform P (.loop body) P R := by
  intro s outcome s' hP hrun
  generalize hloop : Block.loop body = block at hrun
  induction hrun with
  | loopEnd => exact hP
  | loopAgain hround _ _ ih =>
    cases hloop
    exact ih (hbody _ _ _ hP hround) rfl
  | loopRaised hround =>
    cases hloop
    exact hbody _ _ _ hP hround
  | _ => cases hloop

/-- What is raised may be handled or not. -/
theorem Triple.handle (hbody : Triple perform P body Q S)
    (hhandler : ∀ error, Triple perform (S error) handler Q R)
    (hpass : ∀ error s, S error s → R error s) :
    Triple perform P (.handle body handler) Q R := by
  intro s outcome s' hP hrun
  cases hrun with
  | handled hraised hrun => exact hhandler _ _ _ _ (hbody _ _ _ hP hraised) hrun
  | unhandled hrun =>
    have hends := hbody _ _ _ hP hrun
    cases outcome with
    | ok _ => exact hends
    | error error => exact hpass error s' hends

/-- What holds of some value before holds of the same value after. -/
theorem Triple.exists {ι : Sort*} {block : Block α ε} {P Q : ι → σ → Prop} {R : ι → ε → σ → Prop}
    (h : ∀ x, Triple perform (P x) block (Q x) (R x)) :
    Triple perform (fun s => ∃ x, P x s) block (fun s => ∃ x, Q x s)
      fun error s => ∃ x, R x error s := by
  intro s outcome s' hP hrun
  obtain ⟨x, hx⟩ := hP
  have hends := h x s outcome s' hx hrun
  cases outcome with
  | ok _ => exact ⟨x, hends⟩
  | error error => exact ⟨x, hends⟩

/-- Nothing starts where nothing holds. -/
theorem Triple.of_false {block : Block α ε} : Triple perform (fun _ => False) block Q R :=
  fun _ _ _ hP _ => hP.elim

/-- A context: what its body raises goes on, unless the action after it raises. -/
theorem Triple.within {N : σ → Prop} (henter : ActTriple perform P enter M R)
    (hbody : Triple perform M body N S) (hleave : ActTriple perform N leave Q R)
    (habandon : ∀ error, ActTriple perform (S error) abandon (R error) R) :
    Triple perform P (.within enter body leave abandon) Q R := by
  intro s outcome t hP hrun
  cases hrun with
  | refused hrefused => exact henter _ _ _ hP hrefused
  | left hentered hrun hleft =>
    exact hleave _ _ _ (hbody _ _ _ (henter _ _ _ hP hentered) hrun) hleft
  | abandoned hentered hrun habandoned =>
    exact habandon _ _ _ _ (hbody _ _ _ (henter _ _ _ hP hentered) hrun) habandoned
  | abandonRaised hentered hrun habandoned =>
    exact habandon _ _ _ _ (hbody _ _ _ (henter _ _ _ hP hentered) hrun) habandoned

end Rules

/-- The actions of a program. -/
def actions : Block α ε → List α
  | .skip => []
  | .act action => [action]
  | .raise _ => []
  | .seq first second => first.actions ++ second.actions
  | .choice first second => first.actions ++ second.actions
  | .loop body => body.actions
  | .handle body handler => body.actions ++ handler.actions
  | .within enter body leave abandon => enter :: leave :: abandon :: body.actions

/-- A program keeps what each of its actions keeps. -/
theorem Triple.of_actions {perform : α → σ → Except ε Unit → σ → Prop} {P : σ → Prop}
    {block : Block α ε}
    (h : ∀ action ∈ block.actions, ActTriple perform P action P fun _ => P) :
    Triple perform P block P fun _ => P := by
  induction block with
  | skip => exact .skip
  | act action => exact .act (h action (List.mem_singleton_self action))
  | raise error => exact .raise fun _ hP => hP
  | seq first second ih₁ ih₂ =>
    exact .seq (ih₁ fun action hmem => h action (List.mem_append_left _ hmem))
      (ih₂ fun action hmem => h action (List.mem_append_right _ hmem))
  | choice first second ih₁ ih₂ =>
    exact .choice (ih₁ fun action hmem => h action (List.mem_append_left _ hmem))
      (ih₂ fun action hmem => h action (List.mem_append_right _ hmem))
  | loop body ih => exact .loop (ih h)
  | handle body handler ih₁ ih₂ =>
    exact .handle (ih₁ fun action hmem => h action (List.mem_append_left _ hmem))
      (fun _ => ih₂ fun action hmem => h action (List.mem_append_right _ hmem))
      fun _ _ hP => hP
  | within enter body leave abandon ih =>
    refine .within (h enter List.mem_cons_self) (ih fun action hmem => h action ?_)
      (h leave ?_) fun _ => h abandon ?_
    · exact List.mem_cons_of_mem _ (List.mem_cons_of_mem _ (List.mem_cons_of_mem _ hmem))
    · exact List.mem_cons_of_mem _ List.mem_cons_self
    · exact List.mem_cons_of_mem _ (List.mem_cons_of_mem _ List.mem_cons_self)

end Block

end Foundations
