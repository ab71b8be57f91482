import Mathlib.Logic.Basic
import Mathlib.Data.List.Basic

/-!
# Methods that throw without rolling back

A member function of a stateful object may throw in the middle; what it did before stays
done. `ExceptT` over `StateM` has exactly this meaning. `exec` runs a method on a state,
and one equation for each construct lets a proof execute a method body symbolically.
-/

namespace Foundations

variable {σ ε α β : Type}

/-- A method on an object of type `σ` that returns `α` or throws `ε`. -/
abbrev Method (σ ε α : Type) := ExceptT ε (StateM σ) α

namespace Method

/-- Run a method: the outcome, and the object as the method leaves it, thrown or not. -/
def exec (m : Method σ ε α) (s : σ) : Except ε α × σ := (ExceptT.run m).run s

/-- Run the code after a computation, unless the computation threw. -/
def andThen (result : Except ε α × σ) (next : α → Method σ ε β) : Except ε β × σ :=
  match result with
  | (.ok a, s) => (next a).exec s
  | (.error e, s) => (.error e, s)

@[simp] theorem andThen_ok (a : α) (s : σ) (next : α → Method σ ε β) :
    andThen (.ok a, s) next = (next a).exec s := rfl

@[simp] theorem andThen_error (e : ε) (s : σ) (next : α → Method σ ε β) :
    andThen (.error e, s) next = (.error e, s) := rfl

/-- Returning leaves the object alone. -/
@[simp] theorem exec_pure (a : α) (s : σ) : exec (pure a : Method σ ε α) s = (.ok a, s) := rfl

/-- Throwing leaves the object alone. -/
@[simp] theorem exec_throw (e : ε) (s : σ) :
    exec (throw e : Method σ ε α) s = (.error e, s) := rfl

/-- A sequence runs its second part from the state the first part left. -/
@[simp] theorem exec_bind (m : Method σ ε α) (next : α → Method σ ε β) (s : σ) :
    exec (m >>= next) s = andThen (exec m s) next := by
  change (match (ExceptT.run m).run s with
    | (result, s') => StateT.run (ExceptT.bindCont next result) s') = _
  unfold exec
  rcases (ExceptT.run m).run s with ⟨result, s'⟩
  cases result with
  | ok a => rfl
  | error e => rfl

/-- Reading the object. -/
@[simp] theorem exec_get (s : σ) : exec (get : Method σ ε σ) s = (.ok s, s) := rfl

/-- Replacing the object. -/
@[simp] theorem exec_set (s t : σ) :
    exec (set t : Method σ ε PUnit) s = (.ok ⟨⟩, t) := rfl

/-- Updating the object. -/
@[simp] theorem exec_modify (f : σ → σ) (s : σ) :
    exec (modify f : Method σ ε PUnit) s = (.ok ⟨⟩, f s) := rfl

/-- A call of a function that does not touch the object. -/
def ofExcept (result : Except ε α) : Method σ ε α :=
  match result with
  | .ok a => pure a
  | .error e => throw e

/-- Such a call only passes its outcome on. -/
@[simp] theorem exec_ofExcept (result : Except ε α) (s : σ) :
    exec (ofExcept result : Method σ ε α) s = (result, s) := by
  cases result with
  | ok a => rfl
  | error e => rfl

end Method

end Foundations
