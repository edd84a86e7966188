/-
Work on a state that may fail. A failure keeps what had been changed by then.

`final` and `outcome` are the two halves of a result, and `within` lifts work on a part of a state to
the whole of it.
-/
import Storyboard.Error

namespace Storyboard

/-- Work on a state that gives a value or an error. -/
abbrev Attempt (σ α : Type) := EStateM Error σ α

namespace Attempt

variable {σ τ α β : Type}

/-- The state that a result leaves behind. -/
def final : EStateM.Result Error σ α → σ
  | .ok _ s => s
  | .error _ s => s

/-- The value or the error of a result. -/
def outcome : EStateM.Result Error σ α → Except Error α
  | .ok a _ => .ok a
  | .error e _ => .error e

/-- Work on the part of a state that `view` shows and `put` replaces. -/
def within (view : σ → τ) (put : σ → τ → σ) (work : Attempt τ α) : Attempt σ α := fun s =>
  match work (view s) with
  | .ok a t => .ok a (put s t)
  | .error e t => .error e (put s t)

/-- Work that looks at nothing and changes nothing. -/
def ofExcept : Except Error α → Attempt σ α
  | .ok a => pure a
  | .error e => throw e

@[simp] theorem final_ok (a : α) (s : σ) : final (.ok a s) = s := rfl

@[simp] theorem final_error (e : Error) (s : σ) :
    final (.error e s : EStateM.Result Error σ α) = s := rfl

theorem final_within (view : σ → τ) (put : σ → τ → σ) (work : Attempt τ α) (s : σ) :
    final (within view put work s) = put s (final (work (view s))) := by
  unfold within
  cases work (view s) <;> rfl

/-- Two steps succeed together exactly when both do. -/
theorem bind_eq_ok {x : Attempt σ α} {f : α → Attempt σ β} {s s' : σ} {b : β} :
    (x >>= f) s = .ok b s' ↔ ∃ a t, x s = .ok a t ∧ f a t = .ok b s' := by
  show EStateM.bind x f s = _ ↔ _
  unfold EStateM.bind
  cases x s <;> simp [and_assoc]

end Attempt
end Storyboard
