/-!
# Steps that may fail

A step on a state that may fail keeps the state as the failure left it. What a sequence of steps
does is told by its first step: it goes on when that succeeds and ends there when it fails.
-/

namespace CallTrace.Steps

variable {ε σ α β : Type} {m : ExceptT ε (StateM σ) α} {f : α → ExceptT ε (StateM σ) β} {s t : σ}

theorem bind_of_ok {a : α} (h : m s = (.ok a, t)) : (m >>= f) s = f a t := by
  simp only [bind, ExceptT.bind, ExceptT.mk, StateT.bind]
  rw [h]
  rfl

theorem bind_of_error {fault : ε} (h : m s = (.error fault, t)) :
    (m >>= f) s = (.error fault, t) := by
  simp only [bind, ExceptT.bind, ExceptT.mk, StateT.bind]
  rw [h]
  rfl

end CallTrace.Steps
