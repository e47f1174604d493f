import Mathlib.Tactic.Common

/-!
# Fallible computations over a state

`ExceptT ε (StateM σ)`: what fails keeps the rest from running, what succeeds is passed on, and
either way the state is the one that was reached.
-/

namespace Effects

section

variable {σ ε ε' α β : Type} {x : ExceptT ε (StateM σ) α} {s s' : σ}

/-- An error is the end. -/
theorem run_bind_error {k : α → ExceptT ε (StateM σ) β} {e : ε} (h : x.run s = (.error e, s')) :
    (x >>= k).run s = (.error e, s') := by
  show StateT.bind x.run (ExceptT.bindCont k) s = _
  rw [StateT.bind, h]
  rfl

/-- What follows a result goes on in the state that it leaves. -/
theorem run_bind_ok {k : α → ExceptT ε (StateM σ) β} {a : α} (h : x.run s = (.ok a, s')) :
    (x >>= k).run s = (k a).run s' := by
  show StateT.bind x.run (ExceptT.bindCont k) s = _
  rw [StateT.bind, h]
  rfl

/-- The error of a part is made one of the whole. -/
theorem run_adapt (f : ε → ε') : (x.adapt f).run s = ((x.run s).1.mapError f, (x.run s).2) := rfl

/-- A renamed error is the end. -/
theorem run_adapt_bind_error {f : ε → ε'} {k : α → ExceptT ε' (StateM σ) β} {e : ε}
    (h : x.run s = (.error e, s')) : (x.adapt f >>= k).run s = (.error (f e), s') := by
  apply run_bind_error
  rw [run_adapt, h]
  rfl

/-- What follows a result is not touched by the new names of the errors. -/
theorem run_adapt_bind_ok {f : ε → ε'} {k : α → ExceptT ε' (StateM σ) β} {a : α}
    (h : x.run s = (.ok a, s')) : (x.adapt f >>= k).run s = (k a).run s' := by
  apply run_bind_ok
  rw [run_adapt, h]
  rfl

/-- An error at once is the end. -/
theorem mk_pure_error_bind {k : α → ExceptT ε (StateM σ) β} (e : ε) :
    (ExceptT.mk (pure (.error e)) >>= k : ExceptT ε (StateM σ) β) = ExceptT.mk (pure (.error e)) :=
  rfl

/-- A result at once is what follows it. -/
theorem mk_pure_ok_bind {k : α → ExceptT ε (StateM σ) β} (a : α) :
    (ExceptT.mk (pure (.ok a)) >>= k : ExceptT ε (StateM σ) β) = k a := rfl

end

end Effects
