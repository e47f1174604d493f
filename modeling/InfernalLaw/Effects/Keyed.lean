import Mathlib.Logic.Function.Basic
import InfernalLaw.Effects.Fallible

/-!
# A state for each key

What works on one key's state leaves the states of the other keys alone, so what is done for a list
of distinct keys comes to the same as doing it for each of them by itself.
-/

namespace Effects

variable {ι σ ε τ α β : Type} [DecidableEq ι]

/-- What works on the state of a key. -/
def onKey (i : ι) (p : StateM σ β) : StateM (ι → σ) β := fun w =>
  ((p (w i)).1, Function.update w i (p (w i)).2)

/-- What may fail, on the state of a key. -/
def onKeyT (i : ι) (x : ExceptT ε (StateM σ) β) : ExceptT ε (StateM (ι → σ)) β :=
  ExceptT.mk (onKey i x.run)

/-- Two steps on one key are one. -/
theorem onKey_bind (i : ι) (p : StateM σ α) (f : α → StateM σ β) :
    onKey i (p >>= f) = onKey i p >>= fun a => onKey i (f a) := by
  funext w
  show _ = onKey i (f (p (w i)).1) (Function.update w i (p (w i)).2)
  rw [onKey, onKey, Function.update_self, Function.update_idem]
  rfl

/-- A result touches no key. -/
theorem onKey_pure (i : ι) (b : β) : onKey i (pure b : StateM σ β) = pure b := by
  funext w
  show (b, Function.update w i (w i)) = (b, w)
  rw [Function.update_eq_self]

/-- What is done at a key is done there in its parts. -/
theorem onKeyT_bind (i : ι) (x : ExceptT ε (StateM σ) α) (f : α → ExceptT ε (StateM σ) β) :
    onKeyT i (x >>= f) = onKeyT i x >>= fun a => onKeyT i (f a) := by
  show onKey i (x.run >>= ExceptT.bindCont f) = onKey i x.run >>= ExceptT.bindCont _
  rw [onKey_bind]
  congr 1
  funext r
  cases r with
  | error e => exact onKey_pure i _
  | ok a => rfl

/-- A result or an error touches no key. -/
theorem onKeyT_mk_pure (i : ι) (r : Except ε β) :
    onKeyT i (ExceptT.mk (pure r) : ExceptT ε (StateM σ) β) = ExceptT.mk (pure r) :=
  onKey_pure i r

/-- One after the other. -/
def each {m : Type → Type} [Monad m] (p : τ → m β) : List τ → m (List β)
  | [] => pure []
  | t :: ts => do
    let b ← p t
    let bs ← each p ts
    return b :: bs

/-- For distinct keys, each ends as it does by itself. -/
theorem each_onKey {key : τ → ι} {p : τ → StateM σ β} {ts : List τ} (h : (ts.map key).Nodup)
    (w : ι → σ) : (each (fun t => onKey (key t) (p t)) ts w).1 =
      ts.map fun t => (p t (w (key t))).1 := by
  induction ts generalizing w with
  | nil => rfl
  | cons t ts ih =>
    rw [List.map_cons, List.nodup_cons] at h
    show (p t (w (key t))).1 :: (each (fun t => onKey (key t) (p t)) ts
      (Function.update w (key t) (p t (w (key t))).2)).1 = _
    rw [ih h.2, List.map_cons]
    congr 1
    refine List.map_congr_left fun u hu => ?_
    have hne : key u ≠ key t := fun heq => h.1 (heq ▸ List.mem_map_of_mem hu)
    rw [Function.update_of_ne hne]

/-- The state of a key that is not in the list stays. -/
theorem each_onKey_other {key : τ → ι} {p : τ → StateM σ β} {ts : List τ} {i : ι}
    (h : i ∉ ts.map key) (w : ι → σ) : (each (fun t => onKey (key t) (p t)) ts w).2 i = w i := by
  induction ts generalizing w with
  | nil => rfl
  | cons t ts ih =>
    rw [List.map_cons, List.mem_cons, not_or] at h
    show (each (fun t => onKey (key t) (p t)) ts (Function.update w (key t) (p t (w (key t))).2)).2
      i = _
    rw [ih h.2, Function.update_of_ne h.1]

/-- The state of a key in the list is what its own step leaves. -/
theorem each_onKey_state {key : τ → ι} {p : τ → StateM σ β} {ts : List τ} (h : (ts.map key).Nodup)
    (w : ι → σ) {t : τ} (ht : t ∈ ts) :
    (each (fun t => onKey (key t) (p t)) ts w).2 (key t) = (p t (w (key t))).2 := by
  induction ts generalizing w with
  | nil => cases ht
  | cons u ts ih =>
    rw [List.map_cons, List.nodup_cons] at h
    show (each (fun t => onKey (key t) (p t)) ts
      (Function.update w (key u) (p u (w (key u))).2)).2 (key t) = _
    rcases List.mem_cons.mp ht with rfl | ht
    · rw [each_onKey_other h.1, Function.update_self]
    · have hne : key t ≠ key u := fun heq => h.1 (heq ▸ List.mem_map_of_mem ht)
      rw [ih h.2 _ ht, Function.update_of_ne hne]

end Effects
