import Mathlib.Data.List.Induction

/-!
# Histories

A history grows at its end. What is said of each of its entries, in terms of the entries before it,
is said once, when the entry comes.
-/

namespace Tenure

variable {A σ : Type}

/-- `P` holds of every entry of the history and the entries before it. -/
def Historic (P : List A → A → Prop) (l : List A) : Prop :=
  ∀ past a rest, l = past ++ a :: rest → P past a

namespace Historic

variable {P : List A → A → Prop} {l : List A} {a : A}

/-- At the start there is nothing to account for. -/
theorem nil : Historic P [] :=
  fun past a rest h => absurd h.symm (by simp)

/-- One more entry. -/
theorem snoc (h : Historic P l) (ha : P l a) : Historic P (l ++ [a]) := by
  intro past b rest heq
  rcases rest.eq_nil_or_concat with rfl | ⟨rest, c, rfl⟩
  · obtain ⟨rfl, hb⟩ := List.append_inj' heq rfl
    rw [← List.singleton_inj.mp hb]
    exact ha
  · have heq' : l ++ [a] = (past ++ b :: rest) ++ [c] := by simpa using heq
    exact h past b rest (List.append_inj' heq' rfl).1

end Historic

/-- Every entry stands to the state before it as `records` says, where `apply` is what an entry
makes of the state. -/
def Faithful (apply : σ → A → σ) (records : σ → A → Prop) (init : σ) (l : List A) : Prop :=
  Historic (fun past a => records (past.foldl apply init) a) l

end Tenure
