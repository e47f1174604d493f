import Mathlib.Data.List.Nodup
import Mathlib.Data.List.Range

/-!
# Orderly histories

A resource that one holder has at a time has a history: the tenures so far, numbered from one. The
history is orderly when a tenure begins only after all the earlier ones have ended for good. Then
the numbers are `1, ..., n`, and a tenure that has not ended is the last one.
-/

namespace Tenure

variable {R : Type} {number : R → ℤ} {ended : R → Prop}

/-- Tenures in the order in which they began. -/
inductive Orderly (number : R → ℤ) (ended : R → Prop) : List R → Prop where
  | nil : Orderly number ended []
  | snoc {h : List R} {r : R} : Orderly number ended h → (∀ x ∈ h, ended x) →
      number r = h.length + 1 → Orderly number ended (h ++ [r])

namespace Orderly

variable {h : List R} {r r' : R}

/-- The numbers are `1, ..., n`. -/
theorem map_number (ho : Orderly number ended h) :
    h.map number = (List.range h.length).map fun i : ℕ => (i : ℤ) + 1 := by
  induction ho with
  | nil => rfl
  | snoc _ _ hn ih => simp [List.range_succ, ih, hn]

/-- Every tenure has one of the numbers `1, ..., n`. -/
theorem number_mem (ho : Orderly number ended h) (hr : r ∈ h) :
    1 ≤ number r ∧ number r ≤ h.length := by
  have hm := List.mem_map_of_mem (f := number) hr
  rw [ho.map_number] at hm
  obtain ⟨i, hi, hri⟩ := List.mem_map.mp hm
  have hlt := List.mem_range.mp hi
  omega

/-- Every number up to `n` is taken. -/
theorem exists_number (ho : Orderly number ended h) {k : ℤ} (h₁ : 1 ≤ k) (hk : k ≤ h.length) :
    ∃ r ∈ h, number r = k := by
  have hm : k ∈ (List.range h.length).map fun i : ℕ => (i : ℤ) + 1 :=
    List.mem_map.mpr ⟨(k - 1).toNat, List.mem_range.mpr (by omega), by omega⟩
  rw [← ho.map_number] at hm
  exact List.mem_map.mp hm

/-- No number is taken twice. -/
theorem nodup_number (ho : Orderly number ended h) : (h.map number).Nodup := by
  rw [ho.map_number]
  exact List.nodup_range.map fun i j (hij : (i : ℤ) + 1 = (j : ℤ) + 1) => by omega

/-- A tenure that has not ended is the last one. -/
theorem number_of_not_ended (ho : Orderly number ended h) (hr : r ∈ h) (he : ¬ ended r) :
    number r = h.length := by
  cases ho with
  | nil => cases hr
  | snoc _ hall hn =>
    rcases List.mem_append.mp hr with hr | hr
    · exact absurd (hall r hr) he
    · rw [List.mem_singleton.mp hr, hn, List.length_append, List.length_singleton]
      omega

/-- When the last tenure has ended, all have. -/
theorem all_ended (ho : Orderly number ended h) (hr : r ∈ h) (hlast : number r = h.length)
    (he : ended r) : ∀ x ∈ h, ended x := by
  intro x hx
  by_contra hnot
  have hnum := ho.number_of_not_ended hx hnot
  have hxr : x = r := List.inj_on_of_nodup_map ho.nodup_number hx hr (by omega)
  exact hnot (hxr ▸ he)

/-- A change that keeps the numbers and does not revive a tenure keeps the order. -/
theorem map {f : R → R} (ho : Orderly number ended h)
    (hf : ∀ x ∈ h, number (f x) = number x ∧ (ended x → ended (f x))) :
    Orderly number ended (h.map f) := by
  induction ho with
  | nil => exact .nil
  | @snoc h r _ hall hn ih =>
    rw [List.map_append, List.map_singleton]
    refine .snoc (ih fun x hx => hf x (List.mem_append_left _ hx)) ?_ ?_
    · intro y hy
      obtain ⟨x, hx, rfl⟩ := List.mem_map.mp hy
      exact (hf x (List.mem_append_left _ hx)).2 (hall x hx)
    · rw [(hf r (by simp)).1, hn, List.length_map]

end Orderly

end Tenure
