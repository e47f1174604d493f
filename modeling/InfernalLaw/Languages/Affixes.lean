import Mathlib.Data.List.Infix
import Mathlib.Data.Nat.Notation

/-!
# Beginnings and endings

A list that begins with one list and ends with another has something between the two, unless they
overlap in it. There are finitely many lists in which they do.
-/

namespace Languages

variable {α : Type} [DecidableEq α] {start final l : List α}

/-- The lists that begin with `start` and end with `final`, where the two share some elements. -/
def overlaps (start final : List α) : List (List α) :=
  (final.inits.filter fun shared => shared ≠ [] ∧ shared <:+ start).map fun shared =>
    start ++ final.drop shared.length

/-- The overlaps are the texts in which the start and the end share something. -/
theorem mem_overlaps : l ∈ overlaps start final ↔ ∃ shared rest, shared ≠ [] ∧ shared <:+ start ∧
    final = shared ++ rest ∧ l = start ++ rest := by
  simp only [overlaps, List.mem_map, List.mem_filter, List.mem_inits, decide_eq_true_eq]
  constructor
  · rintro ⟨shared, ⟨⟨rest, rfl⟩, hne, hsuffix⟩, rfl⟩
    exact ⟨shared, rest, hne, hsuffix, rfl, by rw [List.drop_left]⟩
  · rintro ⟨shared, rest, hne, hsuffix, rfl, rfl⟩
    exact ⟨shared, ⟨⟨rest, rfl⟩, hne, hsuffix⟩, by rw [List.drop_left]⟩

/-- A list begins with `start` and ends with `final` when it has the one before the other, or the
two overlap in it. -/
theorem prefix_and_suffix_iff : start <+: l ∧ final <:+ l ↔
    (∃ middle, l = start ++ middle ++ final) ∨ l ∈ overlaps start final := by
  constructor
  · rintro ⟨⟨rest, rfl⟩, before, heq⟩
    rcases List.append_eq_append_iff.mp heq with ⟨shared, rfl, rfl⟩ | ⟨middle, rfl, rfl⟩
    · by_cases hshared : shared = []
      · exact .inl ⟨[], by simp [hshared]⟩
      · exact .inr (mem_overlaps.mpr ⟨shared, rest, hshared, List.suffix_append _ _, rfl, rfl⟩)
    · exact .inl ⟨middle, by rw [List.append_assoc]⟩
  · rintro (⟨middle, rfl⟩ | h)
    · exact ⟨⟨middle ++ final, by rw [List.append_assoc]⟩, List.suffix_append _ _⟩
    · obtain ⟨shared, rest, -, ⟨before, rfl⟩, rfl, rfl⟩ := mem_overlaps.mp h
      exact ⟨List.prefix_append _ _, before, by rw [List.append_assoc]⟩

end Languages
