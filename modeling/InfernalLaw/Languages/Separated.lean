import Mathlib.Computability.RegularExpressions

/-!
# Lists with separators

A list of segments with a separator between them, as a regular expression describes it and as
splitting the list at the separator finds it. `mem_separated` and `mem_separated_two` say that the
two agree, as long as no segment contains the separator.
-/

namespace Languages

open RegularExpression (char)
open scoped Computability

variable {α : Type}

/-! ## Letters -/

/-- One of the letters. -/
def oneOf (letters : List α) : RegularExpression α :=
  letters.foldr (fun letter r => char letter + r) 0

/-- The texts of `oneOf` are single letters. -/
theorem mem_oneOf {letters : List α} {x : List α} :
    x ∈ (oneOf letters).matches' ↔ ∃ letter ∈ letters, x = [letter] := by
  induction letters with
  | nil => exact iff_of_false (Language.notMem_zero x) (by simp)
  | cons letter letters ih =>
    have hcons : (oneOf (letter :: letters)).matches' =
        {[letter]} + (oneOf letters).matches' := rfl
    rw [hcons, Language.mem_add, ih, List.exists_mem_cons_iff]
    exact Iff.rfl

/-- Repeated, they are the texts of those letters. -/
theorem mem_star_oneOf {letters : List α} {x : List α} :
    x ∈ (oneOf letters).star.matches' ↔ ∀ letter ∈ x, letter ∈ letters := by
  rw [RegularExpression.matches'_star, Language.mem_kstar]
  constructor
  · rintro ⟨parts, rfl, hparts⟩ letter hletter
    obtain ⟨part, hpart, hmem⟩ := List.mem_flatten.mp hletter
    obtain ⟨letter', hletters, rfl⟩ := mem_oneOf.mp (hparts part hpart)
    rwa [List.mem_singleton.mp hmem]
  · intro h
    refine ⟨x.map fun letter => [letter], (List.flatMap_singleton' x).symm, fun part hpart => ?_⟩
    obtain ⟨letter, hletter, rfl⟩ := List.mem_map.mp hpart
    exact mem_oneOf.mpr ⟨letter, h letter hletter, rfl⟩

/-- One of the first letters, and then any number of the others. -/
theorem mem_oneOf_mul_star {first rest : List α} {x : List α} :
    x ∈ (oneOf first * (oneOf rest).star).matches' ↔
      ∃ letter ∈ first, ∃ letters, x = letter :: letters ∧ ∀ l ∈ letters, l ∈ rest := by
  rw [RegularExpression.matches'_mul, Language.mem_mul]
  constructor
  · rintro ⟨_, hfirst, letters, hrest, rfl⟩
    obtain ⟨letter, hletter, rfl⟩ := mem_oneOf.mp hfirst
    exact ⟨letter, hletter, letters, rfl, mem_star_oneOf.mp hrest⟩
  · rintro ⟨letter, hletter, letters, rfl, hrest⟩
    exact ⟨[letter], mem_oneOf.mpr ⟨letter, hletter, rfl⟩, letters, mem_star_oneOf.mpr hrest, rfl⟩

/-! ## Segments -/

section

variable {sep : α} {r : RegularExpression α} {x : List α}

/-- Segments that each follow a separator. -/
theorem mem_star_char_mul : x ∈ (char sep * r).star.matches' ↔
    ∃ segments : List (List α), x = (segments.map (sep :: ·)).flatten ∧
      ∀ segment ∈ segments, segment ∈ r.matches' := by
  have hpart : ∀ part, part ∈ (char sep * r).matches' ↔
      ∃ segment ∈ r.matches', sep :: segment = part := by
    intro part
    rw [RegularExpression.matches'_mul, RegularExpression.matches'_char, Language.mem_mul]
    exact ⟨fun ⟨_, hsep, segment, hsegment, h⟩ => ⟨segment, hsegment, by rw [← h, hsep]; rfl⟩,
      fun ⟨segment, hsegment, h⟩ => ⟨[sep], rfl, segment, hsegment, h⟩⟩
  rw [RegularExpression.matches'_star, Language.mem_kstar]
  constructor
  · rintro ⟨parts, rfl, hparts⟩
    induction parts with
    | nil => exact ⟨[], rfl, fun _ h => absurd h List.not_mem_nil⟩
    | cons part parts ih =>
      obtain ⟨segment, hsegment, rfl⟩ := (hpart part).mp (hparts part List.mem_cons_self)
      obtain ⟨segments, hflatten, hsegments⟩ :=
        ih fun part hmem => hparts part (List.mem_cons_of_mem _ hmem)
      refine ⟨segment :: segments, by simp [hflatten], fun s hs => ?_⟩
      rcases List.mem_cons.mp hs with rfl | hs
      · exact hsegment
      · exact hsegments s hs
  · rintro ⟨segments, rfl, hsegments⟩
    refine ⟨segments.map (sep :: ·), rfl, fun part hmem => ?_⟩
    obtain ⟨segment, hsegment, rfl⟩ := List.mem_map.mp hmem
    exact (hpart _).mpr ⟨segment, hsegments segment hsegment, rfl⟩

/-- The separators stand between the segments. -/
theorem append_flatten_eq_intercalate (segment : List α) (segments : List (List α)) :
    segment ++ (segments.map (sep :: ·)).flatten = [sep].intercalate (segment :: segments) := by
  induction segments generalizing segment with
  | nil => simp
  | cons segment' segments ih =>
    rw [List.intercalate_cons_cons, ← ih]
    simp

variable [BEq α] [LawfulBEq α]

/-- The segments are found again. -/
theorem splitOn_append_flatten (hsep : ∀ y ∈ r.matches', sep ∉ y) {segment : List α}
    {segments : List (List α)} (h : ∀ s ∈ segment :: segments, s ∈ r.matches') :
    (segment ++ (segments.map (sep :: ·)).flatten).splitOn sep = segment :: segments := by
  rw [append_flatten_eq_intercalate]
  exact List.splitOn_intercalate sep (fun s hs => hsep s (h s hs)) (List.cons_ne_nil _ _)

/-- A list is what its segments come to. -/
theorem eq_append_flatten {segment : List α} {segments : List (List α)}
    (h : x.splitOn sep = segment :: segments) :
    x = segment ++ (segments.map (sep :: ·)).flatten := by
  rw [append_flatten_eq_intercalate, ← h, List.intercalate_splitOn]

/-- One segment, and any number of others. -/
theorem mem_separated (hsep : ∀ y ∈ r.matches', sep ∉ y) :
    x ∈ (r * (char sep * r).star).matches' ↔ ∀ segment ∈ x.splitOn sep, segment ∈ r.matches' := by
  rw [RegularExpression.matches'_mul, Language.mem_mul]
  constructor
  · rintro ⟨segment, hsegment, _, hrest, rfl⟩
    obtain ⟨segments, rfl, hsegments⟩ := mem_star_char_mul.mp hrest
    have hall := List.forall_mem_cons.mpr ⟨hsegment, hsegments⟩
    rwa [splitOn_append_flatten hsep hall]
  · intro h
    obtain ⟨segment, segments, hsplit⟩ := List.exists_cons_of_ne_nil (List.splitOn_ne_nil sep x)
    rw [hsplit] at h
    obtain ⟨hsegment, hsegments⟩ := List.forall_mem_cons.mp h
    exact ⟨segment, hsegment, _, mem_star_char_mul.mpr ⟨segments, rfl, hsegments⟩,
      (eq_append_flatten hsplit).symm⟩

/-- Two segments, and any number of others. -/
theorem mem_separated_two (hsep : ∀ y ∈ r.matches', sep ∉ y) :
    x ∈ (r * (char sep * r * (char sep * r).star)).matches' ↔
      2 ≤ (x.splitOn sep).length ∧ ∀ segment ∈ x.splitOn sep, segment ∈ r.matches' := by
  have hplus : ∀ t, t ∈ (char sep * r * (char sep * r).star).matches' ↔
      ∃ segment ∈ r.matches', ∃ rest ∈ (char sep * r).star.matches',
      sep :: (segment ++ rest) = t := by
    intro t
    simp only [RegularExpression.matches'_mul, RegularExpression.matches'_char, Language.mem_mul]
    constructor
    · rintro ⟨_, ⟨_, hchar, segment, hsegment, rfl⟩, rest, hrest, rfl⟩
      exact ⟨segment, hsegment, rest, hrest, by rw [hchar]; rfl⟩
    · rintro ⟨segment, hsegment, rest, hrest, rfl⟩
      exact ⟨sep :: segment, ⟨[sep], rfl, segment, hsegment, rfl⟩, rest, hrest, rfl⟩
  rw [RegularExpression.matches'_mul, Language.mem_mul]
  constructor
  · rintro ⟨first, hfirst, t, ht, rfl⟩
    obtain ⟨second, hsecond, _, hrest, rfl⟩ := (hplus t).mp ht
    obtain ⟨segments, rfl, hsegments⟩ := mem_star_char_mul.mp hrest
    have hall := List.forall_mem_cons.mpr ⟨hfirst, List.forall_mem_cons.mpr ⟨hsecond, hsegments⟩⟩
    have hsplit := splitOn_append_flatten hsep hall
    rw [List.map_cons, List.flatten_cons, List.cons_append] at hsplit
    rw [hsplit]
    exact ⟨by simp, hall⟩
  · rintro ⟨hlength, h⟩
    obtain ⟨first, segments, hsplit⟩ := List.exists_cons_of_ne_nil (List.splitOn_ne_nil sep x)
    rw [hsplit] at h hlength
    cases segments with
    | nil => simp at hlength
    | cons second segments =>
      obtain ⟨hfirst, hrest⟩ := List.forall_mem_cons.mp h
      obtain ⟨hsecond, hsegments⟩ := List.forall_mem_cons.mp hrest
      refine ⟨first, hfirst, _, (hplus _).mpr ⟨second, hsecond, _,
        mem_star_char_mul.mpr ⟨segments, rfl, hsegments⟩, rfl⟩, ?_⟩
      exact (eq_append_flatten hsplit).symm

end

end Languages
