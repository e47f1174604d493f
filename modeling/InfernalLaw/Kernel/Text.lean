import InfernalLaw.Kernel.Names

/-!
# Cutting text

The operations on `str` with which the kernel takes text apart.
-/

namespace InfernalLaw.Str

/-- `str::strip_prefix`. -/
def stripPrefix (s : Str) (pat : Str) : Option Str := s.dropPrefix? pat

/-- `str::strip_suffix`. -/
def stripSuffix (s : Str) (pat : Str) : Option Str := s.dropSuffix? pat

/-- `str::split_once`: at the first occurrence of a pattern. -/
def splitOnce (pat : Str) : Str → Option (Str × Str)
  | [] => if pat = [] then some ([], []) else none
  | c :: s =>
    match stripPrefix (c :: s) pat with
    | some rest => some ([], rest)
    | none => (splitOnce pat s).map fun p => (c :: p.1, p.2)

/-- `str::starts_with`. -/
def startsWith (s pat : Str) : Bool := (stripPrefix s pat).isSome

/-- `str::ends_with`. -/
def endsWith (s pat : Str) : Bool := (stripSuffix s pat).isSome

/-- What is left of a text when its beginning is taken away. -/
theorem stripPrefix_eq_some {s pat rest : Str} :
    stripPrefix s pat = some rest ↔ s = pat ++ rest := by
  rw [stripPrefix, List.dropPrefix?_eq_some_iff]
  simp

/-- What is left of a text when its end is taken away. -/
theorem stripSuffix_eq_some {s pat rest : Str} :
    stripSuffix s pat = some rest ↔ s = rest ++ pat := by
  rw [stripSuffix, List.dropSuffix?_eq_some_iff]
  simp

/-- What comes after a start is left when it is taken away. -/
theorem stripPrefix_append (pat s : Str) : stripPrefix (pat ++ s) pat = some s :=
  stripPrefix_eq_some.mpr rfl

/-- What comes before an end is left when it is taken away. -/
theorem stripSuffix_append (s pat : Str) : stripSuffix (s ++ pat) pat = some s :=
  stripSuffix_eq_some.mpr rfl

/-- `starts_with`. -/
theorem startsWith_iff {s pat : Str} : startsWith s pat = true ↔ pat <+: s := by
  rw [startsWith, Option.isSome_iff_exists]
  exact exists_congr fun rest => stripPrefix_eq_some.trans eq_comm

/-- `ends_with`. -/
theorem endsWith_iff {s pat : Str} : endsWith s pat = true ↔ pat <:+ s := by
  rw [endsWith, Option.isSome_iff_exists]
  exact exists_congr fun rest => stripSuffix_eq_some.trans eq_comm

/-- A text that begins with one of two different beginnings does not begin with the other one. -/
theorem stripPrefix_other {s pat pat' : Str} (h : ¬ pat <+: pat') (h' : ¬ pat' <+: pat) :
    stripPrefix (pat' ++ s) pat = none := by
  by_contra hne
  obtain ⟨rest, hrest⟩ := Option.ne_none_iff_exists'.mp hne
  have hprefix : pat <+: pat' ++ s := ⟨rest, (stripPrefix_eq_some.mp hrest).symm⟩
  exact (List.prefix_or_prefix_of_prefix hprefix (List.prefix_append pat' s)).elim h h'

/-- A text that ends in one of two different endings does not end in the other one. -/
theorem stripSuffix_other {s pat pat' : Str} (h : ¬ pat <:+ pat') (h' : ¬ pat' <:+ pat) :
    stripSuffix (s ++ pat') pat = none := by
  by_contra hne
  obtain ⟨rest, hrest⟩ := Option.ne_none_iff_exists'.mp hne
  have hsuffix : pat <:+ s ++ pat' := ⟨rest, (stripSuffix_eq_some.mp hrest).symm⟩
  exact (List.suffix_or_suffix_of_suffix hsuffix (List.suffix_append s pat')).elim h h'

/-- The parts of a split text, around the pattern. -/
theorem splitOnce_eq_some {pat : Str} {s before after : Str}
    (h : splitOnce pat s = some (before, after)) : s = before ++ pat ++ after := by
  induction s generalizing before with
  | nil =>
    unfold splitOnce at h
    split at h
    · rename_i hpat
      obtain ⟨rfl, rfl⟩ := Prod.mk.inj (Option.some.inj h)
      simp [hpat]
    · cases h
  | cons c s ih =>
    unfold splitOnce at h
    split at h
    · rename_i rest hrest
      obtain ⟨rfl, rfl⟩ := Prod.mk.inj (Option.some.inj h)
      exact stripPrefix_eq_some.mp hrest
    · obtain ⟨p, hp, heq⟩ := Option.map_eq_some_iff.mp h
      obtain ⟨rfl, rfl⟩ := Prod.mk.inj heq
      rw [ih hp]
      simp

/-- A text splits at a pattern whose first character is nowhere before it. -/
theorem splitOnce_append {c : Char} {pat before after : Str} (h : c ∉ before) :
    splitOnce (c :: pat) (before ++ c :: (pat ++ after)) = some (before, after) := by
  induction before with
  | nil =>
    have hstrip : stripPrefix (c :: (pat ++ after)) (c :: pat) = some after :=
      stripPrefix_eq_some.mpr rfl
    rw [List.nil_append, splitOnce, hstrip]
  | cons d before ih =>
    rw [List.mem_cons, not_or] at h
    -- The first character is none of the pattern's.
    have hstrip : stripPrefix (d :: (before ++ c :: (pat ++ after))) (c :: pat) = none := by
      rw [Option.eq_none_iff_forall_ne_some]
      intro rest hrest
      exact h.1 (List.cons.inj (stripPrefix_eq_some.mp hrest)).1.symm
    rw [List.cons_append, splitOnce, hstrip, ih h.2]
    rfl

/-- A text splits at a label whose first character is nowhere before it. -/
theorem splitOnce_label {c : Char} {label before after : Str} (hlabel : label.head? = some c)
    (h : c ∉ before) : splitOnce label (before ++ label ++ after) = some (before, after) := by
  obtain ⟨pat, rfl⟩ := List.head?_eq_some_iff.mp hlabel
  rw [List.append_assoc, List.cons_append]
  exact splitOnce_append h

/-- Different texts have different encodings. -/
theorem asBytes_injective : Function.Injective asBytes := by
  intro s t h
  have hencode : ∀ s : Str, (asBytes s).toByteArray = (String.ofList s).toByteArray := by
    intro s
    simp [asBytes, List.utf8Encode]
  refine String.ofList_injective (String.toByteArray_inj.mp ?_)
  rw [← hencode, ← hencode, h]

end InfernalLaw.Str
