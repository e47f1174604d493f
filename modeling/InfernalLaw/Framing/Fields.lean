import Mathlib.Data.Set.Function

/-!
# Length-prefixed fields

Binary messages in which the length of each field stands before it. The lengths are written as
numbers of a fixed width. A message then determines its fields, as long as every length is one that
the numbers tell apart.
-/

namespace Framing

variable {α : Type} {num : ℕ → List α}

/-- A field after its length. -/
def field (num : ℕ → List α) (value : List α) : List α := num value.length ++ value

/-- The fields, each after its length. -/
def fields (num : ℕ → List α) (values : List (List α)) : List α := values.flatMap (field num)

/-- How lengths are written: in a fixed width that is not zero, and up to `bound` without
confusion. -/
structure Numbers (num : ℕ → List α) (width bound : ℕ) : Prop where
  width_pos : 0 < width
  length_eq : ∀ n, (num n).length = width
  injOn : Set.InjOn num {n | n < bound}

variable {width bound : ℕ}

/-- The first field of a message, and what follows it. -/
theorem field_append_inj (hn : Numbers num width bound) {v v' rest rest' : List α}
    (hv : v.length < bound) (hv' : v'.length < bound)
    (h : field num v ++ rest = field num v' ++ rest') : v = v' ∧ rest = rest' := by
  unfold field at h
  rw [List.append_assoc, List.append_assoc] at h
  obtain ⟨hnum, htail⟩ := List.append_inj h (by rw [hn.length_eq, hn.length_eq])
  exact List.append_inj htail (hn.injOn hv hv' hnum)

/-- A message determines its fields. -/
theorem fields_inj (hn : Numbers num width bound) {vs vs' : List (List α)}
    (hvs : ∀ v ∈ vs, v.length < bound) (hvs' : ∀ v ∈ vs', v.length < bound)
    (h : fields num vs = fields num vs') : vs = vs' := by
  -- A message with a field is not empty.
  have hne : ∀ (v : List α) (vs : List (List α)), fields num (v :: vs) ≠ [] := by
    intro v vs hnil
    have hlen := congrArg List.length hnil
    have hpos := hn.width_pos
    simp only [fields, List.flatMap_cons, field, List.length_append, hn.length_eq,
      List.length_nil] at hlen
    omega
  induction vs generalizing vs' with
  | nil =>
    cases vs' with
    | nil => rfl
    | cons v' vs' => exact absurd h.symm (hne v' vs')
  | cons v vs ih =>
    cases vs' with
    | nil => exact absurd h (hne v vs)
    | cons v' vs' =>
      obtain ⟨rfl, hrest⟩ := field_append_inj hn (hvs v List.mem_cons_self)
        (hvs' v' List.mem_cons_self) h
      rw [ih (fun u hu => hvs u (List.mem_cons_of_mem _ hu))
        (fun u hu => hvs' u (List.mem_cons_of_mem _ hu)) hrest]

/-- Messages with different first fields are different. -/
theorem fields_ne_of_head (hn : Numbers num width bound) {v v' : List α} {vs vs' : List (List α)}
    (hv : v.length < bound) (hv' : v'.length < bound) (hne : v ≠ v') :
    fields num (v :: vs) ≠ fields num (v' :: vs') :=
  fun h => hne (field_append_inj hn hv hv' h).1

end Framing
