import Mathlib.Data.List.Basic

/-!
# Labelled lines

A text of lines without length prefixes. Each line is a fixed label, a value and a separator, and
the last line is a label and a value without one. It determines its values when the separator occurs
in none of them but the last.
-/

namespace Framing

variable {α : Type} {sep : α}

/-- Up to the first separator, a text is determined. -/
theorem append_sep_inj {v v' rest rest' : List α} (hv : sep ∉ v) (hv' : sep ∉ v')
    (h : v ++ sep :: rest = v' ++ sep :: rest') : v = v' ∧ rest = rest' := by
  induction v generalizing v' with
  | nil =>
    cases v' with
    | nil => exact ⟨rfl, List.tail_eq_of_cons_eq h⟩
    | cons a v' =>
      obtain ⟨rfl, -⟩ := List.cons.inj h
      exact absurd List.mem_cons_self hv'
  | cons a v ih =>
    cases v' with
    | nil =>
      obtain ⟨rfl, -⟩ := List.cons.inj h
      exact absurd List.mem_cons_self hv
    | cons b v' =>
      obtain ⟨rfl, htail⟩ := List.cons.inj h
      obtain ⟨rfl, hrest⟩ := ih (fun hm => hv (List.mem_cons_of_mem _ hm))
        (fun hm => hv' (List.mem_cons_of_mem _ hm)) htail
      exact ⟨rfl, hrest⟩

/-- A line of its own. -/
def line (sep : α) (label value : List α) : List α := label ++ value ++ [sep]

/-- The lines of labels and values, and a last one that the separator does not end. -/
def lines (sep : α) (fields : List (List α × List α)) (label value : List α) : List α :=
  (fields.flatMap fun f => line sep f.1 f.2) ++ (label ++ value)

/-- Texts with the same labels have the same values. -/
theorem lines_inj {fields fields' : List (List α × List α)} {label value value' : List α}
    (h : lines sep fields label value = lines sep fields' label value')
    (hlabels : fields.map Prod.fst = fields'.map Prod.fst) (hsep : ∀ f ∈ fields, sep ∉ f.2)
    (hsep' : ∀ f ∈ fields', sep ∉ f.2) : fields = fields' ∧ value = value' := by
  induction fields generalizing fields' with
  | nil =>
    obtain rfl := List.map_eq_nil_iff.mp hlabels.symm
    exact ⟨rfl, by simpa [lines] using h⟩
  | cons f fields ih =>
    obtain ⟨f', fields', rfl, hlabel, hlabels⟩ := List.map_eq_cons_iff.mp hlabels.symm
    have hhead : f.2 ++ sep :: lines sep fields label value =
        f'.2 ++ sep :: lines sep fields' label value' := by
      have h' : f.1 ++ (f.2 ++ sep :: lines sep fields label value) =
          f.1 ++ (f'.2 ++ sep :: lines sep fields' label value') := by
        simpa [lines, line, hlabel] using h
      exact List.append_cancel_left h'
    obtain ⟨hvalue, htail⟩ := append_sep_inj (hsep f List.mem_cons_self)
      (hsep' f' List.mem_cons_self) hhead
    obtain ⟨rfl, hlast⟩ := ih htail hlabels.symm (fun g hg => hsep g (List.mem_cons_of_mem _ hg))
      fun g hg => hsep' g (List.mem_cons_of_mem _ hg)
    exact ⟨by rw [Prod.ext hlabel.symm hvalue], hlast⟩

end Framing
