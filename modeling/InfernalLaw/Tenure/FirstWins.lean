import Mathlib.Data.List.Nodup
import InfernalLaw.Tenure.Historic

/-!
# The first one wins

Attempts come one after the other, each under a key. The first attempt under a key holds it for
good. A later attempt under the key is a repetition of the holder's or is refused, as `same`
decides.
-/

namespace Tenure

/-- What becomes of an attempt. -/
inductive Ruling where
  | first
  | repeated
  | refused
  deriving DecidableEq

variable {A κ : Type} [DecidableEq κ]

/-- The ruling on `a` after the attempts `past`. -/
def judge (key : A → κ) (same : A → A → Bool) (past : List A) (a : A) : Ruling :=
  match past.find? fun b => key b = key a with
  | none => .first
  | some holder => if same holder a then .repeated else .refused

/-- Every attempt got the ruling that the attempts before it call for. -/
def FirstWins (key : A → κ) (same : A → A → Bool) (ruling : A → Ruling) (l : List A) : Prop :=
  ∀ past a rest, l = past ++ a :: rest → ruling a = judge key same past a

section

variable {key : A → κ} {same : A → A → Bool} {past l : List A} {a : A}

/-- An attempt is the first one when nobody tried its key before. -/
theorem judge_eq_first : judge key same past a = .first ↔ ∀ b ∈ past, key b ≠ key a := by
  unfold judge
  split
  · rename_i h
    simpa using h
  · rename_i holder h
    refine iff_of_false (by split <;> simp) fun hall => ?_
    exact hall holder (List.mem_of_find?_eq_some h) (by simpa using List.find?_some h)

end

namespace FirstWins

variable {key : A → κ} {same : A → A → Bool} {ruling : A → Ruling} {past rest l : List A}
  {a b : A}

/-- At the start nobody has come first. -/
theorem nil : FirstWins key same ruling [] := Historic.nil

/-- One more attempt, with its ruling. -/
theorem snoc (h : FirstWins key same ruling l) (ha : ruling a = judge key same l a) :
    FirstWins key same ruling (l ++ [a]) := Historic.snoc h ha

/-- The attempts up to some time. -/
theorem of_append (h : FirstWins key same ruling (past ++ rest)) : FirstWins key same ruling past :=
  fun past' a rest' heq => h past' a (rest' ++ rest) (by simp [heq])

/-- The attempt that decides about a key is the first one under it. -/
theorem first_of_find (h : FirstWins key same ruling l) {k : κ}
    (hfind : (l.find? fun b => key b = k) = some b) : b ∈ l ∧ ruling b = .first ∧ key b = k := by
  refine ⟨List.mem_of_find?_eq_some hfind, ?_, by simpa using List.find?_some hfind⟩
  obtain ⟨hkey, before, after, rfl, hbefore⟩ := List.find?_eq_some_iff_append.mp hfind
  have hkey : key b = k := by simpa using hkey
  rw [h before b after rfl, judge_eq_first]
  intro c hc heq
  simpa [heq, hkey] using hbefore c hc

/-- An attempt that is not the first one comes after the holder, and the holder decides which of the
other two rulings it gets. -/
theorem exists_holder (h : FirstWins key same ruling l) (hl : l = past ++ a :: rest)
    (ha : ruling a ≠ .first) : ∃ b ∈ past, ruling b = .first ∧ key b = key a ∧
      ruling a = if same b a then .repeated else .refused := by
  have hjudge := h past a rest hl
  unfold judge at hjudge
  split at hjudge
  · exact absurd hjudge ha
  · rename_i holder hfind
    subst hl
    obtain ⟨hmem, hfirst, hkey⟩ := h.of_append.first_of_find hfind
    exact ⟨holder, hmem, hfirst, hkey, hjudge⟩

/-- Every key that was tried has a holder. -/
theorem exists_first (h : FirstWins key same ruling l) (ha : a ∈ l) :
    ∃ b ∈ l, ruling b = .first ∧ key b = key a := by
  by_cases hfirst : ruling a = .first
  · exact ⟨a, ha, hfirst, rfl⟩
  · obtain ⟨past, rest, rfl⟩ := List.append_of_mem ha
    obtain ⟨b, hb, hb', hkey, -⟩ := h.exists_holder rfl hfirst
    exact ⟨b, List.mem_append_left _ hb, hb', hkey⟩

/-- A key has one holder. -/
theorem unique (h : FirstWins key same ruling l) (ha : a ∈ l) (hb : b ∈ l)
    (ha' : ruling a = .first) (hb' : ruling b = .first) (hkey : key a = key b) : a = b := by
  -- Of two attempts, the later one found the earlier one.
  have hpast : ∀ {past rest : List A} {a b : A}, l = past ++ b :: rest → ruling b = .first →
      a ∈ past → key a ≠ key b := fun hl hb ha =>
    judge_eq_first.mp ((h _ _ _ hl).symm.trans hb) _ ha
  obtain ⟨past, rest, rfl⟩ := List.append_of_mem ha
  rcases List.mem_append.mp hb with hb | hb
  · exact absurd hkey.symm (hpast rfl ha' hb)
  rcases List.mem_cons.mp hb with rfl | hb
  · rfl
  · obtain ⟨past', rest', rfl⟩ := List.append_of_mem hb
    have hl : past ++ a :: (past' ++ b :: rest') = (past ++ a :: past') ++ b :: rest' := by simp
    exact absurd hkey (hpast hl hb' (by simp))

/-- The holders have distinct keys. -/
theorem nodup_first (h : FirstWins key same ruling l) :
    ((l.filter fun a => ruling a = .first).map key).Nodup := by
  induction l using List.reverseRecOn with
  | nil => exact List.nodup_nil
  | append_singleton l a ih =>
    have ih := ih h.of_append
    rw [List.filter_append, List.map_append]
    by_cases ha : ruling a = .first
    · have hnew := judge_eq_first.mp ((h l a [] rfl).symm.trans ha)
      rw [List.filter_cons_of_pos (by simpa using ha), List.filter_nil, List.map_singleton,
        List.nodup_append]
      refine ⟨ih, List.nodup_singleton _, ?_⟩
      rintro k hk k' hk' rfl
      obtain ⟨b, hb, rfl⟩ := List.mem_map.mp hk
      exact hnew b (List.mem_filter.mp hb).1 (List.mem_singleton.mp hk')
    · simpa [ha] using ih

/-- What the holder decides about the other attempts under its key. -/
theorem eq_or_ruling_eq (h : FirstWins key same ruling l) (ha : a ∈ l) (hb : b ∈ l)
    (hfirst : ruling a = .first) (hkey : key a = key b) :
    b = a ∨ ruling b = if same a b then .repeated else .refused := by
  by_cases hb' : ruling b = .first
  · exact .inl (h.unique hb ha hb' hfirst hkey.symm)
  · obtain ⟨past, rest, rfl⟩ := List.append_of_mem hb
    obtain ⟨c, hc, hcfirst, hckey, hruling⟩ := h.exists_holder rfl hb'
    obtain rfl := h.unique (List.mem_append_left _ hc) ha hcfirst hfirst (hckey.trans hkey.symm)
    exact .inr hruling

/-- What the holder decides about the next attempt under its key. -/
theorem judge_eq (h : FirstWins key same ruling l) (hb : b ∈ l) (hfirst : ruling b = .first)
    (hkey : key b = key a) :
    judge key same l a = if same b a then .repeated else .refused := by
  unfold judge
  split
  · rename_i hfind
    exact absurd hkey (by simpa using List.find?_eq_none.mp hfind b hb)
  · rename_i holder hfind
    obtain ⟨hmem, hholder, hkey'⟩ := h.first_of_find hfind
    rw [h.unique hmem hb hholder hfirst (hkey'.trans hkey.symm)]

end FirstWins

end Tenure
