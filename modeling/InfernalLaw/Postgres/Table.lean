import Mathlib.Data.List.Nodup
import InfernalLaw.Postgres.Process

/-!
# Tables

A table is the list of its rows, in the order in which they were inserted. A write inserts a row, or
replaces the row with the same primary key. Rows are not deleted: the library is about tables that
keep their history.
-/

namespace Postgres

variable {R κ β : Type}

/-- A write to a table with rows `R`. -/
inductive RowWrite (R : Type) where
  | insert (row : R)
  | update (row : R)
  deriving DecidableEq

namespace RowWrite

/-- The new version of the row. -/
def row : RowWrite R → R
  | insert r => r
  | update r => r

/-- The row of an `INSERT` is the new one. -/
@[simp] theorem row_insert (r : R) : (insert r).row = r := rfl

/-- The row of an `UPDATE` is the new version. -/
@[simp] theorem row_update (r : R) : (update r).row = r := rfl

/-- The rows after a write, where `pk` is the primary key. -/
def apply [DecidableEq κ] (pk : R → κ) (rows : List R) : RowWrite R → List R
  | insert new => rows ++ [new]
  | update new => rows.map fun old => if pk old = pk new then new else old

variable [DecidableEq κ] {pk : R → κ} {rows : List R} {r new : R} {w : RowWrite R}

/-- An `INSERT` adds its row at the end. -/
@[simp] theorem apply_insert : (insert new).apply pk rows = rows ++ [new] := rfl

/-- An `UPDATE` puts the new version in the place of the old one. -/
theorem apply_update :
    (update new).apply pk rows = rows.map fun old => if pk old = pk new then new else old := rfl

/-- Every row after a write was there before, or is the row written. -/
theorem mem_of_mem_apply (h : r ∈ w.apply pk rows) : r ∈ rows ∨ r = w.row := by
  cases w with
  | insert new => simpa using h
  | update new =>
    obtain ⟨old, hold, rfl⟩ := List.mem_map.mp h
    split
    · exact .inr rfl
    · exact .inl hold

/-- What is in a table after an update. -/
theorem mem_update {old : R} (hold : old ∈ rows) (hpk : pk old = pk new) :
    r ∈ (update new).apply pk rows ↔ r = new ∨ r ∈ rows ∧ pk r ≠ pk new := by
  rw [apply_update, List.mem_map]
  constructor
  · rintro ⟨r', hr', rfl⟩
    by_cases h : pk r' = pk new
    · exact .inl (if_pos h)
    · exact .inr ⟨by rwa [if_neg h], by rwa [if_neg h]⟩
  · rintro (rfl | ⟨hr, h⟩)
    · exact ⟨old, hold, if_pos hpk⟩
    · exact ⟨r, hr, if_neg h⟩

/-- A row whose primary key is not the one written stays. -/
theorem mem_apply_of_ne (h : r ∈ rows) (hne : pk r ≠ pk w.row) : r ∈ w.apply pk rows := by
  cases w with
  | insert new => exact List.mem_append_left _ h
  | update new => exact List.mem_map.mpr ⟨r, h, if_neg hne⟩

/-- The row that replaces another one is in the table. -/
theorem new_mem_update {old : R} (h : old ∈ rows) (hpk : pk old = pk new) :
    new ∈ (update new).apply pk rows :=
  List.mem_map.mpr ⟨old, h, if_pos hpk⟩

/-- An update changes nothing about the rows that it does not change in the row that it replaces. -/
theorem map_update {f : R → β} (h : ∀ old ∈ rows, pk old = pk new → f old = f new) :
    ((update new).apply pk rows).map f = rows.map f := by
  rw [apply_update, List.map_map]
  refine List.map_congr_left fun old hold => ?_
  by_cases hpk : pk old = pk new
  · simp [hpk, h old hold hpk]
  · simp [hpk]

/-- What an update does to an image of the table, when the image says which row is updated. -/
theorem map_update_eq {f : R → β} {g : β → β}
    (h : ∀ old ∈ rows, (if pk old = pk new then f new else f old) = g (f old)) :
    ((update new).apply pk rows).map f = (rows.map f).map g := by
  rw [apply_update, List.map_map, List.map_map]
  refine List.map_congr_left fun old hold => ?_
  rw [Function.comp_apply, Function.comp_apply, ← h old hold, apply_ite f]

/-- An update keeps the primary keys. -/
theorem map_pk_update : ((update new).apply pk rows).map pk = rows.map pk :=
  map_update fun _ _ h => h

/-- Primary keys stay distinct when an inserted row has a new one. -/
theorem nodup_apply (h : (rows.map pk).Nodup)
    (hnew : ∀ new, w = insert new → ∀ r ∈ rows, pk r ≠ pk new) :
    ((w.apply pk rows).map pk).Nodup := by
  cases w with
  | insert new =>
    rw [apply_insert, List.map_append, List.nodup_append]
    refine ⟨h, List.nodup_singleton _, ?_⟩
    rintro k hk k' hk' rfl
    obtain ⟨r, hr, rfl⟩ := List.mem_map.mp hk
    exact hnew new rfl r hr (List.mem_singleton.mp hk')
  | update new => rwa [map_pk_update]

/-- An update that keeps a selection's membership acts on the selection. -/
theorem filter_update {p : R → Bool} (h : ∀ old ∈ rows, pk old = pk new → p old = p new) :
    ((update new).apply pk rows).filter p = (update new).apply pk (rows.filter p) := by
  induction rows with
  | nil => rfl
  | cons old rows ih =>
    have ih := ih fun r hr => h r (List.mem_cons_of_mem _ hr)
    have hold := h old List.mem_cons_self
    simp only [apply_update, List.map_cons, List.filter_cons] at ih ⊢
    by_cases hpk : pk old = pk new
    · simp only [hpk, if_true, hold hpk, ih]
      split <;> simp [hpk]
    · simp only [hpk, if_false, ih]
      split <;> simp [hpk]

/-- An update of a row that is not in the list does nothing. -/
theorem apply_update_of_not_mem (h : ∀ old ∈ rows, pk old ≠ pk new) :
    (update new).apply pk rows = rows := by
  rw [apply_update]
  conv_rhs => rw [← List.map_id rows]
  exact List.map_congr_left fun old hold => if_neg (h old hold)

/-- A row with its primary key is found by it. -/
theorem find_eq_some (h : (rows.map pk).Nodup) (hr : r ∈ rows) {k : κ} (hk : pk r = k) :
    rows.find? (fun r' => pk r' = k) = some r := by
  cases hf : rows.find? fun r' => decide (pk r' = k) with
  | none => exact absurd hk (by simpa using List.find?_eq_none.mp hf r hr)
  | some r' =>
    have hk' : pk r' = k := by simpa using List.find?_some hf
    rw [List.inj_on_of_nodup_map h (List.mem_of_find?_eq_some hf) hr (hk'.trans hk.symm)]

/-- A write of another row does not change what is found. -/
theorem find_apply_of_ne {k : κ} (hne : pk w.row ≠ k) :
    (w.apply pk rows).find? (fun r => pk r = k) = rows.find? fun r => pk r = k := by
  cases w with
  | insert new =>
    have hnew : pk new ≠ k := hne
    rw [apply_insert, List.find?_append, List.find?_cons, decide_eq_false hnew, List.find?_nil,
      Option.or_none]
  | update new =>
    induction rows with
    | nil => rfl
    | cons old rows ih =>
      rw [apply_update, List.map_cons, List.find?_cons, List.find?_cons, ← apply_update, ih]
      by_cases hpk : pk old = pk new
      · have hold : pk old ≠ k := fun h => hne (hpk.symm.trans h)
        simp [hpk, show pk new ≠ k from hne]
      · simp [hpk]

/-- A row that is inserted under a new primary key is found. -/
theorem find_insert {k : κ} (hk : pk new = k) (h : rows.find? (fun r => pk r = k) = none) :
    ((insert new).apply pk rows).find? (fun r => pk r = k) = some new := by
  rw [apply_insert, List.find?_append, h, Option.none_or]
  simp [hk]

/-- A row that takes another one's place is found. -/
theorem find_update {k : κ} {old : R} (hk : pk new = k)
    (h : rows.find? (fun r => pk r = k) = some old) :
    ((update new).apply pk rows).find? (fun r => pk r = k) = some new := by
  induction rows with
  | nil => cases h
  | cons r rows ih =>
    rw [apply_update, List.map_cons, List.find?_cons, ← apply_update]
    rw [List.find?_cons] at h
    by_cases hr : pk r = k
    · simp [hr, hk]
    · rw [if_neg (by rwa [hk])]
      simp only [hr, decide_false] at h ⊢
      exact ih h

/-- What is in a table after several updates. -/
theorem mem_updates {news : List R} :
    r ∈ news.foldl (fun rows new => (update new).apply pk rows) rows →
      r ∈ news ∨ r ∈ rows ∧ ∀ new ∈ news, pk new ≠ pk r := by
  induction news generalizing rows with
  | nil => exact fun h => .inr ⟨h, by simp⟩
  | cons new news ih =>
    intro h
    rcases ih h with h | ⟨h, hnews⟩
    · exact .inl (List.mem_cons_of_mem _ h)
    · obtain ⟨old, hold, rfl⟩ := List.mem_map.mp h
      by_cases hpk : pk old = pk new
      · rw [if_pos hpk]
        exact .inl List.mem_cons_self
      · rw [if_neg hpk] at hnews ⊢
        exact .inr ⟨hold, List.forall_mem_cons.mpr ⟨Ne.symm hpk, hnews⟩⟩

/-- A row that none of them writes stays. -/
theorem mem_updates_of_ne {news : List R} (h : r ∈ rows) (hne : ∀ new ∈ news, pk new ≠ pk r) :
    r ∈ news.foldl (fun rows new => (update new).apply pk rows) rows := by
  induction news generalizing rows with
  | nil => exact h
  | cons new news ih =>
    rw [List.forall_mem_cons] at hne
    exact ih (mem_apply_of_ne h (Ne.symm hne.1)) hne.2

end RowWrite

/-- `WHERE` and `ORDER BY` commute, when the order tells the rows apart. -/
theorem filter_mergeSort {le : R → R → Bool} {rows : List R}
    (htrans : ∀ a b c, le a b → le b c → le a c) (htotal : ∀ a b, le a b || le b a)
    (hanti : ∀ a ∈ rows, ∀ b ∈ rows, le a b → le b a → a = b) (p : R → Bool) :
    (rows.filter p).mergeSort le = (rows.mergeSort le).filter p := by
  refine List.Perm.eq_of_pairwise (fun a b ha hb => ?_) (List.pairwise_mergeSort htrans htotal _)
    ((List.pairwise_mergeSort htrans htotal _).sublist List.filter_sublist) ?_
  · have ha' := (List.mem_filter.mp ((List.mergeSort_perm ..).mem_iff.mp ha)).1
    have hb' := (List.mergeSort_perm ..).mem_iff.mp (List.mem_filter.mp hb).1
    exact hanti a ha' b hb'
  · exact (List.mergeSort_perm ..).trans ((List.mergeSort_perm rows le).symm.filter p)

/-! ## Append-only tables -/

variable {D W K : Type} {S : Store D W K} {get : D → List R} {write : R → W}

/-- The table `get` only ever gets new rows, by the writes `write row`. -/
structure Store.AppendOnly (S : Store D W K) (get : D → List R) (write : R → W) : Prop where
  apply_write : ∀ d row, get (S.apply d (write row)) = get d ++ [row]
  apply_other : ∀ d w, (∀ row, w ≠ write row) → get (S.apply d w) = get d

namespace Store.AppendOnly

variable {locks : List K}

/-- What a row after a write is. -/
theorem mem_apply (h : S.AppendOnly get write) {d : D} {w : W} {r : R}
    (hr : r ∈ get (S.apply d w)) : r ∈ get d ∨ w = write r := by
  by_cases hw : ∃ row, w = write row
  · obtain ⟨row, rfl⟩ := hw
    rw [h.apply_write] at hr
    rcases List.mem_append.mp hr with hr | hr
    · exact .inl hr
    · rw [List.mem_singleton.mp hr]
      exact .inr rfl
  · rw [h.apply_other d w fun row hrow => hw ⟨row, hrow⟩] at hr
    exact .inl hr

/-- What a row after some writes is. -/
theorem mem_view (h : S.AppendOnly get write) {ws : List W} {r : R} :
    ∀ {d : D}, r ∈ get (S.view d ws) → r ∈ get d ∨ write r ∈ ws := by
  induction ws with
  | nil => exact fun hr => .inl hr
  | cons w ws ih =>
    intro d hr
    rcases ih hr with hr | hr
    · refine (h.mem_apply hr).imp_right fun hw => ?_
      rw [hw]
      exact List.mem_cons_self
    · exact .inr (List.mem_cons_of_mem _ hr)

/-- A row stays, locked or not. -/
theorem stable_mem (h : S.AppendOnly get write) (r : R) : S.Stable locks fun d => r ∈ get d := by
  intro d w hd _
  by_cases hw : ∃ row, w = write row
  · obtain ⟨row, rfl⟩ := hw
    rw [h.apply_write]
    exact List.mem_append_left _ hd
  · rw [h.apply_other d w fun row hrow => hw ⟨row, hrow⟩]
    exact hd

/-- A row that is written is there. -/
theorem mem_view_of_mem (h : S.AppendOnly get write) {ws : List W} {r : R}
    (hr : write r ∈ ws) (d : D) :
    r ∈ get (S.view d ws) := by
  obtain ⟨before, after, rfl⟩ := List.append_of_mem hr
  have hstable : S.Stable [] fun d => r ∈ get d := h.stable_mem r
  rw [Store.view_append, Store.view_cons]
  refine hstable.view after _ (fun _ _ _ _ => List.not_mem_nil) ?_
  rw [h.apply_write]
  exact List.mem_append_right _ (List.mem_singleton_self r)

/-- What holds of all rows stays so, if a row with unlocked keys satisfies it. -/
theorem stable_forall (h : S.AppendOnly get write) {p : R → Prop}
    (hp : ∀ row, (∀ k ∈ S.keys (write row), k ∉ locks) → p row) :
    S.Stable locks fun d => ∀ r ∈ get d, p r := by
  intro d w hd hk r hr
  rcases h.mem_apply hr with hr | rfl
  · exact hd r hr
  · exact hp r hk

/-- Writes to other tables leave the table as it is. -/
theorem view_other (h : S.AppendOnly get write) {ws : List W} :
    ∀ {d : D}, (∀ w ∈ ws, ∀ row, w ≠ write row) → get (S.view d ws) = get d := by
  induction ws with
  | nil => exact fun _ => rfl
  | cons w ws ih =>
    intro d hw
    rw [Store.view_cons, ih fun w' hw' => hw w' (List.mem_cons_of_mem _ hw'),
      h.apply_other d w (hw w List.mem_cons_self)]

end Store.AppendOnly

/-! ## Versioned tables -/

/-- The table `get` gets new rows and new versions of its rows, by the writes `write w`, where `pk`
is the primary key. -/
structure Store.Versioned [DecidableEq κ] (S : Store D W K) (get : D → List R)
    (write : RowWrite R → W) (pk : R → κ) : Prop where
  apply_write : ∀ d w, get (S.apply d (write w)) = w.apply pk (get d)
  apply_other : ∀ d w, (∀ rw, w ≠ write rw) → get (S.apply d w) = get d

namespace Store.Versioned

variable [DecidableEq κ] {pk : R → κ} {writes : RowWrite R → W} {locks : List K}

/-- What a row after a write is. -/
theorem mem_apply (h : S.Versioned get writes pk) {d : D} {w : W} {r : R}
    (hr : r ∈ get (S.apply d w)) : r ∈ get d ∨ ∃ rw, w = writes rw ∧ r = rw.row := by
  by_cases hw : ∃ rw, w = writes rw
  · obtain ⟨rw, rfl⟩ := hw
    rw [h.apply_write] at hr
    exact (RowWrite.mem_of_mem_apply hr).imp_right fun hr => ⟨rw, rfl, hr⟩
  · rw [h.apply_other d w fun rw hrw => hw ⟨rw, hrw⟩] at hr
    exact .inl hr

/-- What holds of all rows stays so, if a row with unlocked keys satisfies it. -/
theorem stable_forall (h : S.Versioned get writes pk) {p : R → Prop}
    (hp : ∀ rw, (∀ k ∈ S.keys (writes rw), k ∉ locks) → p rw.row) :
    S.Stable locks fun d => ∀ r ∈ get d, p r := by
  intro d w hd hk r hr
  rcases h.mem_apply hr with hr | ⟨rw, rfl, rfl⟩
  · exact hd r hr
  · exact hp rw hk

/-- A row stays as it is, if every other version of it has a locked key. -/
theorem stable_mem (h : S.Versioned get writes pk) {r : R}
    (hr : ∀ rw, pk rw.row = pk r → ∃ k ∈ S.keys (writes rw), k ∈ locks) :
    S.Stable locks fun d => r ∈ get d := by
  intro d w hd hk
  by_cases hw : ∃ rw, w = writes rw
  · obtain ⟨rw, rfl⟩ := hw
    rw [h.apply_write]
    refine RowWrite.mem_apply_of_ne hd fun heq => ?_
    obtain ⟨k, hkw, hkl⟩ := hr rw heq.symm
    exact hk k hkw hkl
  · rw [h.apply_other d w fun rw hrw => hw ⟨rw, hrw⟩]
    exact hd

/-- A primary key stays, locked or not. -/
theorem stable_mem_pk (h : S.Versioned get writes pk) (k : κ) :
    S.Stable locks fun d => k ∈ (get d).map pk := by
  intro d w hd _
  by_cases hw : ∃ rw, w = writes rw
  · obtain ⟨rw, rfl⟩ := hw
    rw [h.apply_write]
    cases rw with
    | insert new => exact List.map_append ▸ List.mem_append_left _ hd
    | update new => rwa [RowWrite.map_pk_update]
  · rwa [h.apply_other d w fun rw hrw => hw ⟨rw, hrw⟩]

/-- Writes to other tables leave the table as it is. -/
theorem view_other (h : S.Versioned get writes pk) {ws : List W} :
    ∀ {d : D}, (∀ w ∈ ws, ∀ rw, w ≠ writes rw) → get (S.view d ws) = get d := by
  induction ws with
  | nil => exact fun _ => rfl
  | cons w ws ih =>
    intro d hw
    rw [Store.view_cons, ih fun w' hw' => hw w' (List.mem_cons_of_mem _ hw'),
      h.apply_other d w (hw w List.mem_cons_self)]

end Store.Versioned

end Postgres
