import Mathlib.Algebra.BigOperators.Group.Finset.Basic
import Mathlib.Algebra.Order.Group.Multiset
import Mathlib.Data.Multiset.Bind
import Mathlib.Logic.Relation
import InfernalLaw.Postgres.Discipline
import InfernalLaw.Postgres.Table

/-!
# Relational integrity

The rows of all tables are one multiset. A `Schema` says of a row what the tables declare: its
entries in unique indexes, the rows that it refers to, its `CHECK` constraints, how it may begin,
and what an `UPDATE` may make of it. `Legal` is what the declarations promise of the whole database,
and `Schema.discipline` is the reason why it can be checked write by write: a permitted write keeps
it, and the verdict on a write only depends on rows with the same entries.
-/

namespace Postgres

variable {R K : Type}

/-- A write to one of several tables, as one to all of them. -/
def RowWrite.lift {R' : Type} (f : R → R') : RowWrite R → RowWrite R'
  | insert r => .insert (f r)
  | update r => .update (f r)

/-- A lifted `INSERT` is one of the lifted row. -/
@[simp] theorem RowWrite.lift_insert {R' : Type} {f : R → R'} {r : R} :
    (RowWrite.insert r).lift f = .insert (f r) := rfl

/-- A lifted `UPDATE` is one of the lifted row. -/
@[simp] theorem RowWrite.lift_update {R' : Type} {f : R → R'} {r : R} :
    (RowWrite.update r).lift f = .update (f r) := rfl

/-- The row of a lifted write is the lifted row. -/
@[simp] theorem RowWrite.row_lift {R' : Type} {f : R → R'} {w : RowWrite R} :
    (w.lift f).row = f w.row := by
  cases w <;> rfl

/-- What the tables declare about their rows. -/
structure Schema (R K : Type) where
  /-- The primary key, in a table that has one. -/
  pk : R → Option K
  /-- The entries in unique indexes, with that of the primary key. -/
  entries : R → List K
  /-- The primary keys that the foreign keys refer to. -/
  refs : R → List K
  /-- The `CHECK` constraints. -/
  valid : R → Prop
  /-- A row as it may be inserted. -/
  starts : R → Prop
  /-- The new version that an `UPDATE` may make of a row. -/
  moves : R → R → Prop
  pk_mem : ∀ r k, pk r = some k → k ∈ entries r
  nodup_entries : ∀ r, (entries r).Nodup

namespace Schema

variable (M : Schema R K)

/-- The row is a version of one as it may be inserted. -/
def Lived (r : R) : Prop := ∃ r₀, M.starts r₀ ∧ Relation.ReflTransGen M.moves r₀ r

/-- The primary key is that of a row. -/
def Has (S : Multiset R) (k : K) : Prop := ∃ r ∈ S, M.pk r = some k

/-- What the declarations promise of a database. -/
structure Legal (S : Multiset R) : Prop where
  valid : ∀ r ∈ S, M.valid r
  /-- No two entries of unique indexes are the same. -/
  unique : (S.bind fun r => (M.entries r : Multiset K)).Nodup
  refs : ∀ r ∈ S, ∀ k ∈ M.refs r, M.Has S k
  lived : ∀ r ∈ S, M.Lived r

/-- The write replaces the row. -/
def Replaces (w : RowWrite R) (r : R) : Prop := ∃ new, w = .update new ∧ M.pk r = M.pk new

/-- The write adds a row that may be inserted, or makes a new version of one that is there. -/
def Proceeds (S : Multiset R) : RowWrite R → Prop
  | .insert new => M.starts new
  | .update new => ∃ old ∈ S, ∃ k, M.pk old = some k ∧ M.pk new = some k ∧ M.moves old new

/-- What is checked of a write. -/
structure Permits (S : Multiset R) (w : RowWrite R) : Prop where
  valid : M.valid w.row
  fresh : ∀ r ∈ S, ¬ M.Replaces w r → ∀ k ∈ M.entries w.row, k ∉ M.entries r
  refs : ∀ k ∈ M.refs w.row, M.Has S k
  proceeds : M.Proceeds S w

/-- Every row is still there, in a version that it may have come to. -/
def Evolves (S S' : Multiset R) : Prop :=
  ∀ r ∈ S, ∃ r' ∈ S', M.pk r' = M.pk r ∧ Relation.ReflTransGen M.moves r r'

section

variable {M} {S : Multiset R} {w : RowWrite R} {r r' new : R} {k : K}

/-- An `INSERT` replaces no row. -/
theorem not_replaces_insert : ¬ M.Replaces (.insert new) r := by
  rintro ⟨_, h, -⟩
  cases h

/-- An `UPDATE` replaces the rows with the key of the new version. -/
theorem replaces_update : M.Replaces (.update new) r ↔ M.pk r = M.pk new := by
  constructor
  · rintro ⟨_, h, hpk⟩
    rwa [RowWrite.update.inj h]
  · exact fun h => ⟨new, rfl, h⟩

/-- The primary key of a row that is replaced is an entry of the new version. -/
theorem mem_entries_of_replaces (h : M.Replaces w r) (hk : M.pk r = some k) :
    k ∈ M.entries w.row := by
  obtain ⟨new, rfl, hpk⟩ := h
  exact M.pk_mem new k (hpk ▸ hk)

/-- Two rows with the same entry are one. -/
theorem Legal.eq_of_entry (h : M.Legal S) (hr : r ∈ S) (hr' : r' ∈ S) (hk : k ∈ M.entries r)
    (hk' : k ∈ M.entries r') : r = r' := by
  by_contra hne
  obtain ⟨T, rfl⟩ := Multiset.exists_cons_of_mem hr
  have hmem : r' ∈ T := (Multiset.mem_cons.mp hr').resolve_left fun h => hne h.symm
  have hunique := h.unique
  rw [Multiset.cons_bind, Multiset.nodup_add] at hunique
  exact Multiset.disjoint_left.mp hunique.2.2 (Multiset.mem_coe.mpr hk)
    (Multiset.mem_bind.mpr ⟨r', hmem, Multiset.mem_coe.mpr hk'⟩)

/-- No two of several rows have the same entry. -/
theorem Legal.pairwise (h : M.Legal S) (rows : List R) (hrows : (rows : Multiset R) ≤ S) :
    rows.Pairwise fun r r' => ∀ k ∈ M.entries r, k ∉ M.entries r' := by
  obtain ⟨T, rfl⟩ := Multiset.le_iff_exists_add.mp hrows
  have hunique := h.unique
  rw [Multiset.add_bind, Multiset.nodup_add, Multiset.coe_bind, Multiset.coe_nodup,
    List.nodup_flatMap] at hunique
  exact hunique.1.2.imp fun hdisjoint k hk hk' => hdisjoint hk hk'

/-- The entries of a row that no other row has come in addition. -/
theorem nodup_entries_cons {T : Multiset R}
    (hT : (T.bind fun r => (M.entries r : Multiset K)).Nodup)
    (hfresh : ∀ r ∈ T, ∀ k ∈ M.entries new, k ∉ M.entries r) :
    ((new ::ₘ T).bind fun r => (M.entries r : Multiset K)).Nodup := by
  rw [Multiset.cons_bind, Multiset.nodup_add]
  refine ⟨Multiset.coe_nodup.mpr (M.nodup_entries new), hT, Multiset.disjoint_left.mpr ?_⟩
  intro k hk hmem
  obtain ⟨r, hr, hkr⟩ := Multiset.mem_bind.mp hmem
  exact hfresh r hr k (Multiset.mem_coe.mp hk) (Multiset.mem_coe.mp hkr)

/-- Every row evolves to itself. -/
theorem Evolves.refl : M.Evolves S S := fun r hr => ⟨r, hr, rfl, .refl⟩

/-- A row that no update may replace stays as it is. -/
theorem Evolves.mem {S' : Multiset R} (h : M.Evolves S S') (hr : r ∈ S)
    (hfinal : ∀ r', ¬ M.moves r r') :
    r ∈ S' := by
  obtain ⟨r', hr', -, hmoves⟩ := h r hr
  rcases hmoves.cases_head with rfl | ⟨_, hmove, -⟩
  · exact hr'
  · exact absurd hmove (hfinal _)

/-- Writes with different primary keys are of different rows. -/
theorem Permits.pk_ne (hw : M.Permits S (.update new))
    (hapart : ∀ k ∈ M.entries new, k ∉ M.entries r) : M.pk r ≠ M.pk new := by
  intro hpk
  obtain ⟨old, -, k, -, hnew, -⟩ := hw.proceeds
  exact hapart k (M.pk_mem new k hnew) (M.pk_mem r k (hpk.trans hnew))

/-- What is checked of a row that is inserted. -/
theorem Permits.insert (hvalid : M.valid new)
    (hfresh : ∀ r ∈ S, ∀ k ∈ M.entries new, k ∉ M.entries r) (hrefs : ∀ k ∈ M.refs new, M.Has S k)
    (hstarts : M.starts new) : M.Permits S (.insert new) :=
  ⟨hvalid, fun r hr _ => hfresh r hr, hrefs, hstarts⟩

/-- An update that changes no entry and no foreign key is only asked about the row. -/
theorem Permits.update (h : M.Legal S) {old : R} (hold : old ∈ S) (hk : M.pk old = some k)
    (hnew : M.pk new = some k) (hmove : M.moves old new) (hvalid : M.valid new)
    (hentries : ∀ k ∈ M.entries new, k ∈ M.entries old) (hrefs : ∀ k ∈ M.refs new, k ∈ M.refs old) :
    M.Permits S (.update new) where
  valid := hvalid
  fresh r hr hrep k' hk' hkr := by
    obtain rfl := h.eq_of_entry hr hold hkr (hentries k' hk')
    exact hrep (replaces_update.mpr (hk.trans hnew.symm))
  refs k' hk' := h.refs old hold k' (hrefs k' hk')
  proceeds := ⟨old, hold, k, hk, hnew, hmove⟩

end

variable [DecidableEq K]

/-- What a write does. -/
def act (S : Multiset R) : RowWrite R → Multiset R
  | .insert new => new ::ₘ S
  | .update new => S.map fun r => if M.pk r = M.pk new then new else r

variable {M} {S S' : Multiset R} {w w' : RowWrite R} {r new old : R} {k : K}

/-! ## Rows after a write -/

/-- An `INSERT` adds its row. -/
theorem act_insert : M.act S (.insert new) = new ::ₘ S := rfl

/-- An `UPDATE` puts the new version in the place of the old one. -/
theorem act_update :
    M.act S (.update new) = S.map fun r => if M.pk r = M.pk new then new else r := rfl

/-- A row that is not replaced stays. -/
theorem mem_act_of_mem (hr : r ∈ S) (h : ¬ M.Replaces w r) : r ∈ M.act S w := by
  cases w with
  | insert new => exact Multiset.mem_cons_of_mem hr
  | update new =>
    exact Multiset.mem_map.mpr ⟨r, hr, if_neg (fun hpk => h (replaces_update.mpr hpk))⟩

/-- A row that is replaced leaves the new version. -/
theorem row_mem_act (hr : r ∈ S) (h : M.Replaces w r) : w.row ∈ M.act S w := by
  obtain ⟨new, rfl, hpk⟩ := h
  exact Multiset.mem_map.mpr ⟨r, hr, if_pos hpk⟩

/-- Every row was there before, or is the row written. -/
theorem mem_of_mem_act (h : r ∈ M.act S w) : r ∈ S ∨ r = w.row := by
  cases w with
  | insert new => exact (Multiset.mem_cons.mp h).symm
  | update new =>
    obtain ⟨old, hold, rfl⟩ := Multiset.mem_map.mp h
    split
    · exact .inr rfl
    · exact .inl hold

/-- Primary keys stay. -/
theorem Has.act (h : M.Has S k) : M.Has (M.act S w) k := by
  obtain ⟨r, hr, hk⟩ := h
  by_cases hrep : M.Replaces w r
  · have hrow := row_mem_act hr hrep
    obtain ⟨new, rfl, hpk⟩ := hrep
    exact ⟨new, hrow, hpk ▸ hk⟩
  · exact ⟨r, mem_act_of_mem hr hrep, hk⟩

/-- A write to a table, as one to the rows of all tables. -/
theorem act_lift {R' κ : Type} [DecidableEq κ] {f : R' → R} {key : R' → κ}
    (hkey : ∀ r r', M.pk (f r) = M.pk (f r') ↔ key r = key r') {rows : List R'} {w : RowWrite R'} :
    (((w.apply key rows).map f : List R) : Multiset R) = M.act (rows.map f : List R)
      (w.lift f) := by
  cases w with
  | insert new => simp [act_insert]
  | update new =>
    rw [RowWrite.lift_update, act_update, RowWrite.apply_update, Multiset.map_coe, List.map_map,
      List.map_map]
    refine congrArg _ (List.map_congr_left fun r _ => ?_)
    simp only [Function.comp_apply, hkey, apply_ite f]

/-- A write to one of the tables that the rows are divided into. -/
theorem act_sum {ι : Type} [Fintype ι] [DecidableEq ι] {tables tables' : ι → Multiset R} {t : ι}
    (hself : tables' t = M.act (tables t) w) (hother : ∀ t', t' ≠ t → tables' t' = tables t')
    (hpk : ∀ t', t' ≠ t → ∀ r ∈ tables t', ¬ M.Replaces w r) :
    ∑ t, tables' t = M.act (∑ t, tables t) w := by
  have hrest : ∑ t' ∈ Finset.univ.erase t, tables' t' = ∑ t' ∈ Finset.univ.erase t, tables t' :=
    Finset.sum_congr rfl fun t' ht' => hother t' (Finset.ne_of_mem_erase ht')
  rw [← Finset.add_sum_erase _ _ (Finset.mem_univ t),
    ← Finset.add_sum_erase _ tables (Finset.mem_univ t), hself, hrest]
  cases w with
  | insert new => exact Multiset.cons_add new _ _
  | update new =>
    rw [act_update, act_update, Multiset.map_add]
    refine congrArg _ (((Multiset.map_congr rfl fun r hr => ?_).trans (Multiset.map_id' _)).symm)
    obtain ⟨t', ht', hr⟩ := Multiset.mem_sum.mp hr
    exact if_neg fun h => hpk t' (Finset.ne_of_mem_erase ht') r hr (replaces_update.mpr h)

/-! ## A permitted write keeps the database legal -/

/-- An update takes one row out and puts its new version in. -/
theorem Legal.act_update (h : M.Legal S) (hold : old ∈ S) (hk : M.pk old = some k)
    (hnew : M.pk new = some k) : ∃ T, S = old ::ₘ T ∧ M.act S (.update new) = new ::ₘ T ∧
      ∀ r ∈ T, ¬ M.Replaces (.update new) r := by
  obtain ⟨T, rfl⟩ := Multiset.exists_cons_of_mem hold
  have hother : ∀ r ∈ T, M.pk r ≠ M.pk new := by
    intro r hr hpk
    have hunique := h.unique
    rw [Multiset.cons_bind, Multiset.nodup_add] at hunique
    exact Multiset.disjoint_left.mp hunique.2.2 (Multiset.mem_coe.mpr (M.pk_mem old k hk))
      (Multiset.mem_bind.mpr ⟨r, hr, Multiset.mem_coe.mpr (M.pk_mem r k (hpk.trans hnew))⟩)
  refine ⟨T, rfl, ?_, fun r hr hrep => hother r hr (replaces_update.mp hrep)⟩
  rw [act, Multiset.map_cons, if_pos (hk.trans hnew.symm)]
  refine congrArg _ ((Multiset.map_congr rfl fun r hr => ?_).trans (Multiset.map_id' T))
  exact if_neg (hother r hr)

/-- A write that the constraints permit keeps the database legal. -/
theorem Legal.act (h : M.Legal S) (hw : M.Permits S w) : M.Legal (M.act S w) where
  valid r hr := by
    rcases mem_of_mem_act hr with hr | rfl
    · exact h.valid r hr
    · exact hw.valid
  unique := by
    cases w with
    | insert new =>
      exact nodup_entries_cons h.unique fun r hr => hw.fresh r hr not_replaces_insert
    | update new =>
      obtain ⟨old, hold, k, hk, hnew, -⟩ := hw.proceeds
      obtain ⟨T, rfl, hact, hother⟩ := h.act_update hold hk hnew
      have hunique := h.unique
      rw [Multiset.cons_bind, Multiset.nodup_add] at hunique
      rw [hact]
      exact nodup_entries_cons hunique.2.1 fun r hr =>
        hw.fresh r (Multiset.mem_cons_of_mem hr) (hother r hr)
  refs r hr k hk := by
    rcases mem_of_mem_act hr with hr | rfl
    · exact (h.refs r hr k hk).act
    · exact (hw.refs k hk).act
  lived r hr := by
    rcases mem_of_mem_act hr with hr | rfl
    · exact h.lived r hr
    cases w with
    | insert new => exact ⟨new, hw.proceeds, .refl⟩
    | update new =>
      obtain ⟨old, hold, -, -, -, hmove⟩ := hw.proceeds
      obtain ⟨r₀, hr₀, hmoves⟩ := h.lived old hold
      exact ⟨r₀, hr₀, hmoves.tail hmove⟩

/-! ## Rows evolve -/

/-- A permitted write makes the rows evolve. -/
theorem Evolves.act (hlegal : M.Legal S') (h : M.Evolves S S') (hw : M.Permits S' w) :
    M.Evolves S (M.act S' w) := by
  intro r hr
  obtain ⟨r', hr', hpk, hmoves⟩ := h r hr
  by_cases hrep : M.Replaces w r'
  · have hrow := row_mem_act hr' hrep
    obtain ⟨new, rfl, hsame⟩ := hrep
    obtain ⟨old, hold, k, hk, hnew, hmove⟩ := hw.proceeds
    -- The row replaced is the one that moves.
    obtain rfl := hlegal.eq_of_entry hold hr' (M.pk_mem old k hk)
      (M.pk_mem r' k (hsame.trans hnew))
    exact ⟨new, hrow, hsame.symm.trans hpk, hmoves.tail hmove⟩
  · exact ⟨r', mem_act_of_mem hr' hrep, hpk, hmoves⟩

/-! ## Writes with different entries -/

/-- A write with entries of its own does not change the verdict on another one. -/
theorem Permits.act (hw : M.Permits S w)
    (hapart : ∀ k ∈ M.entries w.row, k ∉ M.entries w'.row) : M.Permits (M.act S w') w where
  valid := hw.valid
  fresh r hr hrep k hk := by
    rcases mem_of_mem_act hr with hr | rfl
    · exact hw.fresh r hr hrep k hk
    · exact hapart k hk
  refs k hk := (hw.refs k hk).act
  proceeds := by
    cases w with
    | insert new => exact hw.proceeds
    | update new =>
      obtain ⟨old, hold, k, hk, hnew, hmove⟩ := hw.proceeds
      refine ⟨old, mem_act_of_mem hold fun hrep => ?_, k, hk, hnew, hmove⟩
      exact hapart k (M.pk_mem new k hnew) (mem_entries_of_replaces hrep hk)

/-- Writes with different entries commute. -/
theorem act_comm (hw : M.Permits S w) (hw' : M.Permits S w')
    (hapart : ∀ k ∈ M.entries w.row, k ∉ M.entries w'.row) :
    M.act (M.act S w) w' = M.act (M.act S w') w := by
  have hapart' : ∀ k ∈ M.entries w'.row, k ∉ M.entries w.row := fun k hk' hk => hapart k hk hk'
  cases w with
  | insert new =>
    cases w' with
    | insert new' => exact Multiset.cons_swap new' new S
    | update new' =>
      have hne : M.pk new ≠ M.pk new' := hw'.pk_ne hapart'
      rw [act_insert, act_insert, act_update, act_update, Multiset.map_cons, if_neg hne]
  | update new =>
    cases w' with
    | insert new' =>
      have hne : M.pk new' ≠ M.pk new := hw.pk_ne hapart
      rw [act_insert, act_insert, act_update, act_update, Multiset.map_cons, if_neg hne]
    | update new' =>
      have hne : M.pk new' ≠ M.pk new := hw.pk_ne hapart
      simp only [act_update, Multiset.map_map]
      refine Multiset.map_congr rfl fun r _ => ?_
      dsimp only [Function.comp_apply]
      by_cases hr : M.pk r = M.pk new
      · rw [if_pos hr, if_neg hne.symm, if_neg (hr.trans_ne hne.symm), if_pos hr]
      · by_cases hr' : M.pk r = M.pk new'
        · rw [if_neg hr, if_pos hr', if_neg hne]
        · rw [if_neg hr, if_neg hr', if_neg hr]

/-! ## The discipline -/

variable {D W : Type} {S : Store D W K}

/-- A store whose writes are row writes, with their entries as keys, is legal if each write is
permitted. -/
def discipline (M : Schema R K) (rows : D → Multiset R) (change : W → RowWrite R)
    (happly : ∀ d w, rows (S.apply d w) = M.act (rows d) (change w))
    (hkeys : ∀ w, S.keys w = M.entries (change w).row) : Discipline S (Multiset R) where
  abs := rows
  act a w := M.act a (change w)
  abs_apply := happly
  inv := M.Legal
  permits a w := M.Permits a (change w)
  preserves _ _ h hw := h.act hw
  permits_act _ w w' _ hw _ hapart := by
    rw [hkeys, hkeys] at hapart
    exact hw.act hapart
  act_comm _ w w' _ hw hw' hapart := by
    rw [hkeys, hkeys] at hapart
    exact Schema.act_comm hw hw' hapart

end Schema

end Postgres
