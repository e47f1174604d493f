import InfernalLaw.Infrastructure.SchemaVersions
import InfernalLaw.Tenure.Orderly

/-!
# Schema versions in every run

Any number of publications and status changes, run concurrently with each other and with anything
that leaves `authority_schema_versions` alone. The version that a publication takes for the latest
one need not be the latest one when it commits; but then the next number is taken, and the unique
index refuses the new row. So the versions under a name are an orderly history, in which every
version comes after the one before.
-/

namespace InfernalLaw

open Postgres (Contract Event RowWrite State Store)

/-- The versions under a name, oldest first. -/
def Db.versionsOf (d : Db) (kind : SchemaKind) (name : Str) : List SchemaVersionRow :=
  d.schemaVersions.filter fun r => r.kind = kind ∧ r.name = name

/-- The versions of a name are the rows with its kind and name. -/
theorem Db.mem_versionsOf {d : Db} {kind : SchemaKind} {name : Str} {r : SchemaVersionRow} :
    r ∈ d.versionsOf kind name ↔ r ∈ d.schemaVersions ∧ r.kind = kind ∧ r.name = name := by
  simp [versionsOf]

namespace Schemas

/-! ## The operations -/

/-- What runs. The identifiers that the operations draw are given. -/
inductive Op where
  | publish (id : SchemaVersionId) (kind : SchemaKind) (name : Str) (owner : ActorId)
      (contentDigest : Bytes32) (publishedAt : ℤ)
  | setStatus (id : SchemaVersionId) (status : SchemaStatus) (administratorIdentity reason : Str)
      (correlationId : Uuid) (changedAt : ℤ)
  /-- Another component's transaction. -/
  | other (writes : List Write) (h : ∀ w ∈ writes, w.table ≠ .schemaVersions)

/-- What the operations do; their answers do not matter here. -/
def program : Op → Sql Unit
  | .publish id kind name owner contentDigest publishedAt =>
    (callFunction (publishAuthoritySchemaVersion id kind name owner contentDigest
      publishedAt)).bind fun _ => .done ()
  | .setStatus id status administratorIdentity reason correlationId changedAt =>
    (callFunction (setAuthoritySchemaStatus id status administratorIdentity reason correlationId
      changedAt)).bind fun _ => .done ()
  | .other writes _ => background writes

/-- The sessions of the kernels that share the database. -/
abbrev system : Postgres.System Db Write Key Op Unit := kernelSystem program

/-! ## The invariant -/

/-- A version that is published before a version `k + 1` comes has the number `k`, and is named as
its predecessor; the first version has no predecessor. -/
structure Linked (l : List SchemaVersionRow) : Prop where
  first : ∀ r ∈ l, r.version = 1 → r.predecessorId = none
  next : ∀ r ∈ l, ∀ r' ∈ l, r'.version = r.version + 1 → r'.predecessorId = some r.schemaVersionId

/-- What holds of the schema versions between events. -/
structure Inv (d : Db) : Prop where
  nodup_id : (d.schemaVersions.map SchemaVersionRow.schemaVersionId).Nodup
  /-- A later version may come at any time, so every version counts as ended. -/
  orderly : ∀ kind name,
    Tenure.Orderly SchemaVersionRow.version (fun _ => True) (d.versionsOf kind name)
  linked : ∀ kind name, Linked (d.versionsOf kind name)
  one_owner : ∀ kind name, ∀ r ∈ d.versionsOf kind name, ∀ r' ∈ d.versionsOf kind name,
    r.ownerServiceId = r'.ownerServiceId

namespace Inv

variable {d d' : Db} {row old new : SchemaVersionRow}

/-- The invariant is about one table. -/
theorem congr (h : Inv d) (heq : d'.schemaVersions = d.schemaVersions) : Inv d' := by
  have hversions : ∀ kind name, d'.versionsOf kind name = d.versionsOf kind name := fun _ _ =>
    congrArg (List.filter _) heq
  refine ⟨heq ▸ h.nodup_id, fun kind name => ?_, fun kind name => ?_, fun kind name => ?_⟩ <;>
    rw [hversions]
  · exact h.orderly kind name
  · exact h.linked kind name
  · exact h.one_owner kind name

/-- The versions under a name, when a row is replaced by one with another status. -/
theorem versionsOf_restate (h : Inv d) (hr : Restates d old new) (kind : SchemaKind) (name : Str) :
    ∃ f : SchemaVersionRow → SchemaVersionRow,
      (d.apply (.schemaVersions (.update new))).versionsOf kind name =
        (d.versionsOf kind name).map f ∧
      ∀ r ∈ d.versionsOf kind name, (f r).EqButStatus r := by
  obtain ⟨⟨hid, hkind, hname⟩, -⟩ := hr.same.columns
  -- The row that is replaced is `old`.
  have hold : ∀ r ∈ d.schemaVersions, r.schemaVersionId = new.schemaVersionId → r = old :=
    fun r hr' heq => List.inj_on_of_nodup_map h.nodup_id hr' hr.mem (heq.trans hid)
  refine ⟨_, RowWrite.filter_update fun r hr' heq => ?_, fun r hr' => ?_⟩
  · rw [hold r hr' heq, hkind, hname]
  · by_cases heq : r.schemaVersionId = new.schemaVersionId
    · rw [if_pos heq, hold r (Db.mem_versionsOf.mp hr').1 heq]
      exact hr.same
    · rw [if_neg heq]
      rfl

/-- A version that gets another status. -/
theorem restate (h : Inv d) (hr : Restates d old new) :
    Inv (d.apply (.schemaVersions (.update new))) := by
  constructor
  · rw [show (d.apply (.schemaVersions (.update new))).schemaVersions =
      (RowWrite.update new).apply SchemaVersionRow.schemaVersionId d.schemaVersions from rfl,
      RowWrite.map_pk_update]
    exact h.nodup_id
  · -- Its name keeps its versions, with the one that is restated in its old place.
    intro kind name
    obtain ⟨f, hversions, hf⟩ := h.versionsOf_restate hr kind name
    rw [hversions]
    exact (h.orderly kind name).map fun r hr' =>
      ⟨(hf r hr').columns.2.1, id⟩
  · intro kind name
    obtain ⟨f, hversions, hf⟩ := h.versionsOf_restate hr kind name
    have hlinked := h.linked kind name
    rw [hversions]
    constructor
    · intro _ hx hone
      obtain ⟨r, hr', rfl⟩ := List.mem_map.mp hx
      obtain ⟨-, hversion, -, hpredecessor⟩ := (hf r hr').columns
      rw [hpredecessor]
      exact hlinked.first r hr' (hversion.symm.trans hone)
    · intro _ hx _ hx' hnext
      obtain ⟨r, hr', rfl⟩ := List.mem_map.mp hx
      obtain ⟨r', hr'', rfl⟩ := List.mem_map.mp hx'
      obtain ⟨⟨hid, -⟩, hversion, -⟩ := (hf r hr').columns
      obtain ⟨-, hversion', -, hpredecessor⟩ := (hf r' hr'').columns
      rw [hversion, hversion'] at hnext
      rw [hpredecessor, hid]
      exact hlinked.next r hr' r' hr'' hnext
  · intro kind name
    obtain ⟨f, hversions, hf⟩ := h.versionsOf_restate hr kind name
    rw [hversions]
    intro _ hx _ hx'
    obtain ⟨r, hr', rfl⟩ := List.mem_map.mp hx
    obtain ⟨r', hr'', rfl⟩ := List.mem_map.mp hx'
    rw [(hf r hr').columns.2.2.1, (hf r' hr'').columns.2.2.1]
    exact h.one_owner kind name r hr' r' hr''

/-- The number of a new version is the next one, and all earlier versions have its owner. -/
theorem next_version (h : Inv d) (hf : d.FollowsUp row) (hu : d.Unpublished row) :
    row.version = (d.versionsOf row.kind row.name).length + 1 ∧
      ∀ r ∈ d.versionsOf row.kind row.name, r.ownerServiceId = row.ownerServiceId := by
  have ho := h.orderly row.kind row.name
  have hfree : ∀ r ∈ d.versionsOf row.kind row.name, r.version ≠ row.version := fun r hr =>
    have ⟨hmem, hkind, hname⟩ := Db.mem_versionsOf.mp hr
    hu.fresh_version r hmem hkind hname
  rcases hf with ⟨hone, -⟩ | ⟨latest, hmem, hs⟩
  · -- A first version is alone under its name.
    have hempty : (d.versionsOf row.kind row.name) = [] := by
      by_contra hne
      have hpos := List.length_pos_of_ne_nil hne
      obtain ⟨r, hr, hnumber⟩ := ho.exists_number (k := 1) (by omega) (by omega)
      exact hfree r hr (hnumber.trans hone.symm)
    rw [hempty]
    exact ⟨hone, fun r hr => by cases hr⟩
  · have hlatest := Db.mem_versionsOf.mpr ⟨hmem, hs.kind, hs.name⟩
    have hbound := ho.number_mem hlatest
    have hversion := hs.version
    have hlength : latest.version = (d.versionsOf row.kind row.name).length := by
      by_contra hne
      obtain ⟨r, hr, hnumber⟩ := ho.exists_number (k := row.version) (by omega) (by omega)
      exact hfree r hr hnumber
    refine ⟨by omega, fun r hr => ?_⟩
    rw [h.one_owner _ _ r hr latest hlatest, hs.owner]

/-- The new version comes after the last one. -/
theorem linked_snoc (h : Inv d) (hf : d.FollowsUp row) (hu : d.Unpublished row) :
    Linked (d.versionsOf row.kind row.name ++ [row]) := by
  have hlinked := h.linked row.kind row.name
  have ho := h.orderly row.kind row.name
  obtain ⟨hversion, -⟩ := h.next_version hf hu
  constructor
  · intro r hr hone
    rcases List.mem_append.mp hr with hr | hr
    · exact hlinked.first r hr hone
    · rw [List.mem_singleton.mp hr] at hone ⊢
      rcases hf with ⟨-, hnone⟩ | ⟨latest, hmem, hs⟩
      · exact hnone
      · have hbound := ho.number_mem (Db.mem_versionsOf.mpr ⟨hmem, hs.kind, hs.name⟩)
        have hnext := hs.version
        omega
  · intro r hr r' hr' hnext
    rcases List.mem_append.mp hr with hr | hr <;> rcases List.mem_append.mp hr' with hr' | hr'
    · exact hlinked.next r hr r' hr' hnext
    · rw [List.mem_singleton.mp hr'] at hnext ⊢
      have hbound := ho.number_mem hr
      rcases hf with ⟨hone, -⟩ | ⟨latest, hmem, hs⟩
      · omega
      · -- Both `r` and the locked version have the number before.
        have hlatest := Db.mem_versionsOf.mpr ⟨hmem, hs.kind, hs.name⟩
        have hnumber : latest.version = r.version := by
          have := hs.version
          omega
        rw [hs.predecessor, List.inj_on_of_nodup_map ho.nodup_number hlatest hr hnumber]
    · rw [List.mem_singleton.mp hr] at hnext
      have hbound := ho.number_mem hr'
      omega
    · rw [List.mem_singleton.mp hr, List.mem_singleton.mp hr'] at hnext
      omega

/-- A version that is published. -/
theorem publish (h : Inv d) (hf : d.FollowsUp row) (hu : d.Unpublished row) :
    Inv (d.apply (.schemaVersions (.insert row))) := by
  obtain ⟨hversion, howner⟩ := h.next_version hf hu
  have hversions : ∀ kind name, (d.apply (.schemaVersions (.insert row))).versionsOf kind name =
      d.versionsOf kind name ++ if row.kind = kind ∧ row.name = name then [row] else [] := by
    intro kind name
    refine (List.filter_append _ [row]).trans (congrArg _ ?_)
    by_cases heq : row.kind = kind ∧ row.name = name <;> simp [heq]
  constructor
  · refine RowWrite.nodup_apply (w := .insert row) h.nodup_id fun x hx r hr => ?_
    obtain rfl := RowWrite.insert.inj hx
    exact hu.fresh_id r hr
  · intro kind name
    rw [hversions]
    split
    · rename_i heq
      obtain ⟨rfl, rfl⟩ := heq
      exact (h.orderly _ _).snoc (fun _ _ => trivial) hversion
    · rw [List.append_nil]
      exact h.orderly kind name
  · intro kind name
    rw [hversions]
    split
    · rename_i heq
      obtain ⟨rfl, rfl⟩ := heq
      exact h.linked_snoc hf hu
    · rw [List.append_nil]
      exact h.linked kind name
  · intro kind name
    rw [hversions]
    split
    · rename_i heq
      obtain ⟨rfl, rfl⟩ := heq
      intro r hr r' hr'
      have hone : ∀ r ∈ d.versionsOf row.kind row.name ++ [row],
          r.ownerServiceId = row.ownerServiceId := by
        intro r hr
        rcases List.mem_append.mp hr with hr | hr
        · exact howner r hr
        · rw [List.mem_singleton.mp hr]
      rw [hone r hr, hone r' hr']
    · rw [List.append_nil]
      exact h.one_owner kind name

end Inv

/-! ## The contract -/

/-- What an event commits. -/
inductive Step (d : Db) : List Write → Prop where
  | other {ws : List Write} (h : ∀ w ∈ ws, w.table ≠ .schemaVersions) : Step d ws
  | publish {row : SchemaVersionRow} (h : Publishes d row) :
      Step d [.schemaVersions (.insert row)]
  | restate {old new : SchemaVersionRow} (h : Restates d old new) (audit : SchemaStatusAuditRow) :
      Step d [.schemaVersions (.update new), .schemaStatusAudit audit]

/-- Writes to other tables leave the versions as they are. -/
theorem view_schemaVersions {d : Db} {ws : List Write}
    (h : ∀ w ∈ ws, w.table ≠ .schemaVersions) :
    (store.view d ws).schemaVersions = d.schemaVersions :=
  schemaVersions_versioned.view_other fun w hw rw hrw => h w hw (by simp [hrw, Write.table])

/-- Every step keeps the invariant. -/
theorem Inv.step {d : Db} {ws : List Write} (h : Inv d) (hs : Step d ws) :
    Inv (store.view d ws) := by
  cases hs with
  | other hws => exact h.congr (view_schemaVersions hws)
  | publish hp => exact h.publish hp.follows hp.unpublished
  | restate hr => exact (h.restate hr).congr rfl

/-- What each call owes to the chains of versions. -/
def contract : Contract system where
  inv d _ := Inv d
  guar _ d ws _ := Step d ws

/-- Every operation keeps to the contract. -/
theorem contract_sound : contract.Sound where
  stutter _ _ := .other (by simp)
  preserves _ _ _ _ _ _ h hs := h.step hs
  program op e hgood := by
    have hquiet : ∀ op d, contract.guar op d [] none := fun _ _ => .other (by simp)
    cases op with
    | publish =>
      refine Contract.wp_bind.mpr (wp_publishAuthoritySchemaVersion (hquiet _) ?_ ?_)
      · exact fun d _ _ => .other (by simp)
      · exact fun d _ _ _ hp => .publish hp
    | setStatus =>
      refine Contract.wp_bind.mpr (wp_setAuthoritySchemaStatus (hquiet _) ?_ ?_ hgood)
      · exact fun d _ _ => .other (by simp)
      · intro d _ ws _ hsets
        cases hsets with
        | nothing => exact .other (by simp)
        | audited => exact .other (by simp [Write.table])
        | changed _ hr => exact .restate hr _
    | other writes hwrites =>
      refine wp_background (hquiet _) (fun d _ => ?_) fun d _ => ?_
      · exact .other (by simp)
      · exact .other hwrites

/-! ## What holds in every run -/

/-- The versions under every name are a chain of one owner. -/
structure Chains (d : Db) : Prop where
  numbers : ∀ kind name, (d.versionsOf kind name).map SchemaVersionRow.version =
    (List.range (d.versionsOf kind name).length).map fun i : ℕ => (i : ℤ) + 1
  one_owner : ∀ kind name, ∀ r ∈ d.versionsOf kind name, ∀ r' ∈ d.versionsOf kind name,
    r.ownerServiceId = r'.ownerServiceId
  first : ∀ r ∈ d.schemaVersions, r.version = 1 → r.predecessorId = none
  next : ∀ kind name, ∀ r ∈ d.versionsOf kind name, ∀ r' ∈ d.versionsOf kind name,
    r'.version = r.version + 1 → r'.predecessorId = some r.schemaVersionId
  /-- A predecessor's identifier names one version. -/
  nodup_id : (d.schemaVersions.map SchemaVersionRow.schemaVersionId).Nodup

/-- The invariant gives the chains of versions. -/
theorem Inv.chains {d : Db} (h : Inv d) : Chains d where
  numbers kind name := (h.orderly kind name).map_number
  one_owner := h.one_owner
  first r hr := (h.linked r.kind r.name).first r (Db.mem_versionsOf.mpr ⟨hr, rfl, rfl⟩)
  next kind name := (h.linked kind name).next
  nodup_id := h.nodup_id

/-- What the migrations leave, before and after they seed the reserved versions. -/
def Migrated (d : Db) : Prop :=
  d.schemaVersions = [] ∨ ∃ digest digest',
    d.schemaVersions = [reservedArtifactSchema digest, reservedPermissionPolicySchema digest']

/-- An empty database has no versions. -/
theorem inv_nil : Inv {} where
  nodup_id := List.nodup_nil
  orderly _ _ := .nil
  linked _ _ := ⟨nofun, nofun⟩
  one_owner _ _ := nofun

/-- The reserved versions are two first versions. -/
theorem inv_migrated {d₀ : Db} (h₀ : Migrated d₀) : Inv d₀ := by
  rcases h₀ with h₀ | ⟨digest, digest', h₀⟩
  · exact inv_nil.congr h₀
  · have hfirst : Inv (Db.apply {} (.schemaVersions (.insert (reservedArtifactSchema digest)))) :=
      inv_nil.publish (.inl ⟨rfl, rfl⟩) ⟨nofun, nofun⟩
    have hsecond := hfirst.publish (.inl ⟨rfl, rfl⟩ : Db.FollowsUp _
      (reservedPermissionPolicySchema digest')) ⟨fun r hr => ?_, fun r hr hkind => ?_⟩
    · exact hsecond.congr h₀
    · rw [List.mem_singleton.mp hr]
      exact fun h => absurd (congrArg SchemaVersionId.uuid h) (by decide : (1 : Uuid) ≠ 2)
    · rw [List.mem_singleton.mp hr] at hkind
      cases hkind

/-- A version stays, with a status of its own that is not left once it is terminal. -/
theorem later_version {d₀ : Db} (h₀ : Migrated d₀) {s s' : State Db Write Key Op Unit}
    (hs : system.Reaches d₀ s) (hl : system.Later s s') {r : SchemaVersionRow}
    (hr : r ∈ s.db.schemaVersions) : ∃ r' ∈ s'.db.schemaVersions, r'.EqButStatus r ∧
      (r.status.isTerminal = true → r' = r) := by
  refine contract_sound.later (fun _ _ _ => trivial) (inv_migrated h₀) (P := fun d =>
    ∃ r' ∈ d.schemaVersions, r'.EqButStatus r ∧ (r.status.isTerminal = true → r' = r)) ?_ hs hl
    ⟨r, hr, rfl, fun _ => rfl⟩
  rintro _ d _ ws _ hinv hstep ⟨r', hr', hsame, hterminal⟩
  cases hstep with
  | other hws => exact ⟨r', (view_schemaVersions hws).symm ▸ hr', hsame, hterminal⟩
  | publish => exact ⟨r', List.mem_append_left _ hr', hsame, hterminal⟩
  | @restate old new hres audit =>
    obtain ⟨⟨hid, -⟩, -⟩ := hres.same.columns
    by_cases heq : r'.schemaVersionId = old.schemaVersionId
    · -- The row that gets the new status is not terminal.
      obtain rfl := List.inj_on_of_nodup_map hinv.nodup_id hr' hres.mem heq
      refine ⟨new, RowWrite.new_mem_update hres.mem hid.symm, hres.same.trans hsame, fun ht => ?_⟩
      rw [hterminal ht] at hres
      exact absurd ht (by simp [hres.open_])
    · have hmem := (RowWrite.mem_update hres.mem hid.symm).mpr (.inr ⟨hr', hid ▸ heq⟩)
      exact ⟨r', hmem, hsame, hterminal⟩

/-- A version is published under that status. -/
theorem published {d₀ : Db} (h₀ : Migrated d₀) {s s' : State Db Write Key Op Unit}
    (hs : system.Reaches d₀ s) {ev : Event Op} (hstep : system.step s ev = some s')
    {r : SchemaVersionRow} (hr : r ∈ s'.db.schemaVersions)
    (hnew : ∀ r₀ ∈ s.db.schemaVersions, r₀.schemaVersionId ≠ r.schemaVersionId) :
    r.status = .published := by
  obtain ⟨_, _, ws, _, -, hguar, hdb, -⟩ :=
    contract_sound.event (fun _ _ _ => trivial) (inv_migrated h₀) hs hstep
  rw [hdb] at hr
  cases hguar with
  | other hws =>
    rw [view_schemaVersions hws] at hr
    exact absurd rfl (hnew r hr)
  | publish hp =>
    rcases List.mem_append.mp hr with hr | hr
    · exact absurd rfl (hnew r hr)
    · rw [List.mem_singleton.mp hr]
      exact hp.status
  | @restate old new hres audit =>
    obtain ⟨⟨hid, -⟩, -⟩ := hres.same.columns
    rcases (RowWrite.mem_update hres.mem hid.symm).mp hr with rfl | ⟨hr, -⟩
    · exact absurd hid.symm (hnew old hres.mem)
    · exact absurd rfl (hnew r hr)

/-- The schema publication chain, in every state `s` of every run from a migrated database. -/
theorem schemas_chain {d₀ : Db} (h₀ : Migrated d₀) {s : State Db Write Key Op Unit}
    (hs : system.Reaches d₀ s) :
    Chains s.db ∧
    -- A new version is published.
    (∀ ev s', system.step s ev = some s' → ∀ r ∈ s'.db.schemaVersions,
      (∀ r₀ ∈ s.db.schemaVersions, r₀.schemaVersionId ≠ r.schemaVersionId) →
      r.status = .published) ∧
    -- Only the status of a version changes, and a terminal status is never left.
    ∀ s', system.Later s s' → ∀ r ∈ s.db.schemaVersions, ∀ r' ∈ s'.db.schemaVersions,
      r'.schemaVersionId = r.schemaVersionId →
      r'.EqButStatus r ∧ (r.status.isTerminal = true → r'.status = r.status) := by
  have hholds := fun {t} => contract_sound.holds (s := t) (fun _ _ _ => trivial) (inv_migrated h₀)
  refine ⟨(hholds hs).inv.chains, fun ev s' hstep r hr hnew => published h₀ hs hstep hr hnew,
    fun s' hl r hr r' hr' hid => ?_⟩
  obtain ⟨r'', hr'', hsame, hterminal⟩ := later_version h₀ hs hl hr
  have hid' : r'.schemaVersionId = r''.schemaVersionId := hid.trans hsame.columns.1.1.symm
  obtain rfl := List.inj_on_of_nodup_map (hholds (hs.later hl)).inv.nodup_id hr' hr'' hid'
  exact ⟨hsame, fun ht => by rw [hterminal ht]⟩

/-- A database with one service and the reserved versions. -/
def oneOwner : Db where
  identityRows := [⟨⟨1⟩, .service, ['a'], .active⟩]
  schemaVersions := [reservedArtifactSchema (.fill 0), reservedPermissionPolicySchema (.fill 0)]

/-- A name with two versions, of which the first is retired. -/
theorem schemas_chain_retired : ∃ s, system.Reaches oneOwner s ∧
    (s.db.versionsOf .artifact "billing.invoice".toList).map SchemaVersionRow.status =
      [.retired, .published] ∧
    Chains s.db := by
  obtain ⟨s₁, hs₁, hidle₁, hdb₁, -⟩ := Postgres.System.exec_reaches
    (.init : system.Reaches oneOwner { db := oneOwner }) rfl
    (.publish ⟨5⟩ .artifact "billing.invoice".toList ⟨1⟩ (.fill 1) 10)
  obtain ⟨s₂, hs₂, hidle₂, hdb₂, -⟩ := Postgres.System.exec_reaches hs₁ hidle₁
    (.setStatus ⟨5⟩ .retired ['a'] ['r'] 9 20)
  obtain ⟨s₃, hs₃, -, hdb₃, -⟩ := Postgres.System.exec_reaches hs₂ hidle₂
    (.publish ⟨6⟩ .artifact "billing.invoice".toList ⟨1⟩ (.fill 2) 30)
  refine ⟨s₃, hs₃, ?_, (schemas_chain (.inr ⟨_, _, rfl⟩) hs₃).1⟩
  rw [hdb₃, hdb₂, hdb₁]
  decide

end Schemas

end InfernalLaw
