import InfernalLaw.Infrastructure.InstanceRegistryRepository
import InfernalLaw.Kernel.SignatureBinding
import InfernalLaw.Postgres.Atomic

/-!
# The instance registry in every run

Any number of instances are registered, renewed and revoked, concurrently with each other and with
anything that leaves their tables alone. The revision of a lease is what serialises its renewals:
the renewals that have succeeded presented the revisions `1`, `2`, and so on, one each.
-/

namespace InfernalLaw

open Postgres (Atomic Contract Entry Event RowWrite State Store)

namespace InstanceRegistry

/-! ## The operations -/

/-- The tables of the registry. -/
def tables : List TableName := [.serviceInstances, .serviceInstanceKeys, .registryAudit]

/-- What runs. The kernels that share the database may have different lease policies. -/
inductive Op where
  | register (policy : LeasePolicy) (publicKey : InstancePublicKey) (endpoint : Str) (now : ℤ)
  | renew (policy : LeasePolicy) (id : InstanceId) (expectedRevision now : ℤ)
  | revoke (id : InstanceId) (now : ℤ)
  /-- Another component's transaction. -/
  | other (writes : List Write) (h : ∀ w ∈ writes, w.table ∉ tables)

/-- What an operation answers; another component's transaction answers nothing. -/
abbrev Result : Type := Option (Except InstanceRegistryError RegisteredInstance)

/-- What the operations do. -/
def program (crates : KeyCrates) : Op → Sql Result
  | .register policy publicKey endpoint now =>
    (InstanceRegistryService.registerVerified crates policy publicKey endpoint now).bind
      fun r => .done (some r)
  | .renew policy id expectedRevision now =>
    (InstanceRegistryService.renew crates policy id expectedRevision now).bind
      fun r => .done (some r)
  | .revoke id now =>
    (InstanceRegistryService.revoke crates id now).bind fun r => .done (some r)
  | .other writes _ => (background writes).bind fun _ => .done none

/-- The sessions of the kernels that share the database. -/
abbrev system (crates : KeyCrates) : Postgres.System Db Write Key Op Result :=
  kernelSystem (program crates)

/-- What an operation that succeeds commits. -/
inductive Commits (crates : KeyCrates) : Op → Db → Result → List Write → Prop where
  | register {policy publicKey endpoint now d i} (hrevision : i.leaseRevision = 1)
      (h : Registers d crates i) :
      Commits crates (.register policy publicKey endpoint now) d (some (.ok i))
        (i.registeredWrites crates)
  | renew {policy id expectedRevision now leaseExpiresAt d old i}
      (h : Renews d id expectedRevision now leaseExpiresAt old i) :
      Commits crates (.renew policy id expectedRevision now) d (some (.ok i))
        (i.renewedWrites (old.renew leaseExpiresAt) now)
  | revoke {id now d old key i} (h : Revokes d id now old key i) :
      Commits crates (.revoke id now) d (some (.ok i)) (i.revokedWrites old key now)

/-! ## What has succeeded -/

/-- The revision that a renewal of the instance presents. -/
def Op.renewal (id : InstanceId) : Op → Option ℤ
  | .renew _ id' expectedRevision _ => if id' = id then some expectedRevision else none
  | _ => none

/-- The time of a revocation of the instance. -/
def Op.revocation (id : InstanceId) : Op → Option ℤ
  | .revoke id' now => if id' = id then some now else none
  | _ => none

/-- What `f` said of the operations that have succeeded, in the order in which they have. -/
def succeeded (f : Op → Option ℤ) (log : List (Entry Op Result)) : List ℤ :=
  log.filterMap fun e => (e.result.bind Except.toOption).bind fun _ => f e.op

/-- A call that succeeds is counted. -/
theorem succeeded_snoc_ok (f : Op → Option ℤ) (log : List (Entry Op Result)) (n : ℕ) (op : Op)
    (i : RegisteredInstance) :
    succeeded f (log ++ [⟨n, op, some (.ok i)⟩]) = succeeded f log ++ (f op).toList := by
  unfold succeeded
  rw [List.filterMap_append]
  cases h : f op <;> simp [Except.toOption, h]

/-- A call that fails is not. -/
theorem succeeded_snoc_of_not (f : Op → Option ℤ) (log : List (Entry Op Result))
    {e : Entry Op Result} (h : ¬ ∃ i, e.result = some (.ok i)) :
    succeeded f (log ++ [e]) = succeeded f log := by
  have hnone : e.result.bind Except.toOption = none := by
    rcases hr : e.result with _ | _ | i
    · rfl
    · rfl
    · exact absurd ⟨i, hr⟩ h
  unfold succeeded
  rw [List.filterMap_append]
  simp [hnone]

/-! ## The invariant -/

/-- What holds of the registry and the log between events. -/
structure Inv (d : Db) (log : List (Entry Op Result)) : Prop where
  nodup_instance : (d.serviceInstances.map ServiceInstanceRow.instanceId).Nodup
  nodup_key : (d.serviceInstanceKeys.map ServiceInstanceKeyRow.keyId).Nodup
  nodup_fingerprint : (d.serviceInstanceKeys.map ServiceInstanceKeyRow.fingerprint).Nodup
  /-- Instances and their keys come in pairs, which are revoked together. -/
  pairs : d.serviceInstanceKeys.map (fun k => (k.instanceId, k.revokedAt)) =
    d.serviceInstances.map fun r => (r.instanceId, r.revokedAt)
  renewals : ∀ r ∈ d.serviceInstances, ∃ n : ℕ, r.leaseRevision = n + 1 ∧
    succeeded (Op.renewal r.instanceId) log = (List.range n).map fun k : ℕ => (k : ℤ) + 1
  revocations : ∀ r ∈ d.serviceInstances,
    succeeded (Op.revocation r.instanceId) log = r.revokedAt.toList
  unregistered : ∀ id, (∀ r ∈ d.serviceInstances, r.instanceId ≠ id) →
    succeeded (Op.renewal id) log = [] ∧ succeeded (Op.revocation id) log = []

namespace Inv

variable {d : Db} {log : List (Entry Op Result)} {crates : KeyCrates} {i : RegisteredInstance}
  {n : ℕ}

/-- Keys belong to different instances. -/
theorem nodup_key_instance (h : Inv d log) :
    (d.serviceInstanceKeys.map ServiceInstanceKeyRow.instanceId).Nodup := by
  have hfst := congrArg (List.map Prod.fst) h.pairs
  rw [List.map_map, List.map_map] at hfst
  exact (congrArg List.Nodup hfst).mpr h.nodup_instance

/-- The key of an instance. -/
theorem key (h : Inv d log) {r : ServiceInstanceRow} (hr : r ∈ d.serviceInstances) :
    ∃ key ∈ d.serviceInstanceKeys, key.instanceId = r.instanceId ∧ key.revokedAt = r.revokedAt := by
  have hmem : (r.instanceId, r.revokedAt) ∈ d.serviceInstances.map fun r =>
      (r.instanceId, r.revokedAt) := List.mem_map_of_mem hr
  rw [← h.pairs] at hmem
  obtain ⟨key, hkey, heq⟩ := List.mem_map.mp hmem
  exact ⟨key, hkey, (Prod.mk.inj heq).1, (Prod.mk.inj heq).2⟩

/-- The invariant is about two tables and what has succeeded. -/
theorem congr (h : Inv d log) {d' : Db} {log' : List (Entry Op Result)}
    (hrows : d'.serviceInstances = d.serviceInstances)
    (hkeys : d'.serviceInstanceKeys = d.serviceInstanceKeys)
    (hlog : ∀ f, succeeded f log' = succeeded f log) : Inv d' log' := by
  constructor
  · rw [hrows]
    exact h.nodup_instance
  · rw [hkeys]
    exact h.nodup_key
  · rw [hkeys]
    exact h.nodup_fingerprint
  · rw [hrows, hkeys]
    exact h.pairs
  · simp only [hrows, hlog]
    exact h.renewals
  · simp only [hrows, hlog]
    exact h.revocations
  · simp only [hrows, hlog]
    exact h.unregistered

/-- Writes to other tables keep the invariant. -/
theorem other (h : Inv d log) {ws : List Write} (hws : ∀ w ∈ ws, w.table ∉ tables) :
    Inv (store.view d ws) log := by
  refine h.congr ?_ ?_ fun _ => rfl
  · exact serviceInstances_versioned.view_other fun w hw rw hrw =>
      hws w hw (by simp [hrw, Write.table, tables])
  · exact serviceInstanceKeys_versioned.view_other fun w hw rw hrw =>
      hws w hw (by simp [hrw, Write.table, tables])

/-- An operation that ends without success. -/
theorem ends (h : Inv d log) {e : Entry Op Result} (he : ¬ ∃ i, e.result = some (.ok i)) :
    Inv d (log ++ [e]) :=
  h.congr rfl rfl fun f => succeeded_snoc_of_not f log he

/-- A new instance, with its key. -/
theorem register (h : Inv d log) (hreg : Registers d crates i) (hrevision : i.leaseRevision = 1)
    (policy : LeasePolicy) (publicKey : InstancePublicKey) (endpoint : Str) (now : ℤ) :
    Inv (store.view d (i.registeredWrites crates))
      (log ++ [⟨n, .register policy publicKey endpoint now, some (.ok i)⟩]) := by
  -- A registration is no renewal and no revocation, so what the log counts is as before.
  have hlog : ∀ f, (f (.register policy publicKey endpoint now) : Option ℤ) = none →
      succeeded f (log ++ [⟨n, .register policy publicKey endpoint now, some (.ok i)⟩]) =
        succeeded f log := by
    intro f hf
    rw [succeeded_snoc_ok, hf, Option.toList_none, List.append_nil]
  have hrows : (store.view d (i.registeredWrites crates)).serviceInstances =
      d.serviceInstances ++ [i.row] := rfl
  have hkeys : (store.view d (i.registeredWrites crates)).serviceInstanceKeys =
      d.serviceInstanceKeys ++ [i.keyRow crates] := rfl
  obtain ⟨hrenewals, hrevocations⟩ := h.unregistered i.publicKey.instanceId hreg.fresh_instance
  constructor
  · refine RowWrite.nodup_apply (w := .insert i.row) h.nodup_instance fun x hx r hr => ?_
    obtain rfl := RowWrite.insert.inj hx
    exact hreg.fresh_instance r hr
  · refine RowWrite.nodup_apply (w := .insert (i.keyRow crates)) h.nodup_key fun x hx r hr => ?_
    obtain rfl := RowWrite.insert.inj hx
    exact hreg.fresh_key r hr
  · have happly : ((RowWrite.insert (i.keyRow crates)).apply ServiceInstanceKeyRow.fingerprint
        d.serviceInstanceKeys).map ServiceInstanceKeyRow.fingerprint |>.Nodup := by
      refine RowWrite.nodup_apply h.nodup_fingerprint fun x hx r hr => ?_
      obtain rfl := RowWrite.insert.inj hx
      exact hreg.fresh_fingerprint r hr
    exact happly
  · rw [hrows, hkeys, List.map_append, List.map_append, h.pairs]
    rfl
  · intro r hr
    rw [hlog _ rfl]
    rw [hrows] at hr
    rcases List.mem_append.mp hr with hr | hr
    · exact h.renewals r hr
    · -- The new row starts at revision 1, and its instance has no renewals yet.
      rw [List.mem_singleton.mp hr]
      refine ⟨0, ?_, hrenewals⟩
      rw [show i.row.leaseRevision = i.leaseRevision from rfl, hrevision]
      rfl
  · intro r hr
    rw [hlog _ rfl]
    rw [hrows] at hr
    rcases List.mem_append.mp hr with hr | hr
    · exact h.revocations r hr
    · rw [List.mem_singleton.mp hr]
      exact hrevocations
  · intro id hid
    rw [hlog _ rfl, hlog _ rfl]
    exact h.unregistered id fun r hr => hid r (List.mem_append_left _ hr)

/-- A lease that is renewed. -/
theorem renew (h : Inv d log) {id : InstanceId} {expectedRevision now leaseExpiresAt : ℤ}
    {old : ServiceInstanceRow} (hrenews : Renews d id expectedRevision now leaseExpiresAt old i)
    (policy : LeasePolicy) :
    Inv (store.view d (i.renewedWrites (old.renew leaseExpiresAt) now))
      (log ++ [⟨n, .renew policy id expectedRevision now, some (.ok i)⟩]) := by
  have hid : old.instanceId = id := hrenews.renewable.1
  have hrows : ∀ r, r ∈ (store.view d (i.renewedWrites (old.renew leaseExpiresAt)
      now)).serviceInstances ↔
      r = old.renew leaseExpiresAt ∨ r ∈ d.serviceInstances ∧ r.instanceId ≠ old.instanceId :=
    fun r => RowWrite.mem_update hrenews.mem rfl
  have hold : ∀ r ∈ d.serviceInstances, r.instanceId = old.instanceId → r = old := fun r hr heq =>
    List.inj_on_of_nodup_map h.nodup_instance hr hrenews.mem heq
  -- Only the renewed instance has one more success.
  have hrenewal : ∀ id', succeeded (Op.renewal id')
      (log ++ [⟨n, .renew policy id expectedRevision now, some (.ok i)⟩]) =
      succeeded (Op.renewal id') log ++ if id = id' then [expectedRevision] else [] := by
    intro id'
    rw [succeeded_snoc_ok]
    by_cases heq : id = id' <;> simp [Op.renewal, heq]
  have hrevocation : ∀ id', succeeded (Op.revocation id')
      (log ++ [⟨n, .renew policy id expectedRevision now, some (.ok i)⟩]) =
      succeeded (Op.revocation id') log := by
    intro id'
    simp [succeeded_snoc_ok, Op.revocation]
  constructor
  · exact RowWrite.nodup_apply (w := .update (old.renew leaseExpiresAt)) h.nodup_instance nofun
  · exact h.nodup_key
  · exact h.nodup_fingerprint
  · refine h.pairs.trans (RowWrite.map_update fun r hr heq => ?_).symm
    rw [hold r hr heq]
    rfl
  · intro r hr
    rw [hrenewal]
    rcases (hrows r).mp hr with rfl | ⟨hr, hne⟩
    · obtain ⟨k, hrevision, hsucceeded⟩ := h.renewals old hrenews.mem
      refine ⟨k + 1, ?_, ?_⟩
      · simp [ServiceInstanceRow.renew, hrevision]
      · rw [ServiceInstanceRow.renew_instanceId, if_pos hid.symm, hsucceeded, List.range_succ,
          List.map_append, ← hrenews.renewable.2.1, hrevision]
        rfl
    · rw [if_neg fun heq => hne (heq.symm.trans hid.symm), List.append_nil]
      exact h.renewals r hr
  · intro r hr
    rw [hrevocation]
    rcases (hrows r).mp hr with rfl | ⟨hr, -⟩
    · exact h.revocations old hrenews.mem
    · exact h.revocations r hr
  · intro id' hid'
    have hne : ∀ r ∈ d.serviceInstances, r.instanceId ≠ id' := by
      intro r hr heq
      by_cases hro : r.instanceId = old.instanceId
      · exact hid' _ ((hrows _).mpr (.inl rfl)) (hro.symm.trans heq)
      · exact hid' r ((hrows r).mpr (.inr ⟨hr, hro⟩)) heq
    rw [hrenewal, hrevocation, if_neg fun heq => hne old hrenews.mem (hid.trans heq),
      List.append_nil]
    exact h.unregistered id' hne

/-- An instance that is revoked, with its key. -/
theorem revoke (h : Inv d log) {id : InstanceId} {now : ℤ} {old : ServiceInstanceRow}
    {key : ServiceInstanceKeyRow} (hrevokes : Revokes d id now old key i) :
    Inv (store.view d (i.revokedWrites old key now))
      (log ++ [⟨n, .revoke id now, some (.ok i)⟩]) := by
  have hid : old.instanceId = id := hrevokes.revocable.1
  have hrows : ∀ r, r ∈ (store.view d (i.revokedWrites old key now)).serviceInstances ↔
      r = old.revoke now ∨ r ∈ d.serviceInstances ∧ r.instanceId ≠ old.instanceId :=
    fun r => RowWrite.mem_update hrevokes.mem rfl
  have hold : ∀ r ∈ d.serviceInstances, r.instanceId = old.instanceId → r = old := fun r hr heq =>
    List.inj_on_of_nodup_map h.nodup_instance hr hrevokes.mem heq
  have hkey : ∀ k ∈ d.serviceInstanceKeys, k.keyId = key.keyId ↔ k.instanceId = id := by
    intro k hk
    constructor
    · intro heq
      rw [List.inj_on_of_nodup_map h.nodup_key hk hrevokes.mem_key heq]
      exact hrevokes.key_of
    · intro heq
      rw [List.inj_on_of_nodup_map h.nodup_key_instance hk hrevokes.mem_key
        (heq.trans hrevokes.key_of.symm)]
  have hrenewal : ∀ id', succeeded (Op.renewal id')
      (log ++ [⟨n, .revoke id now, some (.ok i)⟩]) = succeeded (Op.renewal id') log := by
    intro id'
    simp [succeeded_snoc_ok, Op.renewal]
  have hrevocation : ∀ id', succeeded (Op.revocation id')
      (log ++ [⟨n, .revoke id now, some (.ok i)⟩]) =
      succeeded (Op.revocation id') log ++ if id = id' then [now] else [] := by
    intro id'
    rw [succeeded_snoc_ok]
    by_cases heq : id = id' <;> simp [Op.revocation, heq]
  constructor
  · exact RowWrite.nodup_apply (w := .update (old.revoke now)) h.nodup_instance nofun
  · exact RowWrite.nodup_apply (w := .update (key.revoke now)) h.nodup_key nofun
  · refine (congrArg List.Nodup (RowWrite.map_update fun k hk heq => ?_)).mpr h.nodup_fingerprint
    rw [List.inj_on_of_nodup_map h.nodup_key hk hrevokes.mem_key heq]
    rfl
  · -- Both tables change where the instance is the revoked one.
    let g : InstanceId × Option ℤ → InstanceId × Option ℤ :=
      fun p => if p.1 = id then (id, some now) else p
    have hkeys : (store.view d (i.revokedWrites old key now)).serviceInstanceKeys.map
        (fun k => (k.instanceId, k.revokedAt)) =
        (d.serviceInstanceKeys.map fun k => (k.instanceId, k.revokedAt)).map g := by
      refine RowWrite.map_update_eq fun k hk => ?_
      by_cases heq : k.instanceId = id
      · rw [ServiceInstanceKeyRow.revoke_keyId, if_pos ((hkey k hk).mpr heq)]
        simp [g, heq, ServiceInstanceKeyRow.revoke, hrevokes.key_of]
      · rw [ServiceInstanceKeyRow.revoke_keyId, if_neg fun h' => heq ((hkey k hk).mp h')]
        simp [g, heq]
    have hinstances : (store.view d (i.revokedWrites old key now)).serviceInstances.map
        (fun r => (r.instanceId, r.revokedAt)) =
        (d.serviceInstances.map fun r => (r.instanceId, r.revokedAt)).map g := by
      refine RowWrite.map_update_eq fun r hr => ?_
      by_cases heq : r.instanceId = old.instanceId
      · rw [ServiceInstanceRow.revoke_instanceId, if_pos heq]
        simp [g, heq, ServiceInstanceRow.revoke, hid]
      · rw [ServiceInstanceRow.revoke_instanceId, if_neg heq]
        simp [g, hid ▸ heq]
    rw [hkeys, hinstances, h.pairs]
  · intro r hr
    rw [hrenewal]
    rcases (hrows r).mp hr with rfl | ⟨hr, -⟩
    · exact h.renewals old hrevokes.mem
    · exact h.renewals r hr
  · intro r hr
    rw [hrevocation]
    rcases (hrows r).mp hr with rfl | ⟨hr, hne⟩
    · have hnone : succeeded (Op.revocation old.instanceId) log = [] := by
        rw [h.revocations old hrevokes.mem, hrevokes.revocable.2.2, Option.toList_none]
      rw [ServiceInstanceRow.revoke_instanceId, if_pos hid.symm, hnone]
      rfl
    · rw [if_neg fun heq => hne (heq.symm.trans hid.symm), List.append_nil]
      exact h.revocations r hr
  · intro id' hid'
    have hne : ∀ r ∈ d.serviceInstances, r.instanceId ≠ id' := by
      intro r hr heq
      by_cases hro : r.instanceId = old.instanceId
      · exact hid' _ ((hrows _).mpr (.inl rfl)) (hro.symm.trans heq)
      · exact hid' r ((hrows r).mpr (.inr ⟨hr, hro⟩)) heq
    rw [hrenewal, hrevocation, if_neg fun heq => hne old hrevokes.mem (hid.trans heq),
      List.append_nil]
    exact h.unregistered id' hne

end Inv

/-! ## The contract -/

/-- The operations commit once, and say so by answering an instance. -/
def atomic (crates : KeyCrates) : Atomic (system crates) where
  inv := Inv
  quiet ws := ∀ w ∈ ws, w.table ∉ tables
  done a := ∃ i, a = some (.ok i)
  commits := Commits crates
  quiet_nil := by simp
  done_of_commits h := by cases h <;> exact ⟨_, rfl⟩
  inv_quiet h hws := h.other hws
  inv_ends _ h he := h.ends he
  inv_commits _ _ _ _ h hc := by
    cases hc with
    | register hrevision hreg => exact h.register hreg hrevision _ _ _ _
    | renew hrenews => exact h.renew hrenews _
    | revoke hrevokes => exact h.revoke hrevokes

/-- What `register_verified` registers has the revision `1`. -/
theorem leaseRevision_of_register {policy : LeasePolicy} {publicKey : InstancePublicKey}
    {endpoint : Str} {now : ℤ} {i : RegisteredInstance}
    (h : (do
      InstanceRegistryService.validateTimestamp now
      RegisteredInstance.create publicKey endpoint now
        (← InstanceRegistryService.leaseEnd policy now)) = .ok i) : i.leaseRevision = 1 := by
  obtain ⟨_, -, hrest⟩ := Postgres.bind_eq_ok.mp h
  obtain ⟨leaseExpiresAt, -, hcreate⟩ := Postgres.bind_eq_ok.mp hrest
  exact (RegisteredInstance.restore_eq_ok hcreate).2.2.2.2.1

/-- Every operation keeps to the contract. -/
theorem atomic_sound (crates : KeyCrates) : (atomic crates).contract.Sound := by
  refine Atomic.sound fun op e hgood => ?_
  have hpk : ∀ d, (atomic crates).contract.Good d →
      (d.serviceInstances.map ServiceInstanceRow.instanceId).Nodup :=
    fun d ⟨_, h⟩ => h.nodup_instance
  have herr : ∀ op d er, (atomic crates).contract.Good d →
      (atomic crates).contract.Final op (some (.error er)) d [] [] [] :=
    fun _ _ _ _ => Atomic.guar_of_not_done fun ⟨_, h⟩ => by cases h
  -- Each operation commits in one transaction, or not at all.
  cases op with
  | register policy publicKey endpoint now =>
    refine Contract.wp_bind.mpr (Contract.wp_ensure_bind.mpr ?_)
    split
    · rename_i i hi
      refine Contract.wp_run_bind.mpr ?_
      refine PostgresInstanceRegistry.wp_insert (Atomic.guar_nil _ _)
        (Atomic.guar_nil _) (herr _) ?_
      exact fun d _ _ hreg => .inr ⟨_, rfl, .register (leaseRevision_of_register hi) hreg⟩
    · exact herr _ _ _ hgood
  | renew policy id expectedRevision now =>
    refine Contract.wp_bind.mpr (Contract.wp_ensure_bind.mpr ?_)
    split
    · refine PostgresInstanceRegistry.wp_renew (Atomic.guar_nil _) hpk (herr _) ?_ hgood
      exact fun d old i _ hrenews => .inr ⟨_, rfl, .renew hrenews⟩
    · exact herr _ _ _ hgood
  | revoke id now =>
    refine Contract.wp_bind.mpr (Contract.wp_ensure_bind.mpr ?_)
    split
    · refine PostgresInstanceRegistry.wp_revoke (Atomic.guar_nil _) hpk (herr _) ?_ hgood
      exact fun d old key i _ hrevokes => .inr ⟨_, rfl, .revoke hrevokes⟩
    · exact herr _ _ _ hgood
  | other writes hwrites =>
    refine Contract.wp_bind.mpr (wp_background (Atomic.guar_nil _) (fun d _ => ?_) fun d _ => ?_)
    · exact Atomic.guar_of_not_done fun ⟨_, h⟩ => by cases h
    · refine .inl ⟨hwrites, fun a ha => ?_⟩
      obtain rfl := Option.some.inj ha
      exact fun ⟨_, h⟩ => by cases h

/-! ## What holds in every run -/

/-- The entry is a renewal of the instance that presented the revision, and succeeded. -/
def Renewed (e : Entry Op Result) (id : InstanceId) (expectedRevision : ℤ) : Prop :=
  ∃ policy now i, e.op = .renew policy id expectedRevision now ∧ e.result = some (.ok i)

/-- The entry is a revocation of the instance that succeeded. -/
def Revoked (e : Entry Op Result) (id : InstanceId) : Prop :=
  ∃ now i, e.op = .revoke id now ∧ e.result = some (.ok i)

/-- How the registry agrees with the operations that have succeeded. -/
structure Consistent (d : Db) (log : List (Entry Op Result)) : Prop where
  unique_instance : (d.serviceInstances.map ServiceInstanceRow.instanceId).Nodup
  unique_key : (d.serviceInstanceKeys.map ServiceInstanceKeyRow.keyId).Nodup
  unique_fingerprint : (d.serviceInstanceKeys.map ServiceInstanceKeyRow.fingerprint).Nodup
  /-- An instance has a single key, which is revoked when the instance is. -/
  single_key : ∀ r ∈ d.serviceInstances, ∃ key ∈ d.serviceInstanceKeys,
    key.instanceId = r.instanceId ∧ key.revokedAt = r.revokedAt ∧
    ∀ key' ∈ d.serviceInstanceKeys, key'.instanceId = r.instanceId → key' = key
  /-- The revision of a lease counts its renewals. -/
  revision : ∀ r ∈ d.serviceInstances,
    r.leaseRevision = 1 + (succeeded (Op.renewal r.instanceId) log).length
  renewed_once : ∀ e ∈ log, ∀ e' ∈ log, ∀ id expectedRevision,
    Renewed e id expectedRevision → Renewed e' id expectedRevision → e = e'
  revoked_once : ∀ e ∈ log, ∀ e' ∈ log, ∀ id, Revoked e id → Revoked e' id → e = e'
  /-- What is stored is the time of the revocation. -/
  revoked_at : ∀ r ∈ d.serviceInstances,
    succeeded (Op.revocation r.instanceId) log = r.revokedAt.toList

/-- Entries that have succeeded are the same when what they say cannot occur twice. -/
theorem eq_of_succeeded {f : Op → Option ℤ} {log : List (Entry Op Result)} {R : ℤ → ℤ → Prop}
    [Std.Symm R] (h : (succeeded f log).Pairwise R) {e e' : Entry Op Result} (he : e ∈ log)
    (he' : e' ∈ log) {i i' : RegisteredInstance} (hi : e.result = some (.ok i))
    (hi' : e'.result = some (.ok i')) {v v' : ℤ} (hv : f e.op = some v) (hv' : f e'.op = some v')
    (hR : ¬ R v v') : e = e' := by
  by_contra hne
  let said (e : Entry Op Result) : Option ℤ := (e.result.bind Except.toOption).bind fun _ => f e.op
  have hsymm : Std.Symm fun e e' => ∀ b, said e = some b → ∀ b', said e' = some b' → R b b' :=
    ⟨fun _ _ h b hb b' hb' => Std.Symm.symm _ _ (h b' hb' b hb)⟩
  have hpairwise : log.Pairwise fun e e' =>
      ∀ b, said e = some b → ∀ b', said e' = some b' → R b b' := List.pairwise_filterMap.mp h
  refine hR (hpairwise.forall he he' hne v ?_ v' ?_)
  · simp [said, hi, hv, Except.toOption]
  · simp [said, hi', hv', Except.toOption]

/-- The invariant gives the consistency of the registry. -/
theorem Inv.consistent {d : Db} {log : List (Entry Op Result)} (h : Inv d log) :
    Consistent d log := by
  have hrenewals : ∀ id, (succeeded (Op.renewal id) log).Nodup := by
    intro id
    by_cases hid : ∃ r ∈ d.serviceInstances, r.instanceId = id
    · obtain ⟨r, hr, rfl⟩ := hid
      obtain ⟨n, -, hsucceeded⟩ := h.renewals r hr
      rw [hsucceeded]
      exact List.nodup_range.map fun a b hab => by omega
    · rw [(h.unregistered id fun r hr heq => hid ⟨r, hr, heq⟩).1]
      exact List.nodup_nil
  refine ⟨h.nodup_instance, h.nodup_key, h.nodup_fingerprint, fun r hr => ?_, fun r hr => ?_,
    ?_, ?_, h.revocations⟩
  · obtain ⟨key, hkey, hinstance, hrevoked⟩ := h.key hr
    exact ⟨key, hkey, hinstance, hrevoked, fun key' hkey' heq =>
      List.inj_on_of_nodup_map h.nodup_key_instance hkey' hkey (heq.trans hinstance.symm)⟩
  · obtain ⟨n, hrevision, hsucceeded⟩ := h.renewals r hr
    rw [hrevision, hsucceeded, List.length_map, List.length_range]
    omega
  · rintro e he e' he' id expectedRevision ⟨policy, now, i, hop, hi⟩ ⟨policy', now', i', hop', hi'⟩
    have hsays : Op.renewal id e.op = some expectedRevision := by simp [hop, Op.renewal]
    have hsays' : Op.renewal id e'.op = some expectedRevision := by simp [hop', Op.renewal]
    exact eq_of_succeeded (hrenewals id) he he' hi hi' hsays hsays' (not_not.mpr rfl)
  · -- The times of two revocations are two entries of a list with one.
    rintro e he e' he' id ⟨now, i, hop, hi⟩ ⟨now', i', hop', hi'⟩
    have hsymm : Std.Symm fun _ _ : ℤ => False := ⟨fun _ _ h => h⟩
    have hpairwise : (succeeded (Op.revocation id) log).Pairwise fun _ _ => False := by
      by_cases hid : ∃ r ∈ d.serviceInstances, r.instanceId = id
      · obtain ⟨r, hr, rfl⟩ := hid
        rw [h.revocations r hr]
        cases r.revokedAt <;> simp
      · rw [(h.unregistered id fun r hr heq => hid ⟨r, hr, heq⟩).2]
        exact List.Pairwise.nil
    have hsays : Op.revocation id e.op = some now := by simp [hop, Op.revocation]
    have hsays' : Op.revocation id e'.op = some now' := by simp [hop', Op.revocation]
    exact eq_of_succeeded hpairwise he he' hi hi' hsays hsays' not_false

/-- What a successful operation does: it appends one row about its instance to the audit, with the
revision that the instance has from then on. -/
structure Succeeds (d d' : Db) (op : Op) (i : RegisteredInstance) : Prop where
  audit : ∃ action recordedAt, d'.registryAudit = d.registryAudit ++ [i.auditRow action recordedAt]
  revision : ∃ r ∈ d'.serviceInstances, r.instanceId = i.publicKey.instanceId ∧
    r.leaseRevision = i.leaseRevision
  /-- A renewal is of an instance that is not revoked, at the revision that it presents, within the
  lease that is stored. -/
  renewal : ∀ policy id expectedRevision now, op = .renew policy id expectedRevision now →
    ∃ r ∈ d.serviceInstances, r.instanceId = id ∧ r.leaseRevision = expectedRevision ∧
      r.revokedAt = none ∧ r.registeredAt ≤ now ∧ now < r.leaseExpiresAt

/-- A call that answers an instance has its effect. -/
theorem Commits.succeeds {crates : KeyCrates} {op : Op} {d : Db} {i : RegisteredInstance}
    {ws : List Write} (h : Commits crates op d (some (.ok i)) ws) :
    Succeeds d (store.view d ws) op i := by
  cases h with
  | register hrevision hreg =>
    refine ⟨⟨_, _, rfl⟩, ⟨i.row, ?_, rfl, rfl⟩, nofun⟩
    exact List.mem_append_right _ (List.mem_singleton_self _)
  | @renew _ _ _ _ leaseExpiresAt _ old _ hrenews =>
    obtain ⟨hid, hrevision, hlease, hregistered, hrevoked⟩ := hrenews.renewable
    refine ⟨⟨_, _, rfl⟩, ⟨old.renew leaseExpiresAt, ?_, hrenews.reads.instanceId.symm,
      hrenews.reads.leaseRevision.symm⟩, ?_⟩
    · exact RowWrite.new_mem_update hrenews.mem rfl
    · intro policy id expectedRevision now hop
      obtain ⟨-, rfl, rfl, rfl⟩ := Op.renew.inj hop
      exact ⟨old, hrenews.mem, hid, hrevision, hrevoked, hregistered, hlease⟩
  | @revoke _ now _ old key _ hrevokes =>
    refine ⟨⟨_, _, rfl⟩, ⟨old.revoke now, ?_, hrevokes.reads.instanceId.symm,
      hrevokes.reads.leaseRevision.symm⟩, nofun⟩
    exact RowWrite.new_mem_update hrevokes.mem rfl

/-- An empty registry is consistent. -/
theorem inv_init {d₀ : Db} (hi : d₀.serviceInstances = []) (hk : d₀.serviceInstanceKeys = []) :
    Inv d₀ [] := by
  constructor <;> simp [hi, hk, succeeded]

/-- The tables of the registry are the same. -/
def Unchanged (d d' : Db) : Prop :=
  d'.serviceInstances = d.serviceInstances ∧ d'.serviceInstanceKeys = d.serviceInstanceKeys ∧
    d'.registryAudit = d.registryAudit

/-- Writes to other tables leave the registry as it is. -/
theorem unchanged_of_other {d : Db} {ws : List Write} (hws : ∀ w ∈ ws, w.table ∉ tables) :
    Unchanged d (store.view d ws) := by
  refine ⟨?_, ?_, ?_⟩
  · exact serviceInstances_versioned.view_other fun w hw rw hrw =>
      hws w hw (by simp [hrw, Write.table, tables])
  · exact serviceInstanceKeys_versioned.view_other fun w hw rw hrw =>
      hws w hw (by simp [hrw, Write.table, tables])
  · exact registryAudit_appendOnly.view_other fun w hw row hrow =>
      hws w hw (by simp [hrow, Write.table, tables])

/-- The instance registry, in every state `s` of every run from empty tables. -/
theorem registry_safe (crates : KeyCrates) {d₀ : Db} (hi₀ : d₀.serviceInstances = [])
    (hk₀ : d₀.serviceInstanceKeys = []) {s : State Db Write Key Op Result}
    (hs : (system crates).Reaches d₀ s) :
    Consistent s.db s.log ∧
    -- Once it is set, the time of a revocation stays as it is.
    (∀ s', (system crates).Later s s' → ∀ r ∈ s.db.serviceInstances,
      ∀ r' ∈ s'.db.serviceInstances, r'.instanceId = r.instanceId → r.revokedAt ≠ none →
      r'.revokedAt = r.revokedAt) ∧
    -- An event leaves the registry alone, or it ends an operation that succeeds.
    (∀ ev s', (system crates).step s ev = some s' →
      (Unchanged s.db s'.db ∧ ∀ id op i, s'.log ≠ s.log ++ [⟨id, op, some (.ok i)⟩]) ∨
      ∃ id op i, s.Runs ev id op ∧ s'.log = s.log ++ [⟨id, op, some (.ok i)⟩] ∧
        Succeeds s.db s'.db op i) ∧
    -- An operation that answers an error changes nothing in any of its events.
    (∀ ev s' id op, (system crates).step s ev = some s' → s.Runs ev id op →
      ∀ s₂ op₂ error, (system crates).Later s' s₂ → ⟨id, op₂, some (.error error)⟩ ∈ s₂.log →
      Unchanged s.db s'.db) := by
  have h₀ := inv_init hi₀ hk₀
  have hS := atomic_sound crates
  have hinv := (Atomic.holds hS h₀ hs).inv
  refine ⟨hinv.consistent, ?_, ?_, ?_⟩
  · intro s' hl r hr r' hr' hid hrevoked
    -- The revocations that have succeeded then are those that have succeeded now, and more.
    obtain ⟨rest, hlog⟩ := hl.log_extends
    have hnow := hinv.revocations r hr
    have hthen := (Atomic.holds hS h₀ (hs.later hl)).inv.revocations r' hr'
    obtain ⟨t, ht⟩ := Option.ne_none_iff_exists'.mp hrevoked
    rw [ht, Option.toList_some] at hnow
    rw [hid, ← hlog, succeeded, List.filterMap_append] at hthen
    change succeeded (Op.revocation r.instanceId) s.log ++ _ = _ at hthen
    rw [hnow] at hthen
    cases ht' : r'.revokedAt with
    | none =>
      rw [ht', Option.toList_none] at hthen
      cases hthen
    | some t' =>
      rw [ht', Option.toList_some] at hthen
      rw [ht, (List.cons.inj hthen).1]
  · intro ev s' hstep
    rcases Atomic.event hS h₀ hs hstep with
      ⟨ws, hws, hdb, hnot⟩ | ⟨id, op, a, ws, hruns, hcommits, hdb, hlog⟩
    · refine .inl ⟨?_, fun id op i hlog => hnot _ hlog ⟨i, rfl⟩⟩
      rw [hdb]
      exact unchanged_of_other hws
    · obtain ⟨i, rfl⟩ := (atomic crates).done_of_commits hcommits
      refine .inr ⟨id, op, i, hruns, hlog, ?_⟩
      rw [hdb]
      exact hcommits.succeeds
  · intro ev s' id op hstep hruns s₂ op₂ error hl he
    obtain ⟨ws, hws, hdb⟩ := Atomic.quiet_of_not_done hS h₀ hs hstep hruns hl he
      fun ⟨_, h⟩ => by cases h
    rw [hdb]
    exact unchanged_of_other hws

/-- The digest of the key of one instance. -/
def exampleKeyFingerprint : Bytes32 where
  bytes :=
    [87, 150, 226, 111, 80, 44, 88, 97, 220, 73, 141, 49, 161, 155, 102, 35, 105, 73, 57, 162, 78,
      50, 71, 23, 71, 171, 138, 204, 112, 238, 186, 247]
  length_eq := rfl

/-- The crates, at that key. -/
def exampleKeyCrates : KeyCrates where
  toCrates :=
    { exampleCratesOfRequest with
      sha256 m :=
        if m = examplePublicKey.publicKey.bytes then exampleKeyFingerprint
        else exampleCratesOfRequest.sha256 m }
  verifyingKey key := decide (key = examplePublicKey.publicKey)

/-- A database with one service. -/
def oneService : Db where
  identityRows := [⟨⟨1⟩, .service, ['a'], .active⟩]

/-- An instance that is registered, renewed twice, and revoked. -/
theorem registry_safe_revoked : ∃ s, (system exampleKeyCrates).Reaches oneService s ∧
    s.db.serviceInstances.map (fun r => (r.leaseRevision, r.revokedAt)) = [(3, some 130)] ∧
    s.db.registryAudit.map RegistryAuditRow.leaseRevision = [1, 2, 3, 3] ∧
    Consistent s.db s.log := by
  let policy : LeasePolicy := ⟨60, by decide⟩
  obtain ⟨s₁, hs₁, hidle₁, hdb₁, -⟩ := Postgres.System.exec_reaches
    (.init : (system exampleKeyCrates).Reaches oneService { db := oneService }) rfl
    (.register policy examplePublicKey "https://10.0.0.1:8443".toList 100)
  obtain ⟨s₂, hs₂, hidle₂, hdb₂, -⟩ := Postgres.System.exec_reaches hs₁ hidle₁
    (.renew policy ⟨2⟩ 1 110)
  obtain ⟨s₃, hs₃, hidle₃, hdb₃, -⟩ := Postgres.System.exec_reaches hs₂ hidle₂
    (.renew policy ⟨2⟩ 2 120)
  obtain ⟨s₄, hs₄, -, hdb₄, -⟩ := Postgres.System.exec_reaches hs₃ hidle₃ (.revoke ⟨2⟩ 130)
  refine ⟨s₄, hs₄, ?_, ?_, (registry_safe exampleKeyCrates rfl rfl hs₄).1⟩ <;>
    rw [hdb₄, hdb₃, hdb₂, hdb₁] <;> decide

end InstanceRegistry

end InfernalLaw
