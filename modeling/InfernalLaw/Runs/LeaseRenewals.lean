import InfernalLaw.Postgres.Turns
import InfernalLaw.Runs.InstanceRegistry

/-!
# How far a renewal extends a lease

A renewal sets the end of the lease to what the clock of its kernel reads, plus the duration of that
kernel's leases. What it is compared with is the old end of the lease, and the time of registration:
a clock that reads less than that of the kernel that has granted the lease may shorten it.
-/

namespace InfernalLaw

open Postgres (Atomic Contract Entry Event RowWrite State)

namespace InstanceRegistry

/-! ## Who has granted a lease -/

/-- The policy and the clock of an operation that grants a lease to the instance. -/
def Op.grant (id : InstanceId) : Op → Option (LeasePolicy × ℤ)
  | .register policy publicKey _ now => if publicKey.instanceId = id then some (policy, now)
      else none
  | .renew policy id' _ now => if id' = id then some (policy, now) else none
  | _ => none

/-- The policy and the clock of what has granted the lease that the instance has: the last one of
its registration and its renewals that have succeeded. -/
def lastGrant (id : InstanceId) (log : List (Entry Op Result)) : Option (LeasePolicy × ℤ) :=
  (log.filterMap fun e => (e.result.bind Except.toOption).bind fun _ => e.op.grant id).getLast?

/-- A call that succeeds is the last grant, if it grants the instance a lease. -/
theorem lastGrant_snoc_ok (id : InstanceId) (log : List (Entry Op Result)) (n : ℕ) (op : Op)
    (i : RegisteredInstance) :
    lastGrant id (log ++ [⟨n, op, some (.ok i)⟩]) = (op.grant id).or (lastGrant id log) := by
  unfold lastGrant
  rw [List.filterMap_append]
  cases h : op.grant id <;> simp [Except.toOption, h]

/-- A call that fails grants nothing. -/
theorem lastGrant_snoc_of_not (id : InstanceId) (log : List (Entry Op Result)) {e : Entry Op Result}
    (h : ¬ ∃ i, e.result = some (.ok i)) : lastGrant id (log ++ [e]) = lastGrant id log := by
  have hnone : e.result.bind Except.toOption = none := by
    rcases hr : e.result with _ | _ | i
    · rfl
    · rfl
    · exact absurd ⟨i, hr⟩ h
  unfold lastGrant
  rw [List.filterMap_append]
  simp [hnone]

/-! ## The invariant -/

/-- Every lease ends as its last grant says. -/
structure Granted (d : Db) (log : List (Entry Op Result)) : Prop where
  nodup : (d.serviceInstances.map ServiceInstanceRow.instanceId).Nodup
  lease : ∀ r ∈ d.serviceInstances, ∃ policy now, lastGrant r.instanceId log = some (policy, now) ∧
    r.leaseExpiresAt = now + policy.durationSeconds

/-- What an operation that succeeds commits, with the lease that it grants. -/
inductive Grants (crates : KeyCrates) : Op → Db → Result → List Write → Prop where
  | register {policy endpoint now d i}
      (hlease : i.leaseExpiresAt = now + policy.durationSeconds) (h : Registers d crates i) :
      Grants crates (.register policy i.publicKey endpoint now) d (some (.ok i))
        (i.registeredWrites crates)
  | renew {policy id expectedRevision now d old i}
      (h : Renews d id expectedRevision now (now + policy.durationSeconds) old i) :
      Grants crates (.renew policy id expectedRevision now) d (some (.ok i))
        (i.renewedWrites (old.renew (now + policy.durationSeconds)) now)
  | revoke {id now d old key i} (h : Revokes d id now old key i) :
      Grants crates (.revoke id now) d (some (.ok i)) (i.revokedWrites old key now)

namespace Granted

variable {d : Db} {log : List (Entry Op Result)} {crates : KeyCrates}
    {i : RegisteredInstance} {n : ℕ}

/-- Writes to other tables keep the leases. -/
theorem other (h : Granted d log) {ws : List Write} (hws : ∀ w ∈ ws, w.table ∉ tables) :
    Granted (store.view d ws) log := by
  have hrows : (store.view d ws).serviceInstances = d.serviceInstances :=
    serviceInstances_versioned.view_other fun w hw rw hrw =>
      hws w hw (by simp [hrw, Write.table, tables])
  constructor <;> rw [hrows]
  · exact h.nodup
  · exact h.lease

/-- An operation that ends without success grants nothing. -/
theorem ends (h : Granted d log) {e : Entry Op Result} (he : ¬ ∃ i, e.result = some (.ok i)) :
    Granted d (log ++ [e]) := by
  refine ⟨h.nodup, fun r hr => ?_⟩
  rw [lastGrant_snoc_of_not _ _ he]
  exact h.lease r hr

/-- A new instance has the lease that its registration grants. -/
theorem register (h : Granted d log) {policy : LeasePolicy} {endpoint : Str} {now : ℤ}
    (hlease : i.leaseExpiresAt = now + policy.durationSeconds) (hreg : Registers d crates i) :
    Granted (store.view d (i.registeredWrites crates))
      (log ++ [⟨n, .register policy i.publicKey endpoint now, some (.ok i)⟩]) := by
  have hrows : (store.view d (i.registeredWrites crates)).serviceInstances =
      d.serviceInstances ++ [i.row] := rfl
  refine ⟨?_, fun r hr => ?_⟩
  · refine RowWrite.nodup_apply (w := .insert i.row) h.nodup fun x hx r hr => ?_
    obtain rfl := RowWrite.insert.inj hx
    exact hreg.fresh_instance r hr
  · rw [lastGrant_snoc_ok]
    rw [hrows] at hr
    rcases List.mem_append.mp hr with hr | hr
    · rw [Op.grant, if_neg fun heq => hreg.fresh_instance r hr heq.symm]
      exact h.lease r hr
    · obtain rfl := List.mem_singleton.mp hr
      rw [Op.grant, if_pos (show i.publicKey.instanceId = i.row.instanceId from rfl)]
      exact ⟨policy, now, rfl, hlease⟩

/-- A renewed instance has the lease that the renewal grants. -/
theorem renew (h : Granted d log) {policy : LeasePolicy} {id : InstanceId}
    {expectedRevision now : ℤ} {old : ServiceInstanceRow}
    (hrenews : Renews d id expectedRevision now (now + policy.durationSeconds) old i) :
    Granted (store.view d (i.renewedWrites (old.renew (now + policy.durationSeconds)) now))
      (log ++ [⟨n, .renew policy id expectedRevision now, some (.ok i)⟩]) := by
  have hid : old.instanceId = id := hrenews.renewable.1
  have hrows : ∀ r, r ∈ (store.view d (i.renewedWrites (old.renew (now + policy.durationSeconds))
      now)).serviceInstances ↔ r = old.renew (now + policy.durationSeconds) ∨
        r ∈ d.serviceInstances ∧ r.instanceId ≠ old.instanceId :=
    fun r => RowWrite.mem_update hrenews.mem rfl
  refine ⟨?_, fun r hr => ?_⟩
  · exact RowWrite.nodup_apply (w := .update (old.renew (now + policy.durationSeconds)))
      h.nodup nofun
  · rw [lastGrant_snoc_ok]
    rcases (hrows r).mp hr with rfl | ⟨hr, hne⟩
    · rw [Op.grant, ServiceInstanceRow.renew_instanceId, if_pos hid.symm]
      exact ⟨policy, now, rfl, rfl⟩
    · rw [Op.grant, if_neg fun heq => hne (heq.symm.trans hid.symm)]
      exact h.lease r hr

/-- A revoked instance keeps its lease. -/
theorem revoke (h : Granted d log) {id : InstanceId} {now : ℤ} {old : ServiceInstanceRow}
    {key : ServiceInstanceKeyRow} (hrevokes : Revokes d id now old key i) :
    Granted (store.view d (i.revokedWrites old key now))
      (log ++ [⟨n, .revoke id now, some (.ok i)⟩]) := by
  have hrows : ∀ r, r ∈ (store.view d (i.revokedWrites old key now)).serviceInstances ↔
      r = old.revoke now ∨ r ∈ d.serviceInstances ∧ r.instanceId ≠ old.instanceId :=
    fun r => RowWrite.mem_update hrevokes.mem rfl
  refine ⟨?_, fun r hr => ?_⟩
  · exact RowWrite.nodup_apply (w := .update (old.revoke now)) h.nodup nofun
  · rw [lastGrant_snoc_ok]
    rcases (hrows r).mp hr with rfl | ⟨hr, -⟩
    · exact h.lease old hrevokes.mem
    · exact h.lease r hr

end Granted

/-! ## The contract -/

/-- No writes change none of the tables. -/
theorem quiet_nil : ∀ w ∈ ([] : List Write), w.table ∉ tables := by simp

/-- The operations grant leases. -/
def grants (crates : KeyCrates) : Atomic (system crates) where
  inv := Granted
  quiet ws := ∀ w ∈ ws, w.table ∉ tables
  done a := ∃ i, a = some (.ok i)
  commits := Grants crates
  quiet_nil := quiet_nil
  done_of_commits h := by cases h <;> exact ⟨_, rfl⟩
  inv_quiet h hws := h.other hws
  inv_ends _ h he := h.ends he
  inv_commits _ _ _ _ h hc := by
    cases hc with
    | register hlease hreg => exact h.register hlease hreg
    | renew hrenews => exact h.renew hrenews
    | revoke hrevokes => exact h.revoke hrevokes

/-- What `LeasePolicy` and the clock come to. -/
theorem leaseEnd_eq_ok {policy : LeasePolicy} {now leaseExpiresAt : ℤ}
    (h : InstanceRegistryService.leaseEnd policy now = .ok leaseExpiresAt) :
    leaseExpiresAt = now + policy.durationSeconds := by
  unfold InstanceRegistryService.leaseEnd at h
  split at h
  · exact (Except.ok.inj h).symm
  · cases h

/-- What `register_verified` builds. -/
theorem registered_eq {policy : LeasePolicy} {publicKey : InstancePublicKey} {endpoint : Str}
    {now : ℤ} {i : RegisteredInstance}
    (h : (do
      InstanceRegistryService.validateTimestamp now
      RegisteredInstance.create publicKey endpoint now
        (← InstanceRegistryService.leaseEnd policy now)) = .ok i) :
    publicKey = i.publicKey ∧ i.leaseExpiresAt = now + policy.durationSeconds := by
  obtain ⟨_, -, hrest⟩ := Postgres.bind_eq_ok.mp h
  obtain ⟨leaseExpiresAt, hend, hcreate⟩ := Postgres.bind_eq_ok.mp hrest
  obtain ⟨hkey, -, -, hlease, -⟩ := RegisteredInstance.restore_eq_ok hcreate
  exact ⟨hkey.symm, hlease.trans (leaseEnd_eq_ok hend)⟩

/-- What `renew` asks for. -/
theorem renewed_eq {policy : LeasePolicy} {id : InstanceId}
    {expectedRevision now leaseExpiresAt : ℤ} (h : (do
      InstanceRegistryService.validateTimestamp now
      if expectedRevision ≤ 0 then .error (.revisionConflict id)
      else InstanceRegistryService.leaseEnd policy now) = .ok leaseExpiresAt) :
    leaseExpiresAt = now + policy.durationSeconds := by
  obtain ⟨_, -, hrest⟩ := Postgres.bind_eq_ok.mp h
  split at hrest
  · cases hrest
  · exact leaseEnd_eq_ok hrest

/-- Every operation keeps to the contract. -/
theorem grants_sound (crates : KeyCrates) : (grants crates).contract.Sound := by
  refine Atomic.sound fun op e hgood => ?_
  have hpk : ∀ d, (grants crates).contract.Good d →
      (d.serviceInstances.map ServiceInstanceRow.instanceId).Nodup :=
    fun d ⟨_, h⟩ => h.nodup
  have herr : ∀ op d er, (grants crates).contract.Good d →
      (grants crates).contract.Final op (some (.error er)) d [] [] [] :=
    fun _ _ _ _ => Atomic.guar_of_not_done fun ⟨_, h⟩ => by cases h
  -- Each operation commits in one transaction, with the lease that it grants, or not at all.
  cases op with
  | register policy publicKey endpoint now =>
    refine Contract.wp_bind.mpr (Contract.wp_ensure_bind.mpr ?_)
    split
    · rename_i i hi
      obtain ⟨rfl, hlease⟩ := registered_eq hi
      refine Contract.wp_run_bind.mpr ?_
      refine PostgresInstanceRegistry.wp_insert (Atomic.guar_nil _ _)
        (Atomic.guar_nil _) (herr _) ?_
      exact fun d _ _ hreg => .inr ⟨_, rfl, .register hlease hreg⟩
    · exact herr _ _ _ hgood
  | renew policy id expectedRevision now =>
    refine Contract.wp_bind.mpr (Contract.wp_ensure_bind.mpr ?_)
    split
    · rename_i leaseExpiresAt hend
      obtain rfl := renewed_eq hend
      refine PostgresInstanceRegistry.wp_renew (Atomic.guar_nil _) hpk (herr _) ?_ hgood
      exact fun d old i _ hrenews => .inr ⟨_, rfl, .renew hrenews⟩
    · exact herr _ _ _ hgood
  | revoke id now =>
    refine Contract.wp_bind.mpr (Contract.wp_ensure_bind.mpr ?_)
    split
    · refine PostgresInstanceRegistry.wp_revoke (Atomic.guar_nil _) hpk (herr _) ?_ hgood
      exact fun d old key i _ hrevokes => .inr ⟨_, rfl, .revoke hrevokes⟩
    · exact herr _ _ _ hgood
  | other writes hwrites =>
    refine Contract.wp_bind.mpr (wp_background (Atomic.guar_nil _) (fun d _ => ?_) fun d _ => ?_)
    · exact Atomic.guar_of_not_done fun ⟨_, h⟩ => by cases h
    · refine .inl ⟨hwrites, fun a ha => ?_⟩
      obtain rfl := Option.some.inj ha
      exact fun ⟨_, h⟩ => by cases h

/-! ## What renewals do to leases -/

/-- The lease that the renewal finds does not outlast the one that it grants. -/
def Extends (d : Db) (id : InstanceId) (i : RegisteredInstance) : Prop :=
  ∃ r ∈ d.serviceInstances, r.instanceId = id ∧ r.leaseExpiresAt ≤ i.leaseExpiresAt

/-- What holds of the clock of a renewal when it is not behind: with the duration that the kernel
adds, it reads at least as much as the clock, with its duration, that has granted the lease so
far. -/
def NotBehind (log : List (Entry Op Result)) (id : InstanceId) (policy : LeasePolicy) (now : ℤ) :
    Prop :=
  ∀ policy' now', lastGrant id log = some (policy', now') →
    now' + policy'.durationSeconds ≤ now + policy.durationSeconds

/-- What a renewal that succeeds has found, and what it has granted. -/
theorem lease_of_renewal {crates : KeyCrates} {d₀ : Db} (hi₀ : d₀.serviceInstances = [])
    {s s' : State Db Write Key Op Result} (hs : (system crates).Reaches d₀ s) {ev : Event Op}
    (hstep : (system crates).step s ev = some s') {n : ℕ} {policy : LeasePolicy} {id : InstanceId}
    {expectedRevision now : ℤ} {i : RegisteredInstance}
    (hlog : s'.log = s.log ++ [⟨n, .renew policy id expectedRevision now, some (.ok i)⟩]) :
    Granted s.db s.log ∧ i.leaseExpiresAt = now + policy.durationSeconds ∧
      ∃ r ∈ s.db.serviceInstances, r.instanceId = id := by
  have h₀ : Granted d₀ [] := by
    constructor <;> simp [hi₀]
  have hS := grants_sound crates
  refine ⟨(Atomic.holds hS h₀ hs).inv, ?_⟩
  rcases Atomic.event hS h₀ hs hstep with ⟨_, -, -, hnot⟩ | ⟨_, _, _, _, -, hcommits, -, hlog'⟩
  · exact absurd ⟨i, rfl⟩ (hnot _ hlog)
  · have heq := List.append_cancel_left (hlog.symm.trans hlog')
    cases heq
    cases hcommits with
    | renew hrenews =>
      exact ⟨hrenews.reads.leaseExpiresAt, _, hrenews.mem, hrenews.renewable.1⟩

/-- A renewal that succeeds does not shorten the lease exactly when its clock is not behind the one
that has granted the lease. -/
theorem renew_extends_iff (crates : KeyCrates) {d₀ : Db} (hi₀ : d₀.serviceInstances = [])
    {s : State Db Write Key Op Result} (hs : (system crates).Reaches d₀ s) :
    ∀ ev s' n policy id expectedRevision now i, (system crates).step s ev = some s' →
      s'.log = s.log ++ [⟨n, .renew policy id expectedRevision now, some (.ok i)⟩] →
      (Extends s.db id i ↔ NotBehind s.log id policy now) := by
  intro ev s' n policy id expectedRevision now i hstep hlog
  obtain ⟨hgranted, hlease, r, hr, rfl⟩ := lease_of_renewal hi₀ hs hstep hlog
  obtain ⟨policy', now', hlast, hstored⟩ := hgranted.lease r hr
  have hbehind : NotBehind s.log r.instanceId policy now ↔
      now' + policy'.durationSeconds ≤ now + policy.durationSeconds := by
    refine ⟨fun h => h policy' now' hlast, fun h policy₂ now₂ hlast₂ => ?_⟩
    obtain ⟨rfl, rfl⟩ := Prod.mk.inj (Option.some.inj (hlast.symm.trans hlast₂))
    exact h
  rw [hbehind, ← hlease, ← hstored]
  constructor
  · rintro ⟨r', hr', hid, hle⟩
    rwa [List.inj_on_of_nodup_map hgranted.nodup hr' hr hid] at hle
  · exact fun h => ⟨r, hr, rfl, h⟩

/-! ## Two kernels -/

/-- What an operation that has ended is seen to be. -/
structure Ended where
  renewal : Option ℤ
  grant : Option (LeasePolicy × ℤ)
  answer : Option RegisteredInstance
  deriving DecidableEq

/-- What is seen of the last event of a run: the ends of the leases before it, and the operations
that it has ended. -/
def glimpse (events : List (Event Op)) (ev : Event Op) : Option (List ℤ × List Ended) :=
  ((system exampleKeyCrates).runBy (fun _ _ => True) { db := oneService } events).bind fun s =>
    ((system exampleKeyCrates).step s ev).map fun s' =>
      (s.db.serviceInstances.map ServiceInstanceRow.leaseExpiresAt,
        (s'.log.drop s.log.length).map fun e =>
          ⟨e.op.renewal ⟨2⟩, e.op.grant ⟨2⟩, e.result.bind Except.toOption⟩)

/-- What is seen when a renewal has ended. -/
theorem renewal_of_glimpse {events : List (Event Op)} {ev : Event Op} {leases : List ℤ}
    {expectedRevision now : ℤ} {policy : LeasePolicy} {i : RegisteredInstance}
    (h : glimpse events ev = some (leases, [⟨some expectedRevision, some (policy, now), some i⟩])) :
    ∃ s s' n, (system exampleKeyCrates).Reaches oneService s ∧
      (system exampleKeyCrates).step s ev = some s' ∧
      s'.log = s.log ++ [⟨n, .renew policy ⟨2⟩ expectedRevision now, some (.ok i)⟩] ∧
      s.db.serviceInstances.map ServiceInstanceRow.leaseExpiresAt = leases := by
  obtain ⟨s, hrun, hrest⟩ := Option.bind_eq_some_iff.mp h
  obtain ⟨s', hstep, hsees⟩ := Option.map_eq_some_iff.mp hrest
  obtain ⟨hleases, hdrop⟩ := Prod.mk.inj hsees
  have hs := Postgres.System.ReachesBy.runBy
    (.init : (system exampleKeyCrates).Reaches oneService { db := oneService }) hrun
  have hl : (system exampleKeyCrates).Later s s' := .single ⟨ev, hstep⟩
  obtain ⟨rest, hlog⟩ := hl.log_extends
  rw [← hlog, List.drop_left] at hdrop
  obtain ⟨⟨n, op, result⟩, rfl, he⟩ := List.map_eq_singleton_iff.mp hdrop
  obtain ⟨hrenewal, hgrant, hresult⟩ := Ended.mk.inj he
  refine ⟨s, s', n, hs, hstep, hlog.symm.trans ?_, hleases⟩
  congr 3
  · cases op with
    | renew policy' id' expectedRevision' now' =>
      simp only [Op.renewal, Op.grant, Option.ite_none_right_eq_some, Option.some.injEq,
        Prod.mk.injEq] at hrenewal hgrant
      rw [hrenewal.1, hrenewal.2, hgrant.2.1, hgrant.2.2]
    | _ => cases hrenewal
  · rcases result with _ | _ | i'
    · cases hresult
    · cases hresult
    · rw [Option.some.inj hresult]

/-- The policy of the example is within its bounds. -/
theorem examplePolicy_bounds : (1 : ℤ) ≤ 60 ∧ 60 ≤ maxLeaseSeconds := by decide

/-- The lease of the example's kernels. -/
def examplePolicy : LeasePolicy := ⟨60, examplePolicy_bounds⟩

/-- The events of an operation that is alone until its commit. -/
def alone (id : ℕ) (op : Op) : List (Event Op) :=
  [.begin op, .snapshot id, .advance id, .snapshot id, .advance id, .snapshot id, .advance id]

/-- An instance is registered and renewed, and its second renewal is about to commit at the time
`now`. -/
def exampleRenewals (now : ℤ) : List (Event Op) :=
  alone 0 (.register examplePolicy examplePublicKey "https://10.0.0.1:8443".toList 100) ++
    [.advance 0] ++ alone 1 (.renew examplePolicy ⟨2⟩ 1 150) ++ [.advance 1] ++ alone 2
    (.renew examplePolicy ⟨2⟩ 2 now)

/-- The endpoint of the example is valid. -/
theorem exampleRenewed_endpoint : isValidEndpoint "https://10.0.0.1:8443".toList = true := by decide

/-- So is the lease of the example at its renewal. -/
theorem exampleRenewed_lease {now : ℤ} (h : 40 < now) : (0 : ℤ) ≤ 100 ∧ 100 < now + 60 ∧
    (0 : ℤ) < 3 ∧ ∀ revoked ∈ (none : Option ℤ), 100 ≤ revoked :=
  ⟨by decide, by omega, by decide, fun _ h => by cases h⟩

/-- What the second renewal answers at the time `now`. -/
def exampleRenewed (now : ℤ) (h : 40 < now) : RegisteredInstance where
  publicKey := examplePublicKey
  endpoint := "https://10.0.0.1:8443".toList
  registeredAt := 100
  leaseExpiresAt := now + 60
  leaseRevision := 3
  revokedAt := none
  endpoint_valid := exampleRenewed_endpoint
  lease := exampleRenewed_lease h

/-- A second kernel, whose clock reads ten seconds more than that of the first one. -/
theorem renew_extends_iff_ahead : ∃ s s' n, (system exampleKeyCrates).Reaches oneService s ∧
    (system exampleKeyCrates).step s (.advance 2) = some s' ∧
    s'.log = s.log ++
      [⟨n, .renew examplePolicy ⟨2⟩ 2 160, some (.ok (exampleRenewed 160 (by decide)))⟩] ∧
    (Extends s.db ⟨2⟩ (exampleRenewed 160 (by decide)) ↔
      NotBehind s.log ⟨2⟩ examplePolicy 160) := by
  have hends : glimpse (exampleRenewals 160) (.advance 2) =
      some ([210], [⟨some 2, some (examplePolicy, 160),
        some (exampleRenewed 160 (by decide))⟩]) := by
    decide +kernel
  obtain ⟨s, s', n, hs, hstep, hlog, -⟩ := renewal_of_glimpse hends
  exact ⟨s, s', n, hs, hstep, hlog,
    renew_extends_iff exampleKeyCrates rfl hs _ s' n _ _ _ _ _ hstep hlog⟩

/-- A second kernel, whose clock reads forty seconds less, shortens the lease by as much. -/
theorem renewal_shortens : ¬ ∀ (crates : KeyCrates) (d₀ : Db), d₀.serviceInstances = [] →
    ∀ s, (system crates).Reaches d₀ s →
    ∀ ev s' n policy id expectedRevision now i, (system crates).step s ev = some s' →
      s'.log = s.log ++ [⟨n, .renew policy id expectedRevision now, some (.ok i)⟩] →
      Extends s.db id i := by
  intro h
  have hends : glimpse (exampleRenewals 110) (.advance 2) =
      some ([210], [⟨some 2, some (examplePolicy, 110),
        some (exampleRenewed 110 (by decide))⟩]) := by
    decide +kernel
  obtain ⟨s, s', n, hs, hstep, hlog, hleases⟩ := renewal_of_glimpse hends
  obtain ⟨r, hr, -, hle⟩ := h exampleKeyCrates oneService rfl s hs _ s' n _ _ _ _ _ hstep hlog
  have hmem := List.mem_map_of_mem (f := ServiceInstanceRow.leaseExpiresAt) hr
  rw [hleases, List.mem_singleton] at hmem
  rw [hmem] at hle
  exact absurd hle (by decide)

end InstanceRegistry

end InfernalLaw
