import Mathlib.Data.List.Dedup
import Mathlib.Data.List.Sort
import InfernalLaw.Infrastructure.InstanceRegistryRepository
import InfernalLaw.Kernel.Handshakes

/-!
# The handshake repository

`PostgresSubscribedInstanceDiscovery` and `PostgresHandshakeRepository` as processes over the
database, the reconciliation that is built from them, and what it commits.
-/

namespace InfernalLaw

open Postgres (Contract DbError RowWrite Store)
open Postgres.Proc (autocommit commitNow ensure insert orFail query transaction update)

/-- `repository_error`. -/
def HandshakeError.ofDatabase (e : DbError) : HandshakeError := .repository (.database e)

/-! ## Discovery -/

namespace PostgresSubscribedInstanceDiscovery

/-- `SELECT DISTINCT`: the instances with a subscription, joined with their keys. -/
def subscribedRows (now : ℤ) (d : Db) : List (ServiceInstanceRow × ServiceInstanceKeyRow) :=
  let rows := (d.subscriptions.filter fun s => s.disabledAt = none).flatMap fun s =>
    (d.serviceInstances.filter fun si => si.serviceId = s.serviceId ∧ si.revokedAt = none ∧
        si.registeredAt ≤ now ∧ now < si.leaseExpiresAt).flatMap fun si =>
      (d.serviceInstanceKeys.filter fun sik =>
        sik.instanceId = si.instanceId ∧ sik.revokedAt = none).map fun sik => (si, sik)
  rows.dedup.insertionSort fun r r' => r.1.instanceId.uuid.toNat ≤ r'.1.instanceId.uuid.toNat

/-- `eligible_subscribed_instances`. -/
def eligibleSubscribedInstances (crates : KeyCrates) (now : ℤ) :
    Fallible HandshakeError (List RegisteredInstance) :=
  if now < 0 then throw .invalidTimestamp
  else do
    let rows ← orFail .ofDatabase
      (autocommit (query "SELECT DISTINCT si.instance_id::text" (subscribedRows now)))
    ensure (rows.mapM fun row => (instanceFromRow crates row).mapError fun _ =>
      .invalidStoredRecord)

end PostgresSubscribedInstanceDiscovery

/-! ## The repository -/

/-- The row of a challenge. -/
def HandshakeChallengeRecord.row (r : HandshakeChallengeRecord) : HandshakeChallengeRow where
  challengeDigest := r.digest
  kernelInstanceId := r.kernelInstanceId
  targetInstanceId := r.targetInstanceId
  targetKeyId := r.targetKeyId
  issuedAt := r.issuedAt
  expiresAt := r.expiresAt
  consumedAt := none

/-- The challenge, consumed. -/
def HandshakeChallengeRow.consume (row : HandshakeChallengeRow) (verifiedAt : ℤ) :
    HandshakeChallengeRow :=
  { row with consumedAt := some verifiedAt }

/-- The row of a handshake. -/
def InstanceHandshake.row (h : InstanceHandshake) : HandshakeRow where
  challengeDigest := h.challengeDigest
  kernelInstanceId := h.kernelInstanceId
  targetInstanceId := h.targetInstanceId
  targetKeyId := h.targetKeyId
  verifiedAt := h.verifiedAt
  expiresAt := h.expiresAt

/-- `handshake_from_row`. -/
def handshakeFromRow (row : HandshakeRow) : Except HandshakeError InstanceHandshake :=
  InstanceHandshake.restore row.challengeDigest row.kernelInstanceId row.targetInstanceId
    row.targetKeyId row.verifiedAt row.expiresAt

namespace PostgresHandshakeRepository

/-- The `INSERT` of a challenge. -/
def insertChallengeRow (row : HandshakeChallengeRow) : Sql (Except DbError Unit) :=
  insert store "INSERT INTO service_instance_handshake_challenges" (fun _ => [])
    (fun d => d.checkHandshakeChallenge row) (.handshakeChallenges (.insert row))

/-- The `INSERT` of a handshake. -/
def insertHandshake (row : HandshakeRow) : Sql (Except DbError Unit) :=
  insert store "INSERT INTO service_instance_handshakes" (fun _ => [])
    (fun d => d.checkHandshake row) (.handshakes row)

/-- `append_audit`. -/
def appendAudit (digest : Bytes32) (kernelInstanceId targetInstanceId : InstanceId)
    (action : HandshakeAuditAction) (recordedAt : ℤ) : Sql (Except DbError Unit) :=
  let row : HandshakeAuditRow :=
    ⟨digest, kernelInstanceId, targetInstanceId, action, recordedAt⟩
  insert store "INSERT INTO service_instance_handshake_audit" (fun _ => []) (fun _ => row.check)
    (.handshakeAudit row)

/-- `insert_challenge`. -/
def insertChallenge (challenge : HandshakeChallengeRecord) : Sql (Except HandshakeError Unit) :=
  transaction do
    let _ ← orFail .ofDatabase (insertChallengeRow challenge.row)
    let _ ← orFail .ofDatabase (appendAudit challenge.digest challenge.kernelInstanceId
      challenge.targetInstanceId .issued challenge.issuedAt)
    orFail .ofDatabase commitNow

/-- The `WHERE` clause of the `UPDATE` of `complete`. -/
def Completes (handshake : InstanceHandshake) (row : HandshakeChallengeRow) : Prop :=
  row.challengeDigest = handshake.challengeDigest ∧
    row.kernelInstanceId = handshake.kernelInstanceId ∧
    row.targetInstanceId = handshake.targetInstanceId ∧ row.consumedAt = none ∧
    handshake.verifiedAt < row.expiresAt

instance (handshake : InstanceHandshake) : DecidablePred (Completes handshake) :=
  fun _ => inferInstanceAs (Decidable (_ ∧ _))

/-- The `UPDATE` of `complete`. -/
def consumeChallenge (handshake : InstanceHandshake) :
    Sql (Except DbError (Option HandshakeChallengeRow)) :=
  update "UPDATE service_instance_handshake_challenges SET"
    (fun d => d.handshakeChallenges.find? fun r => Completes handshake r)
    (fun row => .handshakeChallenge row.challengeDigest)
    (fun d _ => d.handshakeChallenges.find? fun r => Completes handshake r)
    (fun _ old => changeHandshakeChallenge old (old.consume handshake.verifiedAt))
    fun new => .handshakeChallenges (.update new)

/-- `complete`. -/
def complete (handshake : InstanceHandshake) : Sql (Except HandshakeError Unit) :=
  transaction do
    let consumed ← orFail .ofDatabase (consumeChallenge handshake)
    match consumed with
    | none => throw .challengeAlreadyUsed
    | some _ => do
      let _ ← orFail .ofDatabase (insertHandshake handshake.row)
      let _ ← orFail .ofDatabase (appendAudit handshake.challengeDigest handshake.kernelInstanceId
        handshake.targetInstanceId .verified handshake.verifiedAt)
      orFail .ofDatabase commitNow

/-- The freshest handshake of a kernel with a target. -/
def freshRow (kernelInstanceId targetInstanceId : InstanceId) (now : ℤ) (d : Db) :
    Option HandshakeRow :=
  ((d.handshakes.filter fun r => r.kernelInstanceId = kernelInstanceId ∧
      r.targetInstanceId = targetInstanceId ∧ r.verifiedAt ≤ now ∧ now < r.expiresAt).insertionSort
    fun r r' => r'.verifiedAt ≤ r.verifiedAt).head?

/-- `find_fresh`. -/
def findFresh (kernelInstanceId targetInstanceId : InstanceId) (now : ℤ) :
    Fallible HandshakeError (Option InstanceHandshake) :=
  if now < 0 then throw .invalidTimestamp
  else do
    let row ← orFail .ofDatabase (autocommit (query
      "SELECT challenge_digest, kernel_instance_id::text"
      (freshRow kernelInstanceId targetInstanceId now)))
    ensure (row.elim (.ok none) fun row => (handshakeFromRow row).map some)

end PostgresHandshakeRepository

/-! ## Reconciliation -/

/-- A reconciliation: the kernel's credential, the time, and what comes from outside: the random
source, for each of the instances, and the transport. -/
structure HandshakeReconciler where
  kernel : InstanceCredential
  now : ℤ
  nonce : InstanceId → Option Bytes32
  exchange : Str → SignedHandshakeChallenge → Except HandshakeError HandshakeExchange

namespace HandshakeReconciler

variable (crates : KeyCrates) (call : HandshakeReconciler)

/-- The kernel instance. -/
def kernelInstanceId : InstanceId := call.kernel.publicKey.instanceId

/-- What `reconcile_instance` makes of the exchange. -/
def accept (target : RegisteredInstance) (challenge : SignedHandshakeChallenge)
    (exchange : HandshakeExchange) : Except HandshakeError InstanceHandshake := do
  exchange.response.verify crates.toCrates challenge target.publicKey exchange.receivedAt
  let expiresAt ← (if exchange.receivedAt + Handshakes.handshakeLifetimeSeconds < 2 ^ 63 then
      .ok (min (exchange.receivedAt + Handshakes.handshakeLifetimeSeconds) target.leaseExpiresAt)
    else .error .invalidTimestamp : Except HandshakeError ℤ)
  InstanceHandshake.restore (challenge.digest crates.sha256) call.kernelInstanceId
    target.publicKey.instanceId target.publicKey.keyId exchange.receivedAt expiresAt

/-- `reconcile_instance`. -/
def reconcileInstance (target : RegisteredInstance) :
    Fallible HandshakeError HandshakeAttemptOutcome := do
  let existing ← PostgresHandshakeRepository.findFresh call.kernelInstanceId
    target.publicKey.instanceId call.now
  match existing with
  | some existing => return .alreadyFresh existing
  | none => do
    let challenge ← ensure (SignedHandshakeChallenge.issue
      (call.nonce target.publicKey.instanceId) call.kernel target call.now)
    let _ ← ExceptT.mk (PostgresHandshakeRepository.insertChallenge
      (.ofChallenge crates.sha256 challenge))
    let exchange ← ensure (call.exchange target.endpoint challenge)
    let handshake ← ensure (call.accept crates target challenge exchange)
    let _ ← ExceptT.mk (PostgresHandshakeRepository.complete handshake)
    return .verified handshake

/-- The attempt at an instance. -/
def attempt (target : RegisteredInstance) : Sql HandshakeAttempt :=
  (call.reconcileInstance crates target).run.bind fun r => .done
    { instanceId := target.publicKey.instanceId
      outcome := match r with
        | .ok outcome => outcome
        | .error error => .failed error }

/-- The loop of `reconcile`. -/
def attempts : List RegisteredInstance → Sql (List HandshakeAttempt)
  | [] => .done []
  | target :: targets =>
    (call.attempt crates target).bind fun attempt =>
      (attempts targets).bind fun rest => .done (attempt :: rest)

/-- `reconcile`. -/
def reconcile : Fallible HandshakeError (List HandshakeAttempt) :=
  if call.now < 0 then throw .invalidTimestamp
  else do
    let candidates ← PostgresSubscribedInstanceDiscovery.eligibleSubscribedInstances crates call.now
    ExceptT.mk ((call.attempts crates candidates).bind fun attempts => .done (.ok attempts))

end HandshakeReconciler

/-- `require_fresh`. -/
def requireFresh (kernelInstanceId targetInstanceId : InstanceId) (now : ℤ) :
    Fallible HandshakeError InstanceHandshake := do
  let found ← PostgresHandshakeRepository.findFresh kernelInstanceId targetInstanceId now
  ensure (found.elim (.error (.handshakeRequired targetInstanceId)) .ok)

/-! ## What the operations commit -/

/-- Challenges come in addition, or are consumed in place. -/
theorem handshakeChallenges_versioned : store.Versioned Db.handshakeChallenges
    Write.handshakeChallenges HandshakeChallengeRow.challengeDigest where
  apply_write _ _ := rfl
  apply_other _ w hw := by cases w <;> first | rfl | exact absurd rfl (hw _)

/-- Handshakes only ever come in addition. -/
theorem handshakes_appendOnly : store.AppendOnly Db.handshakes Write.handshakes where
  apply_write _ _ := rfl
  apply_other _ w hw := by cases w <;> first | rfl | exact absurd rfl (hw _)

/-- The writes of `insert_challenge`. -/
def HandshakeChallengeRecord.issuedWrites (r : HandshakeChallengeRecord) : List Write :=
  [.handshakeChallenges (.insert r.row),
    .handshakeAudit ⟨r.digest, r.kernelInstanceId, r.targetInstanceId, .issued, r.issuedAt⟩]

/-- The writes of `complete`, where `old` is the challenge. -/
def InstanceHandshake.completedWrites (h : InstanceHandshake) (old : HandshakeChallengeRow) :
    List Write :=
  [.handshakeChallenges (.update (old.consume h.verifiedAt)), .handshakes h.row,
    .handshakeAudit
      ⟨h.challengeDigest, h.kernelInstanceId, h.targetInstanceId, .verified, h.verifiedAt⟩]

/-- A locked challenge stays as it is. -/
theorem stable_mem_handshakeChallenges {row : HandshakeChallengeRow} {locks : List Key}
    (hl : .handshakeChallenge row.challengeDigest ∈ locks) :
    store.Stable locks fun d => row ∈ d.handshakeChallenges :=
  handshakeChallenges_versioned.stable_mem fun rw hrw =>
    ⟨.handshakeChallenge rw.row.challengeDigest, by simp [Write.keys], hrw ▸ hl⟩

/-- No other transaction enters a challenge whose key is held. -/
theorem stable_fresh_handshakeChallenge {digest : Bytes32} {locks : List Key}
    (hl : .handshakeChallenge digest ∈ locks) :
    store.Stable locks fun d => ∀ r ∈ d.handshakeChallenges, r.challengeDigest ≠ digest :=
  handshakeChallenges_versioned.stable_forall fun rw hrw heq =>
    hrw (.handshakeChallenge rw.row.challengeDigest) (by simp [Write.keys]) (heq ▸ hl)

/-- No other transaction enters a handshake whose key is held. -/
theorem stable_fresh_handshake {digest : Bytes32} {locks : List Key}
    (hl : .handshake digest ∈ locks) :
    store.Stable locks fun d => ∀ r ∈ d.handshakes, r.challengeDigest ≠ digest :=
  handshakes_appendOnly.stable_forall fun row hrow heq =>
    hrow (.handshake row.challengeDigest) (by simp [Write.keys]) (heq ▸ hl)

/-- A new challenge has a digest of its own. -/
theorem Db.fresh_of_checkHandshakeChallenge {d : Db} {row : HandshakeChallengeRow}
    (h : d.checkHandshakeChallenge row = .ok ()) :
    ∀ r ∈ d.handshakeChallenges, r.challengeDigest ≠ row.challengeDigest := by
  obtain ⟨_, -, hrest⟩ := Postgres.bind_eq_ok.mp h
  exact (Postgres.require_bind_eq_ok.mp hrest).1

/-- A new handshake has a challenge of its own. -/
theorem Db.fresh_of_checkHandshake {d : Db} {row : HandshakeRow}
    (h : d.checkHandshake row = .ok ()) :
    ∀ r ∈ d.handshakes, r.challengeDigest ≠ row.challengeDigest := by
  unfold checkHandshake at h
  rw [Postgres.require_bind_eq_ok, Postgres.require_bind_eq_ok, Postgres.require_bind_eq_ok] at h
  exact h.2.2.1

/-- What the trigger lets through is the consumed challenge. -/
theorem changeHandshakeChallenge_eq_ok {old new new' : HandshakeChallengeRow}
    (h : changeHandshakeChallenge old new = .ok new') : new' = new := by
  obtain ⟨-, hrest⟩ := Postgres.require_bind_eq_ok.mp h
  obtain ⟨_, -, hnew⟩ := Postgres.bind_eq_ok.mp hrest
  exact (Except.ok.inj hnew).symm

/-- A row is read as the handshake of which it is the stored form. -/
theorem handshakeFromRow_eq_ok {row : HandshakeRow} {h : InstanceHandshake}
    (hread : handshakeFromRow row = .ok h) : h.row = row := by
  obtain ⟨h₁, h₂, h₃, h₄, h₅, h₆⟩ := InstanceHandshake.restore_eq_ok hread
  rw [InstanceHandshake.row, h₁, h₂, h₃, h₄, h₅, h₆]

/-- What `find_fresh` finds. -/
structure FreshFor (kernelInstanceId targetInstanceId : InstanceId) (now : ℤ)
    (h : InstanceHandshake) : Prop where
  kernel : h.kernelInstanceId = kernelInstanceId
  target : h.targetInstanceId = targetInstanceId
  fresh : h.isFreshAt now = true

/-- A row that is read as fresh is a handshake that is. -/
theorem freshFor_of_freshRow {kernelInstanceId targetInstanceId : InstanceId} {now : ℤ} {d : Db}
    {row : HandshakeRow} {h : InstanceHandshake}
    (hrow : PostgresHandshakeRepository.freshRow kernelInstanceId targetInstanceId now d = some row)
    (hread : handshakeFromRow row = .ok h) :
    FreshFor kernelInstanceId targetInstanceId now h ∧ h.row ∈ d.handshakes := by
  have hmem := (List.perm_insertionSort _ _).mem_iff.mp (List.mem_of_mem_head? hrow)
  obtain ⟨hmem, hfound⟩ := List.mem_filter.mp hmem
  rw [decide_eq_true_eq] at hfound
  obtain ⟨hkernel, htarget, hverified, hexpires⟩ := hfound
  rw [← handshakeFromRow_eq_ok hread] at hmem hkernel htarget hverified hexpires
  refine ⟨⟨hkernel, htarget, ?_⟩, hmem⟩
  rw [InstanceHandshake.isFreshAt, Bool.and_eq_true, decide_eq_true_eq, decide_eq_true_eq]
  exact ⟨hverified, hexpires⟩

/-- The instance is registered, with that key, and eligible. -/
structure RegisteredInstance.SeenIn (i : RegisteredInstance) (d : Db) (now : ℤ)
    (row : ServiceInstanceRow) (key : ServiceInstanceKeyRow) : Prop where
  mem : row ∈ d.serviceInstances
  mem_key : key ∈ d.serviceInstanceKeys
  key_of : key.instanceId = row.instanceId
  eligible : row.revokedAt = none ∧ row.registeredAt ≤ now ∧ now < row.leaseExpiresAt ∧
    key.revokedAt = none
  reads : i.Reads row
  keyId : i.publicKey.keyId = key.keyId
  publicKey : i.publicKey.publicKey = key.publicKey

/-- What discovery reads is registered. -/
theorem seenIn_of_subscribedRows {crates : KeyCrates} {now : ℤ} {d : Db}
    {row : ServiceInstanceRow × ServiceInstanceKeyRow} {i : RegisteredInstance}
    (hrow : row ∈ PostgresSubscribedInstanceDiscovery.subscribedRows now d)
    (hread : instanceFromRow crates row = .ok i) : i.SeenIn d now row.1 row.2 := by
  have hmem := (List.perm_insertionSort _ _).mem_iff.mp hrow
  obtain ⟨s, -, hmem⟩ := List.mem_flatMap.mp (List.mem_dedup.mp hmem)
  obtain ⟨si, hsi, hmem⟩ := List.mem_flatMap.mp hmem
  obtain ⟨sik, hsik, rfl⟩ := List.mem_map.mp hmem
  obtain ⟨hsi, heligible⟩ := List.mem_filter.mp hsi
  obtain ⟨hsik, hkey⟩ := List.mem_filter.mp hsik
  rw [decide_eq_true_eq] at heligible hkey
  have hreads := reads_of_instanceFromRow hread
  obtain ⟨key, hrestore, hinstance⟩ := Postgres.bind_eq_ok.mp hread
  rw [Postgres.mapError_eq_ok] at hrestore
  obtain ⟨hpublic, -⟩ := RegisteredInstance.restore_eq_ok hinstance
  unfold InstancePublicKey.restore at hrestore
  split at hrestore
  · have heq := hpublic.trans (Except.ok.inj hrestore).symm
    exact ⟨hsi, hsik, hkey.1, ⟨heligible.2.1, heligible.2.2.1, heligible.2.2.2, hkey.2⟩, hreads,
      congrArg InstancePublicKey.keyId heq, congrArg InstancePublicKey.publicKey heq⟩
  · cases hrestore

/-- What `reconcile_instance` accepts. -/
theorem HandshakeReconciler.accept_eq_ok {crates : KeyCrates} {call : HandshakeReconciler}
    {target : RegisteredInstance} {challenge : SignedHandshakeChallenge}
    {exchange : HandshakeExchange} {h : InstanceHandshake}
    (haccept : call.accept crates target challenge exchange = .ok h) :
    exchange.response.verify crates.toCrates challenge target.publicKey exchange.receivedAt =
        .ok () ∧
      h.challengeDigest = challenge.digest crates.sha256 ∧
      h.kernelInstanceId = call.kernelInstanceId ∧
      h.targetInstanceId = target.publicKey.instanceId ∧
      h.targetKeyId = target.publicKey.keyId ∧ h.verifiedAt = exchange.receivedAt ∧
      h.expiresAt = min (exchange.receivedAt + Handshakes.handshakeLifetimeSeconds)
        target.leaseExpiresAt := by
  obtain ⟨_, hverify, hrest⟩ := Postgres.bind_eq_ok.mp haccept
  obtain ⟨expiresAt, hexpires, hrestore⟩ := Postgres.bind_eq_ok.mp hrest
  have heq : expiresAt = min (exchange.receivedAt + Handshakes.handshakeLifetimeSeconds)
      target.leaseExpiresAt := by
    split at hexpires
    · exact (Except.ok.inj hexpires).symm
    · cases hexpires
  obtain ⟨h₁, h₂, h₃, h₄, h₅, h₆⟩ := InstanceHandshake.restore_eq_ok hrestore
  exact ⟨hverify, h₁, h₂, h₃, h₄, h₅, h₆.trans heq⟩

section Rules

variable {Op α : Type} {program : Op → Sql α} {C : Contract (kernelSystem program)} {op : Op}
  {e : Db} {u : List Write}

/-- The rule of `eligible_subscribed_instances`: every instance was there in the snapshot. -/
theorem wp_eligibleSubscribedInstances (hquiet : ∀ d, C.guar op d [] none) {crates : KeyCrates}
    {now : ℤ} {Q : C.Post (Except HandshakeError (List RegisteredInstance))}
    (herr : ∀ d er, C.Good d → Q (.error er) d [] [] [])
    (hok : ∀ d sql d₁ instances, C.Good d → C.assume op sql d₁ →
      (∀ i ∈ instances, ∃ row key, i.SeenIn d₁ now row key) → Q (.ok instances) d [] [] [])
    (hgood : C.Good e) :
    C.wp op (PostgresSubscribedInstanceDiscovery.eligibleSubscribedInstances crates now).run Q e []
      [] [] := by
  unfold PostgresSubscribedInstanceDiscovery.eligibleSubscribedInstances
  split
  · exact herr e _ hgood
  refine Contract.wp_orFail_bind.mpr (Contract.wp_autocommit.mpr ?_)
  refine Contract.wp_query (hquiet e) (fun d _ _ _ hg => herr d _ hg) ?_
  intro d₁ d₂ _ _ hassume _ _
  refine ⟨hquiet d₂, fun d _ hg => ⟨herr d _ hg, ?_⟩⟩
  rw [Store.view_nil]
  cases hread : (PostgresSubscribedInstanceDiscovery.subscribedRows now d₁).mapM fun row =>
      (instanceFromRow crates row).mapError fun _ => HandshakeError.invalidStoredRecord with
  | error er =>
    change Q _ d _ _ _
    rw [hread]
    exact herr d er hg
  | ok instances =>
    change Q _ d _ _ _
    rw [hread]
    refine hok d _ d₁ instances hg hassume fun i hi => ?_
    obtain ⟨row, hrow, hi⟩ := (Postgres.mem_of_mapM_eq_ok hread).mp hi
    exact ⟨row.1, row.2, seenIn_of_subscribedRows hrow (Postgres.mapError_eq_ok.mp hi)⟩

/-- The rule of `find_fresh`. -/
theorem wp_findFresh (hg : C.guar op e u none) (hquiet : ∀ d, C.guar op d [] none)
    {kernelInstanceId targetInstanceId : InstanceId} {now : ℤ} (hnow : 0 ≤ now)
    {Q : C.Post (Except HandshakeError (Option InstanceHandshake))}
    (herr : ∀ d er, C.Good d → Q (.error er) d [] [] [])
    (hnone : ∀ d, C.Rely [] (store.view e u) d → C.Good d → Q (.ok none) d [] [] [])
    (hsome : ∀ d h, C.Good d → FreshFor kernelInstanceId targetInstanceId now h →
      h.row ∈ d.handshakes → Q (.ok (some h)) d [] [] []) :
    C.wp op (PostgresHandshakeRepository.findFresh kernelInstanceId targetInstanceId now).run Q e u
      [] [] := by
  unfold PostgresHandshakeRepository.findFresh
  rw [if_neg (not_lt.mpr hnow)]
  refine Contract.wp_orFail_bind.mpr (Contract.wp_autocommit.mpr ?_)
  refine Contract.wp_query hg (fun d _ _ _ hg => herr d _ hg) ?_
  intro d₁ d₂ hr₁ _ _ hr₂ _
  refine ⟨hquiet d₂, fun d hr hg => ⟨herr d _ hg, ?_⟩⟩
  rw [Store.view_nil]
  cases hrow : PostgresHandshakeRepository.freshRow kernelInstanceId targetInstanceId now d₁ with
  | none => exact hnone d ((hr₁.trans hr₂).trans hr) hg
  | some row =>
    cases hread : handshakeFromRow row with
    | error er =>
      change Q ((handshakeFromRow row).map some) d _ _ _
      rw [hread]
      exact herr d er hg
    | ok h =>
      change Q ((handshakeFromRow row).map some) d _ _ _
      rw [hread]
      obtain ⟨hfresh, hmem⟩ := freshFor_of_freshRow hrow hread
      have hstable : store.Stable [] fun d => h.row ∈ d.handshakes :=
        handshakes_appendOnly.stable_mem h.row
      exact hsome d h hg hfresh (hr.stable hstable (hr₂.stable hstable hmem))

/-- The rule of `insert_challenge`. -/
theorem wp_insertChallenge (hg : C.guar op e u none) (hquiet : ∀ d, C.guar op d [] none)
    {challenge : HandshakeChallengeRecord} {Q : C.Post (Except HandshakeError Unit)}
    (herr : ∀ d er, C.Good d → Q (.error er) d [] [] [])
    (hok : ∀ d, C.Good d → (∀ r ∈ d.handshakeChallenges, r.challengeDigest ≠ challenge.digest) →
      Q (.ok ()) d challenge.issuedWrites [] []) :
    C.wp op (PostgresHandshakeRepository.insertChallenge challenge) Q e u [] [] := by
  refine Contract.wp_transaction.mpr (Contract.wp_orFail_bind.mpr ?_)
  refine Contract.wp_insert hg (fun d _ _ _ hg => herr d _ hg) ?_
  intro d₁ _ _ hcheck
  have hfresh := Db.fresh_of_checkHandshakeChallenge hcheck
  have hstable : store.Stable ([] ++ (Write.handshakeChallenges (.insert challenge.row)).keys)
      fun d => ∀ r ∈ d.handshakeChallenges, r.challengeDigest ≠ challenge.digest :=
    stable_fresh_handshakeChallenge (by simp [Write.keys, HandshakeChallengeRecord.row])
  refine Contract.wp_orFail_bind.mpr ?_
  refine Contract.wp_insert (hquiet d₁) (fun d _ _ _ hg => herr d _ hg) ?_
  intro d₂ hr₂ _ _
  refine Contract.wp_bind.mpr (Contract.wp_commitNow (hquiet d₂) (fun d _ _ _ hg => herr d _ hg) ?_)
  intro d₃ hr₃ hg₃
  exact hok d₃ hg₃ (hr₃.stable (hstable.mono fun k hk => List.mem_append_left _ hk)
    (hr₂.stable hstable hfresh))

/-- The rule of `complete`. -/
theorem wp_complete (hg : C.guar op e u none) (hquiet : ∀ d, C.guar op d [] none)
    {handshake : InstanceHandshake} {Q : C.Post (Except HandshakeError Unit)}
    (herr : ∀ d er, C.Good d → Q (.error er) d [] [] [])
    (hok : ∀ d old, C.Rely [] (store.view e u) d → C.Good d → old ∈ d.handshakeChallenges →
      PostgresHandshakeRepository.Completes handshake old →
      (∀ r ∈ d.handshakes, r.challengeDigest ≠ handshake.challengeDigest) →
      Q (.ok ()) d (handshake.completedWrites old) [] []) :
    C.wp op (PostgresHandshakeRepository.complete handshake) Q e u [] [] := by
  refine Contract.wp_transaction.mpr (Contract.wp_orFail_bind.mpr ?_)
  refine Contract.wp_update hg (fun d _ _ _ hg => herr d _ hg) ?_ ?_
  · exact fun _ d _ _ _ hg _ => herr d _ hg
  intro d₁ d₂ r old new hr₁ _ hr₂ _ _ hold hchange
  rw [Store.view_nil] at hold
  have hmem := List.mem_of_find?_eq_some hold
  have hcompletes := List.find?_some hold
  rw [decide_eq_true_eq] at hcompletes
  obtain rfl := changeHandshakeChallenge_eq_ok hchange
  have hlocked : store.Stable
      ([] ++ (Write.handshakeChallenges (.update (old.consume handshake.verifiedAt))).keys)
      fun d => old ∈ d.handshakeChallenges :=
    stable_mem_handshakeChallenges (by simp [Write.keys, HandshakeChallengeRow.consume])
  refine Contract.wp_orFail_bind.mpr ?_
  refine Contract.wp_insert (hquiet d₂) (fun d _ _ _ hg => herr d _ hg) ?_
  intro d₃ hr₃ _ hcheck
  -- The first update has not touched the handshakes.
  have hfresh : ∀ r ∈ d₃.handshakes, r.challengeDigest ≠ handshake.challengeDigest :=
    Db.fresh_of_checkHandshake hcheck
  have hfreshStable : store.Stable (([] ++
      (Write.handshakeChallenges (.update (old.consume handshake.verifiedAt))).keys) ++
        (Write.handshakes handshake.row).keys)
      fun d => ∀ r ∈ d.handshakes, r.challengeDigest ≠ handshake.challengeDigest :=
    stable_fresh_handshake (by simp [Write.keys, InstanceHandshake.row])
  have hstable := (hlocked.mono fun k hk => List.mem_append_left _ hk).and hfreshStable
  refine Contract.wp_orFail_bind.mpr ?_
  refine Contract.wp_insert (hquiet d₃) (fun d _ _ _ hg => herr d _ hg) ?_
  intro d₄ hr₄ _ _
  refine Contract.wp_bind.mpr (Contract.wp_commitNow (hquiet d₄) (fun d _ _ _ hg => herr d _ hg) ?_)
  intro d₅ hr₅ hg₅
  obtain ⟨hmem₅, hfresh₅⟩ := hr₅.stable (hstable.mono fun k hk => List.mem_append_left _ hk)
    (hr₄.stable hstable ⟨hr₃.stable hlocked hmem, hfresh⟩)
  refine hok d₅ old ?_ hg₅ hmem₅ hcompletes hfresh₅
  -- With fewer keys held there is more interference.
  have hnil : ∀ {locks : List Key} {d d' : Db}, C.Rely locks d d' → C.Rely [] d d' :=
    fun h => h.mono fun _ hk => absurd hk List.not_mem_nil
  exact (((hr₁.trans hr₂).trans (hnil hr₃)).trans (hnil hr₄)).trans (hnil hr₅)

end Rules

end InfernalLaw
