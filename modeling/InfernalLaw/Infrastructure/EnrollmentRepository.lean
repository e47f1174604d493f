import InfernalLaw.Infrastructure.InstanceRegistryRepository
import InfernalLaw.Kernel.Enrollment
import InfernalLaw.Postgres.Receipts

/-!
# The enrollment repository

`PostgresEnrollmentBindingRepository` and `EnrollmentService` as processes over the database, and
the rules of their operations. A challenge is consumed in one transaction and the instance that it
admits is registered in another, so between the two the challenge is spent and nothing is
registered.
-/

namespace InfernalLaw

open Postgres (Contract DbError RowWrite Store)
open Postgres.Proc (autocommit ensure insert orFail query update)

/-- `repository_error`. -/
def EnrollmentError.ofDatabase (e : DbError) : EnrollmentError := .repository (.database e)

/-- The row of a binding. -/
def EnrollmentBinding.row (b : EnrollmentBinding) : EnrollmentBindingRow where
  serviceId := b.serviceId
  workloadNamespace := b.workloadNamespace
  serviceAccount := b.serviceAccount
  serviceAccountUid := b.serviceAccountUid
  enabled := b.enabled

/-- What `find_workload` makes of a row. -/
def bindingFromRow (row : EnrollmentBindingRow) : Except EnrollmentError EnrollmentBinding :=
  (EnrollmentBinding.restore row.serviceId row.workloadNamespace row.serviceAccount
    row.serviceAccountUid row.enabled).mapError
      fun _ => .repository (.kernel "stored enrollment binding is invalid")

/-- The digest under which a challenge is stored. -/
def EnrollmentChallenge.digest (sha256 : List UInt8 → Bytes32) (c : EnrollmentChallenge) :
    Bytes32 :=
  sha256 c.bytes.bytes

/-- The challenge, consumed. -/
def EnrollmentChallengeRow.consume (row : EnrollmentChallengeRow) (now : ℤ) :
    EnrollmentChallengeRow :=
  { row with consumedAt := some now }

namespace PostgresEnrollmentBindingRepository

/-- What the error of the insert of a binding means. -/
def ofInsertBinding : DbError → EnrollmentError
  | .uniqueViolation _ => .repository (.kernel "enrollment binding already exists")
  | .foreignKeyViolation _ => .repository (.kernel "service identity was not found")
  | e => .ofDatabase e

/-- `insert_disabled`. -/
def insertDisabled (binding : EnrollmentBinding) : Fallible EnrollmentError Unit :=
  let row := { binding.row with enabled := false }
  orFail ofInsertBinding (autocommit (insert store "INSERT INTO service_enrollment_bindings"
    (fun _ => []) (fun d => d.checkEnrollmentBinding row) (.enrollmentBindings (.insert row))))

/-- `set_enabled`. -/
def setEnabled (serviceId : ActorId) (enabled : Bool) : Fallible EnrollmentError Unit := do
  let changed ← orFail .ofDatabase (autocommit (update
    "UPDATE service_enrollment_bindings SET enabled"
    (fun d => d.enrollmentBindings.find? fun r => r.serviceId = serviceId)
    (fun row => .enrollmentBinding row.serviceId)
    (fun d _ => d.enrollmentBindings.find? fun r => r.serviceId = serviceId)
    (fun _ old => .ok { old with enabled })
    fun new => .enrollmentBindings (.update new)))
  if changed.isNone then throw .bindingNotFound else return ()

/-- The binding of a workload. -/
def workloadRow (workload : VerifiedWorkload) (d : Db) : Option EnrollmentBindingRow :=
  d.enrollmentBindings.find? fun r => r.workloadNamespace = workload.workloadNamespace ∧
    r.serviceAccount = workload.serviceAccount ∧ r.serviceAccountUid = workload.serviceAccountUid

/-- `find_workload`. -/
def findWorkload (workload : VerifiedWorkload) :
    Fallible EnrollmentError (Option EnrollmentBinding) := do
  let row ← orFail .ofDatabase (autocommit (query
    "SELECT service_id::text, namespace, service_account" (workloadRow workload)))
  ensure (row.elim (.ok none) fun row => (bindingFromRow row).map some)

/-- `insert_challenge`. -/
def insertChallenge (row : EnrollmentChallengeRow) : Fallible EnrollmentError Unit :=
  orFail .ofDatabase (autocommit (insert store "INSERT INTO service_enrollment_challenges"
    (fun _ => []) (fun d => d.checkEnrollmentChallenge row) (.enrollmentChallenges (.insert row))))

/-- The `WHERE` clause of the `UPDATE` of `consume_challenge`. -/
def Consumable (digest : Bytes32) (serviceId : ActorId) (now : ℤ) (row : EnrollmentChallengeRow) :
    Prop :=
  row.challengeDigest = digest ∧ row.serviceId = serviceId ∧ row.consumedAt = none ∧
    now < row.expiresAt

instance (digest : Bytes32) (serviceId : ActorId) (now : ℤ) :
    DecidablePred (Consumable digest serviceId now) :=
  fun _ => inferInstanceAs (Decidable (_ ∧ _))

/-- `consume_challenge`. -/
def consumeChallenge (digest : Bytes32) (serviceId : ActorId) (now : ℤ) :
    Fallible EnrollmentError Unit := do
  let consumed ← orFail .ofDatabase (autocommit (update
    "UPDATE service_enrollment_challenges SET consumed_at"
    (fun d => d.enrollmentChallenges.find? fun r => Consumable digest serviceId now r)
    (fun row => .enrollmentChallenge row.challengeDigest)
    (fun d _ => d.enrollmentChallenges.find? fun r => Consumable digest serviceId now r)
    (fun _ old => changeEnrollmentChallenge (old.consume now))
    fun new => .enrollmentChallenges (.update new)))
  if consumed.isNone then throw .challengeRejected else return ()

end PostgresEnrollmentBindingRepository

/-- What the `TokenReview` service answers about a token, for an audience. -/
abbrev WorkloadTokenReviewer : Type := Str → Str → Except EnrollmentError VerifiedWorkload

namespace EnrollmentService

/-- What is asked of the review of a token. -/
def reviewed (reviewer : WorkloadTokenReviewer) (workloadToken claimedPodUid : Str) :
    Except EnrollmentError VerifiedWorkload := do
  let workload ← reviewer workloadToken Enrollment.audience
  if Enrollment.audience ∉ workload.audiences then .error .audienceMismatch
  else if workload.podUid ≠ claimedPodUid then .error .podMismatch
  else .ok workload

/-- Which service a workload may become: the checks of its token and of its binding that issuance
and registration share. -/
def authenticate (reviewer : WorkloadTokenReviewer) (workloadToken claimedPodUid : Str) :
    Fallible EnrollmentError EnrollmentBinding := do
  let workload ← ensure (reviewed reviewer workloadToken claimedPodUid)
  let found ← PostgresEnrollmentBindingRepository.findWorkload workload
  ensure (found.elim (.error .bindingNotFound) fun binding =>
    if binding.enabled then .ok binding else .error .bindingDisabled)

/-- When a challenge that is issued now expires. -/
def challengeEnd (now : ℤ) : Except EnrollmentError ℤ :=
  if now < 0 ∨ 2 ^ 63 ≤ now + Enrollment.challengeLifetimeSeconds then .error .invalidField
  else .ok (now + Enrollment.challengeLifetimeSeconds)

variable (crates : KeyCrates)

/-- `issue_challenge`, with the challenge that the random source gives. -/
def issueChallenge (challenge : EnrollmentChallenge) (serviceId : ActorId) (now : ℤ) :
    Fallible EnrollmentError EnrollmentChallenge := do
  let expiresAt ← ensure (challengeEnd now)
  let _ ← PostgresEnrollmentBindingRepository.insertChallenge
    ⟨challenge.digest crates.sha256, serviceId, expiresAt, none⟩
  return challenge

/-- `issue_challenge_for_workload`. -/
def issueChallengeForWorkload (reviewer : WorkloadTokenReviewer) (challenge : EnrollmentChallenge)
    (workloadToken claimedPodUid : Str) (now : ℤ) :
    Fallible EnrollmentError (ActorId × EnrollmentChallenge) := do
  let claimedPodUid ← ensure (Enrollment.validateField claimedPodUid Enrollment.maxUidLength)
  let binding ← authenticate reviewer workloadToken claimedPodUid
  let challenge ← issueChallenge crates challenge binding.serviceId now
  return (binding.serviceId, challenge)

/-- `authenticate_and_register`. -/
def authenticateAndRegister (reviewer : WorkloadTokenReviewer) (policy : LeasePolicy)
    (request : EnrollmentRequest) (now : ℤ) : Fallible EnrollmentError RegisteredInstance := do
  let _ ← ensure (if crates.verifyStrict request.publicKey.publicKey (request.message crates.sha256)
    request.signature then .ok () else .error .invalidProof)
  let binding ← authenticate reviewer request.workloadToken request.claimedPodUid
  let _ ← ensure (if binding.serviceId ≠ request.publicKey.serviceId then .error .serviceMismatch
    else .ok ())
  let _ ← PostgresEnrollmentBindingRepository.consumeChallenge
    (request.challenge.digest crates.sha256) request.publicKey.serviceId now
  ExceptT.mk ((InstanceRegistryService.registerVerified crates policy request.publicKey
    request.endpoint now).bind fun r => .done (r.mapError .registry))

end EnrollmentService

/-! ## What the operations read and commit -/

/-- Challenges come in addition, or are consumed in place. -/
theorem enrollmentChallenges_versioned : store.Versioned Db.enrollmentChallenges
    Write.enrollmentChallenges EnrollmentChallengeRow.challengeDigest where
  apply_write _ _ := rfl
  apply_other _ w hw := by cases w <;> first | rfl | exact absurd rfl (hw _)

/-- A locked challenge stays as it is. -/
theorem stable_mem_enrollmentChallenges {row : EnrollmentChallengeRow} {locks : List Key}
    (hl : .enrollmentChallenge row.challengeDigest ∈ locks) :
    store.Stable locks fun d => row ∈ d.enrollmentChallenges :=
  enrollmentChallenges_versioned.stable_mem fun rw hrw =>
    ⟨.enrollmentChallenge rw.row.challengeDigest, by simp [Write.keys], hrw ▸ hl⟩

/-- No other transaction enters a challenge whose key is held. -/
theorem stable_fresh_enrollmentChallenge {digest : Bytes32} {locks : List Key}
    (hl : .enrollmentChallenge digest ∈ locks) :
    store.Stable locks fun d => ∀ r ∈ d.enrollmentChallenges, r.challengeDigest ≠ digest :=
  enrollmentChallenges_versioned.stable_forall fun rw hrw heq =>
    hrw (.enrollmentChallenge rw.row.challengeDigest) (by simp [Write.keys]) (heq ▸ hl)

/-- A new challenge has a digest of its own. -/
theorem Db.fresh_of_checkEnrollmentChallenge {d : Db} {row : EnrollmentChallengeRow}
    (h : d.checkEnrollmentChallenge row = .ok ()) :
    ∀ r ∈ d.enrollmentChallenges, r.challengeDigest ≠ row.challengeDigest := by
  obtain ⟨_, -, hrest⟩ := Postgres.bind_eq_ok.mp h
  exact (Postgres.require_bind_eq_ok.mp hrest).1

/-- A change of a challenge writes the changed row. -/
theorem changeEnrollmentChallenge_eq_ok {new new' : EnrollmentChallengeRow}
    (h : changeEnrollmentChallenge new = .ok new') : new' = new := by
  obtain ⟨_, -, hnew⟩ := Postgres.bind_eq_ok.mp h
  exact (Except.ok.inj hnew).symm

/-- The review has answered that the token is one of the pod, for an enrollment. -/
structure Reviewed (reviewer : WorkloadTokenReviewer) (workloadToken claimedPodUid : Str)
    (workload : VerifiedWorkload) : Prop where
  answered : reviewer workloadToken Enrollment.audience = .ok workload
  audience : Enrollment.audience ∈ workload.audiences
  podUid : workload.podUid = claimedPodUid

/-- What is asked of the review of a token is what it has answered. -/
theorem EnrollmentService.reviewed_eq_ok {reviewer : WorkloadTokenReviewer}
    {workloadToken claimedPodUid : Str} {workload : VerifiedWorkload}
    (h : reviewed reviewer workloadToken claimedPodUid = .ok workload) :
    Reviewed reviewer workloadToken claimedPodUid workload := by
  obtain ⟨answer, hanswer, hrest⟩ := Postgres.bind_eq_ok.mp h
  split at hrest
  · cases hrest
  rename_i haudience
  split at hrest
  · cases hrest
  rename_i hpod
  obtain rfl := Except.ok.inj hrest
  exact ⟨hanswer, not_not.mp haudience, not_not.mp hpod⟩

/-- The workload may become the service. -/
def VerifiedWorkload.BoundIn (workload : VerifiedWorkload) (d : Db) (serviceId : ActorId) : Prop :=
  ∃ row ∈ d.enrollmentBindings, row.workloadNamespace = workload.workloadNamespace ∧
    row.serviceAccount = workload.serviceAccount ∧
    row.serviceAccountUid = workload.serviceAccountUid ∧ row.serviceId = serviceId ∧
    row.enabled = true

/-- A binding that is read has the service and the state of its row. -/
theorem bindingFromRow_eq_ok {row : EnrollmentBindingRow} {binding : EnrollmentBinding}
    (h : bindingFromRow row = .ok binding) :
    binding.serviceId = row.serviceId ∧ binding.enabled = row.enabled := by
  have hrestore := Postgres.mapError_eq_ok.mp h
  obtain ⟨_, -, h₁⟩ := Postgres.bind_eq_ok.mp hrestore
  obtain ⟨_, -, h₂⟩ := Postgres.bind_eq_ok.mp h₁
  obtain ⟨_, -, h₃⟩ := Postgres.bind_eq_ok.mp h₂
  rw [← Except.ok.inj h₃]
  exact ⟨rfl, rfl⟩

/-- The binding that a workload has found is its own. -/
theorem boundIn_of_workloadRow {workload : VerifiedWorkload} {d : Db} {row : EnrollmentBindingRow}
    {binding : EnrollmentBinding}
    (hrow : PostgresEnrollmentBindingRepository.workloadRow workload d = some row)
    (hread : bindingFromRow row = .ok binding) (henabled : binding.enabled = true) :
    workload.BoundIn d binding.serviceId := by
  have hfound := List.find?_some hrow
  rw [decide_eq_true_eq] at hfound
  obtain ⟨hservice, henabled'⟩ := bindingFromRow_eq_ok hread
  exact ⟨row, List.mem_of_find?_eq_some hrow, hfound.1, hfound.2.1, hfound.2.2, hservice.symm,
    henabled'.symm.trans henabled⟩

section Rules

variable {Op α : Type} {program : Op → Sql α} {C : Contract (kernelSystem program)} {op : Op}
  {e : Db} {u : List Write}

/-- The rule of `find_workload`. -/
theorem wp_findWorkload (hquiet : ∀ d, C.guar op d [] none) {workload : VerifiedWorkload}
    {Q : C.Post (Except EnrollmentError (Option EnrollmentBinding))}
    (herr : ∀ d er, C.Good d → Q (.error er) d [] [] [])
    (hok : ∀ d sql d₁ found, C.Good d → C.assume op sql d₁ →
      (∀ binding, found = some binding → ∃ row,
        PostgresEnrollmentBindingRepository.workloadRow workload d₁ = some row ∧
        bindingFromRow row = .ok binding) → Q (.ok found) d [] [] []) :
    C.wp op (PostgresEnrollmentBindingRepository.findWorkload workload).run Q e [] [] [] := by
  refine Contract.wp_orFail_bind.mpr (Contract.wp_autocommit.mpr ?_)
  refine Contract.wp_query (hquiet e) (fun d _ _ _ hg => herr d _ hg) ?_
  intro d₁ d₂ _ _ hassume _ _
  refine ⟨hquiet d₂, fun d _ hg => ⟨herr d _ hg, ?_⟩⟩
  rw [Store.view_nil]
  change Q ((PostgresEnrollmentBindingRepository.workloadRow workload d₁).elim (.ok none) fun row =>
    (bindingFromRow row).map some) d _ _ _
  cases hrow : PostgresEnrollmentBindingRepository.workloadRow workload d₁ with
  | none => exact hok d _ d₁ none hg hassume nofun
  | some row =>
    rw [Option.elim_some]
    cases hread : bindingFromRow row with
    | error er => exact herr d er hg
    | ok binding =>
      refine hok d _ d₁ (some binding) hg hassume fun binding' heq => ?_
      exact ⟨row, hrow, hread.trans (congrArg _ (Option.some.inj heq))⟩

/-- The rule of the authentication: the workload was bound to the service in the snapshot. -/
theorem wp_authenticate (hquiet : ∀ d, C.guar op d [] none) {reviewer : WorkloadTokenReviewer}
    {workloadToken claimedPodUid : Str} {Q : C.Post (Except EnrollmentError EnrollmentBinding)}
    (herr : ∀ d er, C.Good d → Q (.error er) d [] [] [])
    (hok : ∀ d sql d₁ workload binding, C.Good d → C.assume op sql d₁ →
      Reviewed reviewer workloadToken claimedPodUid workload →
      workload.BoundIn d₁ binding.serviceId → Q (.ok binding) d [] [] []) (hgood : C.Good e) :
    C.wp op (EnrollmentService.authenticate reviewer workloadToken claimedPodUid).run Q e
      [] [] [] := by
  refine Contract.wp_ensure_bind.mpr ?_
  split
  · rename_i workload hreviewed
    have hworkload := EnrollmentService.reviewed_eq_ok hreviewed
    refine Contract.wp_run_bind.mpr (wp_findWorkload hquiet herr ?_)
    intro d sql d₁ found hg hassume hfound
    cases found with
    | none => exact herr d _ hg
    | some binding =>
      obtain ⟨row, hrow, hread⟩ := hfound binding rfl
      change Q (if binding.enabled = true then .ok binding else .error .bindingDisabled) d _ _ _
      split
      · rename_i henabled
        exact hok d sql d₁ workload binding hg hassume hworkload
          (boundIn_of_workloadRow hrow hread henabled)
      · exact herr d _ hg
  · exact herr e _ hgood

/-- The rule of `insert_challenge`. -/
theorem wp_insertEnrollmentChallenge (hquiet : ∀ d, C.guar op d [] none)
    {row : EnrollmentChallengeRow} {Q : C.Post (Except EnrollmentError Unit)}
    (herr : ∀ d er, C.Good d → Q (.error er) d [] [] [])
    (hok : ∀ d, C.Good d → (∀ r ∈ d.enrollmentChallenges, r.challengeDigest ≠ row.challengeDigest) →
      Q (.ok ()) d [.enrollmentChallenges (.insert row)] [] []) :
    C.wp op (PostgresEnrollmentBindingRepository.insertChallenge row).run Q e [] [] [] := by
  refine Contract.wp_bind.mpr (Contract.wp_autocommit.mpr ?_)
  refine Contract.wp_insert (hquiet e) (fun d _ _ _ hg => herr d _ hg) ?_
  intro d₁ _ _ hcheck
  have hstable : store.Stable ([] ++ (Write.enrollmentChallenges (.insert row)).keys)
      fun d => ∀ r ∈ d.enrollmentChallenges, r.challengeDigest ≠ row.challengeDigest :=
    stable_fresh_enrollmentChallenge (by simp [Write.keys])
  refine ⟨hquiet d₁, fun d hr hg => ⟨herr d _ hg, ?_⟩⟩
  exact hok d hg (hr.stable hstable (Db.fresh_of_checkEnrollmentChallenge hcheck))

/-- The rule of `issue_challenge`. -/
theorem wp_issueChallenge (hquiet : ∀ d, C.guar op d [] none) {crates : KeyCrates}
    {challenge : EnrollmentChallenge} {serviceId : ActorId} {now : ℤ}
    {Q : C.Post (Except EnrollmentError EnrollmentChallenge)}
    (herr : ∀ d er, C.Good d → Q (.error er) d [] [] [])
    (hok : ∀ d, C.Good d →
      (∀ r ∈ d.enrollmentChallenges, r.challengeDigest ≠ challenge.digest crates.sha256) →
      Q (.ok challenge) d
        [.enrollmentChallenges (.insert ⟨challenge.digest crates.sha256, serviceId,
        now + Enrollment.challengeLifetimeSeconds, none⟩)] [] []) (hgood : C.Good e) :
    C.wp op (EnrollmentService.issueChallenge crates challenge serviceId now).run Q e [] [] [] := by
  refine Contract.wp_ensure_bind.mpr ?_
  split
  · rename_i expiresAt hexpires
    unfold EnrollmentService.challengeEnd at hexpires
    split at hexpires
    · cases hexpires
    obtain rfl := Except.ok.inj hexpires
    exact Contract.wp_run_bind.mpr (wp_insertEnrollmentChallenge hquiet herr hok)
  · exact herr e _ hgood

/-- The rule of `consume_challenge`. -/
theorem wp_consumeEnrollmentChallenge (hquiet : ∀ d, C.guar op d [] none) {digest : Bytes32}
    {serviceId : ActorId} {now : ℤ} {Q : C.Post (Except EnrollmentError Unit)}
    (herr : ∀ d er, C.Good d → Q (.error er) d [] [] [])
    (hok : ∀ d old, C.Good d → old ∈ d.enrollmentChallenges →
      PostgresEnrollmentBindingRepository.Consumable digest serviceId now old →
      Q (.ok ()) d [.enrollmentChallenges (.update (old.consume now))] [] []) :
    C.wp op (PostgresEnrollmentBindingRepository.consumeChallenge digest serviceId now).run Q e []
      [] [] := by
  refine Contract.wp_orFail_bind.mpr (Contract.wp_autocommit.mpr ?_)
  refine Contract.wp_update (hquiet e) (fun d _ _ _ hg => herr d _ hg) ?_ ?_
  · exact fun _ d₂ _ _ _ _ _ => ⟨hquiet d₂, fun d _ hg => ⟨herr d _ hg, herr d _ hg⟩⟩
  intro d₁ d₂ r old new _ _ _ _ _ hold hchange
  rw [Store.view_nil] at hold
  have hmem := List.mem_of_find?_eq_some hold
  have hconsumable := List.find?_some hold
  rw [decide_eq_true_eq] at hconsumable
  obtain rfl := changeEnrollmentChallenge_eq_ok hchange
  have hlocked : store.Stable ([] ++ (Write.enrollmentChallenges (.update (old.consume now))).keys)
      fun d => old ∈ d.enrollmentChallenges :=
    stable_mem_enrollmentChallenges (by simp [Write.keys, EnrollmentChallengeRow.consume])
  exact ⟨hquiet d₂, fun d hr hg =>
    ⟨herr d _ hg, hok d old hg (hr.stable hlocked hmem) hconsumable⟩⟩

end Rules

/-! ## When an answer says that something was committed -/

section Receipts

open Postgres (Proc)

variable {crates : KeyCrates} {P : Write → Prop} {reviewer : WorkloadTokenReviewer}

/-- The search for a binding writes nothing. -/
theorem pays_findWorkload {workload : VerifiedWorkload}
    {before : Except EnrollmentError (Option EnrollmentBinding) → List Write → Prop}
    {after : Except EnrollmentError (Option EnrollmentBinding) → Prop} (h : ∀ r, before r []) :
    (PostgresEnrollmentBindingRepository.findWorkload workload).run.Pays P before after [] :=
  .run_bind (.orFail (.autocommit_query (fun _ => h _) fun _ => h _))

/-- The authentication writes nothing. -/
theorem pays_authenticate {workloadToken claimedPodUid : Str}
    {before : Except EnrollmentError EnrollmentBinding → List Write → Prop}
    {after : Except EnrollmentError EnrollmentBinding → Prop} (h : ∀ r, before r []) :
    (EnrollmentService.authenticate reviewer workloadToken claimedPodUid).run.Pays P before after
      [] := by
  refine .ensure_bind (fun _ _ => h _) fun workload _ => .run_bind (pays_findWorkload fun r => ?_)
  cases r with
  | error er => exact h _
  | ok found => exact h _

/-- Before the challenge is consumed an enrollment is rejected, and afterwards it is answered by the
registry. -/
theorem pays_authenticateAndRegister (reviewer : WorkloadTokenReviewer) {policy : LeasePolicy}
    {request : EnrollmentRequest} {now : ℤ} {Q : InstanceRegistryError → Prop}
    (hP : ∀ row : EnrollmentChallengeRow, row.challengeDigest = request.challenge.digest
      crates.sha256 → P (.enrollmentChallenges (.update row)))
    (hregister : (InstanceRegistryService.registerVerified crates policy request.publicKey
      request.endpoint now).Ends fun a => ∀ er, a = .error er → Q er) :
    (EnrollmentService.authenticateAndRegister crates reviewer policy request now).run.Pays P
      (fun a _ => ∃ er, a = .error er)
      (fun a => ∀ er, a = .error er → ∃ er', er = .registry er' ∧ Q er') [] := by
  refine .ensure_bind (fun er _ => ⟨er, rfl⟩) fun _ _ => .run_bind (pays_authenticate fun r => ?_)
  cases r with
  | error er => exact ⟨er, rfl⟩
  | ok binding =>
    refine .ensure_bind (fun er _ => ⟨er, rfl⟩) fun _ _ => .run_bind (.run_bind (.orFail ?_))
    refine .autocommit (fun er => ⟨_, rfl⟩) (.update (fun _ _ => trivial) ?_ ?_)
    · exact ⟨fun ⟨_, hw, _⟩ => absurd hw List.not_mem_nil, fun _ => ⟨_, rfl⟩⟩
    · intro d r old new hold hchange
      obtain rfl := changeEnrollmentChallenge_eq_ok hchange
      have hconsumable := List.find?_some hold
      rw [decide_eq_true_eq] at hconsumable
      refine ⟨fun _ => .bind (hregister.mono ?_), fun hnot => ?_⟩
      · rintro (er | i) hr er' h
        · exact ⟨er, (Except.error.inj h).symm, hr er rfl⟩
        · cases h
      · exact absurd (hP (old.consume now) hconsumable.1)
          (hnot _ (List.mem_append_right _ (List.mem_singleton_self _)))

/-- What is issued is answered. -/
theorem pays_issueChallenge {challenge : EnrollmentChallenge} {serviceId : ActorId} {now : ℤ} :
    (EnrollmentService.issueChallenge crates challenge serviceId now).run.Pays P (fun _ _ => True)
      (fun a => ∃ c, a = .ok c) [] := by
  refine .ensure_bind (fun _ _ => trivial) fun expiresAt _ => .run_bind (.orFail ?_)
  refine .autocommit (fun _ => trivial) (.insert (fun _ _ => trivial) ?_)
  exact ⟨fun _ => ⟨challenge, rfl⟩, fun _ => trivial⟩

/-- A challenge is answered only if its row is written. -/
theorem pays_issueChallengeForWorkload {challenge : EnrollmentChallenge}
    {workloadToken claimedPodUid : Str} {now : ℤ} :
    (EnrollmentService.issueChallengeForWorkload crates reviewer challenge workloadToken
      claimedPodUid now).run.Pays P (fun _ _ => True) (fun a => ∃ c, a = .ok c) [] := by
  refine .ensure_bind (fun _ _ => trivial) fun podUid _ => .run_bind (pays_authenticate fun r => ?_)
  cases r with
  | error er => trivial
  | ok binding =>
    refine .run_bind (pays_issueChallenge.mono (fun r ws _ => ?_) fun r hr => ?_)
    · cases r <;> trivial
    · obtain ⟨c, rfl⟩ := hr
      exact ⟨_, rfl⟩

/-- A binding that is inserted is answered. -/
theorem pays_insertDisabled {binding : EnrollmentBinding} :
    (PostgresEnrollmentBindingRepository.insertDisabled binding).run.Pays P (fun _ _ => True)
      (fun a => ∃ c, a = .ok c) [] := by
  refine .orFail (.autocommit (fun _ => trivial) (.insert (fun _ _ => trivial) ?_))
  exact ⟨fun _ => ⟨(), rfl⟩, fun _ => trivial⟩

/-- A binding that is changed is answered. -/
theorem pays_setEnabled {serviceId : ActorId} {enabled : Bool} :
    (PostgresEnrollmentBindingRepository.setEnabled serviceId enabled).run.Pays P (fun _ _ => True)
      (fun a => ∃ c, a = .ok c) [] := by
  refine .run_bind (.orFail (.autocommit (fun _ => trivial) (.update (fun _ _ => trivial) ?_ ?_)))
  · exact ⟨fun ⟨_, hw, _⟩ => absurd hw List.not_mem_nil, fun _ => trivial⟩
  · exact fun d r old new _ _ => ⟨fun _ => ⟨(), rfl⟩, fun _ => trivial⟩

end Receipts

end InfernalLaw
