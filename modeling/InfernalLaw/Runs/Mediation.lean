import InfernalLaw.Kernel.SignatureBinding
import InfernalLaw.Postgres.Tags
import InfernalLaw.Runs.Duties

/-!
# Mediation

All that a connection commits is either an enrollment's or has come through the gate. Its request
has been authenticated, the reservation of its nonce is committed first, and what comes after
belongs to the caller, whose communication was enabled when the gate looked.
-/

namespace InfernalLaw

open Postgres (Contract DbError bind_eq_ok)
open Postgres.Proc (autocommit query)

/-! ## What the gate reads -/

/-- The database has the sender of the request, with the instance and the key that it signs with,
and at the time of the request the instance may act. -/
structure Authentic (crates : KeyCrates) (d : Db) (signed : SignedServiceRequest) (now : ℤ)
    (row : ServiceInstanceRow × ServiceInstanceKeyRow) (v : VerifiedServiceRequest) : Prop where
  instance_mem : row.1 ∈ d.serviceInstances
  key_mem : row.2 ∈ d.serviceInstanceKeys
  key_instance : row.2.instanceId = row.1.instanceId
  unrevoked : row.1.revokedAt = none
  lease : row.1.registeredAt ≤ now ∧ now < row.1.leaseExpiresAt
  sender : v.serviceId = row.1.serviceId ∧ v.instanceId = row.1.instanceId ∧ v.keyId = row.2.keyId
  named : v.serviceId = signed.serviceId ∧ v.instanceId = signed.instanceId
  signature : ∃ signature, parseSignature crates.toCrates signed.signature = .ok signature ∧
    crates.verifyStrict row.2.publicKey (signed.base crates.toCrates).asBytes signature = true
  verified : ServiceRequestVerifier.verify crates.toCrates
    (fun _ _ => instanceFromRow crates row) signed now = .ok v

/-- The reservation has been made: its nonce is consumed by it, and the identifier of its request
stands for its fingerprint. -/
def Db.HoldsRequest (d : Db) (r : ReplayReservation) : Prop :=
  r.nonceRow ∈ d.serviceRequestNonces ∧ d.BoundTo r r.requestFingerprint

/-- No write takes a reservation away. -/
theorem stable_reserved {r : ReplayReservation} : store.Stable [] fun d => d.HoldsRequest r :=
  fun d w ⟨hnonce, hbound⟩ hk =>
    ⟨appendOnly_serviceRequestNonces.stable_mem r.nonceRow d w hnonce hk,
      stable_boundTo d w hbound hk⟩

/-- Writes to other tables do not make the reservation. -/
theorem Db.HoldsRequest.of_view {r : ReplayReservation} {d : Db} {ws : List Write}
    (h : (store.view d ws).HoldsRequest r) (hws : ∀ w ∈ ws, w.table = .workClaims) :
    d.HoldsRequest r := by
  have hnonces : (store.view d ws).serviceRequestNonces = d.serviceRequestNonces :=
    appendOnly_serviceRequestNonces.view_other fun w hw row heq =>
      absurd (hws w hw) (by simp [heq, Write.table])
  have hids : (store.view d ws).serviceRequestIds = d.serviceRequestIds :=
    appendOnly_serviceRequestIds.view_other fun w hw row heq =>
      absurd (hws w hw) (by simp [heq, Write.table])
  obtain ⟨hnonce, hbound⟩ := h
  unfold Db.BoundTo at hbound
  rw [hnonces] at hnonce
  rw [hids] at hbound
  exact ⟨hnonce, hbound⟩

/-- What is answered without an error is reserved. -/
theorem Commits.reserved {r : ReplayReservation} {d : Db} {disposition : ReplayDisposition}
    {ws : List Write} (h : Commits r d (.ok disposition) ws) :
    (store.view d ws).HoldsRequest r := by
  cases h with
  | fresh =>
    exact ⟨List.mem_append_right _ (List.mem_singleton_self _), r.requestIdRow,
      List.mem_append_right _ (List.mem_singleton_self _), rfl, rfl, rfl⟩
  | safeRetry _ hbound => exact ⟨List.mem_append_right _ (List.mem_singleton_self _), hbound⟩

/-- The reservation is for what has been verified. -/
theorem reservation_of_verified {v : VerifiedServiceRequest} {now : ℤ} {r : ReplayReservation}
    (h : ReplayReservation.fromVerified v now = .ok r) :
    (r.serviceId = v.serviceId ∧ r.instanceId = v.instanceId ∧ r.requestId = v.requestId) ∧
      r.keyId = v.keyId ∧ r.nonceDigest = v.nonceDigest := by
  unfold ReplayReservation.fromVerified at h
  split at h
  · cases h
  · obtain rfl := Except.ok.inj h
    exact ⟨⟨rfl, rfl, rfl⟩, rfl, rfl⟩

/-- What the key of a joined row is read as. -/
theorem key_of_instanceFromRow {crates : KeyCrates}
    {row : ServiceInstanceRow × ServiceInstanceKeyRow}
    {i : RegisteredInstance} (h : instanceFromRow crates row = .ok i) :
    i.publicKey.keyId = row.2.keyId ∧ i.publicKey.publicKey = row.2.publicKey := by
  obtain ⟨key, hkey, hrestore⟩ := bind_eq_ok.mp h
  rw [Postgres.mapError_eq_ok] at hkey
  rw [(RegisteredInstance.restore_eq_ok hrestore).1]
  unfold InstancePublicKey.restore at hkey
  split at hkey
  · obtain rfl := Except.ok.inj hkey
    exact ⟨rfl, rfl⟩
  · cases hkey

/-- What verifies with an eligible instance that the database has is authentic. -/
theorem authentic_of_verify {crates : KeyCrates} {d : Db} {signed : SignedServiceRequest} {now : ℤ}
    {row : ServiceInstanceRow × ServiceInstanceKeyRow} {registered : RegisteredInstance}
    {v : VerifiedServiceRequest}
    (hrow : PostgresInstanceRegistry.findInstanceRow signed.instanceId d = some row)
    (hread : instanceFromRow crates row = .ok registered) (hunrevoked : registered.revokedAt = none)
    (heligible : registered.isEligibleAt now = true)
    (hverify : ServiceRequestVerifier.verify crates.toCrates
      (fun _ _ => .ok registered) signed now = .ok v) : Authentic crates d signed now row v := by
  obtain ⟨instanceRow, hinstance, hjoin⟩ := Option.bind_eq_some_iff.mp hrow
  obtain ⟨keyRow, hkey, hpair⟩ := Option.bind_eq_some_iff.mp hjoin
  obtain rfl := Option.some.inj hpair
  have hreads := reads_of_instanceFromRow hread
  obtain ⟨hkeyId, hpublicKey⟩ := key_of_instanceFromRow hread
  have hkeyOf := List.find?_some hkey
  rw [decide_eq_true_eq] at hkeyOf
  simp only [RegisteredInstance.isEligibleAt, Bool.and_eq_true, decide_eq_true_eq] at heligible
  have hverified := hverify
  rw [← hread] at hverified
  -- The rest is what the verification checks.
  unfold ServiceRequestVerifier.verify at hverify
  obtain ⟨metadata, hmetadata, hverify⟩ := bind_eq_ok.mp hverify
  obtain ⟨-, -, hverify⟩ := bind_eq_ok.mp hverify
  obtain ⟨registered', hregistered, hverify⟩ := bind_eq_ok.mp hverify
  obtain rfl := Except.ok.inj hregistered
  dsimp only at hverify
  split at hverify
  · cases hverify
  rename_i hcredential
  simp only [ne_eq, not_or, not_not] at hcredential
  obtain ⟨hservice, hinstanceId, hmetadataKey⟩ := hcredential
  split at hverify
  · cases hverify
  obtain ⟨signature, hsignature, hverify⟩ := bind_eq_ok.mp hverify
  split at hverify
  · cases hverify
  rename_i hstrict
  obtain rfl := Except.ok.inj hverify
  refine
    { instance_mem := List.mem_of_find?_eq_some hinstance
      key_mem := List.mem_of_find?_eq_some hkey
      key_instance := hkeyOf
      unrevoked := hreads.revokedAt ▸ hunrevoked
      lease := ⟨hreads.registeredAt ▸ heligible.1.2, hreads.leaseExpiresAt ▸ heligible.2⟩
      sender := ⟨hservice ▸ hreads.serviceId, hinstanceId ▸ hreads.instanceId,
        hmetadataKey ▸ hkeyId⟩
      named := ⟨rfl, rfl⟩
      signature := ⟨signature, hsignature, ?_⟩
      verified := hverified }
  rw [SignedServiceRequest.base, ← (parseSignatureInput_eq_ok hmetadata).2, ← hpublicKey]
  simpa using hstrict

section Rules

variable {Op α : Type} {program : Op → Sql α} {C : Contract (kernelSystem program)}
    {op : Op} {e : Db}

/-- The rule of the verification. -/
theorem wp_verifySignature {crates : KeyCrates} {signed : SignedServiceRequest} {now : ℤ}
    {Q : C.Post (Except ServiceRequestAuthenticationError VerifiedServiceRequest)}
    (hquiet : ∀ d, C.guar op d [] none) (herr : ∀ d er, C.Good d → Q (.error er) d [] [] [])
    (hok : ∀ d sql d₁ row v, C.Good d → C.assume op sql d₁ → Authentic crates d₁ signed now row v →
      Q (.ok v) d [] [] []) (hgood : C.Good e) :
    C.wp op (verifySignature crates signed now) Q e [] [] [] := by
  unfold verifySignature
  split
  · exact herr e _ hgood
  -- An error of the registry stays one.
  have hregistry : ∀ d er, C.Good d → Q (ServiceRequestVerifier.verify crates.toCrates
      (fun _ _ => .error er) signed now) d [] [] [] := by
    intro d er hg
    cases hverify : ServiceRequestVerifier.verify crates.toCrates
      (fun _ _ => .error er) signed now with
    | error er' => exact herr d er' hg
    | ok v =>
      unfold ServiceRequestVerifier.verify at hverify
      obtain ⟨_, -, hverify⟩ := bind_eq_ok.mp hverify
      obtain ⟨_, -, hverify⟩ := bind_eq_ok.mp hverify
      obtain ⟨_, hregistered, -⟩ := bind_eq_ok.mp hverify
      cases hregistered
  refine Contract.wp_bind.mpr (Contract.wp_ensure_bind.mpr ?_)
  split
  swap
  · exact hregistry e _ hgood
  refine Contract.wp_run_bind.mpr (Contract.wp_orFail_bind.mpr (Contract.wp_autocommit.mpr ?_))
  refine Contract.wp_query (hquiet e) (fun d _ _ _ hg => hregistry d _ hg)
    fun d₁ d₂ _ _ hassume _ _ => ?_
  refine ⟨hquiet d₂, fun d _ hg => ⟨hregistry d _ hg, ?_⟩⟩
  cases hrow : PostgresInstanceRegistry.findInstanceRow signed.instanceId (store.view d₁ []) with
  | none => exact hregistry d _ hg
  | some row =>
    dsimp only [Option.elim]
    cases hread : instanceFromRow crates row with
    | error er => exact hregistry d _ hg
    | ok registered =>
      refine Contract.wp_ensure_bind.mpr ?_
      dsimp only [Except.map, Option.elim]
      by_cases hrevoked : registered.revokedAt.isSome = true
      · rw [if_pos hrevoked]
        exact hregistry d _ hg
      by_cases heligible : registered.isEligibleAt now = false
      · rw [if_neg hrevoked, if_pos heligible]
        exact hregistry d _ hg
      rw [if_neg hrevoked, if_neg heligible]
      show Q (ServiceRequestVerifier.verify crates.toCrates (fun _ _ => .ok registered) signed now)
        d _ _ _
      cases hverify : ServiceRequestVerifier.verify crates.toCrates
        (fun _ _ => .ok registered) signed now with
      | error er => exact herr d er hg
      | ok v =>
        refine hok d _ d₁ row v hg hassume (authentic_of_verify hrow hread ?_ ?_ hverify)
        · exact Option.not_isSome_iff_eq_none.mp hrevoked
        · exact Bool.eq_true_of_not_eq_false heligible

/-- The rule of the gate. -/
theorem wp_admitService {crates : KeyCrates} {signed : SignedServiceRequest} {now : ℤ}
    {Q : C.Post (Except ServiceRequestGateError AdmittedServiceRequest)}
    (hquiet : ∀ d, C.guar op d [] none)
    (herr : ∀ d ws er, C.guar op d ws none → Q (.error er) d ws [] [])
    (hreserves : ∀ d sql d₁ row v r answer ws, C.assume op sql d₁ →
      Authentic crates d₁ signed now row v → ReplayReservation.fromVerified v now = .ok r →
      Commits r d answer ws → C.guar op d ws none)
    (hok : ∀ d sql d₁ row r sql' d₂ a, C.Good d → C.assume op sql d₁ →
      Authentic crates d₁ signed now row a.verified →
      ReplayReservation.fromVerified a.verified now = .ok r → d.HoldsRequest r →
      C.assume op sql' d₂ → d₂.HoldsRequest r → d₂.Enabled a.verified.serviceId →
      Q (.ok a) d [] [] []) (hgood : C.Good e) :
    C.wp op (admitService crates signed now).run Q e [] [] [] := by
  have herr' : ∀ d er, C.Good d → Q (.error er) d [] [] [] := fun d er _ => herr d [] er (hquiet d)
  refine Contract.wp_run_bind.mpr (Contract.wp_run_adapt.mpr (wp_verifySignature hquiet
    (fun d er hg => herr' d _ hg) (fun d sql d₁ row v hg hassume hauthentic => ?_) hgood))
  refine Contract.wp_run_bind.mpr (Contract.wp_run_adapt.mpr (Contract.wp_ensure_bind.mpr ?_))
  split
  swap
  · exact herr' d _ hg
  rename_i r hr
  refine PostgresReplayProtectionRepository.wp_reserve hquiet (fun d hg => herr' d _ hg)
    (fun d _ hg _ => herr' d _ hg) fun d answer ws _ hcommits => ?_
  have hguar : C.guar op d ws none :=
    hreserves d sql d₁ row v r answer ws hassume hauthentic hr hcommits
  cases answer with
  | error er => exact herr d ws _ hguar
  | ok disposition =>
    -- From here on the request is reserved, also where the admission is read.
    have hadmission : C.wp op (AdmissionService.requireCommunication
        (fun id => ExceptT.mk (PostgresAdmissionRepository.find id)) v.serviceId).run
        (fun answer d u locks ws => u = [] ∧ locks = [] ∧ ws = [] ∧ C.Good d ∧ ∀ revision,
          answer = .ok revision →
            ∃ sql' d₂, C.assume op sql' d₂ ∧ d₂.HoldsRequest r ∧ d₂.Enabled v.serviceId)
        d ws [] [] :=
      wp_requireCommunication hguar hquiet (fun _ _ hg => ⟨rfl, rfl, rfl, hg, nofun⟩)
        fun _ sql' d₂ _ hg hrely hassume' henabled => ⟨rfl, rfl, rfl, hg, fun _ _ =>
          ⟨sql', d₂, hassume', hrely.stable stable_reserved hcommits.reserved, henabled⟩⟩
    refine Contract.wp_run_bind.mpr (Contract.wp_run_adapt.mpr (Contract.wp_mono ?_
      (Contract.wp_frame stable_reserved hcommits.reserved hadmission)))
    rintro answer d' u locks ws' ⟨⟨rfl, rfl, rfl, hg', henabled⟩, hreserved⟩
    cases answer with
    | error er => exact herr d' [] _ (hquiet d')
    | ok revision =>
      obtain ⟨sql', d₂, hassume', hreserved₂, henabled⟩ := henabled revision rfl
      exact hok d' sql d₁ row r sql' d₂ _ hg' hassume hauthentic hr hreserved hassume' hreserved₂
        henabled

end Rules

/-! ## The connections -/

namespace Kernel

open Postgres (State)
open SafeRetries (examplePublication)

/-- The paths over which workloads enroll. -/
def enrollmentPaths : List Str :=
  ["/v1/enrollments/challenges".toList, "/v1/enrollments".toList]

section Rules

variable {Op' β : Type} {program' : Op' → Sql β} {C : Contract (kernelSystem program')} {op : Op'}
  {e : Db} {crates : ServerCrates} {app : Application} {draws : ConnectionDraws}
    {Q : C.Post Response}

/-- The rule of a governed request. -/
theorem wp_behindGate {request : ParsedRequest} (hquiet : ∀ d, C.guar op d [] none)
    (hdone : ∀ b d ws, C.guar op d ws none → Q b d ws [] [])
    (hreserves : ∀ governed signed, isSupportedGovernedMethod request.method request.path = true →
      request.asGoverned = some governed →
      governed.intoSigned crates.toHttpCrates.toCrates = .ok signed →
      ∀ d sql d₁ row v r answer ws, C.assume op sql d₁ →
        Authentic crates.toMutationCrates.toKeyCrates d₁ signed draws.arrivedAt row v →
        ReplayReservation.fromVerified v draws.arrivedAt = .ok r → Commits r d answer ws →
        C.guar op d ws none)
    (hadmitted : ∀ governed signed, isSupportedGovernedMethod request.method request.path = true →
      request.asGoverned = some governed →
      governed.intoSigned crates.toHttpCrates.toCrates = .ok signed →
      ∀ d sql d₁ row v r sql' d₂, C.Good d → C.assume op sql d₁ →
        Authentic crates.toMutationCrates.toKeyCrates d₁ signed draws.arrivedAt row v →
        ReplayReservation.fromVerified v draws.arrivedAt = .ok r → d.HoldsRequest r →
        C.assume op sql' d₂ → d₂.HoldsRequest r → d₂.Enabled v.serviceId →
        C.wp op (dispatchAdmitted crates app draws request v) Q d [] [] []) (hgood : C.Good e) :
    C.wp op (dispatchBehindGate crates app draws request) Q e [] [] [] := by
  unfold dispatchBehindGate
  split
  · exact hdone _ _ _ (hquiet e)
  rename_i hsupported
  split
  · exact hdone _ _ _ (hquiet e)
  -- What is answered before the gate is asked writes nothing.
  rename_i governed hasGoverned
  unfold authenticateGovernedRequest
  split
  · exact hdone _ _ _ (hquiet e)
  rename_i signed hsigned
  have hsupported := Bool.eq_true_of_not_eq_false hsupported
  refine Contract.wp_bind.mpr (Contract.wp_bind.mpr (wp_admitService hquiet ?_ ?_ ?_ hgood))
  · exact fun d ws er hguar => hdone _ _ _ hguar
  · exact hreserves governed signed hsupported hasGoverned hsigned
  · exact fun d sql d₁ row r sql' d₂ a =>
      hadmitted governed signed hsupported hasGoverned hsigned d sql d₁ row a.verified r sql' d₂

/-- The rule of a connection: a workload enrolls, or a request is governed, or nothing is
written. -/
theorem wp_connection {stream : List UInt8} (hquiet : ∀ d, C.guar op d [] none)
    (hdone : ∀ b d, Q b d [] [] [])
    (henrolls : ∀ request p, readRequest draws.arrival stream = .ok request →
      request.path ∈ enrollmentPaths → WritesTo enrollmentTables p → C.wp op p Q e [] [] [])
    (hgoverned : ∀ request, readRequest draws.arrival stream = .ok request →
      isGovernedRoute request.path = true →
      C.wp op (dispatchBehindGate crates app draws request) Q e [] [] []) :
    C.wp op (handleConnection crates app draws stream) Q e [] [] [] := by
  unfold handleConnection
  split
  · rename_i request hread
    unfold dispatch
    split
    · rename_i hpath
      exact henrolls request _ hread (hpath ▸ List.Mem.head _)
        (Lawful.writes lawfulTo_dispatchChallenge)
    split
    · rename_i hpath
      exact henrolls request _ hread (hpath ▸ List.Mem.tail _ (List.Mem.head _))
        (Lawful.writes lawfulTo_dispatchEnrollment)
    split
    · rename_i hgovernedRoute
      exact hgoverned request hread hgovernedRoute
    split
    · refine Contract.wp_bind.mpr (Contract.wp_autocommit.mpr ?_)
      refine Contract.wp_query (hquiet e) (fun d _ _ _ _ => hdone _ _) fun _ d _ _ _ _ _ => ?_
      exact ⟨hquiet d, fun d' _ _ => ⟨hdone _ _, hdone _ _⟩⟩
    split
    · split <;> exact hdone _ _
    · exact hdone _ _
  · exact hdone _ _
  · exact hdone _ _

end Rules

section

variable (crates : ServerCrates) (Read : Db → Prop) (draws : ConnectionDraws) (stream : List UInt8)

/-- The connection sends a governed request that is signed, and in a database that has been read its
sender is the one that is verified, for whom the reservation is. -/
structure Authenticates (v : VerifiedServiceRequest) (r : ReplayReservation) : Prop where
  presents : ∃ request governed signed, readRequest draws.arrival stream = .ok request ∧
    isGovernedRoute request.path = true ∧
    isSupportedGovernedMethod request.method request.path = true ∧
    request.asGoverned = some governed ∧
    governed.intoSigned crates.toHttpCrates.toCrates = .ok signed ∧
    ∃ d row, Read d ∧ Authentic crates.toMutationCrates.toKeyCrates d signed draws.arrivedAt row v
  reservation : ReplayReservation.fromVerified v draws.arrivedAt = .ok r

/-- What an event of the connection may commit. -/
inductive Mediated (d : Db) : List Write → Prop where
  | nothing : Mediated d []
  /-- A workload enrolls. -/
  | enrolls {request ws} (hread : readRequest draws.arrival stream = .ok request)
      (hpath : request.path ∈ enrollmentPaths) (hws : ∀ w ∈ ws, w.table ∈ enrollmentTables) :
      Mediated d ws
  /-- The gate reserves the request, or rejects it. -/
  | reserves {v r answer ws} (h : Authenticates crates Read draws stream v r)
      (hcommits : Commits r d answer ws) : Mediated d ws
  /-- What is asked for is done, behind the gate: once the reservation was committed, the
  communication of the sender has been read as enabled. -/
  | acts {request v r ws} (h : Authenticates crates Read draws stream v r)
      (hreserved : d.HoldsRequest r)
      (henabled : ∃ d', Read d' ∧ d'.HoldsRequest r ∧ d'.Enabled v.serviceId)
      (hread : readRequest draws.arrival stream = .ok request)
      (hperforms : Performs crates draws request v d ws) : Mediated d ws

end

/-- The connection sends a governed request that is signed, and `P` is true of it. -/
def Sends (crates : ServerCrates) (P : SignedServiceRequest → Prop) : Op → Prop
  | .connection draws stream => ∃ request governed signed,
    readRequest draws.arrival stream = .ok request ∧ isGovernedRoute request.path = true ∧
      request.asGoverned = some governed ∧
      governed.intoSigned crates.toHttpCrates.toCrates = .ok signed ∧ P signed
  | _ => False

variable {crates : ServerCrates} {app : Application} {Read : Op × ℕ → Db → Prop}

/-- What is sent is sent for anything weaker. -/
theorem Sends.mono {P Q : SignedServiceRequest → Prop} {op : Op} (h : ∀ signed, P signed → Q signed)
    (hsends : Sends crates P op) : Sends crates Q op := by
  cases op with
  | connection draws stream =>
    obtain ⟨request, governed, signed, hread, hgoverned, hasGoverned, hsigned, hP⟩ := hsends
    exact ⟨request, governed, signed, hread, hgoverned, hasGoverned, hsigned, h signed hP⟩
  | _ => exact hsends

/-- What is authenticated is the request that is sent. -/
theorem Authenticates.authentic {P : SignedServiceRequest → Prop} {Read : Db → Prop}
    {draws : ConnectionDraws} {stream : List UInt8} {v : VerifiedServiceRequest}
    {r : ReplayReservation} (h : Authenticates crates Read draws stream v r)
    (hsends : Sends crates P (.connection draws stream)) :
    ∃ d signed row, Read d ∧ P signed ∧
      Authentic crates.toMutationCrates.toKeyCrates d signed draws.arrivedAt row v := by
  obtain ⟨request, governed, signed, hread, -, -, hasGoverned, hsigned, d, row, hd, hauthentic⟩ :=
    h.presents
  obtain ⟨request', governed', signed', hread', -, hasGoverned', hsigned', hP⟩ := hsends
  obtain rfl := Except.ok.inj (hread.symm.trans hread')
  obtain rfl := Option.some.inj (hasGoverned.symm.trans hasGoverned')
  obtain rfl := Except.ok.inj (hsigned.symm.trans hsigned')
  exact ⟨d, signed, row, hd, hP, hauthentic⟩

/-- Connections are mediated, each by what it has read itself. The other operations keep to their
tables, and the identifiers of claims stay distinct. -/
def mediation (crates : ServerCrates) (app : Application) (Read : Op × ℕ → Db → Prop) :
    Contract (system crates app).tag where
  inv d _ := (d.workClaims.map WorkClaimRow.claimId).Nodup
  guar op d ws _ := match op.1 with
    | .connection draws stream => Mediated crates (Read op) draws stream d ws
    | op => ∀ w ∈ ws, w.table ∈ op.tables
  assume op _ d := Read op d

section Sound

variable {draws : ConnectionDraws} {stream : List UInt8} {id : ℕ} {request : ParsedRequest}
  {Q : (mediation crates app Read).Post Response}

/-- What writes to other tables leaves the claims alone. -/
theorem workClaims_view {d : Db} {ws : List Write} (h : ∀ w ∈ ws, w.table ≠ .workClaims) :
    (store.view d ws).workClaims = d.workClaims := by
  refine workClaims_versioned.view_other fun w hw rw heq => h w hw ?_
  rw [heq]
  rfl

/-- What an event of a connection may commit keeps the identifiers of claims distinct. -/
theorem Mediated.nodup {Read : Db → Prop} {d : Db} {ws : List Write}
    (h : Mediated crates Read draws stream d ws)
    (hd : (d.workClaims.map WorkClaimRow.claimId).Nodup) :
    ((store.view d ws).workClaims.map WorkClaimRow.claimId).Nodup := by
  cases h with
  | nothing => exact hd
  | enrolls _ _ hws =>
    rw [workClaims_view fun w hw heq => absurd (hws w hw) (by simp [heq, enrollmentTables])]
    exact hd
  | reserves _ hcommits =>
    rw [workClaims_view (by cases hcommits <;> simp [Write.table])]
    exact hd
  | acts _ _ _ _ hacts =>
    rcases hacts with hown | hcommits
    · rw [workClaims_view fun w hw heq => by cases w <;> cases heq; exact hown _ hw]
      exact hd
    · exact (SafeRetries.keeps_of_commitsClaim hcommits hd).nodup hd

/-- The rule of what is done with an admitted request. -/
theorem wp_dispatchAdmitted {v : VerifiedServiceRequest} {r : ReplayReservation}
    (hguar : ∀ d ws, d.HoldsRequest r → Performs crates draws request v d ws →
      Mediated crates (Read (.connection draws stream, id)) draws stream d ws)
    (hQ : ∀ b d u locks ws,
      Mediated crates (Read (.connection draws stream, id)) draws stream d u → Q b d u locks ws)
    {e : Db} (hreserved : e.HoldsRequest r) :
    (mediation crates app Read).wp (.connection draws stream, id)
      (dispatchAdmitted crates app draws request v) Q e [] [] [] := by
  have hnil : ∀ w ∈ ([] : List Write), Owned v w := fun w hw => absurd hw List.not_mem_nil
  rcases own_or_claimHandler with hown | hclaims
  · -- Whatever a handler sees, it writes the caller's own.
    exact Contract.wp_of_writes_stable stable_reserved
      (fun d ws hreserved hws => hguar d ws hreserved (.inl hws))
      (fun b d u locks ws hg => hQ _ _ _ _ _ hg)
      (Lawful.writes hown) (hguar e [] hreserved (.inl hnil)) hreserved hnil
  · -- The rule of the claims' handlers says what the claim is that they change.
    have hquiet : ∀ d, (mediation crates app Read).guar (.connection draws stream, id) d [] none :=
      fun _ => .nothing
    have hacts : (mediation crates app Read).wp (.connection draws stream, id)
        (dispatchAdmitted crates app draws request v) (fun _ d u _ _ =>
          Performs crates draws request v d u ∧ ∀ w ∈ u, w.table = .workClaims) e [] [] [] :=
      hclaims.wp hquiet (fun d hd => hd.choose_spec) (fun _ _ _ => ⟨.inl hnil, by simp⟩)
        fun d ws _ _ hcommits => ⟨.inr hcommits, hcommits.tables⟩
    exact Contract.wp_mono (fun b d u locks ws ⟨⟨hacts, hws⟩, hreserved⟩ =>
      hQ b d u locks ws (hguar d u (hreserved.of_view hws) hacts))
      (Contract.wp_frame stable_reserved hreserved hacts)

/-- The rule of a governed request. -/
theorem wp_dispatchBehindGate (hread : readRequest draws.arrival stream = .ok request)
    (hgoverned : isGovernedRoute request.path = true)
    (hQ : ∀ b d u locks ws,
      Mediated crates (Read (.connection draws stream, id)) draws stream d u → Q b d u locks ws)
    {e : Db} (hgood : (mediation crates app Read).Good e) :
    (mediation crates app Read).wp (.connection draws stream, id)
      (dispatchBehindGate crates app draws request) Q e [] [] [] := by
  have hauthenticates : ∀ {governed signed d row v r},
      isSupportedGovernedMethod request.method request.path = true →
      request.asGoverned = some governed → governed.intoSigned crates.toHttpCrates.toCrates =
      .ok signed → Read (.connection draws stream, id) d →
      Authentic crates.toMutationCrates.toKeyCrates d signed draws.arrivedAt row v →
      ReplayReservation.fromVerified v draws.arrivedAt = .ok r →
      Authenticates crates (Read (.connection draws stream, id)) draws stream v r :=
    fun hsupported hasGoverned hsigned hd hauthentic hr =>
      ⟨⟨request, _, _, hread, hgoverned, hsupported, hasGoverned, hsigned, _, _, hd, hauthentic⟩,
        hr⟩
  refine wp_behindGate (fun d => .nothing) (fun b d ws h => hQ _ _ _ _ _ h) ?_ ?_ hgood
  · intro governed signed hsupported hasGoverned hsigned d _ d₁ row v r answer ws hd
      hauthentic hr hcommits
    exact .reserves (hauthenticates hsupported hasGoverned hsigned hd hauthentic hr) hcommits
  · intro governed signed hsupported hasGoverned hsigned d _ d₁ row v r _ d₂ _ hd hauthentic hr
      hreserved hd₂ hreserved₂ henabled
    refine wp_dispatchAdmitted (fun d' ws hreserved' hacts => ?_) hQ hreserved
    exact .acts (hauthenticates hsupported hasGoverned hsigned hd hauthentic hr) hreserved'
      ⟨d₂, hd₂, hreserved₂, henabled⟩ hread hacts

/-- The rule of a connection. -/
theorem wp_handleConnection
    (hQ : ∀ b d u locks ws,
      Mediated crates (Read (.connection draws stream, id)) draws stream d u → Q b d u locks ws)
    {e : Db} (hgood : (mediation crates app Read).Good e) :
    (mediation crates app Read).wp (.connection draws stream, id)
      (handleConnection crates app draws stream) Q e [] [] [] := by
  refine wp_connection (fun d => .nothing) (fun b d => hQ _ _ _ _ _ .nothing) ?_
    fun request hread hgoverned => wp_dispatchBehindGate hread hgoverned hQ hgood
  -- An enrollment only writes to its tables.
  intro request p hread hpath hp
  have hguar : ∀ d u, (∀ w ∈ u, w.table ∈ enrollmentTables) →
      Mediated crates (Read (.connection draws stream, id)) draws stream d u :=
    fun d u hu => .enrolls hread hpath hu
  have hnil : ∀ w ∈ ([] : List Write), w.table ∈ enrollmentTables := fun w hw =>
    absurd hw List.not_mem_nil
  exact Contract.wp_of_writes (fun _ _ => trivial) (fun _ _ _ _ => trivial)
    (fun d u _ hu => hguar d u hu) (fun b d u locks ws _ hu => hQ _ _ _ _ _ (hguar d u hu)) hp
    hgood hnil hnil

/-- Every operation keeps to the contract. -/
theorem mediation_sound : (mediation crates app Read).Sound where
  stutter op d := by
    rcases op with ⟨op, id⟩
    cases op with
    | connection draws stream => exact .nothing
    | _ => exact fun w hw => absurd hw List.not_mem_nil
  preserves id op d log ws r hd hguar := by
    rcases op with ⟨op, id⟩
    cases op with
    | connection draws stream => exact Mediated.nodup hguar hd
    | _ =>
      -- The claims are in no table of the others.
      refine (congrArg (fun rows => (rows.map WorkClaimRow.claimId).Nodup) (workClaims_view ?_)).mpr
        hd
      exact fun w hw heq => absurd (heq ▸ hguar w hw) (by simp [Op.tables, registrarTables])
  program op d hgood := by
    rcases op with ⟨op, id⟩
    have hnil : ∀ {P : Write → Prop}, ∀ w ∈ ([] : List Write), P w := fun w hw =>
      absurd hw List.not_mem_nil
    have hothers : (∀ d ws r, (∀ w ∈ ws, w.table ∈ op.tables) →
          (mediation crates app Read).guar (op, id) d ws r) →
        (mediation crates app Read).wp (op, id) (program crates app op)
          ((mediation crates app Read).Final (op, id)) d [] [] [] := fun hguar =>
      Contract.wp_of_writes (fun _ _ => trivial) (fun _ _ _ _ => trivial)
        (fun d u _ => hguar d u none) (fun b d u _ _ _ => hguar d u (some b))
        (writesTo_program op) hgood hnil hnil
    cases op with
    | connection draws stream =>
      exact Contract.wp_bind.mpr (wp_handleConnection (fun _ _ _ _ _ h => h) hgood)
    | _ => exact hothers fun _ _ _ h => h

end Sound

/-- What an event of a connection commits that has begun after `s₀`, by what it has read. -/
theorem mediated_since {d₀ : Db} (hpk : (d₀.workClaims.map WorkClaimRow.claimId).Nodup)
    {s₀ s s' : State Db Write Key Op (Option Response)}
    (hs : (system crates app).Reaches d₀ s₀) (hl : (system crates app).Later s₀ s)
    {ev : Postgres.Event Op} (hstep : (system crates app).step s ev = some s') {id : ℕ}
    {draws : ConnectionDraws} {stream : List UInt8} (hrun : s.Runs ev id (.connection draws stream))
    (hid : s₀.fresh ≤ id) :
    ∃ ws, s'.db = store.view s.db ws ∧
      Mediated crates ((system crates app).ReadsSince s₀ s' id) draws stream s.db ws := by
  have hS : (mediation crates app fun op d => s₀.fresh ≤ op.2 →
      (system crates app).ReadsSince s₀ s' op.2 d).Sound := mediation_sound
  obtain ⟨ws, r, hguar, hdb⟩ := hS.event_since (fun _ _ _ _ h => h) hpk hs hl hstep hrun
  simp only [mediation, hid, true_imp_iff] at hguar
  exact ⟨ws, hdb, hguar⟩

/-- In every run, whatever overlaps, an event of a connection commits nothing except what an
enrollment may, the reservation of a request that is authentic, or what such a request may do: rows
that belong to its sender, and to claims what its call is for. That is committed after the
reservation, and after the gate has read, behind the reservation, that the sender's communication is
enabled. -/
theorem connections_are_mediated {d₀ : Db} (hpk : (d₀.workClaims.map WorkClaimRow.claimId).Nodup)
    {s s' : State Db Write Key Op (Option Response)}
    (hs : (system crates app).Reaches d₀ s) {ev : Postgres.Event Op}
    (hstep : (system crates app).step s ev = some s') {id : ℕ} {draws : ConnectionDraws}
    {stream : List UInt8} (hrun : s.Runs ev id (.connection draws stream)) :
    ∃ ws, s'.db = store.view s.db ws ∧
      Mediated crates ((system crates app).ReadsSince { db := d₀ } s' id) draws stream s.db ws :=
  mediated_since hpk .init hs.since hstep hrun (Nat.zero_le _)

/-- What a connection runs once its request is read. -/
theorem program_of_read {draws : ConnectionDraws} {stream : List UInt8} {request : ParsedRequest}
    (h : readRequest draws.arrival stream = .ok request) : program crates app
      (.connection draws stream) = (dispatch crates app draws request).bind fun r =>
      .done (some r) := by
  simp only [program, handleConnection, h]

/-- The publication is a governed request, signed by the instance of the sender under its key. -/
theorem sends_examplePublication (n : ℕ) :
    Sends exampleServerCrates (fun signed => (signed.serviceId = ⟨1⟩ ∧ signed.instanceId = ⟨2⟩) ∧
        ∃ metadata, parseSignatureInput exampleServerCrates.toHttpCrates.toCrates
          signed.signatureInput = .ok metadata ∧ metadata.keyId = ⟨3⟩ ∧
            exampleServerCrates.sha256 metadata.nonce.asBytes = exampleNonceDigest)
      (.connection (examplePublicationDraws n) examplePublicationStream) := by
  have hsends : ((examplePublicationHead.request examplePublication).asGoverned.bind fun governed =>
      (governed.intoSigned exampleServerCrates.toHttpCrates.toCrates).toOption.bind fun signed =>
        (parseSignatureInput exampleServerCrates.toHttpCrates.toCrates
          signed.signatureInput).toOption.map fun metadata =>
            ((signed.serviceId, signed.instanceId), metadata.keyId,
              exampleServerCrates.sha256 metadata.nonce.asBytes)) =
      some ((⟨1⟩, ⟨2⟩), ⟨3⟩, exampleNonceDigest) := by
    decide +kernel
  obtain ⟨governed, hgoverned, hsends⟩ := Option.bind_eq_some_iff.mp hsends
  obtain ⟨signed, hsigned, hsends⟩ := Option.bind_eq_some_iff.mp hsends
  obtain ⟨metadata, hmetadata, hsends⟩ := Option.map_eq_some_iff.mp hsends
  obtain ⟨hsender, hnonce⟩ := Prod.mk.inj hsends
  exact ⟨_, governed, signed, read_examplePublication _, by decide, hgoverned,
    Postgres.toOption_eq_some.mp hsigned, Prod.mk.inj hsender, metadata,
    Postgres.toOption_eq_some.mp hmetadata, Prod.mk.inj hnonce⟩

/-- Run alone, the publication adds a version. -/
theorem length_examplePublication :
    (((system exampleServerCrates exampleApplication).program
        (.connection (examplePublicationDraws 9) examplePublicationStream)).exec
      (system exampleServerCrates exampleApplication).toStore exampleSender
        []).db.schemaVersions.length ≠ exampleSender.schemaVersions.length := by
  rw [show (system exampleServerCrates exampleApplication).program _ = _ from
    program_of_read (read_examplePublication _)]
  decide +kernel

/-- The publication is committed, and mediated. -/
theorem connections_are_mediated_publication :
    ∃ (s s' : State Db Write Key Op (Option Response)) (ev : Postgres.Event Op) (id : ℕ),
      (system exampleServerCrates exampleApplication).Reaches exampleSender s ∧
      (system exampleServerCrates exampleApplication).step s ev = some s' ∧
      s.Runs ev id (.connection (examplePublicationDraws 9) examplePublicationStream) ∧
      s'.db.schemaVersions.length ≠ s.db.schemaVersions.length ∧
      ∃ ws, s'.db = store.view s.db ws ∧
        Mediated exampleServerCrates ((system exampleServerCrates exampleApplication).ReadsSince
          { db := exampleSender } s' id) (examplePublicationDraws 9) examplePublicationStream s.db
            ws := by
  have hinit : (system exampleServerCrates exampleApplication).Reaches exampleSender
    { db := exampleSender } := .init
  obtain ⟨s, ev, s', -, hl, hstep, hrun, hne, -⟩ := Postgres.System.exec_event
    (system exampleServerCrates exampleApplication)
    (rfl : State.sessions { db := exampleSender } = [])
    (.connection (examplePublicationDraws 9) examplePublicationStream)
    (f := fun s => s.db.schemaVersions.length) (fun s' hdb _ => by
      rw [hdb]
      exact length_examplePublication)
  have hs := hinit.later hl
  exact ⟨s, s', ev, _, hs, hstep, hrun, hne,
    connections_are_mediated (by decide) hs hstep hrun⟩

end Kernel

end InfernalLaw
