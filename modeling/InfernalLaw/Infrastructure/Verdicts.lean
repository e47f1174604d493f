import InfernalLaw.Infrastructure.Relations

/-!
# The verdict on a write

What the statements of the kernel let the constraints check of a write, and why it is enough for the
database as a whole: an `UPDATE` is only checked for the columns that it may change.
-/

namespace InfernalLaw

open Postgres (RowWrite Schema check_bind_eq_ok)

namespace Db

/-- What is checked of a write: all constraints of a new row, and those on the columns that may
change of a new version. -/
def Verdict (d : Db) : Write → Prop
  | .identities (.insert r) => d.checkIdentity r = .ok ()
  | .identities (.update r) => (Row.identities r).valid
  | .enrollmentBindings (.insert r) => d.checkEnrollmentBinding r = .ok ()
  | .enrollmentBindings (.update r) =>
    r.check = .ok () ∧ d.checkWorkload r = .ok () ∨
      ∃ old ∈ d.enrollmentBindings, r = { old with enabled := r.enabled }
  | .enrollmentChallenges (.insert r) => d.checkEnrollmentChallenge r = .ok ()
  | .enrollmentChallenges (.update r) => r.check = .ok ()
  | .admissions (.insert r) => d.checkAdmission r = .ok ()
  | .admissions (.update r) => r.check = .ok ()
  | .admissionHistory r => d.checkAdmissionHistory r = .ok ()
  | .serviceInstances (.insert r) => d.checkServiceInstance r = .ok ()
  | .serviceInstances (.update r) => r.check = .ok ()
  | .serviceInstanceKeys (.insert r) => d.checkServiceInstanceKey r = .ok ()
  | .serviceInstanceKeys (.update r) => r.check = .ok ()
  | .registryAudit r => r.check = .ok ()
  | .handshakeChallenges (.insert r) => d.checkHandshakeChallenge r = .ok ()
  | .handshakeChallenges (.update r) => r.check = .ok ()
  | .handshakes r => d.checkHandshake r = .ok ()
  | .handshakeAudit r => r.check = .ok ()
  | .subscriptions (.insert r) => d.checkSubscription r = .ok ()
  | .subscriptions (.update r) => ∀ disabledAt ∈ r.disabledAt, r.createdAt ≤ disabledAt
  | .subscriptionAudit r => r.check = .ok ()
  | .serviceRequestIds r =>
    (Row.serviceRequestIds r).valid ∧
      (∀ r' ∈ d.serviceRequestIds, ¬ (r'.serviceId = r.serviceId ∧ r'.requestId = r.requestId)) ∧
      r.serviceId ∈ d.identities
  | .serviceRequestNonces r =>
    (Row.serviceRequestNonces r).valid ∧
      (∀ r' ∈ d.serviceRequestNonces, ¬ (r'.keyId = r.keyId ∧ r'.nonceDigest = r.nonceDigest)) ∧
      (∃ key ∈ d.serviceInstanceKeys, key.keyId = r.keyId) ∧ r.serviceId ∈ d.identities ∧
      ∃ i ∈ d.serviceInstances, i.instanceId = r.instanceId
  | .replayAudit r => (Row.replayAudit r).valid
  | .acceptedRequests r =>
    r.check = .ok () ∧ (∀ r' ∈ d.acceptedRequests,
        ¬ (r'.sourceServiceId = r.sourceServiceId ∧ r'.requestId = r.requestId)) ∧
      d.referencesAcceptedRequest r = .ok ()
  | .acceptanceAudit r => d.referencesAcceptanceAudit r = .ok ()
  | .schemaVersions (.insert r) => d.checkSchemaVersion r = .ok ()
  | .schemaVersions (.update _) => True
  | .schemaStatusAudit r => d.checkSchemaStatusAudit r = .ok ()
  | .grants (.insert r) => d.checkGrant r = .ok ()
  | .grants (.update r) => ∀ revokedAt ∈ r.revokedAt, 0 ≤ revokedAt
  | .grantAudit r => r.check = .ok ()
  | .decisions r => d.checkDecision r = .ok ()
  | .requestRoutes r =>
    (Row.requestRoutes r).valid ∧ (∀ r' ∈ d.requestRoutes,
        ¬ (r'.requestId = r.requestId ∧ r'.subscriptionId = r.subscriptionId)) ∧
      d.referencesRoute r = .ok ()
  | .workClaims (.insert r) => d.checkWorkClaim r = .ok ()
  | .workClaims (.update r) => r.claimedAt < r.leaseExpiresAt

/-- The constraints let the write through, and it adds a row or takes one on. -/
structure Lets (d : Db) (w : Write) : Prop where
  verdict : d.Verdict w
  proceeds : schema.Proceeds d.rows w.change

/-! ## References -/

variable {d : Db}

/-- A stored identity is there to refer to. -/
theorem has_identity {id : ActorId} (h : id ∈ d.identities) : schema.Has d.rows (.identity id) := by
  obtain ⟨r, hr, rfl⟩ := List.mem_map.mp h
  exact ⟨.identities r, mem_rows.mpr hr, rfl⟩

/-- So is a stored instance. -/
theorem has_instance {id : InstanceId} (h : ∃ r ∈ d.serviceInstances, r.instanceId = id) :
    schema.Has d.rows (.serviceInstance id) := by
  obtain ⟨r, hr, rfl⟩ := h
  exact ⟨.serviceInstances r, mem_rows.mpr hr, rfl⟩

/-- So is a stored key of an instance. -/
theorem has_instanceKey {id : KeyId} (h : ∃ r ∈ d.serviceInstanceKeys, r.keyId = id) :
    schema.Has d.rows (.serviceInstanceKey id) := by
  obtain ⟨r, hr, rfl⟩ := h
  exact ⟨.serviceInstanceKeys r, mem_rows.mpr hr, rfl⟩

/-- So is a stored handshake challenge. -/
theorem has_handshakeChallenge {digest : Bytes32}
    (h : ∃ r ∈ d.handshakeChallenges, r.challengeDigest = digest) :
    schema.Has d.rows (.handshakeChallenge digest) := by
  obtain ⟨r, hr, rfl⟩ := h
  exact ⟨.handshakeChallenges r, mem_rows.mpr hr, rfl⟩

/-- So is a stored subscription. -/
theorem has_subscription {id : SubscriptionId} (h : ∃ r ∈ d.subscriptions, r.id = id) :
    schema.Has d.rows (.subscription id) := by
  obtain ⟨r, hr, rfl⟩ := h
  exact ⟨.subscriptions r, mem_rows.mpr hr, rfl⟩

/-- So is a stored request, by its source and its identifier. -/
theorem has_acceptedRequest {source : ActorId} {id : RequestId}
    (h : ∃ r ∈ d.acceptedRequests, r.sourceServiceId = source ∧ r.requestId = id) :
    schema.Has d.rows (.acceptedRequest source id) := by
  obtain ⟨r, hr, rfl, rfl⟩ := h
  exact ⟨.acceptedRequests r, mem_rows.mpr hr, rfl⟩

/-- So is a stored schema version. -/
theorem has_schemaVersion {id : SchemaVersionId}
    (h : ∃ r ∈ d.schemaVersions, r.schemaVersionId = id) :
    schema.Has d.rows (.schemaVersion id) := by
  obtain ⟨r, hr, rfl⟩ := h
  exact ⟨.schemaVersions r, mem_rows.mpr hr, rfl⟩

/-- So is a stored route. -/
theorem has_route {id : RouteId} (h : ∃ r ∈ d.requestRoutes, r.routeId = id) :
    schema.Has d.rows (.route id) := by
  obtain ⟨r, hr, rfl⟩ := h
  exact ⟨.requestRoutes r, mem_rows.mpr hr, rfl⟩

/-! ## What the verdict is enough for -/

/-- A key is an entry in one table only. -/
theorem table_of_entry {r : Row} {k : Key} (h : k ∈ r.entries) : r.table = k.table := by
  cases r with
  | subscriptions r =>
    by_cases hr : r.disabledAt = none <;> simp [Row.entries, Row.inserted, Write.keys, hr] at h <;>
      rcases h with rfl | rfl <;> rfl
  | workClaims r =>
    by_cases hr : r.status = .active <;> simp [Row.entries, Row.inserted, Write.keys, hr] at h <;>
      rcases h with rfl | rfl | rfl <;> rfl
  | registryAudit r | handshakeAudit r | subscriptionAudit r | replayAudit r | acceptanceAudit r
  | grantAudit r => simp [Row.entries, Row.inserted, Write.keys] at h
  | enrollmentBindings r | schemaVersions r | grants r | requestRoutes r =>
    simp [Row.entries, Row.inserted, Write.keys] at h
    rcases h with rfl | rfl <;> rfl
  | serviceInstanceKeys r =>
    simp [Row.entries, Row.inserted, Write.keys] at h
    rcases h with rfl | rfl | rfl <;> rfl
  | _ =>
    simp [Row.entries, Row.inserted, Write.keys] at h
    subst h
    rfl

/-- A new row needs to be told apart from the rows of its own table only. -/
theorem permits_insert {α : Type} {new : Row} {rows : List α} {f : α → Row}
    (htable : d.table new.table = (rows.map f : List Row)) (hvalid : new.valid)
    (hfresh : ∀ r ∈ rows, ∀ k ∈ new.entries, k ∉ (f r).entries)
    (hrefs : ∀ k ∈ new.refs, schema.Has d.rows k) (hstarts : new.starts) :
    schema.Permits d.rows (.insert new) := by
  refine Schema.Permits.insert hvalid (fun r hr k hk hkr => ?_) hrefs hstarts
  have hmem : r ∈ d.table new.table :=
    mem_table.mpr ⟨(table_of_entry hkr).trans (table_of_entry hk).symm, mem_rows.mp hr⟩
  rw [htable] at hmem
  obtain ⟨r', hr', rfl⟩ := List.mem_map.mp (Multiset.mem_coe.mp hmem)
  exact hfresh r' hr' k hk hkr

/-! ### New rows -/

/-- A new identity is permitted when its constraints hold and it is active. -/
theorem permits_identity {r : IdentityRow} (h : d.checkIdentity r = .ok ())
    (hs : r.status = .active) :
    schema.Permits d.rows (.insert (.identities r)) := by
  simp [checkIdentity, check_bind_eq_ok] at h
  obtain ⟨htext, htrim, hid⟩ := h
  refine permits_insert rfl ⟨htext, htrim⟩ (fun r' hr' => ?_) (by simp [Row.refs]) hs
  simpa [Row.entries, Row.inserted, Write.keys] using
    fun heq => hid (List.mem_map.mpr ⟨r', hr', heq.symm⟩)

/-- A new binding is permitted when its constraints hold. -/
theorem permits_binding {r : EnrollmentBindingRow} (h : d.checkEnrollmentBinding r = .ok ()) :
    schema.Permits d.rows (.insert (.enrollmentBindings r)) := by
  simp [checkEnrollmentBinding, checkWorkload, check_bind_eq_ok] at h
  obtain ⟨hvalid, hservice, hworkload, hid⟩ := h
  refine permits_insert rfl hvalid (fun r' hr' => ?_) (by simpa [Row.refs] using has_identity hid)
    trivial
  have hservice := hservice r' hr'
  have hworkload := hworkload r' hr' hservice
  simp [Row.entries, Row.inserted, Write.keys]
  grind

/-- A new challenge is permitted when its constraints hold and nobody has consumed it. -/
theorem permits_enrollmentChallenge {r : EnrollmentChallengeRow}
    (h : d.checkEnrollmentChallenge r = .ok ()) (hs : r.consumedAt = none) :
    schema.Permits d.rows (.insert (.enrollmentChallenges r)) := by
  simp [checkEnrollmentChallenge, check_bind_eq_ok] at h
  obtain ⟨hvalid, hdigest, hid⟩ := h
  refine permits_insert rfl hvalid (fun r' hr' => ?_)
    (by simpa [Row.refs] using has_identity hid) hs
  simpa [Row.entries, Row.inserted, Write.keys, eq_comm] using hdigest r' hr'

/-- A new admission is permitted when its constraints hold and it starts disabled at revision 0. -/
theorem permits_admission {r : AdmissionRow} (h : d.checkAdmission r = .ok ())
    (hs : r.communicationEnabled = false ∧ r.revision = 0) :
    schema.Permits d.rows (.insert (.admissions r)) := by
  simp [checkAdmission, check_bind_eq_ok] at h
  obtain ⟨hvalid, hservice, hid⟩ := h
  refine permits_insert rfl hvalid (fun r' hr' => ?_)
    (by simpa [Row.refs] using has_identity hid) hs
  simpa [Row.entries, Row.inserted, Write.keys, eq_comm] using hservice r' hr'

/-- An entry of the admission's history is permitted when its constraints hold. -/
theorem permits_admissionHistory {r : AdmissionHistoryRow}
    (h : d.checkAdmissionHistory r = .ok ()) :
    schema.Permits d.rows (.insert (.admissionHistory r)) := by
  simp [checkAdmissionHistory] at h
  obtain ⟨hname, hat, hreason, hrevision, hcorrelation⟩ := h
  refine permits_insert rfl ⟨hname, hat, hreason, hrevision⟩ (fun r' hr' => ?_) (by simp [Row.refs])
    trivial
  have hcorrelation := hcorrelation r' hr'
  simp [Row.entries, Row.inserted, Write.keys]
  grind

/-- A new instance is permitted when its constraints hold and it starts with its first lease. -/
theorem permits_serviceInstance {r : ServiceInstanceRow} (h : d.checkServiceInstance r = .ok ())
    (hs : r.leaseRevision = 1 ∧ r.revokedAt = none) :
    schema.Permits d.rows (.insert (.serviceInstances r)) := by
  simp [checkServiceInstance, check_bind_eq_ok] at h
  obtain ⟨htext, hvalid, hinstance, hid⟩ := h
  refine permits_insert rfl ⟨htext, hvalid⟩ (fun r' hr' => ?_)
    (by simpa [Row.refs] using has_identity hid) hs
  simpa [Row.entries, Row.inserted, Write.keys, eq_comm] using hinstance r' hr'

/-- A new key is permitted when its constraints hold and it is not revoked. -/
theorem permits_serviceInstanceKey {r : ServiceInstanceKeyRow}
    (h : d.checkServiceInstanceKey r = .ok ()) (hs : r.revokedAt = none) :
    schema.Permits d.rows (.insert (.serviceInstanceKeys r)) := by
  simp [checkServiceInstanceKey, check_bind_eq_ok] at h
  obtain ⟨hvalid, hkey, hinstance, hprint, hid⟩ := h
  refine permits_insert rfl hvalid (fun r' hr' => ?_)
    (by simpa [Row.refs] using has_instance hid) hs
  simpa [Row.entries, Row.inserted, Write.keys] using
    ⟨Ne.symm (hkey r' hr'), Ne.symm (hinstance r' hr'), Ne.symm (hprint r' hr')⟩

/-- A new handshake challenge is permitted when its constraints hold and it is not consumed. -/
theorem permits_handshakeChallenge {r : HandshakeChallengeRow}
    (h : d.checkHandshakeChallenge r = .ok ()) (hs : r.consumedAt = none) :
    schema.Permits d.rows (.insert (.handshakeChallenges r)) := by
  simp [checkHandshakeChallenge, check_bind_eq_ok] at h
  obtain ⟨hvalid, hdigest, hinstance, hkey⟩ := h
  refine permits_insert rfl hvalid (fun r' hr' => ?_)
    (by simpa [Row.refs] using ⟨has_instance hinstance, has_instanceKey hkey⟩) hs
  simpa [Row.entries, Row.inserted, Write.keys, eq_comm] using hdigest r' hr'

/-- A handshake is permitted when its constraints hold. -/
theorem permits_handshake {r : HandshakeRow} (h : d.checkHandshake r = .ok ()) :
    schema.Permits d.rows (.insert (.handshakes r)) := by
  simp [checkHandshake] at h
  obtain ⟨hexpires, hat, hdigest, hchallenge, hinstance, hkey⟩ := h
  refine permits_insert rfl ⟨hexpires, hat⟩ (fun r' hr' => ?_) (by
    simpa [Row.refs] using
      ⟨has_handshakeChallenge hchallenge, has_instance hinstance, has_instanceKey hkey⟩) trivial
  simpa [Row.entries, Row.inserted, Write.keys, eq_comm] using hdigest r' hr'

/-- A new subscription is permitted when its constraints hold and it is active. -/
theorem permits_subscription {r : SubscriptionRow} (h : d.checkSubscription r = .ok ())
    (hs : r.disabledAt = none) : schema.Permits d.rows (.insert (.subscriptions r)) := by
  simp [checkSubscription] at h
  obtain ⟨hdisabled, hcreated, htype, hid, hactive, hservice⟩ := h
  refine permits_insert rfl ⟨by simpa using hdisabled, hcreated, htype⟩ (fun r' hr' => ?_)
    (by simpa [Row.refs] using has_identity hservice) hs
  have hid := hid r' hr'
  have hactive := hactive hs r' hr'
  simp [Row.entries, Row.inserted, Write.keys, hs]
  grind

/-- A request identifier is permitted when the service has not used it and the service is stored. -/
theorem permits_serviceRequestId {r : ServiceRequestIdRow}
    (hvalid : (Row.serviceRequestIds r).valid)
    (hfresh : ∀ r' ∈ d.serviceRequestIds, ¬ (r'.serviceId = r.serviceId ∧
      r'.requestId = r.requestId))
    (hid : r.serviceId ∈ d.identities) : schema.Permits d.rows
      (.insert (.serviceRequestIds r)) := by
  refine permits_insert rfl hvalid (fun r' hr' => ?_) (by simpa [Row.refs] using has_identity hid)
    trivial
  simpa [Row.entries, Row.inserted, Write.keys, eq_comm] using hfresh r' hr'

/-- A nonce is permitted when its key has not used it and its key, service and instance are stored.
-/
theorem permits_serviceRequestNonce {r : ServiceRequestNonceRow}
    (hvalid : (Row.serviceRequestNonces r).valid)
    (hfresh : ∀ r' ∈ d.serviceRequestNonces,
      ¬ (r'.keyId = r.keyId ∧ r'.nonceDigest = r.nonceDigest))
    (hkey : ∃ key ∈ d.serviceInstanceKeys, key.keyId = r.keyId) (hid : r.serviceId ∈ d.identities)
    (hinstance : ∃ i ∈ d.serviceInstances, i.instanceId = r.instanceId) :
    schema.Permits d.rows (.insert (.serviceRequestNonces r)) := by
  refine permits_insert rfl hvalid (fun r' hr' => ?_) (by
    simpa [Row.refs] using ⟨has_instanceKey hkey, has_identity hid, has_instance hinstance⟩) trivial
  simpa [Row.entries, Row.inserted, Write.keys, eq_comm] using hfresh r' hr'

/-- An accepted request is permitted when its source has not used its identifier and what it refers
to is stored. -/
theorem permits_acceptedRequest {r : AcceptedRequestRow} (hvalid : r.check = .ok ())
    (hfresh : ∀ r' ∈ d.acceptedRequests,
      ¬ (r'.sourceServiceId = r.sourceServiceId ∧ r'.requestId = r.requestId))
    (h : d.referencesAcceptedRequest r = .ok ()) :
    schema.Permits d.rows (.insert (.acceptedRequests r)) := by
  simp [referencesAcceptedRequest] at h
  obtain ⟨hid, hartifact, hpolicy⟩ := h
  refine permits_insert rfl hvalid (fun r' hr' => ?_) (by
    simpa [Row.refs] using ⟨has_identity hid, has_schemaVersion hartifact,
      has_schemaVersion hpolicy⟩)
    trivial
  simpa [Row.entries, Row.inserted, Write.keys, eq_comm] using hfresh r' hr'

/-- An audit entry on a request is permitted when what it refers to is stored. -/
theorem permits_acceptanceAudit {r : AcceptanceAuditRow}
    (h : d.referencesAcceptanceAudit r = .ok ()) :
    schema.Permits d.rows (.insert (.acceptanceAudit r)) := by
  simp [referencesAcceptanceAudit] at h
  exact permits_insert rfl trivial (by simp [Row.entries, Row.inserted, Write.keys])
    (by simpa [Row.refs] using has_acceptedRequest h) trivial

/-- A new schema version is permitted when its constraints hold and it is published. -/
theorem permits_schemaVersion {r : SchemaVersionRow} (h : d.checkSchemaVersion r = .ok ())
    (hs : r.status = .published) : schema.Permits d.rows (.insert (.schemaVersions r)) := by
  simp [checkSchemaVersion] at h
  obtain ⟨hname, hat, hversion, hid, hnumber, howner, hpredecessor⟩ := h
  refine permits_insert rfl ⟨hname, hat, hversion⟩ (fun r' hr' => ?_) ?_ hs
  · have hid := hid r' hr'
    have hnumber := hnumber r' hr'
    simp [Row.entries, Row.inserted, Write.keys]
    grind
  · simpa [Row.refs] using ⟨has_identity howner, fun id hp =>
      has_schemaVersion (hpredecessor id hp)⟩

/-- An audit entry on a schema version is permitted when its constraints hold. -/
theorem permits_schemaStatusAudit {r : SchemaStatusAuditRow}
    (h : d.checkSchemaStatusAudit r = .ok ()) :
    schema.Permits d.rows (.insert (.schemaStatusAudit r)) := by
  simp [checkSchemaStatusAudit] at h
  obtain ⟨hname, hreason, hat, hcorrelation⟩ := h
  refine permits_insert rfl ⟨hname, hreason, hat⟩ (fun r' hr' => ?_) (by simp [Row.refs]) trivial
  have hcorrelation := hcorrelation r' hr'
  simp [Row.entries, Row.inserted, Write.keys]
  grind

/-- A new grant is permitted when its constraints hold and it is not revoked. -/
theorem permits_grant {r : GrantRow} (h : d.checkGrant r = .ok ()) (hs : r.revokedAt = none) :
    schema.Permits d.rows (.insert (.grants r)) := by
  simp [checkGrant] at h
  obtain ⟨haction, hname, hlimit, hcreated, hreason, hrevoked, hscope, hfrom, hid, hcorrelation,
    hsource, hdestination, hartifact, hpolicy⟩ := h
  refine permits_insert rfl
    ⟨haction, hname, by simpa using hlimit, hcreated, hreason, by simpa using hrevoked, hscope,
    hfrom⟩ (fun r' hr' => ?_) ?_ hs
  · simpa [Row.entries, Row.inserted, Write.keys] using
      ⟨Ne.symm (hid r' hr'), Ne.symm (hcorrelation r' hr')⟩
  · simpa [Row.refs] using ⟨has_identity hsource, has_schemaVersion hartifact,
      has_schemaVersion hpolicy, fun id hd => has_identity (hdestination id hd)⟩

/-- A decision is permitted when its constraints hold. -/
theorem permits_decision {r : DecisionRow} (h : d.checkDecision r = .ok ()) :
    schema.Permits d.rows (.insert (.decisions r)) := by
  simp [checkDecision, check_bind_eq_ok] at h
  obtain ⟨htext, hbundle, haction, hat, hscope, hid, hsource, hdestination, hevaluator, hartifact,
    hpolicy⟩ := h
  refine permits_insert rfl ⟨htext, hbundle, haction, hat, hscope⟩ (fun r' hr' => ?_) ?_ trivial
  · simpa [Row.entries, Row.inserted, Write.keys, eq_comm] using hid r' hr'
  · simpa [Row.refs] using ⟨has_identity hsource, has_identity hevaluator,
      has_schemaVersion hartifact, has_schemaVersion hpolicy, fun id hd =>
      has_identity (hdestination id hd)⟩

/-- A route is permitted when its request has none to the subscription and what it refers to is
stored. -/
theorem permits_route {r : RouteRow} (hvalid : (Row.requestRoutes r).valid)
    (hfresh : ∀ r' ∈ d.requestRoutes,
      ¬ (r'.requestId = r.requestId ∧ r'.subscriptionId = r.subscriptionId))
    (h : d.referencesRoute r = .ok ()) : schema.Permits d.rows (.insert (.requestRoutes r)) := by
  simp [referencesRoute] at h
  obtain ⟨hid, hsubscription, hdestination, hrequest⟩ := h
  refine permits_insert rfl hvalid (fun r' hr' => ?_) (by
    simpa [Row.refs] using
      ⟨has_subscription hsubscription, has_identity hdestination, has_acceptedRequest hrequest⟩)
      trivial
  have hid := hid r' hr'
  have hfresh := hfresh r' hr'
  simp [Row.entries, Row.inserted, Write.keys]
  grind

/-- A new claim is permitted when its constraints hold and it is active. -/
theorem permits_workClaim {r : WorkClaimRow} (h : d.checkWorkClaim r = .ok ())
    (hs : r.status = .active) : schema.Permits d.rows (.insert (.workClaims r)) := by
  obtain ⟨hlease, hat, htoken, hid, htokens, hactive, hroute, hworker, hinstance⟩ :=
    checkWorkClaim_eq_ok.mp h
  refine permits_insert rfl ⟨hlease, hat, htoken⟩ (fun r' hr' => ?_) (by
    simpa [Row.refs] using ⟨has_route hroute, has_identity hworker, has_instance hinstance⟩) hs
  have hid := hid r' hr'
  have htokens := htokens r' hr'
  have hactive := hactive hs r' hr'
  simp [Row.entries, Row.inserted, Write.keys, hs]
  grind

/-- The rows of the audits that refer to nothing. -/
theorem permits_audit {r : Row} {α : Type} {rows : List α} {f : α → Row}
    (htable : d.table r.table = (rows.map f : List Row)) (hvalid : r.valid)
    (hentries : r.entries = []) (hrefs : r.refs = []) (hs : r.starts) : schema.Permits d.rows
      (.insert r) :=
  permits_insert htable hvalid (by simp [hentries]) (by simp [hrefs]) hs

/-! ### New versions of rows -/

/-- A new version has to be checked for what the move may change. -/
theorem permits_update {new : Row} (h : schema.Legal d.rows)
    (hp : schema.Proceeds d.rows (.update new)) (hmove : ∀ old : Row, old.valid → old.moves new →
      new.valid ∧ new.entries ⊆ old.entries ∧ new.refs ⊆ old.refs) :
    schema.Permits d.rows (.update new) := by
  obtain ⟨old, hold, k, hk, hnew, hmoves⟩ := hp
  obtain ⟨hvalid, hentries, hrefs⟩ := hmove old (h.valid old hold) hmoves
  exact Schema.Permits.update h hold hk hnew hmoves hvalid (fun k hk => hentries hk)
    fun k hk => hrefs hk

section Updates

variable (h : schema.Legal d.rows)

include h

/-- A later version of an identity is permitted when its own columns are valid. -/
theorem permits_identity_update {r : IdentityRow} (hvalid : (Row.identities r).valid)
    (hp : schema.Proceeds d.rows (.update (.identities r))) :
    schema.Permits d.rows (.update (.identities r)) := by
  refine permits_update h hp fun old _ hmove => ?_
  cases old with
  | identities old =>
    have hid : r.id = old.id := hmove
    exact ⟨hvalid, by simp [Row.entries, Row.inserted, Write.keys, hid], by simp [Row.refs]⟩
  | _ => exact hmove.elim

/-- The workload of a binding may change, to one that no other service is bound to. -/
theorem permits_binding_upsert {r : EnrollmentBindingRow} (hvalid : r.check = .ok ())
    (hworkload : d.checkWorkload r = .ok ())
    (hp : schema.Proceeds d.rows (.update (.enrollmentBindings r))) :
    schema.Permits d.rows (.update (.enrollmentBindings r)) where
  valid := hvalid
  fresh r' hr' hrep k hk hkr := by
    have hmem : r' ∈ d.table .enrollmentBindings :=
      mem_table.mpr ⟨(table_of_entry hkr).trans
        (table_of_entry (r := .enrollmentBindings r) hk).symm, mem_rows.mp hr'⟩
    obtain ⟨r', hrow, rfl⟩ := List.mem_map.mp (Multiset.mem_coe.mp hmem)
    have hservice : r'.serviceId ≠ r.serviceId := fun heq =>
      hrep (Schema.replaces_update.mpr (by simp [schema, Row.pk, heq]))
    simp [checkWorkload] at hworkload
    have hworkload := hworkload r' hrow hservice
    simp [schema, Row.entries, Row.inserted, Write.keys] at hk hkr
    grind
  refs k hk := by
    obtain ⟨old, hold, _, _, _, hmove⟩ := hp
    refine h.refs old hold k ?_
    cases old with
    | enrollmentBindings old =>
      replace hmove : r.serviceId = old.serviceId := hmove
      simpa [schema, Row.refs, hmove] using hk
    | _ => exact hmove.elim
  proceeds := hp

/-- A binding that is enabled or disabled is permitted: nothing that is checked changes. -/
theorem permits_binding_setEnabled {r old : EnrollmentBindingRow}
    (hold : old ∈ d.enrollmentBindings) (hr : r = { old with enabled := r.enabled }) :
    schema.Permits d.rows (.update (.enrollmentBindings r)) := by
  have hvalid : old.check = .ok () := h.valid (.enrollmentBindings old) (mem_rows.mpr hold)
  rw [hr]
  exact Schema.Permits.update h
    (mem_rows.mpr hold : Row.enrollmentBindings old ∈ d.rows) rfl rfl rfl
    hvalid (fun k hk => hk) fun k hk => hk

/-- A challenge that is consumed is permitted when its own columns are valid. -/
theorem permits_enrollmentChallenge_update {r : EnrollmentChallengeRow} (hvalid : r.check = .ok ())
    (hp : schema.Proceeds d.rows (.update (.enrollmentChallenges r))) :
    schema.Permits d.rows (.update (.enrollmentChallenges r)) := by
  refine permits_update h hp fun old _ hmove => ?_
  cases old with
  | enrollmentChallenges old =>
    obtain ⟨-, at', rfl⟩ := hmove
    exact ⟨hvalid, List.Subset.refl _, List.Subset.refl _⟩
  | _ => exact hmove.elim

/-- A later version of an admission is permitted when its own columns are valid. -/
theorem permits_admission_update {r : AdmissionRow} (hvalid : r.check = .ok ())
    (hp : schema.Proceeds d.rows (.update (.admissions r))) :
    schema.Permits d.rows (.update (.admissions r)) := by
  refine permits_update h hp fun old _ hmove => ?_
  cases old with
  | admissions old =>
    have hservice := hmove.1
    exact ⟨hvalid, by simp [Row.entries, Row.inserted, Write.keys, hservice],
      by simp [Row.refs, hservice]⟩
  | _ => exact hmove.elim

/-- A later version of an instance is permitted when its own columns are valid. -/
theorem permits_serviceInstance_update {r : ServiceInstanceRow} (hvalid : r.check = .ok ())
    (hp : schema.Proceeds d.rows (.update (.serviceInstances r))) :
    schema.Permits d.rows (.update (.serviceInstances r)) := by
  refine permits_update h hp fun old hold hmove => ?_
  cases old with
  | serviceInstances old =>
    obtain ⟨-, ⟨expires, rfl⟩ | ⟨revokedAt, rfl⟩⟩ := hmove <;>
      exact ⟨⟨hold.1, hvalid⟩, List.Subset.refl _, List.Subset.refl _⟩
  | _ => exact hmove.elim

/-- A later version of a key is permitted when its own columns are valid. -/
theorem permits_serviceInstanceKey_update {r : ServiceInstanceKeyRow} (hvalid : r.check = .ok ())
    (hp : schema.Proceeds d.rows (.update (.serviceInstanceKeys r))) :
    schema.Permits d.rows (.update (.serviceInstanceKeys r)) := by
  refine permits_update h hp fun old _ hmove => ?_
  cases old with
  | serviceInstanceKeys old =>
    obtain ⟨-, revokedAt, rfl⟩ := hmove
    exact ⟨hvalid, List.Subset.refl _, List.Subset.refl _⟩
  | _ => exact hmove.elim

/-- A handshake challenge that is consumed is permitted when its own columns are valid. -/
theorem permits_handshakeChallenge_update {r : HandshakeChallengeRow} (hvalid : r.check = .ok ())
    (hp : schema.Proceeds d.rows (.update (.handshakeChallenges r))) :
    schema.Permits d.rows (.update (.handshakeChallenges r)) := by
  refine permits_update h hp fun old _ hmove => ?_
  cases old with
  | handshakeChallenges old =>
    obtain ⟨heq, -⟩ := hmove
    generalize old.consumedAt = consumedAt at heq
    subst heq
    exact ⟨hvalid, List.Subset.refl _, List.Subset.refl _⟩
  | _ => exact hmove.elim

/-- A subscription that is disabled leaves the index of the active ones. -/
theorem permits_subscription_update {r : SubscriptionRow}
    (hdisabled : ∀ disabledAt ∈ r.disabledAt, r.createdAt ≤ disabledAt)
    (hp : schema.Proceeds d.rows (.update (.subscriptions r))) :
    schema.Permits d.rows (.update (.subscriptions r)) := by
  refine permits_update h hp fun old hold hmove => ?_
  cases old with
  | subscriptions old =>
    obtain ⟨heq, -, hnow⟩ := hmove
    generalize old.disabledAt = disabledAt at heq
    subst heq
    exact ⟨⟨hdisabled, hold.2⟩, by simp [Row.entries, Row.inserted, Write.keys, hnow],
      List.Subset.refl _⟩
  | _ => exact hmove.elim

/-- A later version of a schema version is permitted: only its status changes. -/
theorem permits_schemaVersion_update {r : SchemaVersionRow}
    (hp : schema.Proceeds d.rows (.update (.schemaVersions r))) :
    schema.Permits d.rows (.update (.schemaVersions r)) := by
  refine permits_update h hp fun old hold hmove => ?_
  cases old with
  | schemaVersions old =>
    obtain ⟨heq, -⟩ := hmove
    unfold SchemaVersionRow.EqButStatus at heq
    generalize old.status = status at heq
    subst heq
    exact ⟨hold, List.Subset.refl _, List.Subset.refl _⟩
  | _ => exact hmove.elim

/-- A grant that is revoked is permitted when the time of the revocation is not negative. -/
theorem permits_grant_update {r : GrantRow} (hrevoked : ∀ revokedAt ∈ r.revokedAt, 0 ≤ revokedAt)
    (hp : schema.Proceeds d.rows (.update (.grants r))) :
    schema.Permits d.rows (.update (.grants r)) := by
  refine permits_update h hp fun old hold hmove => ?_
  cases old with
  | grants old =>
    obtain ⟨heq, -⟩ := hmove
    generalize old.revokedAt = revokedAt at heq
    subst heq
    obtain ⟨haction, hname, hlimit, hcreated, hreason, -, hscope⟩ := hold
    exact ⟨⟨haction, hname, hlimit, hcreated, hreason, hrevoked, hscope⟩, List.Subset.refl _,
      List.Subset.refl _⟩
  | _ => exact hmove.elim

/-- A claim that ends leaves the index of the active ones. -/
theorem permits_workClaim_update {r : WorkClaimRow} (hlease : r.claimedAt < r.leaseExpiresAt)
    (hp : schema.Proceeds d.rows (.update (.workClaims r))) :
    schema.Permits d.rows (.update (.workClaims r)) := by
  refine permits_update h hp fun old hold hmove => ?_
  cases old with
  | workClaims old =>
    obtain ⟨⟨hid, hroute, hservice, hinstance, htoken, hat⟩, hactive, -⟩ :=
      protectWorkClaim_eq_ok.mp hmove
    obtain ⟨-, hclaimed, hone⟩ := hold
    refine ⟨⟨hlease, hat ▸ hclaimed, htoken ▸ hone⟩, ?_, ?_⟩
    · by_cases hr : r.status = .active <;>
        simp [Row.entries, Row.inserted, Write.keys, hr, hactive, hid, hroute, htoken]
    · simp [Row.refs, hroute, hservice, hinstance]
  | _ => exact hmove.elim

end Updates

/-- What the constraints let through is permitted in a legal database. -/
theorem permits_of_lets {w : Write} (h : schema.Legal d.rows) (hw : d.Lets w) :
    schema.Permits d.rows w.change := by
  obtain ⟨hverdict, hp⟩ := hw
  -- One lemma above for each kind of write.
  cases w with
  | identities w =>
    cases w with
    | insert r => exact permits_identity hverdict hp
    | update r => exact permits_identity_update h hverdict hp
  | enrollmentBindings w =>
    cases w with
    | insert r => exact permits_binding hverdict
    | update r =>
      obtain ⟨hvalid, hworkload⟩ | ⟨old, hold, hr⟩ := hverdict
      · exact permits_binding_upsert h hvalid hworkload hp
      · exact permits_binding_setEnabled h hold hr
  | enrollmentChallenges w =>
    cases w with
    | insert r => exact permits_enrollmentChallenge hverdict hp
    | update r => exact permits_enrollmentChallenge_update h hverdict hp
  | admissions w =>
    cases w with
    | insert r => exact permits_admission hverdict hp
    | update r => exact permits_admission_update h hverdict hp
  | admissionHistory r => exact permits_admissionHistory hverdict
  | serviceInstances w =>
    cases w with
    | insert r => exact permits_serviceInstance hverdict hp
    | update r => exact permits_serviceInstance_update h hverdict hp
  | serviceInstanceKeys w =>
    cases w with
    | insert r => exact permits_serviceInstanceKey hverdict hp
    | update r => exact permits_serviceInstanceKey_update h hverdict hp
  | registryAudit r => exact permits_audit rfl hverdict rfl rfl trivial
  | handshakeChallenges w =>
    cases w with
    | insert r => exact permits_handshakeChallenge hverdict hp
    | update r => exact permits_handshakeChallenge_update h hverdict hp
  | handshakes r => exact permits_handshake hverdict
  | handshakeAudit r => exact permits_audit rfl hverdict rfl rfl trivial
  | subscriptions w =>
    cases w with
    | insert r => exact permits_subscription hverdict hp
    | update r => exact permits_subscription_update h hverdict hp
  | subscriptionAudit r => exact permits_audit rfl hverdict rfl rfl trivial
  | serviceRequestIds r => exact permits_serviceRequestId hverdict.1 hverdict.2.1 hverdict.2.2
  | serviceRequestNonces r =>
    obtain ⟨hvalid, hfresh, hkey, hid, hinstance⟩ := hverdict
    exact permits_serviceRequestNonce hvalid hfresh hkey hid hinstance
  | replayAudit r => exact permits_audit rfl hverdict rfl rfl trivial
  | acceptedRequests r => exact permits_acceptedRequest hverdict.1 hverdict.2.1 hverdict.2.2
  | acceptanceAudit r => exact permits_acceptanceAudit hverdict
  | schemaVersions w =>
    cases w with
    | insert r => exact permits_schemaVersion hverdict hp
    | update r => exact permits_schemaVersion_update h hp
  | schemaStatusAudit r => exact permits_schemaStatusAudit hverdict
  | grants w =>
    cases w with
    | insert r => exact permits_grant hverdict hp
    | update r => exact permits_grant_update h hverdict hp
  | grantAudit r => exact permits_audit rfl hverdict rfl rfl trivial
  | decisions r => exact permits_decision hverdict
  | requestRoutes r => exact permits_route hverdict.1 hverdict.2.1 hverdict.2.2
  | workClaims w =>
    cases w with
    | insert r => exact permits_workClaim hverdict hp
    | update r => exact permits_workClaim_update h hverdict hp

end Db

/-! ## The discipline of the kernel's database -/

/-- The constraints of the migrations, which writes are checked against one by one. -/
def integrity : Postgres.Discipline store (Multiset Row) :=
  schema.discipline Db.rows Write.change (fun _ _ => Db.rows_apply) Write.keys_eq

/-- The constraints permit what they let through. -/
theorem integrity_permits {d : Db} {w : Write} (hd : integrity.Keeps d) (hw : d.Lets w) :
    integrity.Permits d w := Db.permits_of_lets hd hw

/-- Every write of the process is let through by the constraints, and satisfies `W`. -/
abbrev Lawful {β : Type} (W : Write → Prop) (p : Sql β) : Prop :=
  p.Obeys store (fun _ => True) fun d w => d.Lets w ∧ W w

namespace Lawful

variable {β : Type} {W W' : Write → Prop} {p : Sql β}

/-- What is said of the writes may be weakened. -/
theorem mono (hW : ∀ w, W w → W' w) (hp : Lawful W p) : Lawful W' p :=
  Postgres.Proc.Obeys.mono (fun _ h => h) (fun _ w h => ⟨h.1, hW w h.2⟩) hp

/-- Whatever the process sees, it writes nothing else. -/
theorem writes {I : Db → Prop} (hp : Lawful W p) : p.Writes I W :=
  Postgres.Proc.Obeys.writes (I := I) (fun _ _ h => h.2)
    (Postgres.Proc.Obeys.mono (fun _ _ => trivial) (fun _ _ h => h) hp)

/-- In a legal database, all that it writes is permitted. -/
theorem permits (hp : Lawful W p) : p.Obeys store integrity.Keeps integrity.Permits := by
  have hlets : p.Obeys store integrity.Keeps Db.Lets :=
    Postgres.Proc.Obeys.mono (fun _ _ => trivial) (fun _ _ h => h.1) hp
  exact Postgres.Proc.Obeys.keeping (fun _ _ => Postgres.Discipline.Keeps.apply)
    (fun _ _ => integrity_permits) hlets

end Lawful

end InfernalLaw
