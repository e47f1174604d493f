import InfernalLaw.Postgres.Answers
import InfernalLaw.Runs.Enrollment

/-!
# Endpoints of enrollments

The endpoint of an enrollment is validated three times: when the request is built, by the registry
once the challenge is consumed, and by the constraints of `service_instances`. The first validation
implies the other two, so no challenge is consumed for an instance whose endpoint cannot be
registered.
-/

namespace InfernalLaw

open Postgres (DbError State)

/-! ## The validations -/

section Validations

variable {endpoint : Str}

/-- What an enrollment accepts as an endpoint, the registry accepts. -/
theorem Enrollment.registers_of_isValidEndpoint (h : Enrollment.isValidEndpoint endpoint = true) :
    InfernalLaw.isValidEndpoint endpoint = true := by
  simp only [Enrollment.isValidEndpoint, isValidField, Bool.and_eq_true, decide_eq_true_eq] at h
  obtain ⟨⟨⟨⟨-, hlen⟩, -⟩, hne⟩, hstarts⟩ := h
  simp only [InfernalLaw.isValidEndpoint, Bool.and_eq_true, decide_eq_true_eq]
  refine ⟨⟨hstarts, hlen⟩, fun heq => hne ?_⟩
  -- Nothing follows a prefix that is as long as the text.
  obtain ⟨rest, hrest⟩ := Option.isSome_iff_exists.mp hstarts
  obtain rfl := Str.stripPrefix_eq_some.mp hrest
  have hlength : rest.length ≤ rest.len := rest.length_le_len
  have hsum : Str.len ("https://".toList ++ rest) = "https://".length + rest.len := by
    rw [Str.len, List.map_append, List.sum_append]
    rfl
  have hnil : rest = [] := List.length_eq_zero_iff.mp (by omega)
  rw [hnil, List.append_nil]

/-- What an enrollment accepts as an endpoint is text that the database can store. -/
theorem Enrollment.text_of_isValidEndpoint (h : Enrollment.isValidEndpoint endpoint = true) :
    checkText endpoint = .ok () := by
  simp only [Enrollment.isValidEndpoint, isValidField, Bool.and_eq_true, decide_eq_true_eq] at h
  exact Postgres.require_eq_ok.mpr h.1.1.2

/-- What an enrollment accepts as an endpoint satisfies the constraint of the column. -/
theorem Enrollment.column_of_isValidEndpoint (h : Enrollment.isValidEndpoint endpoint = true) :
    1 ≤ endpoint.length ∧ endpoint.length ≤ 2048 ∧
      endpoint.startsWith "https://".toList = true := by
  simp only [Enrollment.isValidEndpoint, isValidField, Bool.and_eq_true, decide_eq_true_eq,
    Bool.not_eq_true', List.isEmpty_eq_false_iff] at h
  obtain ⟨⟨⟨⟨hne, hlen⟩, -⟩, -⟩, hstarts⟩ := h
  exact ⟨List.length_pos_iff.mpr hne, endpoint.length_le_len.trans hlen, hstarts⟩

end Validations

/-! ## The registration -/

section Registration

variable {sha256 : List UInt8 → Bytes32} {request : EnrollmentRequest}
    {policy : LeasePolicy} {now : ℤ}

/-- The instance of a request that was built, with the request's endpoint. -/
theorem EnrollmentRequest.Built.creates (h : request.Built sha256) (policy : LeasePolicy)
    (hnow : 0 ≤ now) :
    ∃ i, RegisteredInstance.create request.publicKey request.endpoint now
        (now + policy.durationSeconds) = .ok i ∧ i.endpoint = request.endpoint := by
  have hvalid := Enrollment.registers_of_isValidEndpoint request.endpoint_valid
  have hduration := policy.bounds.1
  unfold RegisteredInstance.create RegisteredInstance.restore
  rw [dif_neg (by simp [h.trimmed.1, hvalid]), dif_neg (by simp; omega)]
  exact ⟨_, rfl, h.trimmed.1⟩

/-- A row with the endpoint of a request satisfies its `CHECK` constraints. -/
theorem EnrollmentRequest.check_of_endpoint {i : RegisteredInstance}
    (h : i.endpoint = request.endpoint) : checkText i.row.endpoint = .ok () ∧
      i.row.check = .ok () := by
  obtain ⟨hregistered, hexpires, hrevision, -⟩ := i.lease
  have hvalid : Enrollment.isValidEndpoint i.row.endpoint = true := by
    change Enrollment.isValidEndpoint i.endpoint = true
    rw [h]
    exact request.endpoint_valid
  refine ⟨Enrollment.text_of_isValidEndpoint hvalid, ?_⟩
  simp only [ServiceInstanceRow.check, Postgres.require_bind_eq_ok, Postgres.require_eq_ok]
  exact ⟨hexpires, (fun _ h => by cases h), Enrollment.column_of_isValidEndpoint hvalid, hrevision,
    hregistered⟩

/-- The rows of the key and of the audit satisfy their `CHECK` constraints. -/
theorem RegisteredInstance.check_keyRow (i : RegisteredInstance) (crates : KeyCrates) :
    (i.keyRow crates).check = .ok () ∧ (i.auditRow .registered i.registeredAt).check = .ok () := by
  obtain ⟨hregistered, -, hrevision, -⟩ := i.lease
  simp only [ServiceInstanceKeyRow.check, RegistryAuditRow.check, Postgres.require_bind_eq_ok,
    Postgres.require_eq_ok]
  exact ⟨⟨(fun _ h => by cases h), hregistered⟩, hrevision, hregistered⟩

end Registration

/-! ## The answers -/

/-- What the database answers when it cannot store a text, or a `CHECK` constraint refuses a row. -/
def RefusesRow : DbError → Prop
  | .invalidText => True
  | .checkViolation _ => True
  | _ => False

/-- What the registry answers when it, or the database, refuses the record or its endpoint. -/
def InstanceRegistryError.Refuses : InstanceRegistryError → Prop
  | .invalidEndpoint => True
  | .invalidStoredRecord => True
  | .repository (.database e) => RefusesRow e
  | _ => False

section Answers

variable {crates : KeyCrates} {request : EnrollmentRequest} {policy : LeasePolicy} {now : ℤ}

/-- The registry passes on what refuses a row, and nothing else refuses it. -/
theorem PostgresInstanceRegistry.refuses_ofInsert {key : InstancePublicKey} {e : DbError}
    (h : ¬ RefusesRow e) : ¬ (ofInsertInstance key e).Refuses ∧ ¬ (ofInsertKey key e).Refuses := by
  cases e with
  | uniqueViolation => exact ⟨id, id⟩
  | foreignKeyViolation => exact ⟨id, h⟩
  | _ => exact ⟨h, h⟩

/-- The database refuses a valid row for what else is stored only. -/
theorem Db.avoids_checkServiceInstance {d : Db} {row : ServiceInstanceRow}
    (htext : checkText row.endpoint = .ok ()) (hcheck : row.check = .ok ()) :
    Postgres.Avoids RefusesRow (d.checkServiceInstance row) := by
  unfold Db.checkServiceInstance
  rw [htext, hcheck]
  exact .bind .ok fun _ _ => .bind .ok fun _ _ => .bind (.require fun _ => id) fun _ _ =>
    .require fun _ => id

/-- The other constraints on a key do not refuse what is enrolled. -/
theorem Db.avoids_checkServiceInstanceKey {d : Db} {row : ServiceInstanceKeyRow}
    (hcheck : row.check = .ok ()) : Postgres.Avoids RefusesRow (d.checkServiceInstanceKey row) := by
  unfold Db.checkServiceInstanceKey
  rw [hcheck]
  -- Three unique indexes, and then the foreign key.
  exact .bind .ok fun _ _ => .bind (.require fun _ => id) fun _ _ => .bind (.require fun _ => id)
    fun _ _ => .bind (.require fun _ => id) fun _ _ => .require fun _ => id

/-- Registering a valid instance is not refused. -/
theorem PostgresInstanceRegistry.ends_insert {i : RegisteredInstance}
    (hendpoint : i.endpoint = request.endpoint) :
    (PostgresInstanceRegistry.insert crates i).Ends fun a => ∀ er, a = .error er →
      ¬ er.Refuses := by
  have hfail : ∀ er, (.error (.ofDatabase .unavailable) : Except InstanceRegistryError Unit) =
      .error er → ¬ er.Refuses := by
    intro er h
    obtain rfl := Except.error.inj h
    exact id
  obtain ⟨htext, hcheck⟩ := EnrollmentRequest.check_of_endpoint hendpoint
  obtain ⟨hkey, haudit⟩ := i.check_keyRow crates
  refine .transaction (.orFail_bind (.insert hfail fun d => ?_))
  cases hinstance : d.checkServiceInstance i.row with
  | error e =>
    rintro er heq
    rw [← Except.error.inj heq]
    exact (refuses_ofInsert (Db.avoids_checkServiceInstance htext hcheck e hinstance)).1
  | ok _ =>
    refine .orFail_bind (.insert hfail fun d => ?_)
    cases hkeys : d.checkServiceInstanceKey (i.keyRow crates) with
    | error e =>
      rintro er heq
      rw [← Except.error.inj heq]
      exact (refuses_ofInsert (Db.avoids_checkServiceInstanceKey hkey e hkeys)).2
    | ok _ =>
      refine .orFail_bind (.insert hfail fun d => ?_)
      rw [haudit]
      exact .orFail (.commitNow hfail fun _ h => by cases h)

/-- Nor is registering what an enrollment asks for. -/
theorem EnrollmentRequest.Built.ends_registerVerified {sha256 : List UInt8 → Bytes32}
    (h : request.Built sha256) :
    (InstanceRegistryService.registerVerified crates policy request.publicKey request.endpoint
      now).Ends fun a => ∀ er, a = .error er → ¬ er.Refuses := by
  refine .ensure_bind (fun e he er heq => ?_) fun i hi => ?_
  · obtain rfl := Except.error.inj heq
    -- The time was out of range, since with a time in range the instance can be created.
    have hinvalid : e = .invalidTimestamp := by
      rcases Postgres.bind_eq_error.mp he with he | ⟨_, hnow, he⟩
      · unfold InstanceRegistryService.validateTimestamp at he
        split at he
        · exact (Except.error.inj he).symm
        · cases he
      rcases Postgres.bind_eq_error.mp he with he | ⟨expires, hexpires, he⟩
      · unfold InstanceRegistryService.leaseEnd at he
        split at he
        · cases he
        · exact (Except.error.inj he).symm
      unfold InstanceRegistryService.validateTimestamp at hnow
      unfold InstanceRegistryService.leaseEnd at hexpires
      split at hnow
      · cases hnow
      rename_i hnonneg
      split at hexpires
      · obtain ⟨i, hi, -⟩ := h.creates policy (not_lt.mp hnonneg)
        rw [← Except.ok.inj hexpires, hi] at he
        cases he
      · cases hexpires
    rw [hinvalid]
    exact id
  · obtain ⟨_, -, hi⟩ := Postgres.bind_eq_ok.mp hi
    obtain ⟨expires, -, hcreate⟩ := Postgres.bind_eq_ok.mp hi
    have hendpoint : i.endpoint = request.endpoint :=
      (RegisteredInstance.restore_eq_ok hcreate).2.1.trans h.trimmed.1
    refine .run_bind ((PostgresInstanceRegistry.ends_insert hendpoint).mono fun r hr => ?_)
    cases r with
    | error e =>
      intro er heq
      rw [← Except.error.inj heq]
      exact hr e rfl
    | ok _ => exact fun _ h => by cases h

end Answers

/-! ## Every run -/

namespace Enrollments

open Postgres (Receipt)

/-- What an enrollment answers once its challenge is consumed, where it fails. -/
def Settled (a : Result) : Prop :=
  ∃ r, a = .registered r ∧ ∀ er, r = .error er → ∃ er', er = .registry er' ∧ ¬ er'.Refuses

/-- An enrollment that has changed the challenges is settled. -/
def settlement (crates : KeyCrates) : Receipt (system crates) where
  pays w := ∃ rw, w = .enrollmentChallenges rw
  before _ _ := True
  after op a := ∀ call, op = .enroll call → Settled a
  program op := by
    by_cases hop : ∃ call, op = .enroll call
    · obtain ⟨call, rfl⟩ := hop
      refine .bind (.ensure_bind (fun _ _ => trivial) fun request hrequest => ?_)
      have hbuilt : request.Built crates.sha256 := .restored hrequest
      refine (pays_authenticateAndRegister call.reviewer (fun row _ => ⟨.update row, rfl⟩)
        hbuilt.ends_registerVerified).mono (fun _ _ _ => trivial) fun r hr => ?_
      exact fun _ _ => ⟨r, rfl, hr⟩
    · refine .of_ends (fun _ _ _ => trivial) (.mono (fun _ _ => ?_) (.trivially _))
      exact fun call heq => absurd ⟨call, heq⟩ hop

/-- An endpoint that an enrollment accepts is one that can be registered: the instance is created
with it unchanged, and satisfies the constraints of its row, and whatever the registration reads, it
does not answer that the endpoint or the record is refused. So in any run, neither does an
enrollment in one of whose events the challenges have changed. -/
theorem endpoint_registers (crates : KeyCrates) :
    (∀ request : EnrollmentRequest, request.Built crates.sha256 →
      ∀ (policy : LeasePolicy) (now : ℤ), (0 ≤ now → ∃ i,
        RegisteredInstance.create request.publicKey request.endpoint now
          (now + policy.durationSeconds) = .ok i ∧
        i.endpoint = request.endpoint ∧ i.row.endpoint = request.endpoint ∧
        checkText i.row.endpoint = .ok () ∧ i.row.check = .ok ()) ∧
      (InstanceRegistryService.registerVerified crates policy request.publicKey request.endpoint
        now).Ends fun a => ∀ er, a = .error er → ¬ er.Refuses) ∧
    ∀ d₀ s, (system crates).Reaches d₀ s → ∀ ev s', (system crates).step s ev = some s' →
      ∀ id call, s.Runs ev id (.enroll call) →
        s'.db.enrollmentChallenges ≠ s.db.enrollmentChallenges →
        ∀ s'' a, (system crates).Later s' s'' → ⟨id, .enroll call, a⟩ ∈ s''.log → Settled a := by
  refine ⟨fun request hbuilt policy now => ⟨fun hnow => ?_, hbuilt.ends_registerVerified⟩, ?_⟩
  · obtain ⟨i, hi, hendpoint⟩ := hbuilt.creates policy hnow
    obtain ⟨htext, hcheck⟩ := EnrollmentRequest.check_of_endpoint hendpoint
    exact ⟨i, hi, hendpoint, hendpoint, htext, hcheck⟩
  · intro d₀ s hs ev s' hstep id call hrun hchanged s'' a hl he
    by_contra hnot
    obtain ⟨ws, hws, hdb⟩ := Receipt.commits_nothing (R := settlement crates) hs hstep hrun hl he
      fun h => hnot (h call rfl)
    refine hchanged ?_
    rw [hdb]
    exact enrollmentChallenges_versioned.view_other fun w hw rw hrw => hws w hw ⟨rw, hrw⟩

/-- An endpoint that comes with a space is registered without it. -/
theorem endpoint_registers_trimmed : ∃ request i, exampleEnrollment.request = .ok request ∧
    RegisteredInstance.create request.publicKey request.endpoint 105 165 = .ok i ∧
    i.row.endpoint = "https://10.0.0.1:8443".toList ∧ i.row.check = .ok () := by
  have hok : exampleEnrollment.request.isOk = true := by decide +kernel
  obtain ⟨request, hrequest⟩ : ∃ request, exampleEnrollment.request = .ok request := by
    cases h : exampleEnrollment.request with
    | ok request => exact ⟨request, rfl⟩
    | error e =>
      rw [h] at hok
      cases hok
  obtain ⟨i, hi, -, hendpoint, -, hcheck⟩ := ((endpoint_registers exampleEnrollmentCrates).1 request
    (.restored hrequest) exampleEnrollment.policy 105).1 (by decide)
  refine ⟨request, i, hrequest, hi, hendpoint.trans ?_, hcheck⟩
  rw [(EnrollmentRequest.restore_eq_ok hrequest).2.2.1]
  decide +kernel

end Enrollments

end InfernalLaw
