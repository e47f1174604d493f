import InfernalLaw.Infrastructure.Constraints
import InfernalLaw.Kernel.ReplayProtection
import InfernalLaw.Postgres.Faults

/-!
# The replay protection repository

`PostgresReplayProtectionRepository::reserve` as a process over the database, and what it may
commit. Its rejections are committed too, with a row in the audit.
-/

namespace InfernalLaw

open Postgres (Avoids Contract DbError Store require require_bind_eq_ok require_eq_ok)
open Postgres.Proc (commitNow insert insertOrNothing one orFail query transaction)

/-- `repository_error`. -/
def ReplayProtectionError.ofDatabase (e : DbError) : ReplayProtectionError :=
  .repository (.database e)

namespace ReplayReservation

/-- The row of `service_request_nonces`. -/
def nonceRow (r : ReplayReservation) : ServiceRequestNonceRow where
  keyId := r.keyId
  nonceDigest := r.nonceDigest
  serviceId := r.serviceId
  instanceId := r.instanceId
  requestId := r.requestId
  requestFingerprint := r.requestFingerprint
  signatureCreated := r.signatureCreated
  signatureExpires := r.signatureExpires
  reservedAt := r.reservedAt

/-- The row of `service_request_ids`. -/
def requestIdRow (r : ReplayReservation) : ServiceRequestIdRow where
  serviceId := r.serviceId
  requestId := r.requestId
  requestFingerprint := r.requestFingerprint
  firstSeenAt := r.reservedAt

/-- The row of `service_request_replay_audit`. -/
def auditRow (r : ReplayReservation) (outcome : ReplayOutcome) : ReplayAuditRow where
  serviceId := r.serviceId
  instanceId := r.instanceId
  keyId := r.keyId
  requestId := r.requestId
  nonceDigest := r.nonceDigest
  requestFingerprint := r.requestFingerprint
  outcome := outcome
  recordedAt := r.reservedAt

end ReplayReservation

namespace PostgresReplayProtectionRepository

/-- The `INSERT` of the nonce, `ON CONFLICT (key_id, nonce_digest) DO NOTHING`. -/
def insertNonce (r : ReplayReservation) : Sql (Except DbError ℕ) :=
  insertOrNothing store "INSERT service_request_nonces"
    (do
      require (r.signatureCreated < r.signatureExpires)
        (.checkViolation "service_request_nonces_check")
      require (0 ≤ r.reservedAt) (.checkViolation "service_request_nonces_reserved_at_check")
      require (0 ≤ r.signatureCreated)
        (.checkViolation "service_request_nonces_signature_created_check"))
    (fun d => d.serviceRequestNonces.any fun row =>
      row.keyId = r.keyId ∧ row.nonceDigest = r.nonceDigest)
    (fun d => do
      require (∃ row ∈ d.serviceInstanceKeys, row.keyId = r.keyId)
        (.foreignKeyViolation "service_request_nonces_key_id_fkey")
      require (r.serviceId ∈ d.identities)
        (.foreignKeyViolation "service_request_nonces_service_id_fkey")
      require (∃ row ∈ d.serviceInstances, row.instanceId = r.instanceId)
        (.foreignKeyViolation "service_request_nonces_instance_id_fkey"))
    (.serviceRequestNonces r.nonceRow)

/-- The `INSERT` of the request identifier, `ON CONFLICT (service_id, request_id) DO NOTHING`. -/
def insertRequestId (r : ReplayReservation) : Sql (Except DbError ℕ) :=
  insertOrNothing store "INSERT service_request_ids"
    (require (0 ≤ r.reservedAt) (.checkViolation "service_request_ids_first_seen_at_check"))
    (fun d => d.serviceRequestIds.any fun row =>
      row.serviceId = r.serviceId ∧ row.requestId = r.requestId)
    (fun d => require (r.serviceId ∈ d.identities)
      (.foreignKeyViolation "service_request_ids_service_id_fkey"))
    (.serviceRequestIds r.requestIdRow)

/-- The `SELECT` of the fingerprint that the request identifier is bound to. -/
def storedFingerprint (r : ReplayReservation) : Sql (Except DbError (Option Bytes32)) :=
  query "SELECT request_fingerprint" fun d =>
    (d.serviceRequestIds.find? fun row =>
      row.serviceId = r.serviceId ∧ row.requestId = r.requestId).map
        ServiceRequestIdRow.requestFingerprint

/-- `append_audit`. -/
def appendAudit (r : ReplayReservation) (outcome : ReplayOutcome) : Sql (Except DbError Unit) :=
  insert store "INSERT service_request_replay_audit" (fun _ => [])
    (fun _ => require (0 ≤ r.reservedAt)
      (.checkViolation "service_request_replay_audit_recorded_at_check"))
    (.replayAudit (r.auditRow outcome))

/-- How `reserve` ends: with an audit row, a commit, and its answer. -/
def conclude (r : ReplayReservation) (outcome : ReplayOutcome)
    (answer : Except ReplayProtectionError ReplayDisposition) :
    Fallible ReplayProtectionError ReplayDisposition := do
  let _ ← orFail .ofDatabase (appendAudit r outcome)
  let _ ← orFail .ofDatabase commitNow
  Postgres.Proc.ensure answer

/-- `reserve`. -/
def reserve (r : ReplayReservation) : Sql (Except ReplayProtectionError ReplayDisposition) :=
  transaction do
    let nonceRows ← orFail .ofDatabase (insertNonce r)
    if nonceRows = 0 then
      conclude r .replayRejected (.error .replayDetected)
    else if nonceRows ≠ 1 then
      throw (.repository (.kernel s!"nonce reservation changed {nonceRows} rows"))
    else do
      let requestRows ← orFail .ofDatabase (insertRequestId r)
      let stored ← orFail .ofDatabase (one (storedFingerprint r))
      if stored ≠ r.requestFingerprint then
        conclude r .requestConflictRejected (.error .requestIdConflict)
      else if requestRows = 1 then
        conclude r .fresh (.ok .fresh)
      else if requestRows = 0 then
        conclude r .safeRetry (.ok .safeRetry)
      else
        throw (.repository (.kernel s!"request ID reservation changed {requestRows} rows"))

end PostgresReplayProtectionRepository

/-! ## What a reservation commits -/

/-- No write changes a nonce or takes it away. -/
theorem appendOnly_serviceRequestNonces :
    store.AppendOnly Db.serviceRequestNonces Write.serviceRequestNonces where
  apply_write _ _ := rfl
  apply_other _ w h := by cases w <;> first | rfl | exact absurd rfl (h _)

/-- Nor a request identifier. -/
theorem appendOnly_serviceRequestIds :
    store.AppendOnly Db.serviceRequestIds Write.serviceRequestIds where
  apply_write _ _ := rfl
  apply_other _ w h := by cases w <;> first | rfl | exact absurd rfl (h _)

/-- Nor an audit entry. -/
theorem appendOnly_replayAudit : store.AppendOnly Db.replayAudit Write.replayAudit where
  apply_write _ _ := rfl
  apply_other _ w h := by cases w <;> first | rfl | exact absurd rfl (h _)

/-- The nonce has been consumed. -/
def Db.NonceUsed (d : Db) (r : ReplayReservation) : Prop :=
  ∃ row ∈ d.serviceRequestNonces, row.keyId = r.keyId ∧ row.nonceDigest = r.nonceDigest

/-- The request identifier is bound to a fingerprint. -/
def Db.BoundTo (d : Db) (r : ReplayReservation) (fingerprint : Bytes32) : Prop :=
  ∃ row ∈ d.serviceRequestIds, row.serviceId = r.serviceId ∧ row.requestId = r.requestId ∧
    row.requestFingerprint = fingerprint

/-- The key, the service and the instance of the message are registered. -/
def Db.Knows (d : Db) (r : ReplayReservation) : Prop :=
  r.keyId ∈ d.serviceInstanceKeys.map ServiceInstanceKeyRow.keyId ∧ r.serviceId ∈ d.identities ∧
    r.instanceId ∈ d.serviceInstances.map ServiceInstanceRow.instanceId

/-- The tables take the rows of the attempt: the signature's times are in order, and the foreign
keys find what they refer to. -/
def Db.Takes (d : Db) (r : ReplayReservation) : Prop :=
  (0 ≤ r.signatureCreated ∧ r.signatureCreated < r.signatureExpires) ∧ d.Knows r

/-- The answers that are committed, each with its writes and what they find. -/
inductive Commits (r : ReplayReservation) (d : Db) :
    Except ReplayProtectionError ReplayDisposition → List Write → Prop where
  | replay (hused : d.NonceUsed r) :
      Commits r d (.error .replayDetected) [.replayAudit (r.auditRow .replayRejected)]
  | conflict {fingerprint : Bytes32} (hnonce : ¬ d.NonceUsed r) (hbound : d.BoundTo r fingerprint)
      (hne : fingerprint ≠ r.requestFingerprint) :
      Commits r d (.error .requestIdConflict)
        [.serviceRequestNonces r.nonceRow, .replayAudit (r.auditRow .requestConflictRejected)]
  | fresh (hnonce : ¬ d.NonceUsed r) (hfree : ∀ fingerprint, ¬ d.BoundTo r fingerprint) :
      Commits r d (.ok .fresh)
        [.serviceRequestNonces r.nonceRow, .serviceRequestIds r.requestIdRow,
          .replayAudit (r.auditRow .fresh)]
  | safeRetry (hnonce : ¬ d.NonceUsed r) (hbound : d.BoundTo r r.requestFingerprint) :
      Commits r d (.ok .safeRetry)
        [.serviceRequestNonces r.nonceRow, .replayAudit (r.auditRow .safeRetry)]

section

variable {locks : List Key} {r : ReplayReservation} {fingerprint : Bytes32}

/-- A nonce that has been consumed stays so. -/
theorem stable_nonceUsed : store.Stable locks fun d => d.NonceUsed r :=
  fun d w ⟨row, hmem, hrow⟩ hk =>
    ⟨row, appendOnly_serviceRequestNonces.stable_mem row d w hmem hk, hrow⟩

/-- A request identifier stays bound to its fingerprint. -/
theorem stable_boundTo : store.Stable locks fun d => d.BoundTo r fingerprint :=
  fun d w ⟨row, hmem, hrow⟩ hk =>
    ⟨row, appendOnly_serviceRequestIds.stable_mem row d w hmem hk, hrow⟩

/-- While its index entry is held, a nonce stays unused by others. -/
theorem stable_not_nonceUsed (h : .nonce r.keyId r.nonceDigest ∈ locks) :
    store.Stable locks fun d => ¬ d.NonceUsed r := by
  intro d w hd hk ⟨row, hmem, hkey, hdigest⟩
  rcases appendOnly_serviceRequestNonces.mem_apply hmem with hmem | rfl
  · exact hd ⟨row, hmem, hkey, hdigest⟩
  · exact hk (.nonce row.keyId row.nonceDigest) (by simp [Write.keys]) (hkey ▸ hdigest ▸ h)

/-- While its index entry is held, a request identifier stays unbound by others. -/
theorem stable_not_boundTo (h : .serviceRequestId r.serviceId r.requestId ∈ locks) :
    store.Stable locks fun d => ∀ fingerprint, ¬ d.BoundTo r fingerprint := by
  intro d w hd hk fingerprint ⟨row, hmem, hservice, hrequest, hrow⟩
  rcases appendOnly_serviceRequestIds.mem_apply hmem with hmem | rfl
  · exact hd fingerprint ⟨row, hmem, hservice, hrequest, hrow⟩
  · exact hk (.serviceRequestId row.serviceId row.requestId) (by simp [Write.keys])
      (hservice ▸ hrequest ▸ h)

end

namespace PostgresReplayProtectionRepository

variable {Op α : Type} {program : Op → Sql α} {C : Contract (kernelSystem program)} {op : Op}
  {r : ReplayReservation} {Q : C.Post (Except ReplayProtectionError ReplayDisposition)}

/-- A `SELECT` finds the row that the transaction has inserted itself. -/
theorem find_own_requestId {d : Db} (h : ∀ fingerprint, ¬ d.BoundTo r fingerprint) :
    (d.serviceRequestIds ++ [r.requestIdRow]).find? (fun row =>
      row.serviceId = r.serviceId ∧ row.requestId = r.requestId) = some r.requestIdRow := by
  have hnone : d.serviceRequestIds.find? (fun row =>
      row.serviceId = r.serviceId ∧ row.requestId = r.requestId) = none :=
    List.find?_eq_none.mpr fun row hmem hrow =>
      have hkey := of_decide_eq_true hrow
      h _ ⟨row, hmem, hkey.1, hkey.2, rfl⟩
  rw [List.find?_append, hnone, Option.none_or]
  exact List.find?_cons_of_pos (by simp [ReplayReservation.requestIdRow])

/-- The rule of `conclude`: the audit takes the row of every attempt. -/
theorem wp_conclude (hquiet : ∀ d, C.guar op d [] none) {outcome : ReplayOutcome}
    {answer : Except ReplayProtectionError ReplayDisposition}
    (hfail : ∀ d, C.Good d → Q (.error (.ofDatabase .unavailable)) d [] [] []) {e : Db}
    {locks : List Key} {ws : List Write} (hok : ∀ d, C.Rely locks e d → C.Good d →
      Q answer d (ws ++ [.replayAudit (r.auditRow outcome)]) [] []) :
    C.wp op (conclude r outcome answer).run (fun r e u _ _ => Q r e u [] []) e [] locks ws := by
  refine Contract.wp_orFail_bind.mpr ?_
  refine Contract.wp_insert' (hquiet e) hfail (fun d₁ er _ _ hrefused => ?_) fun d₁ hr₁ hg₁ _ => ?_
  · rw [require_eq_ok.mpr r.timely.1] at hrefused
    cases hrefused
  refine Contract.wp_orFail_bind.mpr ?_
  refine Contract.wp_commitNow' (hquiet d₁) hfail fun d₂ hr₂ hg₂ => ?_
  exact hok d₂ (hr₁.trans (hr₂.mono fun k hk => List.mem_append_left _ hk)) hg₂

/-- The rule of `reserve`. Besides a failure of the server, only the tables' constraints keep an
attempt from being committed. -/
theorem wp_reserve (hquiet : ∀ d, C.guar op d [] none)
    (hfail : ∀ d, C.Good d → Q (.error (.ofDatabase .unavailable)) d [] [] [])
    (hrefused : ∀ d er, C.Good d → ¬ d.Takes r → Q (.error (.ofDatabase er)) d [] [] [])
    (hok : ∀ d answer ws, C.Good d → Commits r d answer ws → Q answer d ws [] []) {e : Db} :
    C.wp op (reserve r) Q e [] [] [] := by
  refine Contract.wp_transaction.mpr (Contract.wp_orFail_bind.mpr ?_)
  refine Contract.wp_insertOrNothing' (hquiet e) hfail ?_ ?_ ?_ ?_
  · -- A `CHECK` constraint refuses the row.
    intro d₁ er _ _ _ hg₁ hvalid
    refine hrefused d₁ er hg₁ fun htakes => ?_
    simp [require, htakes.1, r.timely.1, bind, Except.bind] at hvalid
  · -- A foreign key finds nothing.
    intro d₁ er _ hg₁ _ hcheck
    refine hrefused d₁ er hg₁ fun htakes => ?_
    obtain ⟨-, hkey, hservice, hinstance⟩ := htakes
    have hknown : require (∃ row ∈ d₁.serviceInstanceKeys, row.keyId = r.keyId) _ >>= _ =
      .error er := hcheck
    simp [require, List.mem_map.mp hkey, hservice, List.mem_map.mp hinstance, bind, Except.bind]
      at hknown
  · -- The nonce has been consumed by a transaction that has committed.
    intro d₁ hr₁ hg₁ _ hconflict
    have hused : d₁.NonceUsed r := by simpa [Db.NonceUsed] using hconflict
    exact wp_conclude hquiet hfail fun d hr hg =>
      hok d _ _ hg (.replay (hr.stable stable_nonceUsed hused))
  intro d₁ hr₁ hg₁ _ hconflict _
  have hnonce₁ : ¬ d₁.NonceUsed r := by simpa [Db.NonceUsed] using hconflict
  -- The nonce's index entry is held from here on.
  have hnonce : ∀ locks', (∀ k ∈ ([] : List Key) ++ store.keys (.serviceRequestNonces r.nonceRow),
      k ∈ locks') → store.Stable locks' fun d => ¬ d.NonceUsed r := fun locks' hl =>
    stable_not_nonceUsed (hl _ (by simp [Write.keys, ReplayReservation.nonceRow]))
  refine Contract.wp_orFail_bind.mpr ?_
  refine Contract.wp_insertOrNothing' (hquiet d₁) hfail ?_ ?_ ?_ ?_
  · intro d₂ er _ _ _ _ hvalid
    rw [require_eq_ok.mpr r.timely.1] at hvalid
    cases hvalid
  · -- The service is not registered.
    intro d₂ er _ hg₂ _ hcheck
    refine hrefused d₂ er hg₂ fun htakes => ?_
    have hservice : require (r.serviceId ∈ d₂.identities) _ = .error er := hcheck
    rw [require_eq_ok.mpr htakes.2.2.1] at hservice
    cases hservice
  · -- The request identifier is bound already: the row that the `INSERT` has met is committed, and
    -- stays, so that the `SELECT` finds it.
    intro d₂ hr₂ hg₂ _ hbound₂
    refine Contract.wp_orFail_bind.mpr (Contract.wp_one.mpr ?_)
    refine Contract.wp_query' (hquiet d₂) hfail ?_
    intro d₃ d₄ hr₃ hg₃ _ hr₄ hg₄
    obtain ⟨row, hfind, hmem, hfound⟩ :=
      hr₃.exists_find (d := d₂) appendOnly_serviceRequestIds hbound₂
    have hkey : row.serviceId = r.serviceId ∧ row.requestId = r.requestId :=
      of_decide_eq_true hfound
    have hfind : (store.view d₃ ([] ++ [.serviceRequestNonces r.nonceRow])).serviceRequestIds.find?
        (fun row => row.serviceId = r.serviceId ∧ row.requestId = r.requestId) = some row := hfind
    rw [hfind]
    have hbound : ∀ d, C.Rely _ d₄ d → d.BoundTo r row.requestFingerprint := fun d hr =>
      (hr₄.trans hr).stable stable_boundTo ⟨row, hmem, hkey.1, hkey.2, rfl⟩
    have hnonce' : ∀ d, C.Rely _ d₄ d → ¬ d.NonceUsed r := fun d hr =>
      (((hr₂.trans hr₃).trans hr₄).trans hr).stable (hnonce _ fun _ h => h) hnonce₁
    dsimp only [Option.map_some, Except.bind, Option.elim]
    by_cases hne : row.requestFingerprint ≠ r.requestFingerprint
    · rw [if_pos hne]
      exact wp_conclude hquiet hfail fun d hr hg =>
        hok d _ _ hg (.conflict (hnonce' d hr) (hbound d hr) hne)
    · rw [if_neg hne, if_neg (by decide), if_pos rfl]
      rw [not_not] at hne
      exact wp_conclude hquiet hfail fun d hr hg =>
        hok d _ _ hg (.safeRetry (hnonce' d hr) (hne ▸ hbound d hr))
  · -- The request identifier is new, and its index entry is held from here on.
    intro d₂ hr₂ hg₂ _ hfree _
    have hfree₂ : ∀ fingerprint, ¬ d₂.BoundTo r fingerprint := by
      rintro fingerprint ⟨row, hmem, hservice, hrequest, -⟩
      simp only [List.any_eq_false, decide_eq_true_eq] at hfree
      exact hfree row hmem ⟨hservice, hrequest⟩
    have hstable : store.Stable (([] : List Key) ++ store.keys (.serviceRequestNonces r.nonceRow) ++
        store.keys (.serviceRequestIds r.requestIdRow)) fun d => ∀ fingerprint,
          ¬ d.BoundTo r fingerprint :=
      stable_not_boundTo (by simp [Write.keys, ReplayReservation.requestIdRow])
    refine Contract.wp_orFail_bind.mpr (Contract.wp_one.mpr ?_)
    refine Contract.wp_query' (hquiet d₂) hfail ?_
    intro d₃ d₄ hr₃ hg₃ _ hr₄ hg₄
    -- The row found is the transaction's own.
    have hfind : (store.view d₃ ([] ++ [Write.serviceRequestNonces r.nonceRow] ++
        [Write.serviceRequestIds r.requestIdRow])).serviceRequestIds.find?
        (fun row => row.serviceId = r.serviceId ∧ row.requestId = r.requestId) =
          some r.requestIdRow :=
      find_own_requestId (hr₃.stable hstable hfree₂)
    rw [hfind]
    dsimp only [Option.map_some, Except.bind, Option.elim]
    rw [if_neg (by simp [ReplayReservation.requestIdRow]), if_pos rfl]
    refine wp_conclude hquiet hfail fun d hr hg => hok d _ _ hg (.fresh ?_ ?_)
    · have hr' := (hr₃.trans hr₄).trans hr
      have hnonce₂ := hr₂.stable (hnonce _ fun _ h => h) hnonce₁
      exact hr'.stable (hnonce _ fun k hk => List.mem_append_left _ hk) hnonce₂
    · exact ((hr₃.trans hr₄).trans hr).stable hstable hfree₂

/-- What `reserve` answers when the server does not fail it is no failure of the server. -/
theorem reserve_delivers : (reserve r).Delivers fun answer =>
    answer ≠ .error (.ofDatabase .unavailable) := by
  -- An error with a text of the kernel's own, and the verdict of a constraint.
  have hkernel : ∀ message, (.error (.repository (.kernel message)) : Except _ _) ≠
      (.error (.ofDatabase .unavailable) : Except ReplayProtectionError ReplayDisposition) := by
    rintro message ⟨⟩
  have hverdict : ∀ {β : Type} {verdict : Except DbError β} {e : DbError},
      Avoids (· = .unavailable) verdict → verdict = .error e → (.error (.ofDatabase e) :
        Except ReplayProtectionError ReplayDisposition) ≠ .error (.ofDatabase .unavailable) := by
    rintro β verdict e h he ⟨⟩
    exact h _ he rfl
  have hconclude : ∀ outcome answer, answer ≠ .error (.ofDatabase .unavailable) →
      (conclude r outcome answer).run.Delivers fun answer =>
        answer ≠ .error (.ofDatabase .unavailable) := by
    intro outcome answer hanswer
    refine .orFail_bind (.insert fun d => ?_)
    rw [require_eq_ok.mpr r.timely.1]
    exact .orFail_bind (.commitNow hanswer)
  refine .transaction (.orFail_bind (.insertOrNothing (fun e he => ?_) (fun d e he => ?_)
    fun n => ?_))
  · exact hverdict (.bind (.require fun _ => by simp) fun _ _ =>
      .bind (.require fun _ => by simp) fun _ _ => .require fun _ => by simp) he
  · exact hverdict (.bind (.require fun _ => by simp) fun _ _ =>
      .bind (.require fun _ => by simp) fun _ _ => .require fun _ => by simp) he
  dsimp only
  split
  · exact hconclude _ _ (by rintro ⟨⟩)
  split
  · exact hkernel _
  refine .orFail_bind (.insertOrNothing (fun e he => ?_) (fun d e he => ?_) fun m => ?_)
  · exact hverdict (.require fun _ => by simp) he
  · exact hverdict (.require fun _ => by simp) he
  refine .orFail_bind (.bind (.query fun d => ?_))
  generalize List.find? _ _ = found
  cases found with
  | none => rintro ⟨⟩
  | some row =>
    dsimp only [Option.map_some, Except.bind, Option.elim, Postgres.Proc.Delivers]
    split
    · exact hconclude _ _ (by rintro ⟨⟩)
    split
    · exact hconclude _ _ (by rintro ⟨⟩)
    split
    · exact hconclude _ _ (by rintro ⟨⟩)
    · exact hkernel _

end PostgresReplayProtectionRepository

end InfernalLaw
