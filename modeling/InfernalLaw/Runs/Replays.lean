import InfernalLaw.Postgres.Guards
import InfernalLaw.Runs.Mediation

/-!
# Replays

Connections that present one nonce under one key may arrive in any number and overlap in any way.
The reservation of the nonce is what each of them has to commit before it may do anything else, and
it can be committed once only.
-/

namespace InfernalLaw

open Postgres (Contract)
open Postgres.Proc

/-! ## The reservation is what a request pays with -/

/-- The write consumes the nonce under the key. -/
def Consumes (key : KeyId) (digest : Bytes32) (w : Write) : Prop :=
  ∃ row, w = .serviceRequestNonces row ∧ row.keyId = key ∧ row.nonceDigest = digest

section Pays

variable {P : Write → Prop} {ws : List Write} {r : ReplayReservation}

/-- With a write pending that pays, an answer that is committed is paid for. A rejection need not
be. -/
theorem pays_conclude {outcome : ReplayOutcome}
    {answer : Except ReplayProtectionError ReplayDisposition}
    (h : (∃ w ∈ ws, P w) ∨ ∃ e, answer = .error e) :
    (PostgresReplayProtectionRepository.conclude r outcome answer).run.Pays P
      (fun a _ => ∃ e, a = .error e) (fun _ => True) ws := by
  refine .run_bind (.orFail (.insert (fun e _ => ⟨_, rfl⟩) ?_))
  refine .run_bind (.orFail ⟨⟨_, rfl⟩, fun _ => Ends.trivially _, fun hnot => ?_⟩)
  rcases h with ⟨w, hw, hP⟩ | herror
  · exact absurd hP (hnot w (List.mem_append_left _ hw))
  · exact herror

/-- A reservation that is answered without an error is paid for. -/
theorem pays_reserve (hpays : P (.serviceRequestNonces r.nonceRow)) :
    (PostgresReplayProtectionRepository.reserve r).Pays P (fun a _ => ∃ e, a = .error e)
      (fun _ => True) ws := by
  refine .transaction (.run_bind (.orFail (.insertOrNothing (fun e _ => ⟨_, rfl⟩) ?_ ?_)))
  · exact pays_conclude (.inr ⟨_, rfl⟩)
  -- The nonce is pending from here on.
  have hpending : ∃ w ∈ ws ++ [.serviceRequestNonces r.nonceRow], P w :=
    ⟨_, List.mem_append_right _ (List.mem_singleton_self _), hpays⟩
  have hpending' : ∀ ws', ∃ w ∈ ws ++ [.serviceRequestNonces r.nonceRow] ++ ws', P w := fun _ =>
    hpending.imp fun _ hw => ⟨List.mem_append_left _ hw.1, hw.2⟩
  refine .run_bind (.orFail (.insertOrNothing (fun e _ => ⟨_, rfl⟩) ?_ ?_))
  all_goals
    refine .run_bind (.orFail (.one (.query ⟨_, rfl⟩ fun d => ?_)))
    cases (d.serviceRequestIds.find? fun row =>
      row.serviceId = r.serviceId ∧ row.requestId = r.requestId).map
        ServiceRequestIdRow.requestFingerprint with
    | none => exact ⟨_, rfl⟩
    | some stored =>
      dsimp only [Except.bind, Option.elim, Except.mapError]
      split
      all_goals
        first | exact pays_conclude (.inl hpending) | exact pays_conclude (.inl (hpending' _))

end Pays

/-! ## The gate pays -/

/-- What is verified names the key and the nonce of the signature's metadata. -/
theorem nonce_of_verify {crates : Crates}
    {findEligible : InstanceId → ℤ → Except InstanceRegistryError RegisteredInstance}
    {signed : SignedServiceRequest} {now : ℤ} {metadata : SignatureMetadata}
    {v : VerifiedServiceRequest}
    (hmetadata : parseSignatureInput crates signed.signatureInput = .ok metadata)
    (h : ServiceRequestVerifier.verify crates findEligible signed now = .ok v) :
    v.keyId = metadata.keyId ∧ v.nonceDigest = crates.sha256 metadata.nonce.asBytes := by
  unfold ServiceRequestVerifier.verify at h
  obtain ⟨metadata', hmetadata', h⟩ := Postgres.bind_eq_ok.mp h
  obtain rfl := Except.ok.inj (hmetadata.symm.trans hmetadata')
  obtain ⟨-, -, h⟩ := Postgres.bind_eq_ok.mp h
  obtain ⟨registered, -, h⟩ := Postgres.bind_eq_ok.mp h
  dsimp only at h
  split at h
  · cases h
  split at h
  · cases h
  obtain ⟨signature, -, h⟩ := Postgres.bind_eq_ok.mp h
  split at h
  · cases h
  obtain rfl := Except.ok.inj h
  exact ⟨rfl, rfl⟩

/-- The gate admits no request whose nonce has not been consumed for it. -/
theorem pays_admitService {crates : KeyCrates} {signed : SignedServiceRequest} {now : ℤ}
    {metadata : SignatureMetadata}
    (hmetadata : parseSignatureInput crates.toCrates signed.signatureInput = .ok metadata)
    {ws : List Write} :
    (admitService crates signed now).run.Pays
      (Consumes metadata.keyId (crates.sha256 metadata.nonce.asBytes))
      (fun a _ => ∃ e, a = .error e) (fun _ => True) ws := by
  -- The verification pays nothing, and its nonce is the one of the metadata.
  have hverify : (verifySignature crates signed now).Pays
      (Consumes metadata.keyId (crates.sha256 metadata.nonce.asBytes))
      (fun a _ => ∀ v, a = .ok v → v.keyId = metadata.keyId ∧
        v.nonceDigest = crates.sha256 metadata.nonce.asBytes)
      (fun a => ∀ v, a = .ok v → v.keyId = metadata.keyId ∧
        v.nonceDigest = crates.sha256 metadata.nonce.asBytes) ws := by
    refine .of_ends (fun _ _ h => h) ?_
    unfold verifySignature
    split
    · exact nofun
    · exact .bind ((Ends.trivially _).mono fun registered _ v hv => nonce_of_verify hmetadata hv)
  refine .run_bind (.run_adapt (hverify.mono (fun a ws ha => ?_) fun a _ => ?_))
  · cases a with
    | error e => exact ⟨_, rfl⟩
    | ok v =>
      obtain ⟨hkey, hdigest⟩ := ha v rfl
      refine .run_bind (.run_adapt (.ensure_bind (fun e _ => ⟨_, rfl⟩) fun r hr => ?_))
      have hconsumes : Consumes metadata.keyId (crates.sha256 metadata.nonce.asBytes)
          (.serviceRequestNonces r.nonceRow) := by
        obtain ⟨-, hkey', hdigest'⟩ := reservation_of_verified hr
        exact ⟨_, rfl, hkey'.trans hkey, hdigest'.trans hdigest⟩
      refine (pays_reserve hconsumes).mono (fun a _ ha => ?_) fun a _ => ?_
      · obtain ⟨e, rfl⟩ := ha
        exact ⟨_, rfl⟩
      · cases a with
        | error e => trivial
        | ok disposition => exact Ends.trivially _
  · cases a with
    | error e => trivial
    | ok v => exact Ends.trivially _

/-! ## Connections that present a nonce -/

namespace Kernel

open Postgres (State)

/-- The connection sends a request that is signed under the key, with the nonce. -/
abbrev Presents (crates : ServerCrates) (key : KeyId) (digest : Bytes32) : Op → Prop :=
  Sends crates fun signed => ∃ metadata,
    parseSignatureInput crates.toHttpCrates.toCrates signed.signatureInput = .ok metadata ∧
      metadata.keyId = key ∧ crates.sha256 metadata.nonce.asBytes = digest

/-- The write is to more than the reservations. -/
def Acts (w : Write) : Prop := w.table ∉ reservationTables

variable {crates : ServerCrates} {app : Application} {key : KeyId} {digest : Bytes32}

/-- The routes of the enrollment are not governed. -/
theorem dispatch_of_governed {draws : ConnectionDraws} {request : ParsedRequest}
    (h : isGovernedRoute request.path = true) :
    dispatch crates app draws request = dispatchBehindGate crates app draws request := by
  have hchallenge : request.path ≠ "/v1/enrollments/challenges".toList := by
    intro hpath
    rw [hpath] at h
    exact absurd h (by decide)
  have henrollment : request.path ≠ "/v1/enrollments".toList := by
    intro hpath
    rw [hpath] at h
    exact absurd h (by decide)
  rw [dispatch, if_neg hchallenge, if_neg henrollment, if_pos h]

/-- What presents the nonce does nothing else before it has consumed it. -/
theorem guards_program {op : Op} (h : Presents crates key digest op) :
    (program crates app op).Guards (Consumes key digest) Acts [] := by
  cases op with
  | connection draws stream =>
    obtain ⟨request, governed, signed, hread, hgoverned, hasGoverned, hsigned, metadata,
        hmetadata, rfl,
      rfl⟩ := h
    rw [program_of_read hread, dispatch_of_governed hgoverned, dispatchBehindGate]
    split
    · trivial
    rw [hasGoverned]
    dsimp only
    rw [Postgres.Proc.bind_assoc, authenticateGovernedRequest, hsigned]
    dsimp only
    rw [Postgres.Proc.bind_assoc]
    have hwrites : (admitService crates.toMutationCrates.toKeyCrates signed
        draws.arrivedAt).run.Writes (fun _ => True) fun w => ¬ Acts w :=
      Writes.mono (fun w hw hacts => hacts hw) (Lawful.writes lawfulTo_admitService)
    have hmetadata' : parseSignatureInput crates.toMutationCrates.toKeyCrates.toCrates
        signed.signatureInput = .ok metadata := hmetadata
    have hpays : (admitService crates.toMutationCrates.toKeyCrates signed draws.arrivedAt).run.Pays
        (Consumes metadata.keyId (crates.sha256 metadata.nonce.asBytes))
        (fun a _ => ∃ e, a = .error e) (fun _ => True) [] := pays_admitService hmetadata'
    refine Guards.bind hwrites (fun w hw => absurd hw List.not_mem_nil) ?_
    refine hpays.mono (fun a _ ha => ?_) fun _ h => h
    obtain ⟨e, rfl⟩ := ha
    trivial
  | _ => exact h.elim

/-- The connections that present one nonce. -/
def presenters (crates : ServerCrates) (app : Application) (key : KeyId) (digest : Bytes32) :
    Postgres.Guard (system crates app).tag where
  pays := Consumes key digest
  acts := Acts
  member op := Presents crates key digest op.1
  program _ h := guards_program h

/-- The nonce has been consumed under the key. -/
def Spent (key : KeyId) (digest : Bytes32) (d : Db) : Prop :=
  ∃ row ∈ d.serviceRequestNonces, row.keyId = key ∧ row.nonceDigest = digest

/-- A nonce is written only for the reservation that consumes it. -/
theorem consumes_of_commits {r : ReplayReservation} {d : Db}
    {answer : Except ReplayProtectionError ReplayDisposition} {ws : List Write}
    (h : Commits r d answer ws) {row : ServiceRequestNonceRow}
    (hw : .serviceRequestNonces row ∈ ws) :
    row = r.nonceRow ∧ ¬ d.NonceUsed r := by
  cases h with
  | replay => simp at hw
  | conflict hnonce | fresh hnonce | safeRetry hnonce =>
    simp only [List.mem_cons, Write.serviceRequestNonces.injEq, reduceCtorEq, List.not_mem_nil,
      or_false] at hw
    exact ⟨hw, hnonce⟩

/-- No event consumes the nonce a second time. -/
def spending (crates : ServerCrates) (app : Application) (key : KeyId) (digest : Bytes32) :
    Contract (system crates app).tag where
  inv _ _ := True
  guar _ d ws _ := (∃ w ∈ ws, Consumes key digest w) → ¬ Spent key digest d

section Sound

variable {op : Op × ℕ} {d : Db} {ws : List Write} {r : Option (Option Response)}

/-- What is written to other tables consumes nothing. -/
theorem spending_of_tables (h : ∀ w ∈ ws, w.table ≠ .serviceRequestNonces) :
    (spending crates app key digest).guar op d ws r := by
  rintro ⟨w, hw, row, rfl, -⟩
  exact absurd rfl (h _ hw)

/-- The gate looks whether the nonce has been consumed. -/
theorem spending_of_commits {reservation : ReplayReservation}
    {answer : Except ReplayProtectionError ReplayDisposition}
    (h : Commits reservation d answer ws) :
    (spending crates app key digest).guar op d ws r := by
  rintro ⟨w, hw, row, rfl, rfl, rfl⟩
  obtain ⟨rfl, hnonce⟩ := consumes_of_commits h hw
  exact hnonce

/-- The rule of what writes to other tables. -/
theorem wp_spending {β : Type} {p : Sql β} {tables : List TableName} (hp : WritesTo tables p)
    (htables : .serviceRequestNonces ∉ tables) {Q : (spending crates app key digest).Post β}
    (hQ : ∀ b d u locks ws, (∀ w ∈ u, w.table ≠ .serviceRequestNonces) → Q b d u locks ws) :
    (spending crates app key digest).wp op p Q d [] [] [] := by
  have hother : ∀ {u : List Write}, (∀ w ∈ u, w.table ∈ tables) →
      ∀ w ∈ u, w.table ≠ .serviceRequestNonces := fun hu w hw heq => htables (heq ▸ hu w hw)
  have hnil : ∀ w ∈ ([] : List Write), w.table ∈ tables := fun w hw => absurd hw List.not_mem_nil
  exact Contract.wp_of_writes (fun _ _ => trivial) (fun _ _ _ _ => trivial)
    (fun d u _ hu => spending_of_tables (hother hu))
    (fun b d u locks ws _ hu => hQ b d u locks ws (hother hu)) hp ⟨[], trivial⟩ hnil hnil

/-- Every operation keeps to the contract. -/
theorem spending_sound : (spending crates app key digest).Sound where
  stutter op d := spending_of_tables fun w hw => absurd hw List.not_mem_nil
  preserves _ _ _ _ _ _ _ _ := trivial
  program op d _ := by
    rcases op with ⟨op, id⟩
    have hothers : .serviceRequestNonces ∉ op.tables →
        (spending crates app key digest).wp (op, id) (program crates app op)
          ((spending crates app key digest).Final (op, id)) d [] [] [] := fun htables =>
      wp_spending (writesTo_program op) htables fun b d u _ _ hu => spending_of_tables hu
    have hresponse : ∀ {draws stream} {p : Sql Response} {d : Db} {tables : List TableName},
        WritesTo tables p → .serviceRequestNonces ∉ tables →
        (spending crates app key digest).wp (.connection draws stream, id) p (fun b d u locks ws =>
          (spending crates app key digest).Final (.connection draws stream, id)
            (some b) d u locks ws)
          d [] [] [] := fun hp htables =>
      wp_spending hp htables fun b d u _ _ hu => spending_of_tables hu
    cases op with
    | connection draws stream =>
      refine Contract.wp_bind.mpr (wp_connection (fun d => ?_) (fun b d => ?_) ?_ ?_)
      · exact spending_of_tables fun w hw => absurd hw List.not_mem_nil
      · exact spending_of_tables fun w hw => absurd hw List.not_mem_nil
      · exact fun _ _ _ _ hp => hresponse hp (by decide)
      · intro request _ _
        refine wp_behindGate (fun d => ?_) (fun b d ws h => h) ?_ ?_ ⟨[], trivial⟩
        · exact spending_of_tables fun w hw => absurd hw List.not_mem_nil
        · exact fun _ _ _ _ _ _ _ _ _ _ _ _ _ _ _ _ hcommits => spending_of_commits hcommits
        · exact fun _ _ _ _ _ _ _ _ _ _ _ _ _ _ _ _ _ _ _ _ _ =>
            hresponse (Lawful.writes lawfulTo_dispatchAdmitted) (by decide)
    | _ => exact hothers (by simp [Op.tables, registrarTables])

end Sound

/-- A nonce is consumed once, and that stays. -/
theorem once_presenters : (presenters crates app key digest).Once
    (spending crates app key digest) (Spent key digest) where
  fresh _ hguar h := hguar h
  paid h := by
    obtain ⟨w, hw, row, rfl, hconsumed⟩ := h
    exact ⟨row, appendOnly_serviceRequestNonces.mem_view_of_mem hw _, hconsumed⟩
  kept {d ws} h := by
    obtain ⟨row, hrow, hconsumed⟩ := h
    have hstable : store.Stable [] fun d => row ∈ d.serviceRequestNonces :=
      appendOnly_serviceRequestNonces.stable_mem row
    exact ⟨row, hstable.view ws d (fun _ _ _ _ => List.not_mem_nil) hrow, hconsumed⟩

/-- Once a connection has changed anything but the reservations, no other connection that presents
the same nonce under the same key changes anything but the reservations, whatever overlaps. -/
theorem replays_have_no_effect {d₀ : Db} {s₁ s₁' s₂ s₂' : State Db Write Key Op (Option Response)}
    (hs : (system crates app).Reaches d₀ s₁) {ev₁ ev₂ : Postgres.Event Op} {id₁ id₂ : ℕ}
    {op₁ op₂ : Op} (hstep₁ : (system crates app).step s₁ ev₁ = some s₁')
    (hrun₁ : s₁.Runs ev₁ id₁ op₁) (hpresents₁ : Presents crates key digest op₁)
    (heffect : ∃ t ∉ reservationTables, s₁'.db.table t ≠ s₁.db.table t)
    (hl : (system crates app).Later s₁' s₂)
    (hstep₂ : (system crates app).step s₂ ev₂ = some s₂') (hrun₂ : s₂.Runs ev₂ id₂ op₂)
    (hpresents₂ : Presents crates key digest op₂) (hne : id₂ ≠ id₁) :
    ∀ t ∉ reservationTables, s₂'.db.table t = s₂.db.table t := by
  have hsame : ∀ {d : Db} {ws : List Write} {t : TableName}, t ∉ reservationTables →
      (∀ w ∈ ws, ¬ Acts w) → (store.view d ws).table t = d.table t := by
    intro d ws t ht hws
    exact Db.table_view_of_not_mem fun w hw h =>
      hws w hw (show w.table ∉ reservationTables from h ▸ ht)
  have hacts : ¬ ∃ ws, (∀ w ∈ ws, ¬ Acts w) ∧ s₁'.db = store.view s₁.db ws := by
    rintro ⟨ws, hws, hdb⟩
    obtain ⟨t, ht, hchange⟩ := heffect
    rw [hdb] at hchange
    exact hchange (hsame ht hws)
  obtain ⟨ws, hws, hdb⟩ := Postgres.Guard.acts_once (G := presenters crates app key digest)
    spending_sound (fun _ _ _ => trivial) once_presenters trivial hs.tag
    (Postgres.System.step_eq_some_tag hstep₁) (Postgres.System.Later.tag hl)
    (Postgres.System.step_eq_some_tag hstep₂) hrun₁.tag hrun₂.tag hpresents₁ hpresents₂ hacts hne
  intro t ht
  have hdb' : s₂'.db = store.view s₂.db ws := hdb
  rw [hdb']
  exact hsame ht hws

/-- The publication presents its nonce. -/
theorem presents_examplePublication (n : ℕ) : Presents exampleServerCrates ⟨3⟩ exampleNonceDigest
    (.connection (examplePublicationDraws n) examplePublicationStream) :=
  (sends_examplePublication n).mono fun _ h => h.2

/-- The publication is sent twice. The second time only its rejection is recorded. -/
theorem replays_have_no_effect_publication :
    ∃ (s₁ s₁' s₂ s₂' : State Db Write Key Op (Option Response)) (ev₁ ev₂ : Postgres.Event Op)
      (id₁ id₂ : ℕ), (system exampleServerCrates exampleApplication).Reaches exampleSender s₁ ∧
      (system exampleServerCrates exampleApplication).step s₁ ev₁ = some s₁' ∧
      s₁.Runs ev₁ id₁ (.connection (examplePublicationDraws 9) examplePublicationStream) ∧
      s₁'.db.schemaVersions.length ≠ s₁.db.schemaVersions.length ∧
      (system exampleServerCrates exampleApplication).Later s₁' s₂ ∧
      (system exampleServerCrates exampleApplication).step s₂ ev₂ = some s₂' ∧
      s₂.Runs ev₂ id₂ (.connection (examplePublicationDraws 10) examplePublicationStream) ∧
      s₂'.db.replayAudit.length ≠ s₂.db.replayAudit.length ∧
      ∀ t ∉ reservationTables, s₂'.db.table t = s₂.db.table t := by
  have hinit : (system exampleServerCrates exampleApplication).Reaches exampleSender
    { db := exampleSender } := .init
  -- Both connections send the same bytes; the first one publishes a version.
  have hprogram : ∀ n, (system exampleServerCrates exampleApplication).program
      (.connection (examplePublicationDraws n) examplePublicationStream) = _ := fun _ =>
    program_of_read (read_examplePublication _)
  obtain ⟨s₁, ev₁, s₁', s, hl, hstep₁, hrun₁, hne₁, hl₁, hidle, hfresh, hdb⟩ :=
    Postgres.System.exec_event (system exampleServerCrates exampleApplication)
      (rfl : State.sessions { db := exampleSender } = [])
      (.connection (examplePublicationDraws 9) examplePublicationStream)
      (f := fun s => s.db.schemaVersions.length) (fun s' hdb _ => by
        rw [hdb]
        exact length_examplePublication)
  rw [hprogram] at hdb
  -- The second one is seen in the audit of the replays.
  obtain ⟨s₂, ev₂, s₂', -, hl₂, hstep₂, hrun₂, hne₂, -⟩ := Postgres.System.exec_event
    (system exampleServerCrates exampleApplication) hidle
    (.connection (examplePublicationDraws 10) examplePublicationStream)
    (f := fun s => s.db.replayAudit.length) (fun s' hdb' _ => by
      rw [hdb', hprogram, hdb]
      decide +kernel)
  have hs := hinit.later hl
  refine ⟨s₁, s₁', s₂, s₂', ev₁, ev₂, _, _, hs, hstep₁, hrun₁, hne₁, hl₁.trans hl₂, hstep₂, hrun₂,
    hne₂, replays_have_no_effect hs hstep₁ hrun₁ (presents_examplePublication 9) ?_
      (hl₁.trans hl₂) hstep₂ hrun₂ (presents_examplePublication 10) (by simp [hfresh])⟩
  refine ⟨.schemaVersions, by decide, fun h => hne₁ ?_⟩
  simpa [Db.table] using congrArg Multiset.card h

end Kernel

end InfernalLaw
