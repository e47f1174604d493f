import InfernalLaw.Infrastructure.Background
import InfernalLaw.Infrastructure.InstanceRegistryRepository
import InfernalLaw.Infrastructure.ReplayProtectionRepository
import InfernalLaw.Infrastructure.RouteRepository
import InfernalLaw.Tenure.FirstWins

/-!
# Replay protection in every run

Any number of reservation attempts, run concurrently with each other and with anything that leaves
the three tables of the replay protection alone. The attempts that commit are, in the order of their
commits, a history in which the first attempt with a nonce consumes it, and among those that consume
a nonce the first one with a request identifier binds it. The tables are a function of that history,
and so is what the next attempt is answered, if the server does not fail it.
-/

namespace InfernalLaw.ReplayProtection

open Postgres (Contract DbError Entry Event State Store)
open Tenure (FirstWins Ruling judge)

/-! ## The operations -/

/-- The tables of the replay protection. -/
def tables : List TableName := [.serviceRequestNonces, .serviceRequestIds, .replayAudit]

/-- What runs. -/
inductive Op where
  | reserve (r : ReplayReservation)
  /-- Another component's transaction. -/
  | other (writes : List Write) (h : ∀ w ∈ writes, w.table ∉ tables)

/-- What an operation answers; another component's transaction answers nothing. -/
abbrev Result : Type := Option (Except ReplayProtectionError ReplayDisposition)

/-- What the operations do. -/
def program : Op → Sql Result
  | .reserve r => (PostgresReplayProtectionRepository.reserve r).bind fun a => .done (some a)
  | .other writes _ => (background writes).bind fun _ => .done none

/-- The sessions of the kernels that share the database. -/
abbrev system : Postgres.System Db Write Key Op Result := kernelSystem program

/-! ## The history of the attempts -/

/-- The outcome that the audit records for an answer. Other errors are not committed. -/
def outcome? : Except ReplayProtectionError ReplayDisposition → Option ReplayOutcome
  | .ok .fresh => some .fresh
  | .ok .safeRetry => some .safeRetry
  | .error .replayDetected => some .replayRejected
  | .error .requestIdConflict => some .requestConflictRejected
  | .error _ => none

/-- An attempt that was committed. -/
structure Attempt where
  id : ℕ
  reservation : ReplayReservation
  outcome : ReplayOutcome
  deriving DecidableEq

/-- The attempt of an entry in the log. -/
def attempt? (e : Entry Op Result) : Option Attempt :=
  match e.op, e.result with
  | .reserve r, some answer => (outcome? answer).map fun o => ⟨e.id, r, o⟩
  | _, _ => none

/-- An attempt has the identifier of its call. -/
theorem attempt?_id {e : Entry Op Result} {a : Attempt} (h : attempt? e = some a) :
    a.id = e.id := by
  unfold attempt? at h
  split at h
  · obtain ⟨o, -, rfl⟩ := Option.map_eq_some_iff.mp h
    rfl
  · cases h

/-- The attempts of a log that were committed, in the order of their commits. -/
def attempts (log : List (Entry Op Result)) : List Attempt := log.filterMap attempt?

namespace Attempt

/-- The nonce that the attempt presents. -/
def nonce (a : Attempt) : KeyId × Bytes32 := (a.reservation.keyId, a.reservation.nonceDigest)

/-- The identifier of the attempt's request. -/
def request (a : Attempt) : ActorId × Uuid := (a.reservation.serviceId, a.reservation.requestId)

/-- The attempt consumed its nonce. -/
def Consumed (a : Attempt) : Prop := a.outcome ≠ .replayRejected

instance : DecidablePred Consumed := fun a => inferInstanceAs (Decidable (a.outcome ≠ _))

/-- What became of the attempt on its nonce. -/
def nonceRuling (a : Attempt) : Ruling := if a.Consumed then .first else .refused

/-- What became of the attempt on its request's identifier, if it consumed its nonce. -/
def requestRuling (a : Attempt) : Ruling :=
  match a.outcome with
  | .fresh => .first
  | .safeRetry => .repeated
  | _ => .refused

/-- The nonce is new exactly when the attempt consumes it. -/
theorem nonceRuling_eq_first {a : Attempt} : a.nonceRuling = .first ↔ a.Consumed := by
  unfold nonceRuling
  split <;> simp [*]

/-- The request is new exactly when the attempt is fresh. -/
theorem requestRuling_eq_first {a : Attempt} : a.requestRuling = .first ↔ a.outcome = .fresh := by
  cases h : a.outcome <;> simp [requestRuling, h]

/-- Two attempts have the same content. -/
def sameContent (a b : Attempt) : Bool :=
  a.reservation.requestFingerprint = b.reservation.requestFingerprint

/-- The writes of the attempt's transaction. -/
def writes (a : Attempt) : List Write :=
  (if a.Consumed then [.serviceRequestNonces a.reservation.nonceRow] else []) ++
  (if a.outcome = .fresh then [.serviceRequestIds a.reservation.requestIdRow] else []) ++
  [.replayAudit (a.reservation.auditRow a.outcome)]

end Attempt

/-- The attempts that consumed their nonces. -/
def consumers (l : List Attempt) : List Attempt := l.filter Attempt.Consumed

/-- The attempts that bound their request's identifier. -/
def binders (l : List Attempt) : List Attempt := l.filter fun a => a.outcome = .fresh

/-- The consumers are the attempts that consume their nonce. -/
theorem mem_consumers {l : List Attempt} {a : Attempt} : a ∈ consumers l ↔ a ∈ l ∧ a.Consumed := by
  simp [consumers]

/-- The binders are the attempts that are fresh. -/
theorem mem_binders {l : List Attempt} {a : Attempt} :
    a ∈ binders l ↔ a ∈ l ∧ a.outcome = .fresh := by
  simp [binders]

/-! ## The invariant -/

/-- The committed attempts are a history, and the tables are what they have written. -/
structure Inv (d : Db) (l : List Attempt) : Prop where
  nonces : d.serviceRequestNonces = (consumers l).map fun a => a.reservation.nonceRow
  requestIds : d.serviceRequestIds = (binders l).map fun a => a.reservation.requestIdRow
  audit : d.replayAudit = l.map fun a => a.reservation.auditRow a.outcome
  nonceHistory : FirstWins Attempt.nonce (fun _ _ => false) Attempt.nonceRuling l
  requestHistory :
    FirstWins Attempt.request Attempt.sameContent Attempt.requestRuling (consumers l)

namespace Inv

variable {d : Db} {l : List Attempt} {a : Attempt}

/-- A nonce has been used when an attempt presented it. -/
theorem nonceUsed (h : Inv d l) : d.NonceUsed a.reservation ↔ ∃ b ∈ l, b.nonce = a.nonce := by
  simp only [Db.NonceUsed, h.nonces, List.mem_map]
  constructor
  · rintro ⟨_, ⟨b, hb, rfl⟩, hkey, hdigest⟩
    exact ⟨b, (mem_consumers.mp hb).1, Prod.ext hkey hdigest⟩
  · rintro ⟨b, hb, hnonce⟩
    -- The first attempt with the nonce has consumed it.
    obtain ⟨c, hc, hfirst, hnonce'⟩ := h.nonceHistory.exists_first hb
    have hkey := Prod.ext_iff.mp (hnonce'.trans hnonce)
    exact ⟨_, ⟨c, mem_consumers.mpr ⟨hc, Attempt.nonceRuling_eq_first.mp hfirst⟩, rfl⟩,
      hkey.1, hkey.2⟩

/-- An identifier is bound when an attempt has bound it. -/
theorem boundTo (h : Inv d l) {fingerprint : Bytes32} :
    d.BoundTo a.reservation fingerprint ↔ ∃ b ∈ consumers l, b.requestRuling = .first ∧
      b.request = a.request ∧ b.reservation.requestFingerprint = fingerprint := by
  simp only [Db.BoundTo, h.requestIds, List.mem_map]
  constructor
  · rintro ⟨_, ⟨b, hb, rfl⟩, hservice, hrequest, hfingerprint⟩
    obtain ⟨hb, hfresh⟩ := mem_binders.mp hb
    exact ⟨b, mem_consumers.mpr ⟨hb, by simp [Attempt.Consumed, hfresh]⟩,
      Attempt.requestRuling_eq_first.mpr hfresh, Prod.ext hservice hrequest, hfingerprint⟩
  · rintro ⟨b, hb, hfirst, hrequest, hfingerprint⟩
    have hkey := Prod.ext_iff.mp hrequest
    exact ⟨_, ⟨b, mem_binders.mpr
      ⟨(mem_consumers.mp hb).1, Attempt.requestRuling_eq_first.mp hfirst⟩,
      rfl⟩, hkey.1, hkey.2, hfingerprint⟩

/-- One more committed attempt, with the rulings that its nonce and its identifier call for. -/
theorem snoc (h : Inv d l) (hnonce : a.nonceRuling = judge Attempt.nonce (fun _ _ => false) l a)
    (hrequest : a.Consumed →
      a.requestRuling = judge Attempt.request Attempt.sameContent (consumers l) a) :
    Inv (store.view d a.writes) (l ++ [a]) := by
  have hcons : consumers (l ++ [a]) = consumers l ++ if a.Consumed then [a] else [] := by
    by_cases hc : a.Consumed <;> simp [consumers, hc]
  have hbind : binders (l ++ [a]) = binders l ++ if a.outcome = .fresh then [a] else [] := by
    by_cases hf : a.outcome = .fresh <;> simp [binders, hf]
  have hwrites : (store.view d a.writes).serviceRequestNonces = d.serviceRequestNonces ++
        (if a.Consumed then [a.reservation.nonceRow] else []) ∧
      (store.view d a.writes).serviceRequestIds = d.serviceRequestIds ++
        (if a.outcome = .fresh then [a.reservation.requestIdRow] else []) ∧
      (store.view d a.writes).replayAudit = d.replayAudit ++
        [a.reservation.auditRow a.outcome] := by
    by_cases hc : a.Consumed <;> by_cases hf : a.outcome = .fresh <;>
      simp [Attempt.writes, hc, hf, Db.apply]
  refine ⟨?_, ?_, ?_, h.nonceHistory.snoc hnonce, ?_⟩
  · rw [hwrites.1, hcons, h.nonces]
    split <;> simp
  · rw [hwrites.2.1, hbind, h.requestIds]
    split <;> simp
  · rw [hwrites.2.2, h.audit]
    simp
  · rw [hcons]
    split
    · rename_i hc
      exact h.requestHistory.snoc (hrequest hc)
    · simpa using h.requestHistory

end Inv

/-- What a reservation commits is one more attempt of the history. -/
theorem Inv.commits {d : Db} {l : List Attempt} (h : Inv d l) (id : ℕ) {r : ReplayReservation}
    {answer : Except ReplayProtectionError ReplayDisposition} {ws : List Write}
    (hc : Commits r d answer ws) : ∃ o, outcome? answer = some o ∧
      Inv (store.view d ws) (l ++ [⟨id, r, o⟩]) := by
  -- The rulings, by what the attempt finds in the tables.
  have hfirst : ∀ a : Attempt, ¬ d.NonceUsed a.reservation →
      judge Attempt.nonce (fun _ _ => false) l a = .first := fun a hnot =>
    Tenure.judge_eq_first.mpr fun b hb heq => hnot (h.nonceUsed.mpr ⟨b, hb, heq⟩)
  have hbound : ∀ a : Attempt, ∀ fingerprint, d.BoundTo a.reservation fingerprint →
      judge Attempt.request Attempt.sameContent (consumers l) a =
        if fingerprint = a.reservation.requestFingerprint then .repeated else .refused := by
    intro a fingerprint hbound
    obtain ⟨b, hb, hruling, hrequest, rfl⟩ := h.boundTo.mp hbound
    rw [h.requestHistory.judge_eq hb hruling hrequest]
    simp [Attempt.sameContent]
  cases hc with
  | replay hused =>
    refine ⟨.replayRejected, rfl, h.snoc (a := ⟨id, r, .replayRejected⟩) ?_ (absurd rfl ·)⟩
    obtain ⟨b, hb, hnonce⟩ := (h.nonceUsed (a := ⟨id, r, .replayRejected⟩)).mp hused
    obtain ⟨c, hc, hruling, hnonce'⟩ := h.nonceHistory.exists_first hb
    rw [h.nonceHistory.judge_eq hc hruling (hnonce'.trans hnonce)]
    rfl
  | conflict hnonce hbound' hne =>
    refine ⟨.requestConflictRejected, rfl, h.snoc (a := ⟨id, r, .requestConflictRejected⟩)
      (hfirst _ hnonce).symm fun _ => ?_⟩
    rw [hbound ⟨id, r, .requestConflictRejected⟩ _ hbound', if_neg hne]
    rfl
  | fresh hnonce hfree =>
    refine ⟨.fresh, rfl, h.snoc (a := ⟨id, r, .fresh⟩) (hfirst _ hnonce).symm fun _ => ?_⟩
    refine (Tenure.judge_eq_first.mpr fun b hb heq => ?_).symm
    obtain ⟨c, hc, hruling, hrequest⟩ := h.requestHistory.exists_first hb
    exact hfree _ ((h.boundTo (a := ⟨id, r, .fresh⟩)).mpr ⟨c, hc, hruling, hrequest.trans heq, rfl⟩)
  | safeRetry hnonce hbound' =>
    refine ⟨.safeRetry, rfl, h.snoc (a := ⟨id, r, .safeRetry⟩) (hfirst _ hnonce).symm fun _ => ?_⟩
    rw [hbound ⟨id, r, .safeRetry⟩ _ hbound', if_pos rfl]
    rfl

/-! ## The answers -/

namespace Inv

variable {d : Db} {l : List Attempt} {a b : Attempt}

/-- The attempts with one identifier that consumed their nonces, by the first of them. -/
theorem outcome_eq (h : Inv d l) (ha : a ∈ l) (hb : b ∈ l) (hrequest : a.request = b.request)
    (hfresh : a.outcome = .fresh) (hconsumed : b.Consumed) : b = a ∨
      b.outcome = if a.reservation.requestFingerprint = b.reservation.requestFingerprint
        then .safeRetry else .requestConflictRejected := by
  have ha' : a ∈ consumers l := mem_consumers.mpr ⟨ha, by simp [Attempt.Consumed, hfresh]⟩
  have hb' : b ∈ consumers l := mem_consumers.mpr ⟨hb, hconsumed⟩
  have hfirst := Attempt.requestRuling_eq_first.mpr hfresh
  rcases h.requestHistory.eq_or_ruling_eq ha' hb' hfirst hrequest with heq | hruling
  · exact .inl heq
  · refine .inr ?_
    by_cases hsame : a.reservation.requestFingerprint = b.reservation.requestFingerprint <;>
      cases ho : b.outcome <;>
        simp_all [Attempt.requestRuling, Attempt.sameContent, Attempt.Consumed]

/-- One attempt is the first use of an identifier. -/
theorem fresh_once (h : Inv d l) (ha : a ∈ l) (hb : b ∈ l) (hrequest : a.request = b.request)
    (hfa : a.outcome = .fresh) (hfb : b.outcome = .fresh) : a = b := by
  rcases h.outcome_eq ha hb hrequest hfa (by simp [Attempt.Consumed, hfb]) with rfl | ho
  · rfl
  · rw [hfb] at ho
    split at ho <;> cases ho

end Inv

/-- What an attempt must be answered after the attempts `l`. -/
structure Answers (l : List Attempt) (r : ReplayReservation)
    (answer : Except ReplayProtectionError ReplayDisposition) : Prop where
  /-- A nonce that was presented before is a replay. -/
  replay : (∃ a ∈ l, a.nonce = (r.keyId, r.nonceDigest)) → answer = .error .replayDetected
  /-- A new nonce with an identifier that is bound to another fingerprint is a conflict. -/
  conflict : (∀ a ∈ l, a.nonce ≠ (r.keyId, r.nonceDigest)) → ∀ a ∈ l,
    a.request = (r.serviceId, r.requestId) → a.outcome = .fresh →
    a.reservation.requestFingerprint ≠ r.requestFingerprint → answer = .error .requestIdConflict
  /-- A new nonce with an identifier that is bound to this fingerprint is a safe retry. -/
  safeRetry : (∀ a ∈ l, a.nonce ≠ (r.keyId, r.nonceDigest)) → ∀ a ∈ l,
    a.request = (r.serviceId, r.requestId) → a.outcome = .fresh →
    a.reservation.requestFingerprint = r.requestFingerprint → answer = .ok .safeRetry
  /-- A new nonce with a new identifier is the first use of the request. -/
  fresh : (∀ a ∈ l, a.nonce ≠ (r.keyId, r.nonceDigest)) →
    (∀ a ∈ l, a.request = (r.serviceId, r.requestId) → a.outcome ≠ .fresh) → answer = .ok .fresh

/-- What finds the tables of a history is answered as the history says. -/
theorem Inv.answers {d : Db} {l : List Attempt} (h : Inv d l) {r : ReplayReservation}
    {answer : Except ReplayProtectionError ReplayDisposition} {ws : List Write}
    (hc : Commits r d answer ws) : Answers l r answer := by
  -- The history, as the reservation finds it in the tables.
  have hnonce : d.NonceUsed r ↔ ∃ a ∈ l, a.nonce = (r.keyId, r.nonceDigest) :=
    h.nonceUsed (a := ⟨0, r, .fresh⟩)
  have hbound : ∀ {fingerprint}, d.BoundTo r fingerprint ↔ ∃ a ∈ l,
      a.request = (r.serviceId, r.requestId) ∧ a.outcome = .fresh ∧
        a.reservation.requestFingerprint = fingerprint := by
    intro fingerprint
    refine (h.boundTo (a := ⟨0, r, .fresh⟩)).trans ⟨?_, ?_⟩
    · rintro ⟨a, ha, hruling, hrequest, hfingerprint⟩
      exact ⟨a, (mem_consumers.mp ha).1, hrequest, Attempt.requestRuling_eq_first.mp hruling,
        hfingerprint⟩
    · rintro ⟨a, ha, hrequest, hfresh, hfingerprint⟩
      exact ⟨a, mem_consumers.mpr ⟨ha, by simp [Attempt.Consumed, hfresh]⟩,
        Attempt.requestRuling_eq_first.mpr hfresh, hrequest, hfingerprint⟩
  -- An identifier is bound to one fingerprint.
  have hone : ∀ {fingerprint fingerprint'}, d.BoundTo r fingerprint → d.BoundTo r fingerprint' →
      fingerprint = fingerprint' := by
    intro fingerprint fingerprint' hf hf'
    obtain ⟨a, ha, hrequest, hfresh, rfl⟩ := hbound.mp hf
    obtain ⟨a', ha', hrequest', hfresh', rfl⟩ := hbound.mp hf'
    rw [h.fresh_once ha ha' (hrequest.trans hrequest'.symm) hfresh hfresh']
  have hnew : ¬ d.NonceUsed r → ¬ ∃ a ∈ l, a.nonce = (r.keyId, r.nonceDigest) := mt hnonce.mpr
  cases hc with
  | replay hused =>
    obtain ⟨b, hb, hbnonce⟩ := hnonce.mp hused
    exact ⟨fun _ => rfl, fun hnot => absurd hbnonce (hnot b hb),
      fun hnot => absurd hbnonce (hnot b hb), fun hnot => absurd hbnonce (hnot b hb)⟩
  | conflict hunused hbound' hne =>
    obtain ⟨b, hb, hrequest, hfresh, hfingerprint⟩ := hbound.mp hbound'
    refine ⟨fun hused => absurd hused (hnew hunused), fun _ _ _ _ _ _ => rfl,
      fun _ a ha hrequest' hfresh' hsame => ?_, fun _ hnone => absurd hfresh (hnone b hb hrequest)⟩
    exact absurd (hone hbound' (hbound.mpr ⟨a, ha, hrequest', hfresh', hsame⟩)) hne
  | fresh hunused hfree =>
    refine ⟨fun hused => absurd hused (hnew hunused), fun _ a ha hrequest hfresh _ => ?_,
      fun _ a ha hrequest hfresh _ => ?_, fun _ _ => rfl⟩
    · exact absurd (hbound.mpr ⟨a, ha, hrequest, hfresh, rfl⟩) (hfree _)
    · exact absurd (hbound.mpr ⟨a, ha, hrequest, hfresh, rfl⟩) (hfree _)
  | safeRetry hunused hbound' =>
    obtain ⟨b, hb, hrequest, hfresh, hfingerprint⟩ := hbound.mp hbound'
    refine ⟨fun hused => absurd hused (hnew hunused), fun _ a ha hrequest' hfresh' hother => ?_,
      fun _ _ _ _ _ _ => rfl, fun _ hnone => absurd hfresh (hnone b hb hrequest)⟩
    exact absurd (hone (hbound.mpr ⟨a, ha, hrequest', hfresh', rfl⟩) hbound') hother

/-! ## The contract -/

/-- An attempt that commits nothing has met a failure of the server, or the tables do not take its
rows. -/
def Excused (d : Db) (op : Op) (a : Result) : Prop :=
  ∀ r, op = .reserve r → ∃ e : DbError, a = some (.error (.ofDatabase e)) ∧
    (e = .unavailable ∨ ¬ d.Takes r)

/-- An event leaves the tables alone and ends no attempt that commits, or commits an attempt. -/
def contract : Contract system where
  inv d log := Inv d (attempts log)
  guar op d ws r :=
    ((∀ w ∈ ws, w.table ∉ tables) ∧
      ∀ a, r = some a → (∀ id, attempt? ⟨id, op, a⟩ = none) ∧ Excused d op a) ∨
    ∃ reservation answer, op = .reserve reservation ∧ r = some (some answer) ∧
      Commits reservation d answer ws

/-- Writes to other tables keep the history. -/
theorem Inv.other {d : Db} {l : List Attempt} (h : Inv d l) {ws : List Write}
    (hws : ∀ w ∈ ws, w.table ∉ tables) : Inv (store.view d ws) l := by
  have htables : ∀ w ∈ ws, w.table ≠ .serviceRequestNonces ∧ w.table ≠ .serviceRequestIds ∧
      w.table ≠ .replayAudit := fun w hw => by simpa [tables] using hws w hw
  refine ⟨?_, ?_, ?_, h.nonceHistory, h.requestHistory⟩
  · rw [appendOnly_serviceRequestNonces.view_other]
    · exact h.nonces
    · rintro w hw row rfl
      exact (htables _ hw).1 rfl
  · rw [appendOnly_serviceRequestIds.view_other]
    · exact h.requestIds
    · rintro w hw row rfl
      exact (htables _ hw).2.1 rfl
  · rw [appendOnly_replayAudit.view_other]
    · exact h.audit
    · rintro w hw row rfl
      exact (htables _ hw).2.2 rfl

/-- Every operation keeps to the contract. -/
theorem contract_sound : contract.Sound where
  stutter op d := .inl (by simp)
  preserves id op d log ws r hinv hguar := by
    rcases hguar with ⟨hws, hnone⟩ | ⟨reservation, answer, rfl, rfl, hc⟩
    · have hlog : attempts (log ++ (r.map fun a => ⟨id, op, a⟩).toList) = attempts log := by
        cases r with
        | none => simp
        | some a => simp [attempts, (hnone a rfl).1]
      exact (congrArg (Inv _) hlog).mpr (hinv.other hws)
    · obtain ⟨o, ho, hinv'⟩ := hinv.commits id hc
      have hlog : attempts (log ++ [⟨id, .reserve reservation, some answer⟩]) =
          attempts log ++ [⟨id, reservation, o⟩] := by
        simp [attempts, attempt?, ho]
      refine (congrArg (Inv _) hlog).mpr hinv'
  program op e hgood := by
    have hquiet : ∀ op d, contract.guar op d [] none := fun _ _ => .inl (by simp)
    cases op with
    | reserve r =>
      -- An error of the server, or of a constraint that the attempt does not meet.
      have hexcused : ∀ d e, e = DbError.unavailable ∨ ¬ d.Takes r →
          contract.guar (.reserve r) d [] (some (some (.error (.ofDatabase e)))) := by
        intro d e he
        refine .inl ⟨by simp, fun a ha => ?_⟩
        obtain rfl := Option.some.inj ha
        refine ⟨fun _ => rfl, fun r' hr' => ⟨e, rfl, ?_⟩⟩
        rwa [← Op.reserve.inj hr']
      refine Contract.wp_bind.mpr (PostgresReplayProtectionRepository.wp_reserve (hquiet _)
        (fun d _ => hexcused d _ (.inl rfl)) (fun d e _ hnot => hexcused d e (.inr hnot)) ?_)
      exact fun d answer ws _ hc => .inr ⟨r, answer, rfl, rfl, hc⟩
    | other writes hwrites =>
      refine Contract.wp_bind.mpr (wp_background (hquiet _) (fun d _ => ?_) fun d _ => ?_)
      · exact .inl (by simp [attempt?, Excused])
      · exact .inl ⟨hwrites, by simp [attempt?, Excused]⟩

/-! ## What holds in every run -/

/-- The attempts agree with each other and with the tables. -/
structure Agreement (d : Db) (l : List Attempt) : Prop where
  /-- Two attempts with one nonce do not both consume it: one of them is rejected as a replay. -/
  nonce_once : ∀ a ∈ l, ∀ b ∈ l, a.nonce = b.nonce → a ≠ b →
    a.outcome = .replayRejected ∨ b.outcome = .replayRejected
  /-- A replay is only rejected after the nonce has been consumed. -/
  replay_after : ∀ past a rest, l = past ++ a :: rest → a.outcome = .replayRejected →
    ∃ b ∈ past, b.nonce = a.nonce ∧ b.Consumed
  one_fingerprint : ∀ a ∈ l, ∀ b ∈ l, a.request = b.request →
    (a.outcome = .fresh ∨ a.outcome = .safeRetry) → (b.outcome = .fresh ∨ b.outcome = .safeRetry) →
    a.reservation.requestFingerprint = b.reservation.requestFingerprint
  fresh_once : ∀ a ∈ l, ∀ b ∈ l, a.request = b.request → a.outcome = .fresh → b.outcome = .fresh →
    a = b
  retry_after : ∀ past a rest, l = past ++ a :: rest → a.outcome = .safeRetry →
    ∃ b ∈ past, b.request = a.request ∧ b.outcome = .fresh
  /-- An attempt that consumes its nonce conflicts with a first use of other content. -/
  conflict : ∀ a ∈ l, ∀ b ∈ l, a.request = b.request → a.outcome = .fresh → b.Consumed →
    a.reservation.requestFingerprint ≠ b.reservation.requestFingerprint →
    b.outcome = .requestConflictRejected
  nonces : d.serviceRequestNonces = (consumers l).map fun a => a.reservation.nonceRow
  requestIds : d.serviceRequestIds = (binders l).map fun a => a.reservation.requestIdRow
  audit : d.replayAudit = l.map fun a => a.reservation.auditRow a.outcome

namespace Inv

variable {d : Db} {l : List Attempt} {a b : Attempt}

/-- A safe retry comes after a first use of the same content. -/
theorem retry_after (h : Inv d l) {past rest : List Attempt} (hl : l = past ++ a :: rest)
    (ha : a.outcome = .safeRetry) : ∃ b ∈ past, b.request = a.request ∧ b.outcome = .fresh ∧
      b.reservation.requestFingerprint = a.reservation.requestFingerprint := by
  have hconsumers : consumers l = consumers past ++ a :: consumers rest := by
    simp [hl, consumers, Attempt.Consumed, ha]
  obtain ⟨b, hb, hfirst, hrequest, hruling⟩ := h.requestHistory.exists_holder hconsumers
    (by simp [Attempt.requestRuling, ha])
  refine ⟨b, (mem_consumers.mp hb).1, hrequest, Attempt.requestRuling_eq_first.mp hfirst, ?_⟩
  by_contra hne
  simp [Attempt.requestRuling, ha, Attempt.sameContent, hne] at hruling

/-- What succeeds has the content of the first use. -/
theorem exists_fresh (h : Inv d l) (ha : a ∈ l) (hs : a.outcome = .fresh ∨ a.outcome = .safeRetry) :
    ∃ b ∈ l, b.request = a.request ∧ b.outcome = .fresh ∧
      b.reservation.requestFingerprint = a.reservation.requestFingerprint := by
  rcases hs with hs | hs
  · exact ⟨a, ha, rfl, hs, rfl⟩
  · obtain ⟨past, rest, rfl⟩ := List.append_of_mem ha
    obtain ⟨b, hb, hb'⟩ := h.retry_after rfl hs
    exact ⟨b, List.mem_append_left _ hb, hb'⟩

/-- The invariant gives the agreement of the attempts. -/
theorem agreement (h : Inv d l) : Agreement d l where
  nonce_once a ha b hb hnonce hne := by
    by_contra hnot
    rw [not_or] at hnot
    exact hne (h.nonceHistory.unique ha hb (Attempt.nonceRuling_eq_first.mpr hnot.1)
      (Attempt.nonceRuling_eq_first.mpr hnot.2) hnonce)
  replay_after past a rest hl ha := by
    obtain ⟨b, hb, hfirst, hnonce, -⟩ := h.nonceHistory.exists_holder hl
      (mt Attempt.nonceRuling_eq_first.mp (by simp [Attempt.Consumed, ha]))
    exact ⟨b, hb, hnonce, Attempt.nonceRuling_eq_first.mp hfirst⟩
  one_fingerprint a ha b hb hrequest hsa hsb := by
    obtain ⟨a', ha', harequest, hafresh, hafingerprint⟩ := h.exists_fresh ha hsa
    obtain ⟨b', hb', hbrequest, hbfresh, hbfingerprint⟩ := h.exists_fresh hb hsb
    have hsame : a' = b' := h.fresh_once ha' hb'
      (harequest.trans (hrequest.trans hbrequest.symm)) hafresh hbfresh
    rw [← hafingerprint, ← hbfingerprint, hsame]
  fresh_once a ha b hb hrequest hfa hfb := h.fresh_once ha hb hrequest hfa hfb
  retry_after past a rest hl ha := by
    obtain ⟨b, hb, hrequest, hfresh, -⟩ := h.retry_after hl ha
    exact ⟨b, hb, hrequest, hfresh⟩
  conflict a ha b hb hrequest hfresh hconsumed hne := by
    rcases h.outcome_eq ha hb hrequest hfresh hconsumed with rfl | ho
    · exact absurd rfl hne
    · rw [ho, if_neg hne]
  nonces := h.nonces
  requestIds := h.requestIds
  audit := h.audit

end Inv

/-- The invariant holds in every run from empty tables. -/
theorem holds {d₀ : Db} (hn : d₀.serviceRequestNonces = []) (hi : d₀.serviceRequestIds = [])
    (ha : d₀.replayAudit = []) {s : State Db Write Key Op Result} (hs : system.Reaches d₀ s) :
    contract.Holds s := by
  refine contract_sound.reaches (fun _ _ _ => ?_) ⟨hn, hi, ha, .nil, .nil⟩ hs
  exact fun _ _ _ _ _ _ _ _ => trivial

/-- A bound identifier keeps its fingerprint: its row stays, and it is the only one. -/
theorem later_bound {d₀ : Db} (hn : d₀.serviceRequestNonces = []) (hi : d₀.serviceRequestIds = [])
    (ha : d₀.replayAudit = []) {s s' : State Db Write Key Op Result} (hs : system.Reaches d₀ s)
    (hl : system.Later s s') {row : ServiceRequestIdRow} (hrow : row ∈ s.db.serviceRequestIds) :
    row ∈ s'.db.serviceRequestIds ∧ ∀ row' ∈ s'.db.serviceRequestIds,
      row'.serviceId = row.serviceId → row'.requestId = row.requestId → row' = row := by
  have hinv := (holds hn hi ha hs).inv
  have hinv' := (holds hn hi ha (hs.later hl)).inv
  obtain ⟨rest, hlog⟩ := hl.log_extends
  rw [hinv.requestIds] at hrow
  obtain ⟨a, ha, rfl⟩ := List.mem_map.mp hrow
  obtain ⟨ha, hfresh⟩ := mem_binders.mp ha
  have ha' : a ∈ attempts s'.log := by
    rw [← hlog, attempts, List.filterMap_append]
    exact List.mem_append_left _ ha
  refine ⟨?_, fun row' hrow' hservice hrequest => ?_⟩
  · rw [hinv'.requestIds]
    exact List.mem_map_of_mem (mem_binders.mpr ⟨ha', hfresh⟩)
  · rw [hinv'.requestIds] at hrow'
    obtain ⟨b, hb, rfl⟩ := List.mem_map.mp hrow'
    obtain ⟨hb, hbfresh⟩ := mem_binders.mp hb
    rw [hinv'.fresh_once hb ha' (Prod.ext hservice hrequest) hbfresh hfresh]

/-- An attempt that the server does not fail, and whose rows the tables take, is committed, and
answered as the attempts before it say. -/
theorem returned_answers {d₀ : Db} (hn : d₀.serviceRequestNonces = [])
    (hi : d₀.serviceRequestIds = []) (ha : d₀.replayAudit = [])
    {s s' : State Db Write Key Op Result} {id : ℕ} {r : ReplayReservation}
    {answer : Except ReplayProtectionError ReplayDisposition}
    (h : system.Returns d₀ s s' ⟨id, .reserve r, some answer⟩) (htakes : s.db.Takes r) :
    Answers (attempts s.log) r answer ∧ ∃ o, outcome? answer = some o := by
  have h₀ : contract.inv d₀ [] := ⟨hn, hi, ha, .nil, .nil⟩
  obtain ⟨ws, hguar, -⟩ := h.guar contract_sound (fun _ _ _ => trivial) h₀
  rcases hguar with ⟨-, hexcused⟩ | ⟨r', answer', hop, hresult, hc⟩
  · -- The attempt has no excuse.
    obtain ⟨e, he, hwhy⟩ := (hexcused _ rfl).2 r rfl
    have hdelivers := h.delivers (P := fun op a => (∃ r, op = .reserve r) →
      a ≠ some (.error (.ofDatabase .unavailable))) fun op => ?_
    · rcases hwhy with rfl | hnot
      · exact absurd he (hdelivers ⟨r, rfl⟩)
      · exact absurd htakes hnot
    · cases op with
      | reserve r =>
        refine .bind (PostgresReplayProtectionRepository.reserve_delivers.mono fun a ha => ?_)
        exact fun _ heq => ha (Option.some.inj heq)
      | other writes hwrites =>
        refine .of_ends ((Postgres.Proc.Ends.trivially _).mono fun a _ => ?_)
        rintro ⟨r, hr⟩
        cases hr
  · obtain rfl := Op.reserve.inj hop
    obtain rfl := Option.some.inj (Option.some.inj hresult)
    have hinv := (holds hn hi ha h.reaches.reaches).inv
    obtain ⟨o, ho, -⟩ := hinv.commits id hc
    exact ⟨hinv.answers hc, o, ho⟩

/-- Replay protection, in every state `s` of every run from empty tables. -/
theorem reservations_agree {d₀ : Db} (hn : d₀.serviceRequestNonces = [])
    (hi : d₀.serviceRequestIds = []) (ha : d₀.replayAudit = []) {s : State Db Write Key Op Result}
    (hs : system.Reaches d₀ s) :
    Agreement s.db (attempts s.log) ∧ ((attempts s.log).map Attempt.id).Nodup ∧
    -- The fingerprint of an identifier is never replaced.
    (∀ s', system.Later s s' → ∀ row ∈ s.db.serviceRequestIds,
      row ∈ s'.db.serviceRequestIds ∧ ∀ row' ∈ s'.db.serviceRequestIds,
        row'.serviceId = row.serviceId → row'.requestId = row.requestId → row' = row) ∧
    -- Every attempt that the server does not fail is committed, and answered by those before it.
    ∀ s' id r answer, system.Returns d₀ s s' ⟨id, .reserve r, some answer⟩ → s.db.Takes r →
      Answers (attempts s.log) r answer ∧ ∃ o, outcome? answer = some o ∧
        attempts s'.log = attempts s.log ++ [⟨id, r, o⟩] := by
  refine ⟨(holds hn hi ha hs).inv.agreement, ?_, fun s' hl row => later_bound hn hi ha hs hl,
    fun s' id r answer h htakes => ?_⟩
  · have hlog := List.pairwise_map.mp (holds hn hi ha hs).wellFormed.log_nodup
    refine List.pairwise_map.mpr (hlog.filterMap _ fun e e' hne a ha b hb => ?_)
    rw [attempt?_id ha, attempt?_id hb]
    exact hne
  · obtain ⟨hanswers, o, ho⟩ := returned_answers hn hi ha h htakes
    refine ⟨hanswers, o, ho, ?_⟩
    simp [h.log, attempts, attempt?, ho]

/-- A database with one instance of a service, and its key. -/
def oneKey : Db where
  identityRows := [⟨⟨1⟩, .service, ['a'], .active⟩]
  serviceInstances := [⟨⟨2⟩, ⟨1⟩, "https://caller".toList, 0, 1000, 1, none⟩]
  serviceInstanceKeys := [⟨⟨3⟩, ⟨2⟩, .fill 0, .fill 1, 0, none⟩]

/-- An attempt of that instance at the request `5`. -/
def attemptWith (nonceDigest requestFingerprint : Bytes32) : ReplayReservation where
  serviceId := ⟨1⟩
  instanceId := ⟨2⟩
  keyId := ⟨3⟩
  requestId := 5
  nonceDigest := nonceDigest
  requestFingerprint := requestFingerprint
  signatureCreated := 10
  signatureExpires := 20
  reservedAt := 15
  timely := by decide

/-- What the tables take they take from then on: rows stay registered. -/
theorem stable_takes {locks : List Key} {r : ReplayReservation} :
    store.Stable locks fun d => d.Takes r := by
  have hkey : store.Stable locks fun d =>
      r.keyId ∈ d.serviceInstanceKeys.map ServiceInstanceKeyRow.keyId :=
    serviceInstanceKeys_versioned.stable_mem_pk r.keyId
  have hinstance : store.Stable locks fun d =>
      r.instanceId ∈ d.serviceInstances.map ServiceInstanceRow.instanceId :=
    serviceInstances_versioned.stable_mem_pk r.instanceId
  have hservice : store.Stable locks fun d => r.serviceId ∈ d.identities :=
    identities_versioned.stable_mem_pk r.serviceId
  exact fun d w ⟨horder, hd⟩ hk =>
    ⟨horder, hkey d w hd.1 hk, hservice d w hd.2.1 hk, hinstance d w hd.2.2 hk⟩

/-- A first use, the same message again, a retry with a new nonce, and other content, which the
server does not fail. -/
theorem reservations_agree_retry : ∃ s, system.Reaches oneKey s ∧
    s.db.replayAudit.map ReplayAuditRow.outcome =
      [.fresh, .replayRejected, .safeRetry, .requestConflictRejected] ∧
    Agreement s.db (attempts s.log) ∧
    ∃ s₁ s₂ id answer, system.Later s₂ s ∧ system.Returns oneKey s₁ s₂
        ⟨id, .reserve (attemptWith (.fill 9) (.fill 10)), some answer⟩ ∧
      answer = .error .requestIdConflict ∧
      Answers (attempts s₁.log) (attemptWith (.fill 9) (.fill 10)) answer := by
  obtain ⟨s₁, hs₁, hidle₁, hdb₁, -⟩ := Postgres.System.exec_reaches
    (.init : system.Reaches oneKey { db := oneKey }) rfl
    (.reserve (attemptWith (.fill 6) (.fill 8)))
  obtain ⟨s₂, hs₂, hidle₂, hdb₂, -⟩ := Postgres.System.exec_reaches hs₁ hidle₁
    (.reserve (attemptWith (.fill 6) (.fill 8)))
  obtain ⟨s₃, hs₃, hidle₃, hdb₃, -⟩ := Postgres.System.exec_reaches hs₂ hidle₂
    (.reserve (attemptWith (.fill 7) (.fill 8)))
  obtain ⟨s₄, s₅, s₆, hl₄, hlog, hreturns, hl₆, -, hdb₆⟩ := Postgres.System.exec_returns hs₃ hidle₃
    (.reserve (attemptWith (.fill 9) (.fill 10)))
  have hs₄ := hs₃.later hl₄
  have hs₅ := hreturns.reaches_after.reaches
  -- The message is in order, and its instance is registered from the start.
  have htakes : s₄.db.Takes (attemptWith (.fill 9) (.fill 10)) :=
    hs₄.since.stable stable_takes ⟨by decide, by decide, by decide, by decide⟩
  have hresult : ((system.program (.reserve (attemptWith (.fill 9) (.fill 10)))).exec
      system.toStore s₃.db []).result = some (.error .requestIdConflict) := by
    rw [hdb₃, hdb₂, hdb₁]
    decide
  rw [hresult] at hreturns
  obtain ⟨-, -, -, hanswers⟩ := reservations_agree rfl rfl rfl hs₄
  refine ⟨s₆, hs₅.later hl₆, ?_, (reservations_agree rfl rfl rfl (hs₅.later hl₆)).1, s₄, s₅, _, _,
    hl₆, hreturns, rfl, (hanswers _ _ _ _ hreturns htakes).1⟩
  rw [hdb₆, hdb₃, hdb₂, hdb₁]
  decide

end InfernalLaw.ReplayProtection
