import InfernalLaw.Infrastructure.HandshakeRepository
import InfernalLaw.Kernel.SignatureBinding
import InfernalLaw.Postgres.Serial

/-!
# Handshakes in every run

Any number of kernel instances reconcile their handshakes at the same time, whatever the transports
and the random sources answer them, besides anything that leaves the tables of the handshakes alone.
A challenge and the handshake that answers it are committed by the same reconciliation, at two
different times; the challenge's digest ties them together.
-/

namespace InfernalLaw

open Postgres (Contract Entry Event RowWrite State Store)

namespace Handshakes

/-! ## The operations -/

/-- The tables of the handshakes. -/
def tables : List TableName := [.handshakeChallenges, .handshakes, .handshakeAudit]

/-- What runs. -/
inductive Op where
  | reconcile (call : HandshakeReconciler)
  | requireFresh (kernelInstanceId targetInstanceId : InstanceId) (now : ℤ)
  /-- Another component's transaction. -/
  | other (writes : List Write) (h : ∀ w ∈ writes, w.table ∉ tables)

/-- What an operation answers. -/
inductive Result where
  | attempts (r : Except HandshakeError (List HandshakeAttempt))
  | handshake (r : Except HandshakeError InstanceHandshake)
  | other

/-- What the operations do. -/
def program (crates : KeyCrates) : Op → Sql Result
  | .reconcile call => (call.reconcile crates).run.bind fun r => .done (.attempts r)
  | .requireFresh kernelInstanceId targetInstanceId now =>
    (InfernalLaw.requireFresh kernelInstanceId targetInstanceId now).run.bind
      fun r => .done (.handshake r)
  | .other writes _ => (background writes).bind fun _ => .done .other

/-- The sessions of the kernels that share the database. -/
abbrev system (crates : KeyCrates) : Postgres.System Db Write Key Op Result :=
  kernelSystem (program crates)

/-! ## What is verified -/

variable (crates : KeyCrates) (Past : Db → Prop)

/-- The reconciliation has issued the challenge to an instance that it has seen. -/
structure Issued (call : HandshakeReconciler) (target : RegisteredInstance)
    (challenge : SignedHandshakeChallenge) : Prop where
  seen : ∃ d row key, Past d ∧ target.SeenIn d call.now row key
  kernel : challenge.kernelKey = call.kernel.publicKey
  targetInstanceId : challenge.targetInstanceId = target.publicKey.instanceId
  targetKeyId : challenge.targetKeyId = target.publicKey.keyId
  issuedAt : challenge.issuedAt = call.now
  signature : challenge.signature = call.kernel.sign challenge.message
  expires : challenge.issuedAt < challenge.expiresAt ∧
    challenge.expiresAt ≤ target.leaseExpiresAt

/-- The handshake is what the reconciliation has made of the answer to the challenge. -/
structure Verified (call : HandshakeReconciler) (target : RegisteredInstance)
    (challenge : SignedHandshakeChallenge) (exchange : HandshakeExchange) (h : HandshakeRow) :
    Prop extends Issued Past call target challenge where
  answered : call.exchange target.endpoint challenge = .ok exchange
  digest : h.challengeDigest = challenge.digest crates.sha256
  kernelId : h.kernelInstanceId = call.kernelInstanceId
  targetId : h.targetInstanceId = target.publicKey.instanceId
  keyId : h.targetKeyId = target.publicKey.keyId
  /-- The response was signed over the challenge's digest, with the registered key. -/
  signed : crates.verifyStrict target.publicKey.publicKey
    (responseMessage h.kernelInstanceId h.targetInstanceId h.targetKeyId h.challengeDigest)
    exchange.response.signature = true
  received : h.verifiedAt = exchange.receivedAt
  window : challenge.issuedAt ≤ h.verifiedAt ∧ h.verifiedAt < challenge.expiresAt
  fresh : h.verifiedAt < h.expiresAt ∧
    h.expiresAt ≤ min (h.verifiedAt + handshakeLifetimeSeconds) target.leaseExpiresAt

/-- The row of a challenge, when it is issued. -/
def challengeRow (challenge : SignedHandshakeChallenge) : HandshakeChallengeRow :=
  (HandshakeChallengeRecord.ofChallenge crates.sha256 challenge).row

variable {crates Past}

/-- A challenge that is issued for a target that was seen is an issued one. -/
theorem issued_of_issue {call : HandshakeReconciler} {target : RegisteredInstance}
    {challenge : SignedHandshakeChallenge} {nonce : Option Bytes32}
    (hseen : ∃ d row key, Past d ∧ target.SeenIn d call.now row key)
    (hissue : SignedHandshakeChallenge.issue nonce call.kernel target call.now = .ok challenge) :
    Issued Past call target challenge := by
  obtain ⟨-, -, hkernel, htarget, hkey, hissued, hexpires, hlease, hsignature⟩ :=
    SignedHandshakeChallenge.issue_eq_ok hissue
  exact ⟨hseen, hkernel, htarget, hkey, hissued, hsignature, by omega, hlease⟩

/-- What is accepted is verified: the three checks of the times are those of the response, of the
restored handshake, and of the lease. -/
theorem verified_of_accept {call : HandshakeReconciler} {target : RegisteredInstance}
    {challenge : SignedHandshakeChallenge} {exchange : HandshakeExchange} {h : InstanceHandshake}
    (hissued : Issued Past call target challenge)
    (hanswered : call.exchange target.endpoint challenge = .ok exchange)
    (haccept : call.accept crates target challenge exchange = .ok h) :
    Verified crates Past call target challenge exchange h.row := by
  obtain ⟨hverify, hdigest, hkernel, htarget, hkey, hverified, hexpires⟩ :=
    HandshakeReconciler.accept_eq_ok haccept
  obtain ⟨hfrom, huntil, -, hsigned⟩ := SignedHandshakeResponse.verify_eq_ok hverify
  refine ⟨hissued, hanswered, hdigest, hkernel, htarget, hkey, ?_, hverified, ?_, ?_⟩
  · rw [hissued.kernel, hissued.targetInstanceId, hissued.targetKeyId] at hsigned
    change crates.verifyStrict _ (responseMessage h.kernelInstanceId h.targetInstanceId
      h.targetKeyId h.challengeDigest) _ = true
    rw [hkernel, htarget, hkey, hdigest]
    exact hsigned
  · change challenge.issuedAt ≤ h.verifiedAt ∧ h.verifiedAt < challenge.expiresAt
    rw [hverified]
    exact ⟨hfrom, huntil⟩
  · refine ⟨h.window.2, ?_⟩
    change h.expiresAt ≤ min (h.verifiedAt + handshakeLifetimeSeconds) _
    rw [hexpires, hverified]

/-! ## The contract -/

/-- What the outcome of an attempt says. -/
def OutcomeHolds (d : Db) (call : HandshakeReconciler) (a : HandshakeAttempt) : Prop :=
  match a.outcome with
  | .alreadyFresh h => h.row ∈ d.handshakes ∧ FreshFor call.kernelInstanceId a.instanceId call.now h
  | .verified h => h.row ∈ d.handshakes ∧ h.kernelInstanceId = call.kernelInstanceId ∧
    h.targetInstanceId = a.instanceId
  | .failed _ => True

/-- What an answer says. -/
def Answers (d : Db) : Op → Result → Prop
  | .reconcile call, .attempts (.ok attempts) => ∀ a ∈ attempts, OutcomeHolds d call a
  | .requireFresh kernelInstanceId targetInstanceId now, .handshake (.ok h) =>
    h.row ∈ d.handshakes ∧ FreshFor kernelInstanceId targetInstanceId now h
  | _, _ => True

/-- No write makes the outcome of an attempt untrue. -/
theorem stable_outcomeHolds (call : HandshakeReconciler) (a : HandshakeAttempt) {locks : List Key} :
    store.Stable locks fun d => OutcomeHolds d call a := by
  intro d w hd hk
  unfold OutcomeHolds at hd ⊢
  cases ha : a.outcome with
  | alreadyFresh h =>
    rw [ha] at hd
    exact ⟨handshakes_appendOnly.stable_mem h.row d w hd.1 hk, hd.2⟩
  | verified h =>
    rw [ha] at hd
    exact ⟨handshakes_appendOnly.stable_mem h.row d w hd.1 hk, hd.2⟩
  | failed => trivial

/-- No write makes an answer untrue. -/
theorem stable_answers (op : Op) (a : Result) {locks : List Key} :
    store.Stable locks fun d => Answers d op a := by
  intro d w hd hk
  cases op with
  | reconcile call =>
    rcases a with (_ | attempts) | _ | _
    · trivial
    · exact fun b hb => stable_outcomeHolds call b d w (hd b hb) hk
    · trivial
    · trivial
  | requireFresh kernelInstanceId targetInstanceId now =>
    rcases a with _ | (_ | h) | _
    · trivial
    · trivial
    · exact ⟨handshakes_appendOnly.stable_mem h.row d w hd.1 hk, hd.2⟩
    · trivial
  | other => trivial

variable (crates Past)

/-- What an event commits. -/
inductive Commits : Op → Db → List Write → Prop where
  | issued {call target challenge d} (h : Issued Past call target challenge)
      (hfresh : ∀ r ∈ d.handshakeChallenges,
        r.challengeDigest ≠ (challengeRow crates challenge).challengeDigest) :
      Commits (.reconcile call) d
        (HandshakeChallengeRecord.ofChallenge crates.sha256 challenge).issuedWrites
  | completed {call target challenge exchange d} {handshake : InstanceHandshake}
      (h : Verified crates Past call target challenge exchange handshake.row)
      (hmem : challengeRow crates challenge ∈ d.handshakeChallenges)
      (hfresh : ∀ r ∈ d.handshakes, r.challengeDigest ≠ handshake.challengeDigest) :
      Commits (.reconcile call) d (handshake.completedWrites (challengeRow crates challenge))
  | other {op d ws} (h : ∀ w ∈ ws, w.table ∉ tables) : Commits op d ws

/-- What holds of the challenges and the handshakes between events. -/
structure Inv (d : Db) : Prop where
  nodup_challenge : (d.handshakeChallenges.map HandshakeChallengeRow.challengeDigest).Nodup
  nodup_handshake : (d.handshakes.map HandshakeRow.challengeDigest).Nodup
  verified : ∀ h ∈ d.handshakes, ∃ call target challenge exchange,
    Verified crates Past call target challenge exchange h ∧
      (challengeRow crates challenge).consume h.verifiedAt ∈ d.handshakeChallenges
  consumed : ∀ row ∈ d.handshakeChallenges, ∀ t, row.consumedAt = some t →
    ∃ h ∈ d.handshakes, h.challengeDigest = row.challengeDigest ∧ h.verifiedAt = t

/-- The contract that the operations keep to, when snapshots are taken of databases that `Past`
allows. -/
def contract : Contract (system crates) where
  inv d log := Inv crates Past d ∧ ∀ e ∈ log, Answers d e.op e.result
  guar op d ws r := Commits crates Past op d ws ∧ ∀ a, r = some a → Answers (store.view d ws) op a
  assume _ _ d := Past d

variable {crates Past}

/-- An event may commit nothing. -/
theorem Commits.nothing {op : Op} {d : Db} : Commits crates Past op d [] :=
  .other fun _ hw => absurd hw List.not_mem_nil

/-- To write nothing and answer nothing is always allowed. -/
theorem guar_quiet (op : Op) (d : Db) : (contract crates Past).guar op d [] none :=
  ⟨.nothing, fun _ h => by cases h⟩

/-! ## What the commits preserve -/

section Steps

variable {d : Db} {op : Op} {ws : List Write}

/-- Writes to other tables leave the handshakes as they are. -/
theorem view_of_other (hws : ∀ w ∈ ws, w.table ∉ tables) :
    (store.view d ws).handshakeChallenges = d.handshakeChallenges ∧
      (store.view d ws).handshakes = d.handshakes := by
  constructor
  · exact handshakeChallenges_versioned.view_other fun w hw rw hrw =>
      hws w hw (by simp [hrw, Write.table, tables])
  · exact handshakes_appendOnly.view_other fun w hw row hrow =>
      hws w hw (by simp [hrow, Write.table, tables])

/-- A challenge that is issued. -/
theorem Inv.issue (hinv : Inv crates Past d) {challenge : SignedHandshakeChallenge}
    (hfresh : ∀ r ∈ d.handshakeChallenges,
      r.challengeDigest ≠ (challengeRow crates challenge).challengeDigest) :
    Inv crates Past (store.view d
      (HandshakeChallengeRecord.ofChallenge crates.sha256 challenge).issuedWrites) := by
  constructor
  · refine RowWrite.nodup_apply (w := .insert (challengeRow crates challenge))
      hinv.nodup_challenge fun x hx r hr => ?_
    obtain rfl := RowWrite.insert.inj hx
    exact hfresh r hr
  · exact hinv.nodup_handshake
  · intro h hh
    obtain ⟨call, target, challenge', exchange, hverified, hmem⟩ := hinv.verified h hh
    exact ⟨call, target, challenge', exchange, hverified, List.mem_append_left _ hmem⟩
  · intro row hrow t ht
    rcases List.mem_append.mp hrow with hrow | hrow
    · exact hinv.consumed row hrow t ht
    · -- A new challenge is not consumed.
      rw [List.mem_singleton.mp hrow] at ht
      cases ht

/-- A handshake that is completed. -/
theorem Inv.complete (hinv : Inv crates Past d) {call : HandshakeReconciler}
    {target : RegisteredInstance} {challenge : SignedHandshakeChallenge}
    {exchange : HandshakeExchange} {handshake : InstanceHandshake}
    (hverified : Verified crates Past call target challenge exchange handshake.row)
    (hmem : challengeRow crates challenge ∈ d.handshakeChallenges)
    (hfresh : ∀ r ∈ d.handshakes, r.challengeDigest ≠ handshake.challengeDigest) :
    Inv crates Past
      (store.view d (handshake.completedWrites (challengeRow crates challenge))) := by
  let new := (challengeRow crates challenge).consume handshake.verifiedAt
  have hdigest : new.challengeDigest = handshake.challengeDigest := hverified.digest.symm
  have hrows : ∀ row, row ∈ (RowWrite.update new).apply HandshakeChallengeRow.challengeDigest
      d.handshakeChallenges ↔ row = new ∨ row ∈ d.handshakeChallenges ∧
        row.challengeDigest ≠ new.challengeDigest :=
    fun row => RowWrite.mem_update hmem rfl
  have hhandshakes : (store.view d (handshake.completedWrites
      (challengeRow crates challenge))).handshakes = d.handshakes ++ [handshake.row] := rfl
  constructor
  · exact RowWrite.nodup_apply (w := .update new) hinv.nodup_challenge nofun
  · rw [hhandshakes, List.map_append, List.nodup_append]
    refine ⟨hinv.nodup_handshake, List.nodup_singleton _, ?_⟩
    rintro k hk k' hk' rfl
    obtain ⟨h, hh, rfl⟩ := List.mem_map.mp hk
    rw [List.map_singleton, List.mem_singleton] at hk'
    exact hfresh h hh hk'
  · intro h hh
    rcases List.mem_append.mp hh with hh | hh
    · -- The challenges of other handshakes have other digests.
      obtain ⟨call', target', challenge', exchange', hverified', hmem'⟩ := hinv.verified h hh
      refine ⟨call', target', challenge', exchange', hverified', (hrows _).mpr (.inr ⟨hmem', ?_⟩)⟩
      rw [hdigest]
      exact fun heq => hfresh h hh (hverified'.digest.trans heq)
    · rw [List.mem_singleton.mp hh]
      exact ⟨call, target, challenge, exchange, hverified, (hrows _).mpr (.inl rfl)⟩
  · intro row hrow t ht
    rcases (hrows row).mp hrow with rfl | ⟨hrow, -⟩
    · have hlast : handshake.row ∈ (store.view d (handshake.completedWrites
          (challengeRow crates challenge))).handshakes :=
        List.mem_append_right _ (List.mem_singleton_self _)
      exact ⟨handshake.row, hlast, hdigest.symm, Option.some.inj ht⟩
    · obtain ⟨h, hh, heq⟩ := hinv.consumed row hrow t ht
      exact ⟨h, List.mem_append_left _ hh, heq⟩

/-- Every commit preserves the invariant. -/
theorem Inv.commit (hinv : Inv crates Past d) (h : Commits crates Past op d ws) :
    Inv crates Past (store.view d ws) := by
  cases h with
  | issued _ hfresh => exact hinv.issue hfresh
  | completed hverified hmem hfresh => exact hinv.complete hverified hmem hfresh
  | other hws =>
    obtain ⟨hchallenges, hhandshakes⟩ := view_of_other (d := d) hws
    constructor
    · rw [hchallenges]
      exact hinv.nodup_challenge
    · rw [hhandshakes]
      exact hinv.nodup_handshake
    · rw [hchallenges, hhandshakes]
      exact hinv.verified
    · rw [hchallenges, hhandshakes]
      exact hinv.consumed

/-- A challenge stays. It may be consumed, once. -/
theorem Commits.keeps (h : Commits crates Past op d ws) (hinv : Inv crates Past d)
    {row : HandshakeChallengeRow} (hrow : row ∈ d.handshakeChallenges) :
    ∃ consumedAt, { row with consumedAt } ∈ (store.view d ws).handshakeChallenges ∧
      (row.consumedAt ≠ none → consumedAt = row.consumedAt) := by
  cases h with
  | issued => exact ⟨row.consumedAt, List.mem_append_left _ hrow, fun _ => rfl⟩
  | other hws => exact ⟨row.consumedAt, (view_of_other (d := d) hws).1 ▸ hrow, fun _ => rfl⟩
  | @completed _ _ challenge _ _ handshake _ hmem _ =>
    have hrows : ∀ r, r ∈ (RowWrite.update ((challengeRow crates challenge).consume
        handshake.verifiedAt)).apply HandshakeChallengeRow.challengeDigest
          d.handshakeChallenges ↔
        r = (challengeRow crates challenge).consume handshake.verifiedAt ∨
          r ∈ d.handshakeChallenges ∧ r.challengeDigest ≠
            ((challengeRow crates challenge).consume handshake.verifiedAt).challengeDigest :=
      fun r => RowWrite.mem_update hmem rfl
    by_cases heq : row.challengeDigest = (challengeRow crates challenge).challengeDigest
    · obtain rfl := List.inj_on_of_nodup_map hinv.nodup_challenge hrow hmem heq
      exact ⟨some handshake.verifiedAt, (hrows _).mpr (.inl rfl), fun hne => absurd rfl hne⟩
    · exact ⟨row.consumedAt, (hrows _).mpr (.inr ⟨hrow, heq⟩), fun _ => rfl⟩

end Steps

/-! ## Soundness -/

section Sound

variable {call : HandshakeReconciler} {e : Db} {u : List Write}

/-- A challenge that was issued is still there, consumed or not. -/
theorem rely_challenge (row : HandshakeChallengeRow) {d d' : Db}
    (hr : (contract crates Past).Rely [] d d')
    (hrow : ∃ consumedAt, { row with consumedAt } ∈ d.handshakeChallenges) :
    ∃ consumedAt, { row with consumedAt } ∈ d'.handshakeChallenges := by
  refine hr.stable_of_guar (P := fun d => ∃ consumedAt, { row with consumedAt } ∈
    d.handshakeChallenges) ?_ hrow
  rintro op d ws r ⟨log, hinv, -⟩ ⟨hcommits, -⟩ ⟨consumedAt, hmem⟩
  obtain ⟨consumedAt', hmem', -⟩ := hcommits.keeps hinv hmem
  exact ⟨consumedAt', hmem'⟩

/-- The rule of `reconcile_instance`, of an instance that was seen. -/
theorem wp_attempt {target : RegisteredInstance} (hnow : 0 ≤ call.now)
    (hseen : ∃ d row key, Past d ∧ target.SeenIn d call.now row key)
    (hg : (contract crates Past).guar (.reconcile call) e u none)
    {Q : (contract crates Past).Post HandshakeAttempt}
    (hQ : ∀ a d u, (contract crates Past).guar (.reconcile call) d u none →
      OutcomeHolds (store.view d u) call a → Q a d u [] []) :
    (contract crates Past).wp (.reconcile call) (call.attempt crates target) Q e u [] [] := by
  have hquiet : ∀ d, (contract crates Past).guar (.reconcile call) d [] none := guar_quiet _
  have herr : ∀ d er, Q ⟨target.publicKey.instanceId, .failed er⟩ d [] [] [] :=
    fun d er => hQ _ d [] (hquiet d) trivial
  refine Contract.wp_bind.mpr (Contract.wp_run_bind.mpr ?_)
  refine wp_findFresh hg hquiet hnow (fun d er _ => herr d er) ?_ ?_
  · intro d₁ _ _
    refine Contract.wp_ensure_bind.mpr ?_
    split
    · rename_i challenge hissue
      have hissued := issued_of_issue hseen hissue
      refine Contract.wp_run_bind.mpr ?_
      refine wp_insertChallenge (hquiet d₁) hquiet (fun d er _ => herr d er) ?_
      intro d₂ _ hfresh
      have hg₂ : (contract crates Past).guar (.reconcile call) d₂
        (HandshakeChallengeRecord.ofChallenge crates.sha256 challenge).issuedWrites none :=
        ⟨.issued hissued hfresh, nofun⟩
      refine Contract.wp_ensure_bind.mpr ?_
      split
      · rename_i exchange hanswered
        refine Contract.wp_ensure_bind.mpr ?_
        split
        · rename_i handshake haccept
          have hverified := verified_of_accept hissued hanswered haccept
          refine Contract.wp_run_bind.mpr ?_
          refine wp_complete hg₂ hquiet (fun d er _ => herr d er) ?_
          intro d₃ old hr₃ hgood₃ hmem hcompletes hfresh₃
          obtain ⟨hdigest, -, -, hnone, -⟩ := hcompletes
          -- The challenge that is consumed is the one that was issued.
          obtain ⟨consumedAt, hrow⟩ := rely_challenge (challengeRow crates challenge) hr₃
            ⟨none, List.mem_append_right _ (List.mem_singleton_self _)⟩
          obtain ⟨log, hinv, -⟩ := hgood₃
          have heq := List.inj_on_of_nodup_map hinv.nodup_challenge hmem hrow
            (hdigest.trans hverified.digest)
          rw [heq] at hnone
          have hold : old = challengeRow crates challenge := by
            rw [heq]
            exact congrArg (fun c => { challengeRow crates challenge with consumedAt := c }) hnone
          subst hold
          refine hQ _ d₃ _ ⟨.completed hverified hmem hfresh₃, nofun⟩ ⟨?_, ?_, ?_⟩
          · exact List.mem_append_right _ (List.mem_singleton_self _)
          · exact hverified.kernelId
          · exact hverified.targetId
        · exact hQ _ d₂ _ hg₂ trivial
      · exact hQ _ d₂ _ hg₂ trivial
    · exact herr d₁ _
  · intro d₁ h _ hfresh hmem
    exact hQ _ d₁ [] (hquiet d₁) ⟨hmem, hfresh⟩

/-- The rule of the loop of `reconcile`, by induction on the instances: the outcomes of the earlier
attempts stay true while the later ones go on. -/
theorem wp_attempts (hnow : 0 ≤ call.now) {targets : List RegisteredInstance}
    (hseen : ∀ target ∈ targets, ∃ d row key, Past d ∧ target.SeenIn d call.now row key) :
    ∀ {e : Db} {u : List Write}, (contract crates Past).guar (.reconcile call) e u none →
    ∀ {Q : (contract crates Past).Post (List HandshakeAttempt)},
    (∀ attempts d u, (contract crates Past).guar (.reconcile call) d u none →
      (∀ a ∈ attempts, OutcomeHolds (store.view d u) call a) → Q attempts d u [] []) →
    (contract crates Past).wp (.reconcile call) (call.attempts crates targets) Q e u [] [] := by
  induction targets with
  | nil => exact fun hg _ hQ => hQ [] _ _ hg nofun
  | cons target targets ih =>
    intro e u hg Q hQ
    refine Contract.wp_bind.mpr (wp_attempt hnow (hseen target List.mem_cons_self) hg ?_)
    intro a d u hg₁ ha
    have hrest := ih (fun t ht => hseen t (List.mem_cons_of_mem _ ht)) hg₁
      (Q := fun rest d u locks ws =>
        locks = [] ∧ ws = [] ∧ (contract crates Past).guar (.reconcile call) d u none ∧
          ∀ a ∈ rest, OutcomeHolds (store.view d u) call a)
      fun rest d u hg hrest => ⟨rfl, rfl, hg, hrest⟩
    refine Contract.wp_bind.mpr (Contract.wp_mono ?_
      (Contract.wp_frame (stable_outcomeHolds call a) ha hrest))
    rintro rest d₂ u₂ locks ws ⟨⟨rfl, rfl, hg₂, hrest⟩, ha₂⟩
    refine hQ (a :: rest) d₂ u₂ hg₂ fun b hb => ?_
    rcases List.mem_cons.mp hb with rfl | hb
    · exact ha₂
    · exact hrest b hb

/-- Every operation keeps to the contract. -/
theorem contract_sound : (contract crates Past).Sound where
  stutter := guar_quiet
  preserves id op d log ws r hinv hguar := by
    obtain ⟨hinv, hanswers⟩ := hinv
    refine ⟨hinv.commit hguar.1, fun e he => ?_⟩
    rcases List.mem_append.mp he with he | he
    · have hstable : store.Stable [] fun d => Answers d e.op e.result :=
        stable_answers e.op e.result
      exact hstable.view ws d (fun _ _ _ _ => List.not_mem_nil) (hanswers e he)
    · cases r with
      | none => exact absurd he List.not_mem_nil
      | some a =>
        rw [List.mem_singleton.mp he]
        exact hguar.2 a rfl
  program op e hgood := by
    have hquiet : ∀ d, (contract crates Past).guar op d [] none := guar_quiet op
    cases op with
    | reconcile call =>
      have herr : ∀ d er, (contract crates Past).Final (.reconcile call) (.attempts (.error er)) d
          [] [] [] := fun d er => ⟨.nothing, fun a ha => Option.some.inj ha ▸ trivial⟩
      refine Contract.wp_bind.mpr ?_
      unfold HandshakeReconciler.reconcile
      split
      · exact herr e _
      rename_i hnow
      refine Contract.wp_run_bind.mpr ?_
      refine wp_eligibleSubscribedInstances hquiet (fun d er _ => herr d er) ?_ hgood
      intro d _ d₁ instances _ hpast hseen
      -- The targets were eligible in the database that the discovery has read.
      have hseen' : ∀ target ∈ instances, ∃ d row key, Past d ∧
          target.SeenIn d call.now row key := fun target ht =>
        have ⟨row, key, h⟩ := hseen target ht
        ⟨d₁, row, key, hpast, h⟩
      refine Contract.wp_bind.mpr (wp_attempts (not_lt.mp hnow) hseen' (hquiet d) ?_)
      exact fun attempts d u hg hattempts => ⟨hg.1, fun a ha => Option.some.inj ha ▸ hattempts⟩
    | requireFresh kernelInstanceId targetInstanceId now =>
      have herr : ∀ d er, (contract crates Past).Final
          (.requireFresh kernelInstanceId targetInstanceId now)
          (.handshake (.error er)) d [] [] [] :=
        fun d er => ⟨.nothing, fun a ha => Option.some.inj ha ▸ trivial⟩
      refine Contract.wp_bind.mpr (Contract.wp_run_bind.mpr ?_)
      by_cases hnow : now < 0
      · unfold PostgresHandshakeRepository.findFresh
        rw [if_pos hnow]
        exact herr e _
      refine wp_findFresh (hquiet e) hquiet (not_lt.mp hnow) (fun d er _ => herr d er) ?_ ?_
      · exact fun d _ _ => herr d _
      · exact fun d h _ hfresh hmem =>
          ⟨.nothing, fun a ha => Option.some.inj ha ▸ ⟨hmem, hfresh⟩⟩
    | other writes hwrites =>
      refine Contract.wp_bind.mpr (wp_background hquiet (fun d _ => ?_) fun d _ => ?_)
      · exact ⟨.nothing, fun a ha => Option.some.inj ha ▸ trivial⟩
      · exact ⟨.other hwrites, fun a ha => Option.some.inj ha ▸ trivial⟩

end Sound

/-! ## Every run -/

/-- What `find_fresh` alone answers is fresh. -/
theorem findFresh_fresh (d : Db) (kernelInstanceId targetInstanceId : InstanceId) (now : ℤ) :
    ∃ r, (PostgresHandshakeRepository.findFresh kernelInstanceId targetInstanceId now).run.exec
        store d [] = ⟨d, [], r⟩ ∧
      ∀ h, r = .ok (some h) →
        h.row ∈ d.handshakes ∧ FreshFor kernelInstanceId targetInstanceId now h := by
  unfold PostgresHandshakeRepository.findFresh
  split
  · exact ⟨.error .invalidTimestamp, rfl, nofun⟩
  refine ⟨_, Postgres.Proc.exec_orFail_query_ensure, fun h hr => ?_⟩
  cases hrow : PostgresHandshakeRepository.freshRow kernelInstanceId targetInstanceId now d with
  | none =>
    rw [hrow] at hr
    cases hr
  | some row =>
    rw [hrow] at hr
    cases hread : handshakeFromRow row with
    | error er =>
      rw [Option.elim_some, hread] at hr
      cases hr
    | ok h' =>
      rw [Option.elim_some, hread] at hr
      obtain rfl := Option.some.inj (Except.ok.inj hr)
      obtain ⟨hfresh, hmem⟩ := freshFor_of_freshRow hrow hread
      exact ⟨hmem, hfresh⟩

/-- A database without challenges and handshakes keeps the invariant. -/
theorem inv_init {d₀ : Db} (hchallenges : d₀.handshakeChallenges = [])
    (hhandshakes : d₀.handshakes = []) : (contract crates Past).inv d₀ [] := by
  refine ⟨⟨?_, ?_, ?_, ?_⟩, fun _ he => absurd he List.not_mem_nil⟩
  · rw [hchallenges]
    exact List.nodup_nil
  · rw [hhandshakes]
    exact List.nodup_nil
  · rw [hhandshakes]
    exact fun _ hr => absurd hr List.not_mem_nil
  · rw [hchallenges]
    exact fun _ hr => absurd hr List.not_mem_nil

/-- The handshake protocol, in every state `s` of every run from empty tables. -/
theorem handshakes_safe (crates : KeyCrates) {d₀ : Db} (hchallenges : d₀.handshakeChallenges = [])
    (hhandshakes : d₀.handshakes = []) {s : State Db Write Key Op Result}
    (hs : (system crates).Reaches d₀ s) :
    -- A handshake was verified for an instance that the run has seen, and its challenge is the only
    -- one with its digest, and was consumed at that time.
    (∀ h ∈ s.db.handshakes, ∃ call target challenge exchange,
      Verified crates ((system crates).Passed d₀ s) call target challenge exchange h ∧
      ∀ row, row ∈ s.db.handshakeChallenges ∧ row.challengeDigest = h.challengeDigest ↔
        row = (challengeRow crates challenge).consume h.verifiedAt) ∧
    -- A challenge has one handshake at most, and it has one if it was consumed.
    (s.db.handshakes.map HandshakeRow.challengeDigest).Nodup ∧
    (∀ row ∈ s.db.handshakeChallenges, ∀ t, row.consumedAt = some t →
      ∃ h ∈ s.db.handshakes, h.challengeDigest = row.challengeDigest ∧ h.verifiedAt = t) ∧
    -- A challenge is consumed once: from then on it stays as it is.
    (∀ s', (system crates).Later s s' → ∀ row ∈ s.db.handshakeChallenges, row.consumedAt ≠ none →
      row ∈ s'.db.handshakeChallenges) ∧
    -- What is found is fresh, and a handshake of the same kernel instance.
    (∀ kernelInstanceId targetInstanceId now, ∃ r,
      (PostgresHandshakeRepository.findFresh kernelInstanceId targetInstanceId now).run.exec store
        s.db [] = ⟨s.db, [], r⟩ ∧
      ∀ h, r = .ok (some h) →
        h.row ∈ s.db.handshakes ∧ FreshFor kernelInstanceId targetInstanceId now h) ∧
    ∀ e ∈ s.log, Answers s.db e.op e.result := by
  have hholds := contract_sound.holds_past
    (C := contract crates ((system crates).Passed d₀ s)) (fun _ _ _ h => h)
    (inv_init hchallenges hhandshakes) hs
  obtain ⟨hinv, hanswers⟩ := hholds.inv
  refine ⟨fun h hh => ?_, hinv.nodup_handshake, hinv.consumed, fun s' hl row hrow hconsumed => ?_,
    fun _ _ _ => findFresh_fresh _ _ _ _, hanswers⟩
  · obtain ⟨call, target, challenge, exchange, hverified, hmem⟩ := hinv.verified h hh
    refine ⟨call, target, challenge, exchange, hverified, fun row =>
      ⟨fun ⟨hrow, hdigest⟩ => ?_, ?_⟩⟩
    · exact List.inj_on_of_nodup_map hinv.nodup_challenge hrow hmem
        (hdigest.trans hverified.digest)
    · rintro rfl
      exact ⟨hmem, hverified.digest.symm⟩
  · -- Where nothing is asked of the snapshots, the contract speaks of all that comes later.
    have hS : (contract crates fun _ => True).Sound := contract_sound
    refine hS.later (fun _ _ _ => trivial) (inv_init hchallenges hhandshakes)
      (P := fun d => row ∈ d.handshakeChallenges) ?_ hs hl hrow
    rintro op d log ws r ⟨hinv, -⟩ ⟨hcommits, -⟩ hmem
    obtain ⟨consumedAt, hmem', hsame⟩ := hcommits.keeps hinv hmem
    rw [hsame hconsumed] at hmem'
    exact hmem'

/-! ## A handshake -/

/-- The key of a kernel instance. -/
def exampleKernelKey : InstancePublicKey where
  serviceId := ⟨6⟩
  instanceId := ⟨9⟩
  keyId := ⟨10⟩
  publicKey :=
    { bytes :=
        [253, 23, 36, 56, 90, 160, 199, 91, 100, 251, 120, 205, 96, 47, 161, 217, 145, 253, 235,
          247, 107, 19, 197, 142, 215, 2, 234, 200, 53, 233, 246, 24]
      length_eq := rfl }

/-- The key of a registered instance. -/
def exampleTargetKey : Bytes32 where
  bytes :=
    [234, 74, 108, 99, 226, 156, 82, 10, 190, 245, 80, 123, 19, 46, 197, 249, 149, 71, 118, 174,
      190, 190, 123, 146, 66, 30, 234, 105, 20, 70, 210, 44]
  length_eq := rfl

/-- The kernel's signature of its challenge. -/
def exampleKernelSignature : Bytes64 where
  bytes :=
    [76, 41, 56, 229, 246, 12, 164, 9, 195, 239, 61, 15, 155, 25, 240, 44, 186, 160, 219, 144, 169,
      47, 229, 133, 40, 239, 27, 204, 185, 40, 157, 21, 179, 69, 244, 77, 74, 210, 86, 131, 168,
      153, 63, 100, 135, 222, 100, 0, 86, 121, 7, 221, 11, 187, 120, 226, 216, 219, 77, 223, 252,
      112, 155, 5]
  length_eq := rfl

/-- The digest of the challenge. -/
def exampleChallengeDigest : Bytes32 where
  bytes :=
    [9, 229, 118, 109, 13, 17, 193, 87, 85, 101, 81, 185, 24, 219, 217, 119, 73, 187, 246, 136, 205,
      178, 250, 245, 209, 72, 114, 219, 38, 49, 209, 162]
  length_eq := rfl

/-- The instance's signature of the digest. -/
def exampleTargetSignature : Bytes64 where
  bytes :=
    [129, 156, 242, 229, 94, 215, 242, 129, 113, 175, 160, 214, 133, 253, 37, 249, 126, 185, 224,
      181, 226, 235, 204, 199, 140, 69, 128, 196, 108, 194, 102, 85, 15, 159, 40, 110, 168, 74, 24,
      233, 245, 217, 3, 181, 103, 184, 107, 172, 35, 226, 185, 147, 78, 68, 122, 158, 230, 225, 200,
      43, 204, 163, 131, 14]
  length_eq := rfl

/-- The message of the challenge. -/
def exampleChallengeMessage : List UInt8 :=
  challengeMessage (.fill 1) exampleKernelKey ⟨7⟩ ⟨8⟩ 100 115

/-- The crates, at that challenge and its answer. -/
def exampleHandshakeCrates : KeyCrates where
  sha256 m :=
    if m = exampleChallengeMessage ++ exampleKernelSignature.bytes then exampleChallengeDigest
    else .fill 0
  verifyStrict key m signature := decide (key = exampleTargetKey ∧
    m = responseMessage ⟨9⟩ ⟨7⟩ ⟨8⟩ exampleChallengeDigest ∧ signature = exampleTargetSignature)
  displayUuid := exampleCratesOfRequest.displayUuid
  parseUuid := exampleCratesOfRequest.parseUuid
  encodeBase64 := exampleCratesOfRequest.encodeBase64
  decodeBase64 := exampleCratesOfRequest.decodeBase64
  decodeUrlSafe := exampleCratesOfRequest.decodeUrlSafe
  verifyingKey key := decide (key = exampleTargetKey)

/-- The reconciliation, to which the instance answers after five seconds. -/
def exampleReconciliation : HandshakeReconciler where
  kernel :=
    { publicKey := exampleKernelKey
      sign := fun message =>
        if message = exampleChallengeMessage then exampleKernelSignature
        else { bytes := List.replicate 64 0, length_eq := length_zeros } }
  now := 100
  nonce _ := some (.fill 1)
  exchange _ challenge := .ok
    { response :=
        { kernelInstanceId := challenge.kernelKey.instanceId
          targetInstanceId := challenge.targetInstanceId, targetKeyId := challenge.targetKeyId
          challengeDigest := exampleChallengeDigest, signature := exampleTargetSignature }
      receivedAt := 105 }

/-- A database with one instance of a service that has a subscription. -/
def oneSubscriber : Db where
  identityRows := [⟨⟨1⟩, .service, ['a'], .active⟩]
  serviceInstances := [⟨⟨7⟩, ⟨1⟩, "https://10.0.0.1:8443".toList, 90, 200, 1, none⟩]
  serviceInstanceKeys := [⟨⟨8⟩, ⟨7⟩, exampleTargetKey, .fill 3, 90, none⟩]
  subscriptions := [⟨⟨5⟩, ⟨1⟩, "billing.invoice".toList, .inclusive, 95, none⟩]

/-- The handshake is stored, and lasts for half a minute. -/
theorem handshakes_safe_verified : ∃ s, (system exampleHandshakeCrates).Reaches oneSubscriber s ∧
    s.db.handshakes = [⟨exampleChallengeDigest, ⟨9⟩, ⟨7⟩, ⟨8⟩, 105, 135⟩] ∧
    (s.db.handshakes.map HandshakeRow.challengeDigest).Nodup := by
  obtain ⟨s, hs, -, hdb, -⟩ := Postgres.System.exec_reaches
    (.init : (system exampleHandshakeCrates).Reaches oneSubscriber { db := oneSubscriber }) rfl
    (.reconcile exampleReconciliation)
  refine ⟨s, hs, ?_, (handshakes_safe exampleHandshakeCrates rfl rfl hs).2.1⟩
  rw [hdb]
  decide +kernel

end Handshakes

end InfernalLaw
