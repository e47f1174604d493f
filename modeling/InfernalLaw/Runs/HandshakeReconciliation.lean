import InfernalLaw.Effects.Keyed
import InfernalLaw.Runs.Handshakes

/-!
# Reconciliation over any repository

`HandshakeReconciler::reconcile` over any repository of handshakes, of which the one over the
database is a case. The attempts at distinct instances are isolated: with a repository that keeps a
state for each instance, an attempt is what it would be by itself.
-/

namespace InfernalLaw

open Effects (each each_onKey each_onKey_state mk_pure_error_bind mk_pure_ok_bind onKey onKey_bind
  onKey_pure onKeyT onKeyT_bind onKeyT_mk_pure run_bind_error run_bind_ok)

/-- The trait `HandshakeRepository`. -/
structure HandshakeRepository (m : Type → Type) where
  /-- `find_fresh`. -/
  findFresh : InstanceId → InstanceId → ℤ → ExceptT HandshakeError m (Option InstanceHandshake)
  /-- `insert_challenge`. -/
  insertChallenge : HandshakeChallengeRecord → ExceptT HandshakeError m Unit
  /-- `complete`. -/
  complete : InstanceHandshake → ExceptT HandshakeError m Unit

/-- The repository over the database. -/
def PostgresHandshakeRepository.handshakes : HandshakeRepository (Postgres.Proc Db Write Key) where
  findFresh := findFresh
  insertChallenge challenge := ExceptT.mk (insertChallenge challenge)
  complete handshake := ExceptT.mk (complete handshake)

/-- What an attempt comes to. -/
def HandshakeAttemptOutcome.ofResult (r : Except HandshakeError HandshakeAttemptOutcome) :
    HandshakeAttemptOutcome :=
  match r with
  | .ok outcome => outcome
  | .error error => .failed error

namespace HandshakeReconciler

section

variable {m : Type → Type} [Monad m] (crates : KeyCrates) (call : HandshakeReconciler)
  (handshakes : HandshakeRepository m)

/-- `reconcile_instance`, once no fresh handshake was found. -/
def challengeWith (target : RegisteredInstance) :
    ExceptT HandshakeError m HandshakeAttemptOutcome := do
  let challenge ← ExceptT.mk (pure (SignedHandshakeChallenge.issue
    (call.nonce target.publicKey.instanceId) call.kernel target call.now))
  let _ ← handshakes.insertChallenge (.ofChallenge crates.sha256 challenge)
  let exchange ← ExceptT.mk (pure (call.exchange target.endpoint challenge))
  let handshake ← ExceptT.mk (pure (call.accept crates target challenge exchange))
  let _ ← handshakes.complete handshake
  return .verified handshake

/-- `reconcile_instance`. -/
def reconcileInstanceWith (target : RegisteredInstance) :
    ExceptT HandshakeError m HandshakeAttemptOutcome := do
  let existing ← handshakes.findFresh call.kernelInstanceId target.publicKey.instanceId call.now
  match existing with
  | some existing => return .alreadyFresh existing
  | none => call.challengeWith crates handshakes target

/-- The attempt at an instance. -/
def attemptWith (target : RegisteredInstance) : m HandshakeAttempt := do
  let r ← (call.reconcileInstanceWith crates handshakes target).run
  return { instanceId := target.publicKey.instanceId, outcome := .ofResult r }

/-- `reconcile`, over any discovery. -/
def reconcileWith (discover : ExceptT HandshakeError m (List RegisteredInstance)) :
    ExceptT HandshakeError m (List HandshakeAttempt) :=
  if call.now < 0 then throw .invalidTimestamp
  else do
    let candidates ← discover
    ExceptT.mk (do
      let attempts ← each (call.attemptWith crates handshakes) candidates
      return .ok attempts)

end

/-- The attempt over the database is the general one. -/
theorem attempt_eq (crates : KeyCrates) (call : HandshakeReconciler) (target : RegisteredInstance) :
    call.attempt crates target =
      call.attemptWith crates PostgresHandshakeRepository.handshakes target := rfl

/-- The loop over the database is the general one. -/
theorem attempts_eq (crates : KeyCrates) (call : HandshakeReconciler)
    (targets : List RegisteredInstance) : call.attempts crates targets =
      each (call.attemptWith crates PostgresHandshakeRepository.handshakes) targets := by
  induction targets with
  | nil => rfl
  | cons target targets ih =>
    rw [attempts, attempt_eq, ih]
    rfl

/-- `reconcile` over the database is the general one. -/
theorem reconcile_eq (crates : KeyCrates) (call : HandshakeReconciler) :
    call.reconcile crates = call.reconcileWith crates PostgresHandshakeRepository.handshakes
      (PostgresSubscribedInstanceDiscovery.eligibleSubscribedInstances crates call.now) := by
  unfold reconcile reconcileWith
  split
  · rfl
  · congr 1
    funext candidates
    rw [attempts_eq]
    rfl

end HandshakeReconciler

/-! ## A repository with a state for each instance -/

namespace HandshakeRepository

variable {σ : Type} (handshakes : HandshakeRepository (StateM σ))

/-- The repository that keeps a state for each instance. -/
def forEach : HandshakeRepository (StateM (InstanceId → σ)) where
  findFresh kernelInstanceId targetInstanceId now :=
    onKeyT targetInstanceId (handshakes.findFresh kernelInstanceId targetInstanceId now)
  insertChallenge challenge :=
    onKeyT challenge.targetInstanceId (handshakes.insertChallenge challenge)
  complete handshake := onKeyT handshake.targetInstanceId (handshakes.complete handshake)

end HandshakeRepository

namespace HandshakeReconciler

variable {crates : KeyCrates} {call : HandshakeReconciler}

/-- A handshake that is accepted is one of the target. -/
theorem targetInstanceId_of_accept {target : RegisteredInstance}
    {challenge : SignedHandshakeChallenge} {exchange : HandshakeExchange}
    {handshake : InstanceHandshake}
    (h : call.accept crates target challenge exchange = .ok handshake) :
    handshake.targetInstanceId = target.publicKey.instanceId := by
  unfold accept at h
  obtain ⟨_, -, h⟩ := Postgres.bind_eq_ok.mp h
  obtain ⟨expiresAt, -, h⟩ := Postgres.bind_eq_ok.mp h
  exact (InstanceHandshake.restore_eq_ok h).2.2.1

variable {σ : Type} {handshakes : HandshakeRepository (StateM σ)}

/-- A challenge concerns the state of its target alone. -/
theorem challengeWith_forEach (target : RegisteredInstance) :
    call.challengeWith crates handshakes.forEach target =
      onKeyT target.publicKey.instanceId (call.challengeWith crates handshakes target) := by
  unfold challengeWith
  cases hissue : SignedHandshakeChallenge.issue (call.nonce target.publicKey.instanceId) call.kernel
      target call.now with
  | error e => rw [mk_pure_error_bind, mk_pure_error_bind, onKeyT_mk_pure]
  | ok challenge =>
    obtain ⟨-, -, -, htarget, -⟩ := SignedHandshakeChallenge.issue_eq_ok hissue
    -- The challenge is stored for its target, so it is stored in the target's own state.
    have hinsert : handshakes.forEach.insertChallenge (.ofChallenge crates.sha256 challenge) =
        onKeyT target.publicKey.instanceId
          (handshakes.insertChallenge (.ofChallenge crates.sha256 challenge)) := by
      rw [← htarget]
      rfl
    rw [mk_pure_ok_bind, mk_pure_ok_bind, hinsert, onKeyT_bind]
    congr 1
    funext _
    cases call.exchange target.endpoint challenge with
    | error e => rw [mk_pure_error_bind, mk_pure_error_bind, onKeyT_mk_pure]
    | ok exchange =>
      rw [mk_pure_ok_bind, mk_pure_ok_bind]
      cases haccept : call.accept crates target challenge exchange with
      | error e => rw [mk_pure_error_bind, mk_pure_error_bind, onKeyT_mk_pure]
      | ok handshake =>
        -- So is the handshake that completes it.
        have hcomplete : handshakes.forEach.complete handshake =
            onKeyT target.publicKey.instanceId (handshakes.complete handshake) := by
          rw [← targetInstanceId_of_accept haccept]
          rfl
        rw [mk_pure_ok_bind, mk_pure_ok_bind, hcomplete, onKeyT_bind]
        congr 1
        funext _
        exact (onKeyT_mk_pure _ _).symm

/-- An attempt concerns the state of its instance alone. -/
theorem attemptWith_forEach (target : RegisteredInstance) :
    call.attemptWith crates handshakes.forEach target =
      onKey target.publicKey.instanceId (call.attemptWith crates handshakes target) := by
  have hreconcile : call.reconcileInstanceWith crates handshakes.forEach target =
      onKeyT target.publicKey.instanceId
        (call.reconcileInstanceWith crates handshakes target) := by
    unfold reconcileInstanceWith
    rw [onKeyT_bind]
    show onKeyT target.publicKey.instanceId _ >>= _ = _
    congr 1
    funext existing
    cases existing with
    | none => exact challengeWith_forEach target
    | some existing => exact (onKeyT_mk_pure _ _).symm
  unfold attemptWith
  rw [hreconcile, onKey_bind]
  congr 1
  funext r
  exact (onKey_pure _ _).symm

/-! ## One attempt -/

variable {target : RegisteredInstance} {s s₁ s₂ : σ}

/-- The attempt reports what came of it, and leaves the state that was reached. -/
theorem attemptWith_apply : call.attemptWith crates handshakes target s =
    (⟨target.publicKey.instanceId,
      .ofResult ((call.reconcileInstanceWith crates handshakes target).run s).1⟩,
      ((call.reconcileInstanceWith crates handshakes target).run s).2) := rfl

/-- An instance with a fresh handshake is not challenged: nothing is done but the look-up. -/
theorem attemptWith_of_fresh {handshake : InstanceHandshake}
    (h : (handshakes.findFresh call.kernelInstanceId target.publicKey.instanceId call.now).run s =
      (.ok (some handshake), s₁)) :
    call.attemptWith crates handshakes target s =
      (⟨target.publicKey.instanceId, .alreadyFresh handshake⟩, s₁) := by
  rw [attemptWith_apply, reconcileInstanceWith, run_bind_ok h]
  rfl

/-- An eligible instance is challenged, unless the clock or the random source fails. -/
theorem issue_eq_error {nonce : Option Bytes32} {e : HandshakeError} (hnow : 0 ≤ call.now)
    (heligible : target.isEligibleAt call.now = true)
    (h : SignedHandshakeChallenge.issue nonce call.kernel target call.now = .error e) :
    e = .invalidTimestamp ∨ e = .randomSource := by
  unfold SignedHandshakeChallenge.issue at h
  rw [if_neg (by rw [heligible]; simp [hnow])] at h
  split at h
  · exact .inl (Except.error.inj h).symm
  dsimp only at h
  split at h
  · exact .inl (Except.error.inj h).symm
  split at h
  · exact .inr (Except.error.inj h).symm
  · cases h

/-- How a response is rejected. -/
theorem verify_eq_error {r : SignedHandshakeResponse} {challenge : SignedHandshakeChallenge}
    {key : InstancePublicKey} {now : ℤ} {e : HandshakeError}
    (h : r.verify crates.toCrates challenge key now = .error e) :
    e = .challengeExpired ∨ e = .targetMismatch ∨ e = .invalidTargetSignature := by
  unfold SignedHandshakeResponse.verify at h
  split_ifs at h
  · exact .inl (Except.error.inj h).symm
  · exact .inr (.inl (Except.error.inj h).symm)
  · exact .inr (.inr (Except.error.inj h).symm)

/-- A response that verifies is accepted, unless the clock fails: it was received after the
challenge was issued, and before the lease ends. -/
theorem accept_of_verify {challenge : SignedHandshakeChallenge} {exchange : HandshakeExchange}
    (hissue : SignedHandshakeChallenge.issue (call.nonce target.publicKey.instanceId) call.kernel
      target call.now = .ok challenge)
    (hverify : exchange.response.verify crates.toCrates challenge target.publicKey
      exchange.receivedAt = .ok ()) :
    call.accept crates target challenge exchange = .error .invalidTimestamp ∨
      ∃ handshake, call.accept crates target challenge exchange = .ok handshake := by
  obtain ⟨hnow, -, -, -, -, hissued, -, hlease, -⟩ := SignedHandshakeChallenge.issue_eq_ok hissue
  obtain ⟨hfrom, huntil, -⟩ := SignedHandshakeResponse.verify_eq_ok hverify
  unfold accept
  rw [hverify]
  by_cases hclock : exchange.receivedAt + Handshakes.handshakeLifetimeSeconds < 2 ^ 63
  · rw [if_pos hclock]
    have hwindow : ¬ (exchange.receivedAt < 0 ∨
        min (exchange.receivedAt + Handshakes.handshakeLifetimeSeconds) target.leaseExpiresAt ≤
          exchange.receivedAt) := by
      unfold Handshakes.handshakeLifetimeSeconds
      omega
    exact .inr ⟨_, dif_neg hwindow⟩
  · rw [if_neg hclock]
    exact .inl rfl

/-- The repository or the transport itself answers the attempt with the error. -/
def Answered (crates : KeyCrates) (call : HandshakeReconciler)
    (handshakes : HandshakeRepository (StateM σ)) (target : RegisteredInstance) (s : σ)
    (e : HandshakeError) : Prop :=
  ((handshakes.findFresh call.kernelInstanceId target.publicKey.instanceId call.now).run s).1 =
      .error e ∨
    ∃ s₁ challenge, (handshakes.findFresh call.kernelInstanceId target.publicKey.instanceId
        call.now).run s = (.ok none, s₁) ∧
      SignedHandshakeChallenge.issue (call.nonce target.publicKey.instanceId) call.kernel target
        call.now = .ok challenge ∧
      (((handshakes.insertChallenge (.ofChallenge crates.sha256 challenge)).run s₁).1 = .error e ∨
        ∃ s₂, (handshakes.insertChallenge (.ofChallenge crates.sha256 challenge)).run s₁ =
            (.ok (), s₂) ∧
          (call.exchange target.endpoint challenge = .error e ∨
            ∃ handshake, ((handshakes.complete handshake).run s₂).1 = .error e))

/-- What comes of a response that verifies: the clock fails, or the handshake is completed. -/
theorem challengeWith_of_verify {challenge : SignedHandshakeChallenge}
    {exchange : HandshakeExchange}
    (hissue : SignedHandshakeChallenge.issue (call.nonce target.publicKey.instanceId) call.kernel
      target call.now = .ok challenge)
    (hinsert : (handshakes.insertChallenge (.ofChallenge crates.sha256 challenge)).run s₁ =
      (.ok (), s₂))
    (hexchange : call.exchange target.endpoint challenge = .ok exchange)
    (hverify : exchange.response.verify crates.toCrates challenge target.publicKey
      exchange.receivedAt = .ok ()) :
    ((call.challengeWith crates handshakes target).run s₁).1 = .error .invalidTimestamp ∨
      ∃ handshake, ((call.challengeWith crates handshakes target).run s₁).1 =
        ((handshakes.complete handshake).run s₂).1.map fun _ => .verified handshake := by
  unfold challengeWith
  rw [hissue, mk_pure_ok_bind, run_bind_ok hinsert, hexchange, mk_pure_ok_bind]
  rcases accept_of_verify hissue hverify with haccept | ⟨handshake, haccept⟩
  · rw [haccept, mk_pure_error_bind]
    exact .inl rfl
  · rw [haccept, mk_pure_ok_bind]
    refine .inr ⟨handshake, ?_⟩
    rcases hcomplete : (handshakes.complete handshake).run s₂ with ⟨e | u, s₃⟩
    · rw [run_bind_error hcomplete]
      rfl
    · rw [run_bind_ok hcomplete]
      rfl

/-- How the attempt at an eligible instance fails, once no fresh handshake was found. -/
theorem challengeWith_eq_failed {e : HandshakeError} (hnow : 0 ≤ call.now)
    (heligible : target.isEligibleAt call.now = true)
    (hfind : (handshakes.findFresh call.kernelInstanceId target.publicKey.instanceId
      call.now).run s = (.ok none, s₁))
    (h : .ofResult ((call.challengeWith crates handshakes target).run s₁).1 =
      HandshakeAttemptOutcome.failed e) :
    Answered crates call handshakes target s e ∨ e = .invalidTimestamp ∨ e = .randomSource ∨
      e = .challengeExpired ∨ e = .targetMismatch ∨ e = .invalidTargetSignature := by
  -- Each step either fails with its own error, or the next one is taken in the state that it
  -- leaves.
  cases hissue : SignedHandshakeChallenge.issue (call.nonce target.publicKey.instanceId) call.kernel
      target call.now with
  | error e' =>
    rw [challengeWith, hissue, mk_pure_error_bind] at h
    obtain rfl := HandshakeAttemptOutcome.failed.inj h
    exact .inr ((issue_eq_error hnow heligible hissue).imp_right .inl)
  | ok challenge =>
    rcases hinsert : (handshakes.insertChallenge (.ofChallenge crates.sha256 challenge)).run s₁ with
      ⟨e' | ⟨⟨⟩⟩, s₂⟩
    · rw [challengeWith, hissue, mk_pure_ok_bind, run_bind_error hinsert] at h
      obtain rfl := HandshakeAttemptOutcome.failed.inj h
      exact .inl (.inr ⟨s₁, challenge, hfind, hissue, .inl (by rw [hinsert])⟩)
    cases hexchange : call.exchange target.endpoint challenge with
    | error e' =>
      rw [challengeWith, hissue, mk_pure_ok_bind, run_bind_ok hinsert, hexchange,
        mk_pure_error_bind] at h
      obtain rfl := HandshakeAttemptOutcome.failed.inj h
      exact .inl (.inr ⟨s₁, challenge, hfind, hissue, .inr ⟨s₂, hinsert, .inl hexchange⟩⟩)
    | ok exchange =>
      cases hverify : exchange.response.verify crates.toCrates challenge target.publicKey
          exchange.receivedAt with
      | error e' =>
        have haccept : call.accept crates target challenge exchange = .error e' := by
          rw [accept, hverify]
          rfl
        rw [challengeWith, hissue, mk_pure_ok_bind, run_bind_ok hinsert, hexchange,
          mk_pure_ok_bind, haccept, mk_pure_error_bind] at h
        obtain rfl := HandshakeAttemptOutcome.failed.inj h
        exact .inr (.inr (.inr (verify_eq_error hverify)))
      | ok u =>
        -- The response verifies: what is left is the clock, and the repository that stores the
        -- handshake.
        rcases challengeWith_of_verify hissue hinsert hexchange
          hverify with hclock | ⟨handshake, hdone⟩
        · rw [hclock] at h
          exact .inr (.inl (HandshakeAttemptOutcome.failed.inj h).symm)
        · rw [hdone] at h
          refine .inl (.inr
            ⟨s₁, challenge, hfind, hissue, .inr ⟨s₂, hinsert, .inr ⟨handshake, ?_⟩⟩⟩)
          cases hcomplete : ((handshakes.complete handshake).run s₂).1 with
          | error e' =>
            rw [hcomplete] at h
            rw [HandshakeAttemptOutcome.failed.inj h]
          | ok u =>
            rw [hcomplete] at h
            cases h

/-- How the attempt at an eligible instance fails. -/
theorem attemptWith_eq_failed {e : HandshakeError} (hnow : 0 ≤ call.now)
    (heligible : target.isEligibleAt call.now = true)
    (h : (call.attemptWith crates handshakes target s).1.outcome = .failed e) :
    Answered crates call handshakes target s e ∨ e = .invalidTimestamp ∨ e = .randomSource ∨
      e = .challengeExpired ∨ e = .targetMismatch ∨ e = .invalidTargetSignature := by
  rcases hfind : (handshakes.findFresh call.kernelInstanceId target.publicKey.instanceId
    call.now).run s with ⟨e' | existing, s₁⟩
  · rw [attemptWith_apply, reconcileInstanceWith, run_bind_error hfind] at h
    obtain rfl := HandshakeAttemptOutcome.failed.inj h
    exact .inl (.inl (by rw [hfind]))
  · cases existing with
    | none =>
      rw [attemptWith_apply, reconcileInstanceWith, run_bind_ok hfind] at h
      exact challengeWith_eq_failed hnow heligible hfind h
    | some handshake =>
      rw [attemptWith_of_fresh hfind] at h
      cases h

/-- What comes of the attempt whose response verifies. -/
theorem attemptWith_of_verify {challenge : SignedHandshakeChallenge} {exchange : HandshakeExchange}
    {e : HandshakeError}
    (hfind : (handshakes.findFresh call.kernelInstanceId target.publicKey.instanceId
      call.now).run s = (.ok none, s₁))
    (hissue : SignedHandshakeChallenge.issue (call.nonce target.publicKey.instanceId) call.kernel
      target call.now = .ok challenge)
    (hinsert : (handshakes.insertChallenge (.ofChallenge crates.sha256 challenge)).run s₁ =
      (.ok (), s₂))
    (hexchange : call.exchange target.endpoint challenge = .ok exchange)
    (hverify : exchange.response.verify crates.toCrates challenge target.publicKey
      exchange.receivedAt = .ok ())
    (h : (call.attemptWith crates handshakes target s).1.outcome = .failed e) :
    e = .invalidTimestamp ∨ ∃ handshake, ((handshakes.complete handshake).run s₂).1 = .error e := by
  rw [attemptWith_apply, reconcileInstanceWith, run_bind_ok hfind] at h
  dsimp only at h
  rcases challengeWith_of_verify hissue hinsert hexchange hverify with hclock | ⟨handshake, hdone⟩
  · rw [hclock] at h
    exact .inl (HandshakeAttemptOutcome.failed.inj h).symm
  · rw [hdone] at h
    refine .inr ⟨handshake, ?_⟩
    cases hcomplete : ((handshakes.complete handshake).run s₂).1 with
    | error e' =>
      rw [hcomplete] at h
      rw [HandshakeAttemptOutcome.failed.inj h]
    | ok u =>
      rw [hcomplete] at h
      cases h

/-- Of the transport and the random source, an attempt depends on what they answer for its own
instance. -/
theorem attemptWith_congr {call' : HandshakeReconciler} (hkernel : call'.kernel = call.kernel)
    (hnow : call'.now = call.now)
    (hnonce : call'.nonce target.publicKey.instanceId = call.nonce target.publicKey.instanceId)
    (hexchange : ∀ challenge : SignedHandshakeChallenge,
      challenge.targetInstanceId = target.publicKey.instanceId →
        call'.exchange target.endpoint challenge = call.exchange target.endpoint challenge) :
    call'.attemptWith crates handshakes target = call.attemptWith crates handshakes target := by
  have hid : call'.kernelInstanceId = call.kernelInstanceId := by
    rw [kernelInstanceId, hkernel, kernelInstanceId]
  have haccept : call'.accept crates target = call.accept crates target := by
    funext challenge exchange
    rw [accept, hid, accept]
  have hchallenge : call'.challengeWith crates handshakes target =
      call.challengeWith crates handshakes target := by
    unfold challengeWith
    rw [hnonce, hkernel, hnow, haccept]
    cases hissue : SignedHandshakeChallenge.issue (call.nonce target.publicKey.instanceId)
        call.kernel target call.now with
    | error e => rfl
    | ok challenge =>
      obtain ⟨-, -, -, htarget, -⟩ := SignedHandshakeChallenge.issue_eq_ok hissue
      rw [mk_pure_ok_bind, mk_pure_ok_bind, hexchange challenge htarget]
  unfold attemptWith reconcileInstanceWith
  rw [hid, hnow, hchallenge]

/-! ## Reconciliation -/

variable {discover : ExceptT HandshakeError (StateM (InstanceId → σ)) (List RegisteredInstance)}
  {candidates : List RegisteredInstance} {w₀ w : InstanceId → σ}

variable (crates handshakes) in
/-- Reconciliation attempts each of the candidates, in the order of their discovery, as if it were
the only one. -/
theorem reconcileWith_forEach (hnow : 0 ≤ call.now)
    (hdiscover : discover.run w₀ = (.ok candidates, w))
    (hdistinct : (candidates.map fun c => c.publicKey.instanceId).Nodup) :
    ∃ w', (call.reconcileWith crates handshakes.forEach discover).run w₀ =
        (.ok (candidates.map fun c =>
          (call.attemptWith crates handshakes c (w c.publicKey.instanceId)).1), w') ∧
      ∀ c ∈ candidates, w' c.publicKey.instanceId =
        (call.attemptWith crates handshakes c (w c.publicKey.instanceId)).2 := by
  have hattempt : call.attemptWith crates handshakes.forEach =
      fun c => onKey c.publicKey.instanceId (call.attemptWith crates handshakes c) :=
    funext attemptWith_forEach
  refine ⟨(each (call.attemptWith crates handshakes.forEach) candidates w).2, ?_, fun c hc => ?_⟩
  · rw [reconcileWith, if_neg (not_lt.mpr hnow), run_bind_ok hdiscover, hattempt,
      ← each_onKey (p := call.attemptWith crates handshakes) hdistinct w]
    rfl
  · rw [hattempt]
    exact each_onKey_state (p := call.attemptWith crates handshakes) hdistinct w hc

/-- Reconciliation is failure isolated. Whatever the repository and the transport do, there is one
attempt for each candidate, in the order of their discovery, and it depends on the candidate's own
record, the repository's answers about it and its own exchange. A candidate with a fresh handshake
is not challenged again. A candidate that is eligible is reported as ineligible only when the
repository or the transport answers so, and after a response that verifies the record is reported as
invalid only when the repository answers so. -/
theorem reconcile_isolated (hnow : 0 ≤ call.now)
    (hdiscover : discover.run w₀ = (.ok candidates, w))
    (hdistinct : (candidates.map fun c => c.publicKey.instanceId).Nodup)
    (heligible : ∀ c ∈ candidates, c.isEligibleAt call.now = true) :
    ∃ w', (call.reconcileWith crates handshakes.forEach discover).run w₀ =
        (.ok (candidates.map fun c =>
          (call.attemptWith crates handshakes c (w c.publicKey.instanceId)).1), w') ∧
      ∀ c ∈ candidates,
        (call.attemptWith crates handshakes c (w c.publicKey.instanceId)).1.instanceId =
          c.publicKey.instanceId ∧
        w' c.publicKey.instanceId =
          (call.attemptWith crates handshakes c (w c.publicKey.instanceId)).2 ∧
        (∀ call' : HandshakeReconciler, call'.kernel = call.kernel → call'.now = call.now →
          call'.nonce c.publicKey.instanceId = call.nonce c.publicKey.instanceId →
          (∀ challenge : SignedHandshakeChallenge,
            challenge.targetInstanceId = c.publicKey.instanceId →
              call'.exchange c.endpoint challenge = call.exchange c.endpoint challenge) →
          call'.attemptWith crates handshakes c = call.attemptWith crates handshakes c) ∧
        (∀ handshake s₁, (handshakes.findFresh call.kernelInstanceId c.publicKey.instanceId
            call.now).run (w c.publicKey.instanceId) = (.ok (some handshake), s₁) →
          call.attemptWith crates handshakes c (w c.publicKey.instanceId) =
            (⟨c.publicKey.instanceId, .alreadyFresh handshake⟩, s₁)) ∧
        (∀ id, (call.attemptWith crates handshakes c (w c.publicKey.instanceId)).1.outcome =
            .failed (.ineligibleInstance id) →
          Answered crates call handshakes c (w c.publicKey.instanceId) (.ineligibleInstance id)) ∧
        ∀ s₁ challenge s₂ exchange,
          (handshakes.findFresh call.kernelInstanceId c.publicKey.instanceId call.now).run
            (w c.publicKey.instanceId) = (.ok none, s₁) →
          SignedHandshakeChallenge.issue (call.nonce c.publicKey.instanceId) call.kernel c
            call.now = .ok challenge →
          (handshakes.insertChallenge (.ofChallenge crates.sha256 challenge)).run s₁ =
            (.ok (), s₂) →
          call.exchange c.endpoint challenge = .ok exchange →
          exchange.response.verify crates.toCrates challenge c.publicKey exchange.receivedAt =
            .ok () →
          (call.attemptWith crates handshakes c (w c.publicKey.instanceId)).1.outcome =
            .failed .invalidStoredRecord →
          ∃ handshake, ((handshakes.complete handshake).run s₂).1 =
          .error .invalidStoredRecord := by
  -- The loop takes each candidate in its own state; the rest is about one attempt.
  obtain ⟨w', hrun, hstates⟩ := reconcileWith_forEach crates handshakes hnow hdiscover
    hdistinct
  refine ⟨w', hrun, fun c hc => ⟨rfl, hstates c hc, ?_, ?_, fun id h => ?_, ?_⟩⟩
  · intro call' hkernel hnow' hnonce hexchange
    exact attemptWith_congr hkernel hnow' hnonce hexchange
  · intro handshake s₁ hfind
    exact attemptWith_of_fresh hfind
  · rcases attemptWith_eq_failed hnow (heligible c hc) h with h | h | h | h | h | h
    · exact h
    all_goals cases h
  · intro s₁ challenge s₂ exchange hfind hissue hinsert hexchange hverify h
    rcases attemptWith_of_verify hfind hissue hinsert hexchange hverify h with h | h
    · cases h
    · exact h

/-! ## Two candidates -/

open Handshakes (exampleChallengeDigest exampleHandshakeCrates exampleReconciliation
  exampleTargetKey)

/-- A repository of which only the look-up and the completion are of interest. -/
def answering (found : Except HandshakeError (Option InstanceHandshake))
    (completed : Except HandshakeError Unit) : HandshakeRepository (StateM Unit) where
  findFresh _ _ _ := ExceptT.mk (pure found)
  insertChallenge _ := ExceptT.mk (pure (.ok ()))
  complete _ := ExceptT.mk (pure completed)

/-- The endpoint of the example is valid. -/
theorem exampleSubscriber_endpoint : isValidEndpoint "https://10.0.0.1:8443".toList = true := by
  decide

/-- So is its lease. -/
theorem exampleSubscriber_lease : (0 : ℤ) ≤ 90 ∧ (90 : ℤ) < 200 ∧ (0 : ℤ) < 1 ∧
    ∀ revoked ∈ (none : Option ℤ), 90 ≤ revoked := by decide

/-- The instance that answers the challenge. -/
def exampleSubscriber : RegisteredInstance where
  publicKey := ⟨⟨1⟩, ⟨7⟩, ⟨8⟩, exampleTargetKey⟩
  endpoint := "https://10.0.0.1:8443".toList
  registeredAt := 90
  leaseExpiresAt := 200
  leaseRevision := 1
  revokedAt := none
  endpoint_valid := exampleSubscriber_endpoint
  lease := exampleSubscriber_lease

/-- An instance for which the same answer is wrong. -/
def otherSubscriber : RegisteredInstance :=
  { exampleSubscriber with publicKey := ⟨⟨1⟩, ⟨17⟩, ⟨18⟩, exampleTargetKey⟩ }

/-- A reconciliation of the given candidates. -/
def reconciled (handshakes : HandshakeRepository (StateM Unit))
    (candidates : List RegisteredInstance) : Except HandshakeError (List HandshakeAttempt) :=
  ((exampleReconciliation.reconcileWith exampleHandshakeCrates handshakes.forEach
    (ExceptT.mk (pure (.ok candidates)))).run fun _ => ()).1

/-- One candidate fails, the other is verified. -/
theorem reconcile_isolated_two : ∃ w',
    (exampleReconciliation.reconcileWith exampleHandshakeCrates
      (answering (.ok none) (.ok ())).forEach
      (ExceptT.mk (pure (.ok [otherSubscriber, exampleSubscriber])))).run (fun _ => ()) =
      (.ok ([otherSubscriber, exampleSubscriber].map fun c =>
        (exampleReconciliation.attemptWith exampleHandshakeCrates (answering (.ok none) (.ok ()))
          c ()).1), w') := by
  have hdiscover : (ExceptT.mk (pure (.ok [otherSubscriber, exampleSubscriber])) :
      ExceptT HandshakeError (StateM (InstanceId → Unit)) _).run (fun _ => ()) =
      (.ok [otherSubscriber, exampleSubscriber], fun _ => ()) := rfl
  obtain ⟨w', h, -⟩ : ∃ w', (exampleReconciliation.reconcileWith exampleHandshakeCrates
      (answering (.ok none) (.ok ())).forEach _).run _ = (_, w') ∧ _ :=
    reconcile_isolated (by decide) hdiscover (by decide) (by decide)
  exact ⟨w', h⟩

example : reconciled (answering (.ok none) (.ok ())) [otherSubscriber, exampleSubscriber] =
    .ok [⟨⟨17⟩, .failed .targetMismatch⟩,
      ⟨⟨7⟩, .verified ⟨exampleChallengeDigest, ⟨9⟩, ⟨7⟩, ⟨8⟩, 105, 135, by decide⟩⟩] := by
  decide +kernel

/-- What the repository answers is what is reported: an eligible instance as ineligible, and, after
a response that verifies, a record as invalid. -/
theorem answers_reported :
    exampleSubscriber.isEligibleAt exampleReconciliation.now = true ∧
      reconciled (answering (.error (.ineligibleInstance ⟨7⟩)) (.ok ())) [exampleSubscriber] =
        .ok [⟨⟨7⟩, .failed (.ineligibleInstance ⟨7⟩)⟩] ∧
      reconciled (answering (.ok none) (.error .invalidStoredRecord)) [exampleSubscriber] =
        .ok [⟨⟨7⟩, .failed .invalidStoredRecord⟩] := by
  decide +kernel

end HandshakeReconciler

end InfernalLaw
