import InfernalLaw.Infrastructure.EnrollmentRepository
import InfernalLaw.Kernel.SignatureBinding
import InfernalLaw.Postgres.Serial

/-!
# Enrollments in every run

Challenges are issued, bindings are made, enabled and disabled, and workloads enroll, all at the
same time, whatever the reviews of the tokens answer. An enrollment passes its checks and consumes
its challenge, and in a later transaction registers its instance, or fails to. The consumed
challenge does not say who has consumed it; that no other enrollment registers an instance under it
is a matter of the operations' answers.
-/

namespace InfernalLaw

open Postgres (Contract Entry Event Receipt RowWrite State Store)

namespace Enrollments

/-! ## The operations -/

/-- The tables of challenges and instances. Other components may write to the bindings. -/
def tables : List TableName :=
  [.enrollmentChallenges, .serviceInstances, .serviceInstanceKeys, .registryAudit]

/-- A workload's request for a challenge, with what the random source gives. -/
structure ChallengeCall where
  reviewer : WorkloadTokenReviewer
  challenge : EnrollmentChallenge
  workloadToken : Str
  claimedPodUid : Str
  now : ℤ

/-- A workload's enrollment, with the fields of its request as they come in. -/
structure EnrollCall where
  reviewer : WorkloadTokenReviewer
  policy : LeasePolicy
  challenge : EnrollmentChallenge
  publicKey : InstancePublicKey
  endpoint : Str
  claimedPodUid : Str
  workloadToken : Str
  signature : Bytes64
  now : ℤ

/-- The request of an enrollment. -/
def EnrollCall.request (call : EnrollCall) : Except EnrollmentError EnrollmentRequest :=
  EnrollmentRequest.restore call.challenge call.publicKey call.endpoint call.claimedPodUid
    call.workloadToken call.signature

/-- What runs. -/
inductive Op where
  | issue (challenge : EnrollmentChallenge) (serviceId : ActorId) (now : ℤ)
  | issueForWorkload (call : ChallengeCall)
  | enroll (call : EnrollCall)
  | insertBinding (binding : EnrollmentBinding)
  | setEnabled (serviceId : ActorId) (enabled : Bool)
  /-- Another component's transaction. -/
  | other (writes : List Write) (h : ∀ w ∈ writes, w.table ∉ tables)

/-- What an operation answers. -/
inductive Result where
  | challenge (r : Except EnrollmentError EnrollmentChallenge)
  | workload (r : Except EnrollmentError (ActorId × EnrollmentChallenge))
  | registered (r : Except EnrollmentError RegisteredInstance)
  | binding (r : Except EnrollmentError Unit)
  | other

/-- An enrollment, from the fields of its request. -/
def enroll (crates : KeyCrates) (call : EnrollCall) :
    Fallible EnrollmentError RegisteredInstance := do
  let request ← Postgres.Proc.ensure call.request
  EnrollmentService.authenticateAndRegister crates call.reviewer call.policy request call.now

/-- What the operations do. -/
def program (crates : KeyCrates) : Op → Sql Result
  | .issue challenge serviceId now =>
    (EnrollmentService.issueChallenge crates challenge serviceId now).run.bind
      fun r => .done (.challenge r)
  | .issueForWorkload call =>
    (EnrollmentService.issueChallengeForWorkload crates call.reviewer call.challenge
      call.workloadToken call.claimedPodUid call.now).run.bind fun r => .done (.workload r)
  | .enroll call => (enroll crates call).run.bind fun r => .done (.registered r)
  | .insertBinding binding =>
    (PostgresEnrollmentBindingRepository.insertDisabled binding).run.bind
      fun r => .done (.binding r)
  | .setEnabled serviceId enabled =>
    (PostgresEnrollmentBindingRepository.setEnabled serviceId enabled).run.bind
      fun r => .done (.binding r)
  | .other writes _ => (background writes).bind fun _ => .done .other

/-- The sessions of the kernels that share the database. -/
abbrev system (crates : KeyCrates) : Postgres.System Db Write Key Op Result :=
  kernelSystem (program crates)

/-! ## What is checked -/

variable (crates : KeyCrates) (Read : Op → Db → Prop)

/-- The operation has issued the challenge, for the service that it names, or for the one that its
workload was bound to when it looked. -/
inductive Issues : Op → Result → EnrollmentChallengeRow → Prop where
  | service {challenge serviceId now} :
      Issues (.issue challenge serviceId now) (.challenge (.ok challenge))
        ⟨challenge.digest crates.sha256, serviceId, now + Enrollment.challengeLifetimeSeconds, none⟩
  | workload {call : ChallengeCall} {workload podUid serviceId}
      (hpod : Enrollment.validateField call.claimedPodUid Enrollment.maxUidLength = .ok podUid)
      (hreviewed : Reviewed call.reviewer call.workloadToken podUid workload)
      (hbound : ∃ d, Read (.issueForWorkload call) d ∧ workload.BoundIn d serviceId) :
      Issues (.issueForWorkload call) (.workload (.ok (serviceId, call.challenge)))
        ⟨call.challenge.digest crates.sha256, serviceId,
          call.now + Enrollment.challengeLifetimeSeconds, none⟩

/-- The enrollment has passed the checks that come before its challenge is consumed. -/
structure Authenticated (call : EnrollCall) (request : EnrollmentRequest)
    (workload : VerifiedWorkload) : Prop where
  request_eq : call.request = .ok request
  /-- The request was signed with its own key, over its key, endpoint, pod, token and challenge. -/
  proof : crates.verifyStrict request.publicKey.publicKey (request.message crates.sha256)
    request.signature = true
  reviewed : Reviewed call.reviewer request.workloadToken request.claimedPodUid workload
  bound : ∃ d, Read (.enroll call) d ∧ workload.BoundIn d request.publicKey.serviceId

/-- The challenge is the one that the enrollment answers, issued for the service of its key and not
expired. -/
def Admits (call : EnrollCall) (request : EnrollmentRequest) (row : EnrollmentChallengeRow) :
    Prop :=
  PostgresEnrollmentBindingRepository.Consumable (request.challenge.digest crates.sha256)
    request.publicKey.serviceId call.now row

/-- The instance is the one that the enrollment asks to register. -/
structure Requested (call : EnrollCall) (request : EnrollmentRequest) (i : RegisteredInstance) :
    Prop where
  publicKey : i.publicKey = request.publicKey
  endpoint : i.endpoint = request.endpoint
  registeredAt : i.registeredAt = call.now

/-- The entry is of an enrollment that has registered the instance under the challenge. -/
structure Enrolled (d : Db) (e : Entry Op Result) (call : EnrollCall) (request : EnrollmentRequest)
    (workload : VerifiedWorkload) (row : EnrollmentChallengeRow) (i : RegisteredInstance) :
    Prop where
  op : e.op = .enroll call
  result : e.result = .registered (.ok i)
  authenticated : Authenticated crates Read call request workload
  requested : Requested call request i
  admits : Admits crates call request row
  consumed : row.consume call.now ∈ d.enrollmentChallenges

/-! ## The contract -/

/-- What an event commits, and answers. -/
inductive Commits : Op → Db → List Write → Option Result → Prop where
  | issued {op a row d} (h : Issues crates Read op a row)
      (hfresh : ∀ r ∈ d.enrollmentChallenges, r.challengeDigest ≠ row.challengeDigest) :
      Commits op d [.enrollmentChallenges (.insert row)] (some a)
  | consumed {call request row d r} (h : Admits crates call request row)
      (hmem : row ∈ d.enrollmentChallenges) (hr : ∀ i, r ≠ some (.registered (.ok i))) :
      Commits (.enroll call) d [.enrollmentChallenges (.update (row.consume call.now))] r
  | registered {call request workload row i d} (h : Authenticated crates Read call request workload)
      (hadmits : Admits crates call request row)
      (hmem : row.consume call.now ∈ d.enrollmentChallenges) (hi : Requested call request i)
      (hregisters : Registers d crates i) :
      Commits (.enroll call) d (i.registeredWrites crates) (some (.registered (.ok i)))
  | quiet {op d ws r} (hws : ∀ w ∈ ws, w.table ∉ tables)
      (hr : ∀ i, r ≠ some (.registered (.ok i))) :
      Commits op d ws r

/-- What holds of the challenges and the instances between events. -/
structure Inv (d : Db) (log : List (Entry Op Result)) : Prop where
  nodup : (d.enrollmentChallenges.map EnrollmentChallengeRow.challengeDigest).Nodup
  issued : ∀ row ∈ d.enrollmentChallenges, ∃ e ∈ log,
    Issues crates Read e.op e.result { row with consumedAt := none }
  enrolled : ∀ r ∈ d.serviceInstances, ∃ e ∈ log, ∃ call request workload row i,
    i.row = r ∧ Enrolled crates Read d e call request workload row i
  answered : ∀ e ∈ log, ∀ i, e.result = .registered (.ok i) →
    i.row ∈ d.serviceInstances ∧ i.keyRow crates ∈ d.serviceInstanceKeys

/-- The contract that the operations keep to, when they take their snapshots of databases that
`Read` allows. -/
def contract : Contract (system crates) where
  inv := Inv crates Read
  guar := Commits crates Read
  assume op _ d := Read op d

variable {crates Read}

/-- To write nothing and answer nothing is always allowed. -/
theorem guar_quiet (op : Op) (d : Db) : (contract crates Read).guar op d [] none :=
  .quiet (fun _ hw => absurd hw List.not_mem_nil) fun _ h => by cases h

section Steps

variable {d : Db} {log : List (Entry Op Result)} {op : Op} {ws : List Write} {r : Option Result}

/-- Writes to other tables leave challenges, instances and keys as they are. -/
theorem view_of_other (hws : ∀ w ∈ ws, w.table ∉ tables) :
    (store.view d ws).enrollmentChallenges = d.enrollmentChallenges ∧
      (store.view d ws).serviceInstances = d.serviceInstances ∧
      (store.view d ws).serviceInstanceKeys = d.serviceInstanceKeys := by
  refine ⟨?_, ?_, ?_⟩
  · exact enrollmentChallenges_versioned.view_other fun w hw rw hrw =>
      hws w hw (by simp [hrw, Write.table, tables])
  · exact serviceInstances_versioned.view_other fun w hw rw hrw =>
      hws w hw (by simp [hrw, Write.table, tables])
  · exact serviceInstanceKeys_versioned.view_other fun w hw rw hrw =>
      hws w hw (by simp [hrw, Write.table, tables])

/-- The challenges once one of them is consumed. -/
theorem mem_consumed {row : EnrollmentChallengeRow} {now : ℤ} (hmem : row ∈ d.enrollmentChallenges)
    {row' : EnrollmentChallengeRow} :
    row' ∈ (store.view d
        [.enrollmentChallenges (.update (row.consume now))]).enrollmentChallenges ↔
      row' = row.consume now ∨
        row' ∈ d.enrollmentChallenges ∧ row'.challengeDigest ≠ row.challengeDigest :=
  RowWrite.mem_update hmem rfl

/-- A consumed challenge stays as it is. -/
theorem Commits.keeps (h : Commits crates Read op d ws r) (hinv : Inv crates Read d log)
    {row : EnrollmentChallengeRow} (hrow : row ∈ d.enrollmentChallenges)
    (hconsumed : row.consumedAt ≠ none) : row ∈ (store.view d ws).enrollmentChallenges := by
  cases h with
  | issued => exact List.mem_append_left _ hrow
  | consumed hadmits hmem =>
    refine (mem_consumed hmem).mpr (.inr ⟨hrow, fun heq => hconsumed ?_⟩)
    rw [List.inj_on_of_nodup_map hinv.nodup hrow hmem heq]
    exact hadmits.2.2.1
  | registered => exact hrow
  | quiet hws =>
    rw [(view_of_other (d := d) hws).1]
    exact hrow

/-- What was enrolled stays so. -/
theorem Enrolled.later {e : Entry Op Result} {call : EnrollCall} {request : EnrollmentRequest}
    {workload : VerifiedWorkload} {row : EnrollmentChallengeRow} {i : RegisteredInstance}
    (he : Enrolled crates Read d e call request workload row i) (hinv : Inv crates Read d log)
    (h : Commits crates Read op d ws r) :
    Enrolled crates Read (store.view d ws) e call request workload row i :=
  { he with consumed := h.keeps hinv he.consumed nofun }

/-- Every commit preserves the invariant. -/
theorem Inv.commit (hinv : Inv crates Read d log) (h : Commits crates Read op d ws r) (id : ℕ) :
    Inv crates Read (store.view d ws) (log ++ (r.map fun a => ⟨id, op, a⟩).toList) := by
  -- What was enrolled or issued before is of no concern to this event.
  have henrolled : ∀ r' ∈ d.serviceInstances,
      ∃ e ∈ log ++ (r.map fun a => ⟨id, op, a⟩).toList, ∃ call request workload row i,
        i.row = r' ∧ Enrolled crates Read (store.view d ws) e call request workload row i := by
    intro r' hr'
    obtain ⟨e, he, call, request, workload, row, i, hi, henrolled⟩ := hinv.enrolled r' hr'
    exact ⟨e, List.mem_append_left _ he, call, request, workload, row, i, hi,
      henrolled.later hinv h⟩
  have hissued : ∀ row ∈ d.enrollmentChallenges,
      ∃ e ∈ log ++ (r.map fun a => ⟨id, op, a⟩).toList,
        Issues crates Read e.op e.result { row with consumedAt := none } := by
    intro row hrow
    obtain ⟨e, he, hissues⟩ := hinv.issued row hrow
    exact ⟨e, List.mem_append_left _ he, hissues⟩
  -- An answer that registers nothing needs no instance.
  have hanswered : (∀ i, r ≠ some (.registered (.ok i))) →
      ∀ e ∈ log ++ (r.map fun a => ⟨id, op, a⟩).toList, ∀ i, e.result = .registered (.ok i) →
        i.row ∈ d.serviceInstances ∧ i.keyRow crates ∈ d.serviceInstanceKeys := by
    intro hr e he i hi
    rcases List.mem_append.mp he with he | he
    · exact hinv.answered e he i hi
    · obtain ⟨a, rfl, rfl⟩ := Option.map_eq_some_iff.mp (Option.mem_toList.mp he)
      exact absurd (congrArg some hi) (hr i)
  cases h with
  | @issued _ a row _ hissues hfresh =>
    have hlast : (⟨id, op, a⟩ : Entry Op Result) ∈
        log ++ ((some a).map fun a => (⟨id, op, a⟩ : Entry Op Result)).toList :=
      List.mem_append_right _ (List.mem_singleton_self _)
    refine ⟨?_, fun row' hrow' => ?_, henrolled, hanswered fun i hi => ?_⟩
    · refine RowWrite.nodup_apply (w := .insert row) hinv.nodup fun x hx c hc => ?_
      obtain rfl := RowWrite.insert.inj hx
      exact hfresh c hc
    · rcases List.mem_append.mp hrow' with hrow' | hrow'
      · exact hissued row' hrow'
      · rw [List.mem_singleton.mp hrow']
        refine ⟨_, hlast, ?_⟩
        cases hissues with
        | service => exact .service
        | workload hpod hreviewed hbound => exact .workload hpod hreviewed hbound
    · rw [Option.some.inj hi] at hissues
      cases hissues
  | @consumed call request row _ _ hadmits hmem hr =>
    refine ⟨?_, fun row' hrow' => ?_, henrolled, hanswered hr⟩
    · exact RowWrite.nodup_apply (w := .update (row.consume call.now)) hinv.nodup nofun
    · rcases (mem_consumed hmem).mp hrow' with rfl | ⟨hrow', -⟩
      · exact hissued row hmem
      · exact hissued row' hrow'
  | @registered call request workload row i _ hauthenticated hadmits hmem hi hregisters =>
    have hlast : (⟨id, .enroll call, .registered (.ok i)⟩ : Entry Op Result) ∈
        log ++ ((some (Result.registered (.ok i))).map fun a =>
          (⟨id, .enroll call, a⟩ : Entry Op Result)).toList :=
      List.mem_append_right _ (List.mem_singleton_self _)
    refine ⟨hinv.nodup, hissued, fun r' hr' => ?_, fun e he i' hi' => ?_⟩
    · rcases List.mem_append.mp hr' with hr' | hr'
      · exact henrolled r' hr'
      · rw [List.mem_singleton.mp hr']
        exact ⟨_, hlast, call, request, workload, row, i, rfl, rfl, rfl, hauthenticated, hi,
          hadmits, hmem⟩
    · rcases List.mem_append.mp he with he | he
      · obtain ⟨hrow, hkey⟩ := hinv.answered e he i' hi'
        exact ⟨List.mem_append_left _ hrow, List.mem_append_left _ hkey⟩
      · rw [List.mem_singleton.mp he] at hi'
        obtain rfl := Except.ok.inj (Result.registered.inj hi')
        exact ⟨List.mem_append_right _ (List.mem_singleton_self _),
          List.mem_append_right _ (List.mem_singleton_self _)⟩
  | quiet hws hr =>
    obtain ⟨hchallenges, hinstances, hkeys⟩ := view_of_other (d := d) hws
    refine ⟨?_, ?_, ?_, ?_⟩
    · rw [hchallenges]
      exact hinv.nodup
    · rw [hchallenges]
      exact hissued
    · rw [hinstances]
      exact henrolled
    · rw [hinstances, hkeys]
      exact hanswered hr

end Steps

/-! ## Soundness -/

section Sound

/-- A consumed challenge stays, whatever the others do. -/
theorem rely_consumed {d d' : Db} (hr : (contract crates Read).Rely [] d d')
    {row : EnrollmentChallengeRow} (hrow : row ∈ d.enrollmentChallenges)
    (hconsumed : row.consumedAt ≠ none) : row ∈ d'.enrollmentChallenges := by
  refine hr.stable_of_guar (P := fun d => row ∈ d.enrollmentChallenges) ?_ hrow
  rintro op d ws r ⟨log, hinv⟩ hcommits hmem
  exact hcommits.keeps hinv hmem hconsumed

/-- What `register_verified` registers is what it is asked to. -/
theorem requested_of_create {call : EnrollCall} {request : EnrollmentRequest}
    {i : RegisteredInstance} (hrequest : call.request = .ok request)
    (h : (do
      InstanceRegistryService.validateTimestamp call.now
      RegisteredInstance.create request.publicKey request.endpoint call.now
        (← InstanceRegistryService.leaseEnd call.policy call.now)) = .ok i) :
    Requested call request i := by
  obtain ⟨_, -, hrest⟩ := Postgres.bind_eq_ok.mp h
  obtain ⟨leaseExpiresAt, -, hcreate⟩ := Postgres.bind_eq_ok.mp hrest
  obtain ⟨hkey, hendpoint, hregistered, -⟩ := RegisteredInstance.restore_eq_ok hcreate
  refine ⟨hkey, ?_, hregistered⟩
  -- The endpoint of a request is trimmed already.
  rw [hendpoint, (EnrollmentRequest.restore_eq_ok hrequest).2.2.1, Str.trim_trim]

/-- An answer that registers nothing. -/
theorem final_of_not {op : Op} {d : Db} {a : Result} (ha : ∀ i, a ≠ .registered (.ok i)) :
    (contract crates Read).Final op a d [] [] [] :=
  .quiet (fun _ hw => absurd hw List.not_mem_nil) fun i h => ha i (Option.some.inj h)

/-- The rule of `authenticate_and_register`. -/
theorem wp_authenticateAndRegister {call : EnrollCall} {request : EnrollmentRequest}
    (hrequest : call.request = .ok request) {e : Db} (hgood : (contract crates Read).Good e) :
    (contract crates Read).wp (.enroll call)
      (EnrollmentService.authenticateAndRegister crates call.reviewer call.policy request
        call.now).run
      (fun r => (contract crates Read).Final (.enroll call) (.registered r)) e [] [] [] := by
  have hquiet : ∀ d, (contract crates Read).guar (.enroll call) d [] none := guar_quiet _
  have herr : ∀ d er, (contract crates Read).Final (.enroll call) (.registered (.error er)) d [] []
      [] := fun d er => final_of_not nofun
  refine Contract.wp_ensure_bind.mpr ?_
  split
  swap
  · exact herr e _
  rename_i hproof
  have hproof : crates.verifyStrict request.publicKey.publicKey (request.message crates.sha256)
      request.signature = true := by
    by_contra hnot
    rw [if_neg hnot] at hproof
    cases hproof
  refine Contract.wp_run_bind.mpr (wp_authenticate hquiet (fun d er _ => herr d er) ?_ hgood)
  intro d sql d₁ workload binding hg hread hreviewed hbound
  refine Contract.wp_ensure_bind.mpr ?_
  split
  swap
  · exact herr d _
  rename_i hservice
  have hservice : binding.serviceId = request.publicKey.serviceId := by
    by_contra hnot
    rw [if_pos hnot] at hservice
    cases hservice
  rw [hservice] at hbound
  have hauthenticated : Authenticated crates Read call request workload :=
    ⟨hrequest, hproof, hreviewed, d₁, hread, hbound⟩
  refine Contract.wp_run_bind.mpr
    (wp_consumeEnrollmentChallenge hquiet (fun d er _ => herr d er) ?_)
  intro d₂ row hg₂ hmem hadmits
  -- From here on the challenge is spent.
  have hspent : (contract crates Read).guar (.enroll call) d₂
      [.enrollmentChallenges (.update (row.consume call.now))] none :=
    .consumed hadmits hmem nofun
  refine Contract.wp_bind.mpr (Contract.wp_ensure_bind.mpr ?_)
  split
  · rename_i i hi
    refine Contract.wp_run_bind.mpr ?_
    refine PostgresInstanceRegistry.wp_insert hspent hquiet (fun d er _ => herr d _) ?_
    intro d₃ hr₃ _ hregisters
    have hconsumed := rely_consumed hr₃ ((mem_consumed hmem).mpr (.inl rfl)) nofun
    exact .registered hauthenticated hadmits hconsumed (requested_of_create hrequest hi) hregisters
  · refine .consumed hadmits hmem fun i h => ?_
    cases Result.registered.inj (Option.some.inj h)

/-- Every operation keeps to the contract. -/
theorem contract_sound : (contract crates Read).Sound where
  stutter := guar_quiet
  preserves id op d log ws r hinv hguar := hinv.commit hguar id
  program op e hgood := by
    have hquiet : ∀ d, (contract crates Read).guar op d [] none := guar_quiet op
    cases op with
    | issue challenge serviceId now =>
      refine Contract.wp_bind.mpr (wp_issueChallenge hquiet ?_ ?_ hgood)
      · exact fun d er _ => final_of_not nofun
      · exact fun d _ hfresh => .issued .service hfresh
    | issueForWorkload call =>
      refine Contract.wp_bind.mpr (Contract.wp_ensure_bind.mpr ?_)
      split
      swap
      · exact final_of_not nofun
      -- The review and the binding are of the database that the check has read.
      rename_i podUid hpod
      refine Contract.wp_run_bind.mpr (wp_authenticate hquiet ?_ ?_ hgood)
      · exact fun d er _ => final_of_not nofun
      intro d sql d₁ workload binding hg hread hreviewed hbound
      refine Contract.wp_run_bind.mpr (wp_issueChallenge hquiet ?_ ?_ hg)
      · exact fun d er _ => final_of_not nofun
      · exact fun d _ hfresh => .issued (.workload hpod hreviewed ⟨d₁, hread, hbound⟩) hfresh
    | enroll call =>
      refine Contract.wp_bind.mpr (Contract.wp_ensure_bind.mpr ?_)
      split
      · rename_i request hrequest
        -- The challenge is consumed in one transaction, and the instance registered in the next.
        exact wp_authenticateAndRegister hrequest hgood
      · exact final_of_not nofun
    | insertBinding binding =>
      refine Contract.wp_bind.mpr (Contract.wp_bind.mpr (Contract.wp_autocommit.mpr ?_))
      refine Contract.wp_insert (hquiet e) (fun d _ _ _ _ => final_of_not nofun) ?_
      intro d₁ _ _ _
      refine ⟨hquiet d₁, fun d _ _ => ⟨final_of_not nofun, .quiet ?_ nofun⟩⟩
      simp [Write.table, tables]
    | setEnabled serviceId enabled =>
      refine Contract.wp_bind.mpr (Contract.wp_orFail_bind.mpr (Contract.wp_autocommit.mpr ?_))
      refine Contract.wp_update (hquiet e) (fun d _ _ _ _ => final_of_not nofun) ?_ ?_
      · intro _ d₂ _ _ _ _ _
        exact ⟨hquiet d₂, fun d _ _ => ⟨final_of_not nofun, final_of_not nofun⟩⟩
      · intro _ d₂ _ _ _ _ _ _ _ _ _ _
        refine ⟨hquiet d₂, fun d _ _ => ⟨final_of_not nofun, .quiet ?_ nofun⟩⟩
        simp [Write.table, tables]
    | other writes hwrites =>
      refine Contract.wp_bind.mpr (wp_background hquiet (fun d _ => ?_) fun d _ => ?_)
      · exact final_of_not nofun
      · exact .quiet hwrites nofun

end Sound

/-! ## What the answers say -/

section Receipts

variable {s : State Db Write Key Op Result} {d₀ : Db}

/-- An enrollment answers an instance only if its challenge is consumed. -/
theorem pays_enroll {P : Write → Prop} {call : EnrollCall}
    (hP : ∀ row : EnrollmentChallengeRow, row.challengeDigest = call.challenge.digest
      crates.sha256 → P (.enrollmentChallenges (.update row))) :
    (enroll crates call).run.Pays P (fun a _ => ∃ er, a = .error er)
      (fun a => ∀ er, a = .error er → ∃ er', er = .registry er') [] := by
  refine .ensure_bind (fun er _ => ⟨er, rfl⟩) fun request hrequest => ?_
  rw [← (EnrollmentRequest.restore_eq_ok hrequest).1] at hP
  have hregistered := pays_authenticateAndRegister call.reviewer hP
    ((Postgres.Proc.Ends.trivially (InstanceRegistryService.registerVerified crates call.policy
      request.publicKey request.endpoint call.now)).mono fun _ _ _ _ => trivial)
  exact hregistered.mono (fun _ _ h => h) fun _ h er her => (h er her).imp fun _ => And.left

variable (crates)

/-- To register an instance an enrollment must have consumed its challenge. -/
def consumption (digest : Bytes32) : Receipt (system crates) where
  pays w := ∃ row, w = .enrollmentChallenges (.update row) ∧ row.challengeDigest = digest
  before op a := ∀ call i, op = .enroll call → a = .registered (.ok i) →
    call.challenge.digest crates.sha256 ≠ digest
  after _ _ := True
  program op := by
    -- Enrollments under other challenges, and other operations, need no receipt.
    have hother : (∀ call, op = .enroll call → call.challenge.digest crates.sha256 ≠ digest) →
        (program crates op).Pays (fun w => ∃ row, w = Write.enrollmentChallenges (.update row) ∧
            row.challengeDigest = digest)
          (fun a _ => ∀ call i, op = .enroll call → a = .registered (.ok i) →
            call.challenge.digest crates.sha256 ≠ digest) (fun _ => True) [] := by
      intro hne
      exact .of_ends (fun _ _ _ call _ hop _ => hne call hop) (.trivially _)
    by_cases hop : ∃ call, op = .enroll call ∧ call.challenge.digest crates.sha256 = digest
    · obtain ⟨call, rfl, rfl⟩ := hop
      refine .bind ((pays_enroll fun row hrow => ⟨row, rfl, hrow⟩).mono ?_ fun _ _ => trivial)
      rintro a ws ⟨er, rfl⟩ call' i - h
      cases h
    · exact hother fun call heq hdigest => hop ⟨call, heq, hdigest⟩

/-- The operation was not rejected: it has issued a challenge, changed a binding, or consumed its
challenge. -/
def Result.Accepts : Result → Prop
  | .challenge r => ∃ challenge, r = .ok challenge
  | .workload r => ∃ issued, r = .ok issued
  | .registered r => ∀ er, r = .error er → ∃ er', er = .registry er'
  | .binding r => ∃ u, r = .ok u
  | .other => True

/-- To commit anything an operation must be accepted. -/
def acceptance : Receipt (system crates) where
  pays _ := True
  before _ _ := True
  after _ a := a.Accepts
  program op := by
    cases op with
    | issue => exact .bind (pays_issueChallenge.mono (fun _ _ _ => trivial) fun _ h => h)
    | issueForWorkload =>
      exact .bind (pays_issueChallengeForWorkload.mono (fun _ _ _ => trivial) fun _ h => h)
    | enroll call =>
      exact .bind ((pays_enroll fun _ _ => trivial).mono (fun _ _ _ => trivial) fun _ h => h)
    | insertBinding => exact .bind (pays_insertDisabled.mono (fun _ _ _ => trivial) fun _ h => h)
    | setEnabled => exact .bind (pays_setEnabled.mono (fun _ _ _ => trivial) fun _ h => h)
    | other writes =>
      exact .of_ends (fun _ _ _ => trivial) (.bind (.mono (fun _ _ => trivial) (.trivially _)))

variable {crates}

/-- The challenge with the digest is consumed. -/
def Spent (digest : Bytes32) (d : Db) : Prop :=
  ∃ row ∈ d.enrollmentChallenges, row.challengeDigest = digest ∧ row.consumedAt ≠ none

/-- A challenge is consumed once. -/
theorem once_consumption (digest : Bytes32) :
    (consumption crates digest).Once (contract crates Read) (Spent digest) where
  fresh := by
    rintro op d ws r ⟨log, hinv⟩ hcommits ⟨w, hw, row', rfl, rfl⟩
    cases hcommits with
    | issued => simp at hw
    | @consumed call _ row _ _ hadmits hmem =>
      obtain rfl := RowWrite.update.inj (Write.enrollmentChallenges.inj (List.mem_singleton.mp hw))
      refine ⟨fun ⟨row', hrow', heq, hconsumed⟩ => hconsumed ?_, ?_⟩
      · rw [List.inj_on_of_nodup_map hinv.nodup hrow' hmem heq]
        exact hadmits.2.2.1
      · exact ⟨row.consume call.now, (mem_consumed hmem).mpr (.inl rfl), rfl, nofun⟩
    | registered => simp [RegisteredInstance.registeredWrites] at hw
    | quiet hws => exact absurd (by simp [Write.table, tables]) (hws _ hw)
  kept := by
    rintro op d ws r ⟨log, hinv⟩ hcommits ⟨row, hrow, hdigest, hconsumed⟩
    exact ⟨row, hcommits.keeps hinv hrow hconsumed, hdigest, hconsumed⟩

end Receipts

/-! ## Every run -/

/-- A database without challenges and instances keeps the invariant. -/
theorem inv_init {d₀ : Db} (hchallenges : d₀.enrollmentChallenges = [])
    (hinstances : d₀.serviceInstances = []) : (contract crates Read).inv d₀ [] := by
  refine ⟨?_, ?_, ?_, fun _ he => absurd he List.not_mem_nil⟩
  · rw [hchallenges]
    exact List.nodup_nil
  · rw [hchallenges]
    exact fun _ hr => absurd hr List.not_mem_nil
  · rw [hinstances]
    exact fun _ hr => absurd hr List.not_mem_nil

/-- The enrollment protocol, in every state `s` of every run from empty tables. -/
theorem enrollments_safe (crates : KeyCrates) {d₀ : Db} (hchallenges : d₀.enrollmentChallenges = [])
    (hinstances : d₀.serviceInstances = []) {s : State Db Write Key Op Result}
    (hs : (system crates).Reaches d₀ s) :
    -- A registered instance is one whose enrollment has passed every check, in databases that the
    -- enrollment has read, under a challenge that was issued for the service of its key.
    (∀ r ∈ s.db.serviceInstances, ∃ e ∈ s.log, ∃ call request workload row i, i.row = r ∧
      Enrolled crates ((system crates).Reads d₀ s) s.db e call request workload row i ∧
      ∃ e' ∈ s.log, Issues crates ((system crates).Reads d₀ s) e'.op e'.result row) ∧
    (∀ e ∈ s.log, ∀ i, e.result = .registered (.ok i) →
      i.row ∈ s.db.serviceInstances ∧ i.keyRow crates ∈ s.db.serviceInstanceKeys) ∧
    -- A stored challenge leads to one enrollment, and one instance, at most.
    (s.db.enrollmentChallenges.map EnrollmentChallengeRow.challengeDigest).Nodup ∧
    (∀ e ∈ s.log, ∀ e' ∈ s.log, ∀ call call' request request' workload workload' row row' i i',
      Enrolled crates ((system crates).Reads d₀ s) s.db e call request workload row i →
      Enrolled crates ((system crates).Reads d₀ s) s.db e' call' request' workload' row' i' →
      row.challengeDigest = row'.challengeDigest → e = e' ∧ i = i') ∧
    -- An operation that is rejected in the end, by something else than the registry, has changed
    -- nothing in any of its events.
    (∀ ev s', (system crates).step s ev = some s' → ∀ id op, s.Runs ev id op →
      ∀ s'' a, (system crates).Later s' s'' → ⟨id, op, a⟩ ∈ s''.log → ¬ a.Accepts →
        s'.db = s.db) := by
  obtain ⟨hinv⟩ := contract_sound.holds_reads
    (C := contract crates ((system crates).Reads d₀ s)) (fun _ _ _ h => h)
    (inv_init hchallenges hinstances) hs
  refine ⟨fun r hr => ?_, hinv.answered, hinv.nodup, ?_, ?_⟩
  · obtain ⟨e, he, call, request, workload, row, i, hi, henrolled⟩ := hinv.enrolled r hr
    obtain ⟨e', he', hissues⟩ := hinv.issued _ henrolled.consumed
    have hrow : { row.consume call.now with consumedAt := none } = row := by
      rw [← henrolled.admits.2.2.1]
      rfl
    rw [hrow] at hissues
    exact ⟨e, he, call, request, workload, row, i, hi, henrolled, e', he', hissues⟩
  · intro e he e' he' call call' request request' workload workload' row row' i i' h h' hdigest
    -- Both answers need the receipt for the consumption of the same challenge.
    have hreceipt : ∀ {e : Entry Op Result} {call request workload row i},
        Enrolled crates ((system crates).Reads d₀ s) s.db e call request workload row i →
        ¬ (consumption crates row.challengeDigest).before e.op e.result := by
      intro e call request workload row i h hbefore
      refine hbefore call i h.op h.result ?_
      rw [h.admits.1, (EnrollmentRequest.restore_eq_ok h.authenticated.request_eq).1]
    have hS : (contract crates fun _ _ => True).Sound := contract_sound
    have heq : e = e' := Receipt.entry_unique hS (fun _ _ _ => trivial)
      (once_consumption row.challengeDigest) (inv_init hchallenges hinstances) hs he he'
      (hreceipt h) (by rw [hdigest]; exact hreceipt h')
    refine ⟨heq, ?_⟩
    subst heq
    exact Except.ok.inj (Result.registered.inj (h.result.symm.trans h'.result))
  · intro ev s' hstep id op hrun s'' a hl he hnot
    obtain ⟨ws, hws, hdb⟩ :=
      Receipt.commits_nothing (R := acceptance crates) hs hstep hrun hl he hnot
    cases ws with
    | nil => exact hdb
    | cons w ws => exact absurd trivial (hws w List.mem_cons_self)

/-! ## An enrollment -/

/-- The workload's key. -/
def exampleKey : InstancePublicKey where
  serviceId := ⟨1⟩
  instanceId := ⟨7⟩
  keyId := ⟨8⟩
  publicKey :=
    { bytes :=
        [110, 122, 28, 221, 41, 176, 183, 143, 209, 58, 244, 197, 89, 143, 239, 244, 239, 42, 151,
          22, 110, 60, 166, 242, 228, 251, 252, 205, 128, 80, 91, 241]
      length_eq := rfl }

/-- The digest of the challenge. -/
def exampleDigest : Bytes32 where
  bytes :=
    [114, 205, 110, 132, 34, 196, 7, 251, 109, 9, 134, 144, 241, 19, 11, 125, 237, 126, 194, 247,
      245, 225, 211, 11, 217, 213, 33, 240, 21, 54, 55, 147]
  length_eq := rfl

/-- The digest of the token. -/
def exampleTokenDigest : Bytes32 where
  bytes :=
    [60, 70, 158, 157, 108, 88, 117, 211, 122, 67, 243, 83, 212, 248, 142, 97, 252, 248, 18, 198,
      110, 238, 52, 87, 70, 90, 64, 176, 218, 65, 83, 224]
  length_eq := rfl

/-- The fingerprint of the key. -/
def exampleFingerprint : Bytes32 where
  bytes :=
    [117, 153, 119, 108, 48, 133, 227, 249, 218, 13, 19, 7, 30, 176, 180, 171, 80, 253, 43, 246, 76,
      6, 221, 146, 194, 54, 90, 243, 163, 40, 236, 163]
  length_eq := rfl

/-- The signature of the proof. -/
def exampleSignature : Bytes64 where
  bytes :=
    [46, 185, 98, 141, 54, 148, 86, 14, 255, 225, 230, 138, 148, 117, 21, 119, 224, 139, 78, 89,
      161, 64, 97, 55, 204, 140, 99, 213, 226, 96, 98, 83, 253, 89, 83, 20, 113, 119, 175, 28, 222,
      141, 145, 223, 228, 229, 241, 221, 83, 93, 163, 161, 157, 28, 249, 163, 169, 3, 212, 111, 192,
      41, 15, 8]
  length_eq := rfl

/-- The crates, at that proof. -/
def exampleEnrollmentCrates : KeyCrates where
  sha256 m :=
    if m = (Bytes32.fill 1).bytes then exampleDigest
    else if m = Str.asBytes "token".toList then exampleTokenDigest
    else if m = exampleKey.publicKey.bytes then exampleFingerprint
    else .fill 0
  verifyStrict key m signature := decide (key = exampleKey.publicKey ∧
    m = proofMessage (fun _ => exampleTokenDigest) ⟨.fill 1⟩ exampleKey
      "https://10.0.0.1:8443".toList "pod-1".toList "token".toList ∧ signature = exampleSignature)
  displayUuid := exampleCratesOfRequest.displayUuid
  parseUuid := exampleCratesOfRequest.parseUuid
  encodeBase64 := exampleCratesOfRequest.encodeBase64
  decodeBase64 := exampleCratesOfRequest.decodeBase64
  decodeUrlSafe := exampleCratesOfRequest.decodeUrlSafe
  verifyingKey key := decide (key = exampleKey.publicKey)

/-- The enrollment, whose token the review knows. -/
def exampleEnrollment : EnrollCall where
  reviewer _ audience :=
    VerifiedWorkload.new "default".toList "worker".toList "uid-1".toList "worker-1".toList
      "pod-1".toList [audience]
  policy := ⟨60, by decide⟩
  challenge := ⟨.fill 1⟩
  publicKey := exampleKey
  endpoint := "https://10.0.0.1:8443 ".toList
  claimedPodUid := "pod-1".toList
  workloadToken := "token".toList
  signature := exampleSignature
  now := 105

/-- A database with one service, and the binding of its workload. -/
def oneBinding : Db where
  identityRows := [⟨⟨1⟩, .service, ['a'], .active⟩]
  enrollmentBindings := [⟨⟨1⟩, "default".toList, "worker".toList, "uid-1".toList, true⟩]

/-- The workload is given a challenge, and registers its instance for a minute. -/
theorem enrollments_safe_registered : ∃ s, (system exampleEnrollmentCrates).Reaches oneBinding s ∧
    s.db.serviceInstances =
      [⟨⟨7⟩, ⟨1⟩, "https://10.0.0.1:8443".toList, 105, 165, 1, none⟩] ∧
    (s.db.enrollmentChallenges.map EnrollmentChallengeRow.challengeDigest).Nodup := by
  obtain ⟨s₁, hs₁, hidle, hdb₁, -⟩ := Postgres.System.exec_reaches
    (.init : (system exampleEnrollmentCrates).Reaches oneBinding { db := oneBinding }) rfl
    (.issue ⟨.fill 1⟩ ⟨1⟩ 100)
  obtain ⟨s, hs, -, hdb, -⟩ := Postgres.System.exec_reaches hs₁ hidle (.enroll exampleEnrollment)
  refine ⟨s, hs, ?_, (enrollments_safe exampleEnrollmentCrates rfl rfl hs).2.2.1⟩
  rw [hdb, hdb₁]
  decide +kernel

end Enrollments

end InfernalLaw
