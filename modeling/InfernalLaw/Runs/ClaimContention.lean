import InfernalLaw.Postgres.Turns
import InfernalLaw.Runs.WorkClaimRenewals

/-!
# Calls of `claim` that contend for a route

The calls of a route's destination service at one time, while no claim of the route is current. The
first one to take the snapshot of the route's latest claim wins if the others take theirs after its
commit: they see its claim, and answer that the route is claimed. A call that has taken the snapshot
before the commit sees an open route. It fails at the insert, where a unique index refuses its
token, and the adapter reports that as a failure of the repository.
-/

namespace InfernalLaw

open Postgres (Entry Event Proc RowWrite State Store Turns)
open WorkClaims (Ended)

namespace ClaimContention

/-- The answer of `LOCK_LATEST_CLAIM_FOR_ROUTE_SQL` to a transaction that runs alone. -/
def latestClaim (d : Db) (routeId : RouteId) : Option WorkClaimRow :=
  ((d.claimsOf routeId).argmax WorkClaimRow.fencingToken).bind fun r =>
    d.workClaims.find? fun r' => r'.claimId = r.claimId ∧ r'.routeId = routeId

section Latest

variable {d : Db} {routeId : RouteId} {row : WorkClaimRow}

/-- What the claim with the highest token is found by. -/
theorem find_claimsOf (h : WorkClaims.Inv d) (hrow : row ∈ d.claimsOf routeId) :
    (d.workClaims.find? fun r => r.claimId = row.claimId ∧ r.routeId = routeId) = some row := by
  obtain ⟨hmem, hroute⟩ := Db.mem_claimsOf.mp hrow
  cases hfind : d.workClaims.find? fun r => r.claimId = row.claimId ∧ r.routeId = routeId with
  | none =>
    have hnone := List.find?_eq_none.mp hfind row hmem
    simp [hroute] at hnone
  | some r =>
    have hid := List.find?_some hfind
    rw [decide_eq_true_eq] at hid
    exact congrArg some (List.inj_on_of_nodup_map h.nodup_id
      (List.mem_of_find?_eq_some hfind) hmem hid.1)

/-- The latest claim has the highest token. -/
theorem mem_of_latestClaim (h : WorkClaims.Inv d) (hlatest : latestClaim d routeId = some row) :
    row ∈ d.claimsOf routeId ∧ ∀ r ∈ d.claimsOf routeId, r.fencingToken ≤ row.fencingToken := by
  obtain ⟨r, hr, hfind⟩ := Option.bind_eq_some_iff.mp hlatest
  have hmax : r ∈ d.claimsOf routeId := List.argmax_mem hr
  rw [find_claimsOf h hmax] at hfind
  obtain rfl := Option.some.inj hfind
  exact ⟨hmax, fun r' hr' => List.le_of_mem_argmax hr' hr⟩

/-- A route without a latest claim has none. -/
theorem latestClaim_eq_none (h : WorkClaims.Inv d) (hlatest : latestClaim d routeId = none) :
    d.claimsOf routeId = [] := by
  cases hmax : (d.claimsOf routeId).argmax WorkClaimRow.fencingToken with
  | none => exact List.argmax_eq_none.mp hmax
  | some r =>
    rw [latestClaim, hmax, Option.bind_some, find_claimsOf h (List.argmax_mem hmax)] at hlatest
    cases hlatest

/-- The claim with the highest token is the latest one. -/
theorem latestClaim_eq_some (h : WorkClaims.Inv d) (hrow : row ∈ d.claimsOf routeId)
    (hlt : ∀ r ∈ d.claimsOf routeId, r ≠ row → r.fencingToken < row.fencingToken) :
    latestClaim d routeId = some row := by
  cases hlatest : latestClaim d routeId with
  | none => simp [latestClaim_eq_none h hlatest] at hrow
  | some r =>
    obtain ⟨hr, hmax⟩ := mem_of_latestClaim h hlatest
    by_contra hne
    have hr' := hlt r hr fun heq => hne (congrArg some heq)
    have := hmax row hrow
    omega

end Latest

/-! ## A call alone -/

/-- A claim of the route is current, and it is the latest one. -/
def Taken (d : Db) (routeId : RouteId) (now : ℤ) : Prop :=
  ∃ c : WorkClaim, latestClaim d routeId = some c.row ∧ c.isCurrent now = true

/-- The route leads to the service. -/
def LeadsTo (d : Db) (routeId : RouteId) (workerService : ActorId) : Prop :=
  (d.requestRoutes.find? fun r => r.routeId = routeId).map RouteRow.destinationServiceId =
    some workerService

/-- The service can claim the route: no claim of it is current or completed, and its tokens have not
run out. -/
structure Open (d : Db) (routeId : RouteId) (workerService : ActorId) (now : ℤ) : Prop where
  leads : LeadsTo d routeId workerService
  service : workerService ∈ d.identities
  claims : ∀ r ∈ d.claimsOf routeId, r.status ≠ .completed ∧
    (r.status = .active → r.leaseExpiresAt ≤ now) ∧ r.fencingToken + 1 < 2 ^ 63

section Alone

variable {d : Db} {routeId : RouteId} {workerService : ActorId} {now : ℤ} {claimId : ClaimId}
  {workerInstance : InstanceId} {leaseExpiresAt : ℤ}

/-- What `claim` does on a route of its service. -/
theorem exec_claim (hleads : LeadsTo d routeId workerService) :
    (PostgresWorkClaimRepository.claim claimId routeId workerService workerInstance leaseExpiresAt
      now).exec store d [] =
      let o := (do
        let nextFencingToken ← PostgresWorkClaimRepository.supersede routeId now
          (latestClaim d routeId)
        let row := PostgresWorkClaimRepository.mintedRow claimId routeId workerService
          workerInstance leaseExpiresAt now nextFencingToken
        let _ ← Proc.orFail .ofDatabase (PostgresWorkClaimRepository.insertClaim row)
        let claim ← Proc.ensure (claimFromRow row)
        let _ ← Proc.orFail .ofDatabase Proc.commitNow
        return claim : Fallible WorkClaimError WorkClaim).run.exec store d []
      ⟨o.db, [], o.result⟩ := by
  unfold PostgresWorkClaimRepository.claim
  rw [Proc.exec_transaction, Proc.exec_orFail_bind, PostgresWorkClaimRepository.routeDestination,
    Proc.exec_query, Store.view_nil]
  dsimp only
  rw [LeadsTo] at hleads
  rw [if_neg (not_not_intro hleads), Proc.exec_orFail_bind,
    PostgresWorkClaimRepository.lockLatestClaimForRoute, Proc.exec_selectForUpdate, Store.view_nil]
  rfl

/-- The claim that a call finds is current. -/
theorem supersede_current {c : WorkClaim} (hcurrent : c.isCurrent now = true) :
    (PostgresWorkClaimRepository.supersede routeId now (some c.row)).run =
      .done (.error (.alreadyClaimed routeId)) := by
  have hclaim : claimFromRow c.row = .ok c := claimFromRow_eq_ok.mpr rfl
  unfold PostgresWorkClaimRepository.supersede
  dsimp only
  rw [hclaim]
  change (ite (c.isCurrent now = true) _ _ : Fallible WorkClaimError ℤ).run = _
  rw [if_pos hcurrent]
  rfl

/-- A call on a route that is claimed. -/
theorem exec_claim_taken (hleads : LeadsTo d routeId workerService) (htaken : Taken d routeId now) :
    (PostgresWorkClaimRepository.claim claimId routeId workerService workerInstance leaseExpiresAt
      now).exec store d [] = ⟨d, [], .error (.alreadyClaimed routeId)⟩ := by
  obtain ⟨c, hlatest, hcurrent⟩ := htaken
  rw [exec_claim hleads, hlatest, Proc.exec_run_bind, supersede_current hcurrent]
  rfl

/-- A call on a claimed route only looks. -/
theorem looks_claim (hleads : LeadsTo d routeId workerService) (htaken : Taken d routeId now) :
    (PostgresWorkClaimRepository.claim claimId routeId workerService workerInstance leaseExpiresAt
      now).Looks d := by
  obtain ⟨c, hlatest, hcurrent⟩ := htaken
  refine .transaction store (.orFail_bind store ⟨rfl, trivial⟩ fun destination hdestination => ?_)
  obtain rfl : destination = some workerService := (Except.ok.inj hdestination).symm.trans hleads
  rw [if_neg (not_not_intro rfl)]
  refine .orFail_bind store ⟨rfl, trivial⟩ fun latest hfound => ?_
  obtain rfl : latest = some c.row := (Except.ok.inj hfound).symm.trans hlatest
  refine Proc.Looks.bind store
    (p := (PostgresWorkClaimRepository.supersede routeId now (some c.row)).run) ?_ ?_
  · rw [supersede_current hcurrent]
    trivial
  · rw [supersede_current hcurrent]
    trivial

/-- On an open route a call retires the latest claim, and draws a token above all others. -/
theorem exec_supersede_open (h : WorkClaims.Inv d) (hread : WorkClaims.Readable d)
    (ho : Open d routeId workerService now) :
    ∃ token ws, (PostgresWorkClaimRepository.supersede routeId now (latestClaim d routeId)).run.exec
        store d [] = ⟨d, ws, .ok token⟩ ∧ Retires routeId now d token ws ∧ 1 ≤ token ∧
      ∀ r ∈ d.claimsOf routeId, r.fencingToken < token := by
  cases hlatest : latestClaim d routeId with
  | none =>
    refine ⟨1, [], rfl, .nothing, le_rfl, fun r hr => ?_⟩
    rw [latestClaim_eq_none h hlatest] at hr
    exact absurd hr List.not_mem_nil
  | some row =>
    obtain ⟨hrow, hmax⟩ := mem_of_latestClaim h hlatest
    obtain ⟨hmem, hroute⟩ := Db.mem_claimsOf.mp hrow
    obtain ⟨c, rfl⟩ := hread row hmem
    obtain ⟨hcompleted, hlapsed, hroom⟩ := ho.claims c.row hrow
    have hpos := ((h.orderly routeId).number_mem hrow).1
    have htoken : wrapI64 (c.row.fencingToken + 1) = c.row.fencingToken + 1 := by
      unfold wrapI64
      exact Int.bmod_eq_of_le (by omega) (by omega)
    have hlt : ∀ r ∈ d.claimsOf routeId, r.fencingToken < wrapI64 (c.row.fencingToken + 1) := by
      intro r hr
      have hle := hmax r hr
      omega
    have hcurrent : ¬ c.isCurrent now = true := by
      intro hcur
      obtain ⟨hactive, hlease⟩ : c.status = .active ∧ now < c.leaseExpiresAt := by
        simpa [WorkClaim.isCurrent] using hcur
      exact absurd (hlapsed hactive) (not_le.mpr hlease)
    have hclaim : claimFromRow c.row = .ok c := claimFromRow_eq_ok.mpr rfl
    unfold PostgresWorkClaimRepository.supersede
    rw [Proc.exec_ensure_bind, hclaim]
    dsimp only
    rw [if_neg hcurrent, if_neg (show ¬ c.status = .completed from hcompleted)]
    by_cases hactive : c.status = .active
    · -- The update of the lapsed claim is one that the trigger lets through.
      have hchange : changeWorkClaim c.row { c.row with status := .expired } =
          .ok { c.row with status := .expired } := by
        refine changeWorkClaim_eq_ok.mpr ⟨rfl, protectWorkClaim_eq_ok.mpr ?_, c.lease_window.2⟩
        exact ⟨⟨rfl, rfl, rfl, rfl, rfl, rfl⟩, hactive, by rw [if_neg (by simp)]⟩
      have hfind : d.workClaims.find? (fun r => r.claimId = c.id) = some c.row :=
        RowWrite.find_eq_some h.nodup_id hmem rfl
      refine ⟨_, _, ?_, .lapsed c.row hmem hroute hactive (hlapsed hactive), by omega, hlt⟩
      rw [if_pos hactive, Proc.exec_orFail_bind, PostgresWorkClaimRepository.expire,
        PostgresWorkClaimRepository.updateClaim, Proc.exec_update]
      have hagain : d.workClaims.find? (fun r => r.claimId = c.row.claimId) = some c.row := hfind
      simp only [Store.view_nil, hfind, hagain, Option.bind_some, hchange]
      rfl
    · refine ⟨_, _, ?_, .closed c.row hmem hroute hactive hcompleted, by omega, hlt⟩
      rw [if_neg hactive]
      rfl

/-- A call on an open route wins it. -/
theorem exec_claim_open (h : WorkClaims.Inv d) (hread : WorkClaims.Readable d)
    (ho : Open d routeId workerService now) (hnow : 0 ≤ now)
    (hfresh : ∀ r ∈ d.workClaims, r.claimId ≠ claimId)
    (hinstance : ∃ r ∈ d.serviceInstances, r.instanceId = workerInstance)
    (hlease : now < leaseExpiresAt) :
    ∃ (c : WorkClaim) (rows : List WorkClaimRow),
      (PostgresWorkClaimRepository.claim claimId routeId workerService workerInstance leaseExpiresAt
        now).exec store d [] = ⟨{ d with workClaims := rows }, [], .ok c⟩ ∧
      Taken { d with workClaims := rows } routeId now := by
  obtain ⟨token, ws, hsupersede, hretires, hpos, hlt⟩ := exec_supersede_open h hread ho
  let c : WorkClaim := ⟨claimId, routeId, workerService, workerInstance, token, .active, now,
    leaseExpiresAt, hpos, ⟨hnow, hlease⟩⟩
  -- Retiring a claim only changes the table of claims.
  obtain ⟨rows, hview⟩ : ∃ rows, store.view d ws = { d with workClaims := rows } := by
    cases hretires <;> exact ⟨_, rfl⟩
  have hmints : Mints d ws c.row := by
    refine ⟨hretires, rfl, hpos, ⟨hnow, hlease⟩, hfresh, fun r hr hroute => ?_⟩
    exact Int.ne_of_lt (hlt r (Db.mem_claimsOf.mpr ⟨hr, hroute⟩))
  obtain ⟨hinv, hended, htoken, hbound⟩ := h.retire hmints
  have hids := hretires.map_identity h.nodup_id
  rw [hview] at hinv hended htoken hids
  have hfresh' : ∀ r ∈ rows, r.claimId ≠ claimId :=
    WorkClaimRow.forall_of_map_identity hids.symm (p := fun i => i.1 ≠ claimId) hfresh
  have hbelow : ∀ r ∈ Db.claimsOf { d with workClaims := rows } routeId,
    r.fencingToken < token := by
    intro r hr
    have hle := ((hinv.orderly routeId).number_mem hr).2
    have hlen : token = (Db.claimsOf { d with workClaims := rows } routeId).length + 1 := htoken
    omega
  have hcheck : (store.view d ws).checkWorkClaim c.row = .ok () := by
    rw [hview]
    refine Db.checkWorkClaim_eq_ok.mpr ⟨hlease, hnow, hpos, hfresh', fun r hr hroute => ?_,
      fun _ r hr hroute hactive => ?_, ?_, ho.service, hinstance⟩
    · exact Int.ne_of_lt (hbelow r (Db.mem_claimsOf.mpr ⟨hr, hroute⟩))
    · have hend := hended r (Db.mem_claimsOf.mpr ⟨hr, hroute⟩)
      rw [Ended, hactive] at hend
      rcases hend with hend | hend <;> cases hend
    · obtain ⟨r, hr, -⟩ := Option.map_eq_some_iff.mp ho.leads
      have hid := List.find?_some hr
      exact ⟨r, List.mem_of_find?_eq_some hr, of_decide_eq_true hid⟩
  have hinserted : store.view d (ws ++ [.workClaims (.insert c.row)]) =
      { d with workClaims := rows ++ [c.row] } := by
    rw [Store.view_append, hview]
    rfl
  refine ⟨c, rows ++ [c.row], ?_, c, ?_, ?_⟩
  · have hread : claimFromRow c.row = .ok c := claimFromRow_eq_ok.mpr rfl
    rw [exec_claim ho.leads, Proc.exec_run_bind, hsupersede]
    dsimp only
    rw [Proc.exec_orFail_bind, PostgresWorkClaimRepository.insertClaim, Proc.exec_insert_ok hcheck]
    dsimp only
    rw [Proc.exec_ensure_bind]
    rw [show PostgresWorkClaimRepository.mintedRow claimId routeId workerService workerInstance
      leaseExpiresAt now token = c.row from rfl, hread]
    dsimp only
    rw [Proc.exec_orFail_bind, Proc.exec_commitNow, ← hinserted]
    rfl
  · have hinv' : WorkClaims.Inv { d with workClaims := rows ++ [c.row] } :=
      hinv.insert hfresh' hended htoken hbound
    refine latestClaim_eq_some hinv' (Db.mem_claimsOf.mpr ⟨by simp, rfl⟩) fun r hr hne => ?_
    obtain ⟨hr, hroute⟩ := Db.mem_claimsOf.mp hr
    rcases List.mem_append.mp hr with hr | hr
    · exact hbelow r (Db.mem_claimsOf.mpr ⟨hr, hroute⟩)
    · exact absurd (List.mem_singleton.mp hr) hne
  · simp [WorkClaim.isCurrent, c, hlease]

end Alone

/-! ## The calls -/

/-- One of the calls: the identifier that it draws is no stored claim's, the worker's instance is
registered, and the lease ends after `now`. -/
structure Call (d₀ : Db) (now : ℤ) where
  claimId : ClaimId
  workerInstance : InstanceId
  leaseExpiresAt : ℤ
  fresh : ∀ r ∈ d₀.workClaims, r.claimId ≠ claimId
  registered : ∃ r ∈ d₀.serviceInstances, r.instanceId = workerInstance
  lease : now < leaseExpiresAt

variable (d₀ : Db) (routeId : RouteId) (workerService : ActorId) (now : ℤ)

/-- What the calls do. -/
def program (call : Call d₀ now) : Sql (Except WorkClaimError WorkClaim) :=
  PostgresWorkClaimRepository.claim call.claimId routeId workerService call.workerInstance
    call.leaseExpiresAt now

/-- The sessions of the calls. -/
abbrev system : Postgres.System Db Write Key (Call d₀ now) (Except WorkClaimError WorkClaim) :=
  kernelSystem (program d₀ routeId workerService now)

/-- One call has won, and all others are told so. -/
def Answered {d₀ : Db} {now : ℤ} (routeId : RouteId)
    (log : List (Entry (Call d₀ now) (Except WorkClaimError WorkClaim))) : Prop :=
  ∃ winner losers, log = winner :: losers ∧ (∃ c, winner.result = .ok c) ∧
    ∀ e ∈ losers, e.result = .error (.alreadyClaimed routeId)

/-- The calls take turns at the latest claim, until one has ended. -/
def turns : Turns (system d₀ routeId workerService now) where
  inv d log := (log = [] ∧ d = d₀) ∨ Answered routeId log ∧ Taken d routeId now
  good d := LeadsTo d routeId workerService
  mine w := ∃ rw, w = .workClaims rw
  settled log := log ≠ []
  opening := ["ROUTE_DESTINATION_SQL"]
  entry := "LOCK_LATEST_CLAIM_FOR_ROUTE_SQL"

instance : DecidablePred (turns d₀ routeId workerService now).settled := fun log =>
  decidable_of_iff (¬ log.isEmpty) (by simp [turns])

variable {d₀ routeId workerService now}

/-- What a call does after the snapshot of the latest claim. -/
theorem rest_claim (call : Call d₀ now) (latest : Except Postgres.DbError (Option WorkClaimRow)) :
    (turns d₀ routeId workerService now).Rest (Proc.transaction (do
      let latest ← Proc.ensure (latest.mapError WorkClaimError.ofDatabase)
      let nextFencingToken ← PostgresWorkClaimRepository.supersede routeId now latest
      let row := PostgresWorkClaimRepository.mintedRow call.claimId routeId workerService
        call.workerInstance call.leaseExpiresAt now nextFencingToken
      let _ ← Proc.orFail .ofDatabase (PostgresWorkClaimRepository.insertClaim row)
      let claim ← Proc.ensure (claimFromRow row)
      let _ ← Proc.orFail .ofDatabase Proc.commitNow
      return claim : Fallible WorkClaimError WorkClaim)) := by
  refine .transaction (.run_bind trivial fun latest => .run_bind ?_ fun token => ?_)
  · cases latest with
    | none => trivial
    | some row =>
      refine .run_bind trivial fun c => ?_
      split
      · trivial
      split
      · trivial
      split
      · refine .run_bind (.orFail (.update ?_ fun new => ⟨_, rfl⟩)) fun _ => trivial
        exact ⟨by simp [turns], by simp [turns]⟩
      · trivial
  · refine .run_bind (.orFail (.insert ⟨by simp [turns], by simp [turns]⟩ ⟨_, rfl⟩)) fun _ => ?_
    refine .run_bind trivial fun c => .run_bind trivial fun _ => trivial

/-- The calls keep to their turns. -/
theorem turns_sound (h : WorkClaims.Inv d₀) (hread : WorkClaims.Readable d₀)
    (ho : Open d₀ routeId workerService now) (hnow : 0 ≤ now) :
    (turns d₀ routeId workerService now).Sound where
  entry := by simp [turns]
  good_apply := by
    rintro d w hd ⟨rw, rfl⟩
    exact hd
  opens call := by
    change Turns.Opens _ (PostgresWorkClaimRepository.claim _ _ _ _ _ _)
    unfold PostgresWorkClaimRepository.claim
    rw [Proc.transaction_orFail_bind]
    refine .query (by simp [turns]) (fun d d' hd hd' => hd.trans hd'.symm) fun d hd => ?_
    change LeadsTo d routeId workerService at hd
    rw [LeadsTo] at hd
    rw [hd]
    change Turns.Opens _ (Proc.transaction (ite (some workerService ≠ some workerService) _ _))
    rw [if_neg (not_not_intro rfl), Proc.transaction_orFail_bind]
    exact .selectForUpdate rfl (rest_claim call)
  settled_append log e _ := by simp [turns]
  looks call d log hd hinv hsettled := by
    rcases hinv with ⟨hlog, -⟩ | ⟨-, htaken⟩
    · exact absurd hlog hsettled
    · exact looks_claim hd htaken
  alone id call d log hd hinv := by
    refine .inr ?_
    rcases hinv with ⟨rfl, rfl⟩ | ⟨⟨winner, losers, rfl, hwins, hlosers⟩, htaken⟩
    · -- Nobody has claimed the route yet: the first one that enters wins.
      obtain ⟨c, rows, hexec, htaken⟩ := exec_claim_open h hread ho hnow call.fresh call.registered
        call.lease
      have hrun : ((system d routeId workerService now).program call).exec store d [] =
          ⟨{ d with workClaims := rows }, [], .ok c⟩ := hexec
      rw [hrun]
      exact ⟨⟨_, [], rfl, ⟨c, rfl⟩, by simp⟩, htaken⟩
    · -- Somebody has, and every other one is refused.
      have hrun : ((system d₀ routeId workerService now).program call).exec store d [] =
          ⟨d, [], .error (.alreadyClaimed routeId)⟩ := exec_claim_taken hd htaken
      rw [hrun]
      refine ⟨⟨winner, losers ++ [_], rfl, hwins, fun e he => ?_⟩, htaken⟩
      rcases List.mem_append.mp he with he | he
      · exact hlosers e he
      · rw [List.mem_singleton.mp he]

/-- In every run in which the calls take turns, the first one to end has won, and all others answer
that the route is claimed. -/
theorem answered_of_turns {d : Db} (hd : d.workClaims = [])
    {s₀ : State Db Write Key WorkClaims.Op WorkClaims.Result} (hs₀ : WorkClaims.system.Reaches d s₀)
    {routeId : RouteId} {workerService : ActorId} {now : ℤ} (hnow : 0 ≤ now)
    (ho : Open s₀.db routeId workerService now)
    {s : State Db Write Key (Call s₀.db now) (Except WorkClaimError WorkClaim)}
    (hs : (system s₀.db routeId workerService now).ReachesBy
      (turns s₀.db routeId workerService now).OneInside s₀.db s) :
    s.log.length + s.sessions.length = s.fresh ∧ (s.log = [] ∨ Answered routeId s.log) := by
  have hT := turns_sound (WorkClaims.holds hd hs₀).inv (WorkClaims.readable hd hs₀) ho hnow
  obtain ⟨d', hinv⟩ := (hT.holds ho.leads (.inl ⟨rfl, rfl⟩) hs).log
  exact ⟨hs.length, hinv.imp And.left And.left⟩

/-! ## Two calls -/

/-- A call on the route of `oneRoute`. -/
def exampleCall (claimId : ClaimId) : Call WorkClaims.oneRoute 10 :=
  ⟨claimId, ⟨2⟩, 20, by simp [WorkClaims.oneRoute], by decide, by decide⟩

/-- The events of two calls that overlap, where the second one takes its snapshot of the latest
claim after the commit of the first one. -/
def exampleTurns : List (Event (Call WorkClaims.oneRoute 10)) :=
  [.begin (exampleCall ⟨6⟩), .begin (exampleCall ⟨7⟩), .snapshot 0, .snapshot 1, .advance 1,
    .advance 0, .snapshot 0, .advance 0, .snapshot 0, .advance 0, .advance 0,
    .snapshot 1, .advance 1]

/-- The events of two calls that both take their snapshot of the latest claim before a commit. -/
def exampleRace : List (Event (Call WorkClaims.oneRoute 10)) :=
  [.begin (exampleCall ⟨6⟩), .begin (exampleCall ⟨7⟩), .snapshot 0, .snapshot 1, .advance 1,
    .advance 0, .snapshot 0, .snapshot 1, .advance 0, .advance 1, .snapshot 0, .advance 0,
    .advance 0, .snapshot 1, .advance 1]

/-- The route of the example is open. -/
theorem open_oneRoute : Open WorkClaims.oneRoute ⟨3⟩ ⟨1⟩ 10 :=
  ⟨rfl, by decide, fun r hr => absurd (Db.mem_claimsOf.mp hr).1 List.not_mem_nil⟩

/-- One call wins, and the other one answers that the route is claimed. -/
theorem answered_of_turns_two : ∃ s, (system WorkClaims.oneRoute ⟨3⟩ ⟨1⟩ 10).ReachesBy
    (turns WorkClaims.oneRoute ⟨3⟩ ⟨1⟩ 10).OneInside WorkClaims.oneRoute s ∧ s.sessions = [] ∧
      s.log.length = 2 ∧ Answered ⟨3⟩ s.log := by
  have hends : ((system WorkClaims.oneRoute ⟨3⟩ ⟨1⟩ 10).runBy
      (turns WorkClaims.oneRoute ⟨3⟩ ⟨1⟩ 10).OneInside
        { db := WorkClaims.oneRoute } exampleTurns).map
        (fun s => (s.sessions.length, s.log.length)) = some (0, 2) := by
    decide +kernel
  obtain ⟨s, hrun, hs⟩ := Option.map_eq_some_iff.mp hends
  obtain ⟨hsessions, hlog⟩ := Prod.mk.inj hs
  have hreach := Postgres.System.ReachesBy.runBy .init hrun
  obtain ⟨-, hnil | hanswered⟩ := answered_of_turns rfl
    (.init : WorkClaims.system.Reaches WorkClaims.oneRoute { db := WorkClaims.oneRoute })
    (by decide) open_oneRoute hreach
  · rw [hnil] at hlog
    cases hlog
  · exact ⟨s, hreach, List.length_eq_zero_iff.mp hsessions, hlog, hanswered⟩

/-- A call that has seen the open route before the commit of the winner fails at the insert, and
reports that the repository does not work. -/
theorem loser_repository : ¬ ∀ (d : Db), d.workClaims = [] →
    ∀ s₀ : State Db Write Key WorkClaims.Op WorkClaims.Result, WorkClaims.system.Reaches d s₀ →
    ∀ (routeId : RouteId) (workerService : ActorId) (now : ℤ), 0 ≤ now →
    Open s₀.db routeId workerService now →
    ∀ s, (system s₀.db routeId workerService now).ReachesBy (fun _ ev => ev.Faultless) s₀.db s →
      s.sessions = [] → s.log = [] ∨ Answered routeId s.log := by
  intro h
  have hends : ((system WorkClaims.oneRoute ⟨3⟩ ⟨1⟩ 10).runBy (fun _ ev => ev.Faultless)
      { db := WorkClaims.oneRoute } exampleRace).map
        (fun s => (s.sessions.length, s.log.any fun e =>
          decide (e.result = .error (.repository (.database
          (.uniqueViolation "work_claims_route_id_fencing_token_key")))))) = some (0, true) := by
    decide +kernel
  obtain ⟨s, hrun, hs⟩ := Option.map_eq_some_iff.mp hends
  obtain ⟨hsessions, hlog⟩ := Prod.mk.inj hs
  obtain ⟨e, he, hfailed⟩ := List.any_eq_true.mp hlog
  rw [decide_eq_true_eq] at hfailed
  have hanswered := h WorkClaims.oneRoute rfl { db := WorkClaims.oneRoute } .init ⟨3⟩ ⟨1⟩ 10
    (by decide) open_oneRoute s (Postgres.System.ReachesBy.runBy .init hrun)
    (List.length_eq_zero_iff.mp hsessions)
  rcases hanswered with hnil | ⟨winner, losers, hlog, ⟨c, hwins⟩, hlosers⟩
  · rw [hnil] at he
    exact absurd he List.not_mem_nil
  · rw [hlog] at he
    rcases List.mem_cons.mp he with rfl | he
    · rw [hwins] at hfailed
      cases hfailed
    · rw [hlosers e he] at hfailed
      cases hfailed

end ClaimContention

end InfernalLaw
