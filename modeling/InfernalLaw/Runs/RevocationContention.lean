import InfernalLaw.Infrastructure.Grants
import InfernalLaw.Postgres.Turns

/-!
# Revocations that overlap

`revoke_authority_grant` looks at the grant without locking it. Calls that take turns at this look,
as long as the grant is not revoked, revoke it once and repeat the answer; a call that has seen the
grant unrevoked while another one is about to revoke it runs into the trigger.
-/

namespace InfernalLaw

open Postgres (DbError Entry Event Proc RowWrite Session State)

namespace RevocationContention

/-! ## The calls -/

/-- One of the calls, with valid metadata. -/
structure Call where
  administratorIdentity : Str
  reason : Str
  correlationId : Uuid
  revokedAt : ℤ
  valid : checkMetadata administratorIdentity reason revokedAt = true

/-- The row that a call adds to the audit. -/
def Call.audit (id : GrantId) (c : Call) (outcome : GrantAuditOutcome) : GrantAuditRow where
  grantId := id
  outcome := outcome
  administratorIdentity := btrim c.administratorIdentity
  reason := btrim c.reason
  correlationId := c.correlationId
  recordedAt := c.revokedAt

/-- What a call answers: the time of the revocation, and the outcome. -/
abbrev Answer : Type := Except DbError (ℤ × GrantAuditOutcome)

/-- What the calls do. -/
def program (id : GrantId) (c : Call) : Sql Answer :=
  callFunction (revokeAuthorityGrant id c.administratorIdentity c.reason c.correlationId
    c.revokedAt)

/-- The sessions of the calls. -/
abbrev system (id : GrantId) : Postgres.System Db Write Key Call Answer :=
  kernelSystem (program id)

/-- The sessions' type. -/
abbrev Running : Type := Session Db Write Key Call Answer

/-- A call that revokes the grant, after its look. -/
def updating (id : GrantId) (c : Call) : Sql Answer :=
  callFunction do
    let _ ← perform (updateGrantRevoked id c.revokedAt)
    let _ ← perform (insertGrantAudit (c.audit id .revoked))
    return (c.revokedAt, .revoked)

/-- A call that is left with its row of the audit. -/
def auditing (id : GrantId) (c : Call) (answer : ℤ × GrantAuditOutcome) : Sql Answer :=
  callFunction do
    let _ ← perform (insertGrantAudit (c.audit id answer.2))
    return answer

/-- A call that is left with the commit. -/
def committing (answer : ℤ × GrantAuditOutcome) : Sql Answer :=
  .commit (.done (.ok answer)) (.done (.error .unavailable))

/-- The grant, revoked. -/
def revoke (row : GrantRow) (t : ℤ) : GrantRow := { row with revokedAt := some t }

/-- A call looks at the grant first. -/
theorem program_next {id : GrantId} {c : Call} {sql : String}
    {effect : Db → Db → Postgres.Effect Write Key} {next : Db → Db → Sql Answer}
    {failed : Sql Answer} (h : program id c = .stmt sql effect next failed) :
    sql = "SELECT FROM authority_grants" ∧ effect = (fun _ _ => {}) ∧ ∀ snap cur, next snap cur =
      callFunction (revokeGrantRow id c.revokedAt (c.audit id)
        (snap.grants.find? fun r => r.grantId = id)) := by
  rw [program, revokeAuthorityGrant, if_neg (by rw [c.valid]; simp)] at h
  obtain ⟨hsql, heffect, hnext⟩ := Proc.autocommit_orFail_next h
  exact ⟨hsql, heffect, fun snap cur => hnext snap cur _ rfl⟩

/-- The row of the audit passes the checks of its table. -/
theorem check_audit (id : GrantId) (c : Call) (outcome : GrantAuditOutcome) :
    (c.audit id outcome).check = .ok () := by
  have hvalid := c.valid
  simp only [checkMetadata, Bool.and_eq_true, decide_eq_true_eq] at hvalid
  rw [GrantAuditRow.check, Postgres.require_bind_eq_ok, Postgres.require_bind_eq_ok,
    Postgres.require_eq_ok]
  exact ⟨checkTrimmed_btrim.mpr hvalid.1.1, checkTrimmed_btrim.mpr hvalid.1.2, hvalid.2⟩

/-- The row of the audit is written, and the commit is left. -/
theorem auditing_next {id : GrantId} {c : Call} {answer : ℤ × GrantAuditOutcome} {sql : String}
    {effect : Db → Db → Postgres.Effect Write Key} {next : Db → Db → Sql Answer}
    {failed : Sql Answer} (h : auditing id c answer = .stmt sql effect next failed)
    (snap cur : Db) :
    (effect snap cur).writes = [.grantAudit (c.audit id answer.2)] ∧
      next snap cur = committing answer := by
  obtain ⟨-, rfl, hnext⟩ := Proc.autocommit_orFail_next h
  refine ⟨?_, hnext snap cur () (check_audit id c answer.2)⟩
  beta_reduce
  rw [check_audit]

/-- A grant that is not revoked yet may be. -/
theorem changeGrant_revoke {row : GrantRow} (h : row.revokedAt = none) {t : ℤ} (ht : 0 ≤ t) :
    changeGrant row (revoke row t) = .ok (revoke row t) := by
  rw [changeGrant, Postgres.require_bind_eq_ok, Postgres.require_bind_eq_ok,
    Postgres.require_bind_eq_ok]
  refine ⟨⟨h, by simp [revoke]⟩, rfl, fun revokedAt hrevoked => ?_, rfl⟩
  obtain rfl := Option.some.inj hrevoked
  exact ht

/-- The grant is revoked, and the row of the audit is left. -/
theorem updating_next {id : GrantId} {c : Call} {row : GrantRow} {sql : String}
    {effect : Db → Db → Postgres.Effect Write Key} {next : Db → Db → Sql Answer}
    {failed : Sql Answer} (h : updating id c = .stmt sql effect next failed) {snap cur : Db}
    (hsnap : snap.grants.find? (fun r => r.grantId = id) = some row)
    (hcur : cur.grants.find? (fun r => r.grantId = id) = some row) (hrow : row.revokedAt = none) :
    (effect snap cur).writes = [.grants (.update (revoke row c.revokedAt))] ∧
      next snap cur = auditing id c (c.revokedAt, .revoked) := by
  have hvalid := c.valid
  simp only [checkMetadata, Bool.and_eq_true, decide_eq_true_eq] at hvalid
  have hchange : changeGrant row { row with revokedAt := some c.revokedAt } =
      .ok (revoke row c.revokedAt) := changeGrant_revoke hrow hvalid.2
  obtain ⟨-, rfl, hnext⟩ := Proc.autocommit_orFail_next h
  refine ⟨?_, hnext snap cur (some (revoke row c.revokedAt)) ?_⟩
  · beta_reduce
    rw [hsnap]
    dsimp only
    rw [hcur]
    dsimp only
    rw [hchange]
  · beta_reduce
    rw [hsnap, Option.bind_some, hcur]
    dsimp only
    rw [hchange]
    rfl

/-- A call that finds the grant unrevoked goes on to revoke it. -/
theorem found_unrevoked {id : GrantId} {c : Call} {row : GrantRow} (h : row.revokedAt = none) :
    callFunction (revokeGrantRow id c.revokedAt (c.audit id) (some row)) = updating id c := by
  unfold revokeGrantRow
  dsimp only
  rw [h]
  rfl

/-- A call that finds the grant revoked repeats the time of the revocation. -/
theorem found_revoked {id : GrantId} {c : Call} {row : GrantRow} {t : ℤ}
    (h : row.revokedAt = some t) :
    callFunction (revokeGrantRow id c.revokedAt (c.audit id) (some row)) =
      auditing id c (t, .revokeNoOp) := by
  unfold revokeGrantRow
  dsimp only
  rw [h]
  rfl

/-! ## Taking turns -/

/-- The grant is revoked. -/
def Revoked (id : GrantId) (d : Db) : Prop :=
  ∃ r ∈ d.grants.find? (fun r => r.grantId = id), r.revokedAt ≠ none

/-- The call has not looked at the grant yet. -/
def Outside (x : Running) : Prop :=
  x.proc.statement? = some "SELECT FROM authority_grants" ∧ x.snapshot = none

/-- The runs in which the server does not fail, and a call looks at a grant that is not revoked only
while no other call has looked at it and is still at work. -/
def InTurn (id : GrantId) (s : State Db Write Key Call Answer) (ev : Event Call) : Prop :=
  ev.Faultless ∧ ∀ x ∈ s.sessions, ev = .snapshot x.id →
    x.proc.statement? = some "SELECT FROM authority_grants" →
      Revoked id s.db ∨ ∀ y ∈ s.others x.id, Outside y

instance (id : GrantId) (d : Db) : Decidable (Revoked id d) :=
  decidable_of_iff ((d.grants.find? fun r => r.grantId = id).any fun r => r.revokedAt.isSome) (by
    simp [Revoked, Option.any_eq_true, Option.isSome_iff_ne_none])

instance : DecidablePred Outside := fun x =>
  decidable_of_iff (x.proc.statement? = some "SELECT FROM authority_grants" ∧ x.snapshot.isNone) (by
    simp [Outside])

instance (id : GrantId) (s : State Db Write Key Call Answer) (ev : Event Call) :
    Decidable (InTurn id s ev) :=
  decidable_of_iff (ev.Faultless ∧ ∀ x ∈ s.sessions, ev.session? = some x.id ∧ ev.isSnapshot →
    x.proc.statement? = some "SELECT FROM authority_grants" →
      Revoked id s.db ∨ ∀ y ∈ s.others x.id, Outside y) (by
      cases ev <;> simp [InTurn, Event.session?, Event.isSnapshot])

section

variable (d₀ : Db) (row : GrantRow)

/-- A call before its turn. -/
structure Fresh (x : Running) : Prop where
  proc : x.proc = program row.grantId x.op
  writes : x.writes = []
  snapshot : x.snapshot = none

/-- The call whose turn it is. -/
inductive Inside (x : Running) : Prop where
  | looked (hp : x.proc = program row.grantId x.op) (hw : x.writes = [])
    (hs : x.snapshot = some d₀)
  | updating (hp : x.proc = updating row.grantId x.op) (hw : x.writes = [])
    (hs : ∀ snap ∈ x.snapshot, snap = d₀)
  | auditing (hp : x.proc = auditing row.grantId x.op (x.op.revokedAt, .revoked))
    (hw : x.writes = [.grants (.update (revoke row x.op.revokedAt))])
  | committing (hp : x.proc = committing (x.op.revokedAt, .revoked))
    (hw : x.writes = [.grants (.update (revoke row x.op.revokedAt)),
      .grantAudit (x.op.audit row.grantId .revoked)])

/-- A call, when the grant is revoked at `t`. -/
inductive Late (t : ℤ) (x : Running) : Prop where
  | looking (hp : x.proc = program row.grantId x.op) (hw : x.writes = [])
    (hs : ∀ snap ∈ x.snapshot, snap.grants.find? (fun r => r.grantId = row.grantId) =
      some (revoke row t))
  | auditing (hp : x.proc = auditing row.grantId x.op (t, .revokeNoOp)) (hw : x.writes = [])
  | committing (hp : x.proc = committing (t, .revokeNoOp))
    (hw : x.writes = [.grantAudit (x.op.audit row.grantId .revokeNoOp)])

/-- What the calls have done to a grant that is revoked at `t`: one of them has revoked it, unless
it was revoked before, and the others have repeated the time; each has added a row to the audit. -/
inductive Settles : ℤ → Db → List (Entry Call Answer) → Prop where
  | before {t : ℤ} (h : row.revokedAt = some t) : Settles t d₀ []
  | first (e : Entry Call Answer) (h : row.revokedAt = none)
    (he : e.result = .ok (e.op.revokedAt, .revoked)) :
    Settles e.op.revokedAt (store.view d₀ [.grants (.update (revoke row e.op.revokedAt)),
      .grantAudit (e.op.audit row.grantId .revoked)]) [e]
  | again {t : ℤ} {d : Db} {log : List (Entry Call Answer)} (e : Entry Call Answer)
    (h : Settles t d log) (he : e.result = .ok (t, .revokeNoOp)) :
    Settles t (store.view d [.grantAudit (e.op.audit row.grantId .revokeNoOp)]) (log ++ [e])

/-- What holds along a run in which the calls take turns. -/
inductive Holds (s : State Db Write Key Call Answer) : Prop where
  | untouched (hrow : row.revokedAt = none) (hdb : s.db = d₀) (hlog : s.log = [])
    (hall : ∀ x ∈ s.sessions, Fresh row x)
  | turn (hrow : row.revokedAt = none) (hdb : s.db = d₀) (hlog : s.log = []) (z : Running)
    (hz : z ∈ s.sessions) (hin : Inside d₀ row z) (hothers : ∀ y ∈ s.others z.id, Fresh row y)
  | settled (t : ℤ) (h : Settles d₀ row t s.db s.log) (hall : ∀ x ∈ s.sessions, Late row t x)

end

variable {d₀ : Db} {row : GrantRow} {s s' : State Db Write Key Call Answer} {x : Running} {t : ℤ}

/-- A process of a call waits with a statement until its commit. -/
theorem program_waiting (id : GrantId) (c : Call) : (program id c).Waiting ∧
    (program id c).statement? = some "SELECT FROM authority_grants" := by
  have hstmt : ∃ sql effect next failed, program id c = .stmt sql effect next failed := by
    rw [program, revokeAuthorityGrant, if_neg (by rw [c.valid]; simp)]
    exact ⟨_, _, _, _, rfl⟩
  obtain ⟨sql, effect, next, failed, hp⟩ := hstmt
  obtain ⟨rfl, -, -⟩ := program_next hp
  rw [hp]
  exact ⟨trivial, rfl⟩

/-- In a database that is settled the grant is revoked. -/
theorem Settles.find (hnodup : (d₀.grants.map GrantRow.grantId).Nodup) (hrow : row ∈ d₀.grants)
    {d : Db} {log : List (Entry Call Answer)} (h : Settles d₀ row t d log) :
    d.grants.find? (fun r => r.grantId = row.grantId) = some (revoke row t) := by
  induction h with
  | @before t h =>
    have hsame : revoke row t = row := by
      rw [revoke, ← h]
    rw [hsame]
    exact RowWrite.find_eq_some hnodup hrow rfl
  | first e h he =>
    have hpk : ((RowWrite.update (revoke row e.op.revokedAt)).apply GrantRow.grantId d₀.grants).map
        GrantRow.grantId = d₀.grants.map GrantRow.grantId := RowWrite.map_pk_update
    rw [← hpk] at hnodup
    exact RowWrite.find_eq_some hnodup (RowWrite.new_mem_update hrow rfl) rfl
  | again e h he ih => exact ih

/-! ## Steps -/

/-- The calls that have not looked have nothing to undo when the grant is revoked. -/
theorem Fresh.late (h : Fresh row x) : Late row t x :=
  .looking h.proc h.writes fun snap hsnap => by rw [h.snapshot] at hsnap; cases hsnap

/-- A call before its turn is outside, and none that has its turn is. -/
theorem Inside.not_outside (h : Inside d₀ row x) : ¬ Outside x := by
  rintro ⟨hsql, hsnap⟩
  cases h with
  | looked hp hw hs =>
    rw [hs] at hsnap
    cases hsnap
  | updating hp hw hs =>
    rw [hp] at hsql
    have hname : "UPDATE authority_grants SET revoked_at" = "SELECT FROM authority_grants" :=
      Option.some.inj hsql
    exact absurd hname (by decide)
  | auditing hp hw =>
    rw [hp] at hsql
    have hname : "INSERT INTO authority_grant_administration_audit" =
        "SELECT FROM authority_grants" := Option.some.inj hsql
    exact absurd hname (by decide)
  | committing hp hw =>
    rw [hp] at hsql
    cases hsql

/-- A call begins. -/
theorem Holds.begin (h : Holds d₀ row s) (hwf : s.WellFormed store) (op : Call) :
    Holds d₀ row ({ s with fresh := s.fresh + 1 }.resume s.fresh op s.db
      (program row.grantId op) [] []) := by
  rw [State.resume_of_waiting (program_waiting row.grantId op).1]
  have hnew : Fresh row (⟨s.fresh, op, program row.grantId op, none, [], []⟩ : Running) :=
    ⟨rfl, rfl, rfl⟩
  cases h with
  | untouched hrow hdb hlog hall =>
    refine .untouched hrow hdb hlog fun y hy => ?_
    rcases List.mem_cons.mp hy with rfl | hy
    · exact hnew
    · exact hall y (State.mem_others.mp hy).1
  | turn hrow hdb hlog z hz hin hothers =>
    have hne : z.id ≠ s.fresh := Nat.ne_of_lt (hwf.sessions_fresh z hz)
    refine .turn hrow hdb hlog z (List.mem_cons_of_mem _ (State.mem_others.mpr ⟨hz, hne⟩)) hin
      fun y hy => ?_
    obtain ⟨hy, hyz⟩ := State.mem_others.mp hy
    rcases List.mem_cons.mp hy with rfl | hy
    · exact hnew
    · exact hothers y (State.mem_others.mpr ⟨(State.mem_others.mp hy).1, hyz⟩)
  | settled t h hall =>
    refine .settled t h fun y hy => ?_
    rcases List.mem_cons.mp hy with rfl | hy
    · exact hnew.late
    · exact hall y (State.mem_others.mp hy).1

/-- A call whose turn it is goes on. -/
theorem Holds.put_inside (hrow : row.revokedAt = none) (hdb : s.db = d₀) (hlog : s.log = [])
    (hin : Inside d₀ row x) (hothers : ∀ y ∈ s.others x.id, Fresh row y) : Holds d₀ row (s.put x) :=
  .turn hrow hdb hlog x List.mem_cons_self hin fun y hy => hothers y (State.mem_others_put hy rfl)

/-- A call goes on when the grant is revoked. -/
theorem Holds.put_late (h : Settles d₀ row t s.db s.log) (hx : Late row t x)
    (hall : ∀ y ∈ s.sessions, Late row t y) : Holds d₀ row (s.put x) := by
  refine .settled t h fun y hy => ?_
  rcases List.mem_cons.mp hy with rfl | hy
  · exact hx
  · exact hall y (State.mem_others.mp hy).1

/-- A call takes a snapshot. -/
theorem Holds.snapshot (hnodup : (d₀.grants.map GrantRow.grantId).Nodup) (hmem : row ∈ d₀.grants)
    (h : Holds d₀ row s) (hwf : s.WellFormed store) (hx : x ∈ s.sessions)
    (hnone : x.snapshot = none) (hturn : x.proc.statement? = some "SELECT FROM authority_grants" →
      Revoked row.grantId s.db ∨ ∀ y ∈ s.others x.id, Outside y) :
    Holds d₀ row (s.put { x with snapshot := some (store.view s.db x.writes) }) := by
  cases h with
  | untouched hrow hdb hlog hall =>
    have hfresh := hall x hx
    refine .put_inside hrow hdb hlog (.looked hfresh.proc hfresh.writes ?_) fun y hy =>
      hall y (State.mem_others.mp hy).1
    show some (store.view s.db x.writes) = some d₀
    rw [hfresh.writes, hdb]
    rfl
  | turn hrow hdb hlog z hz hin hothers =>
    by_cases hid : x.id = z.id
    · -- It is the turn of `x`, which is past its look.
      obtain rfl := hwf.eq_of_id hx hz hid
      refine .put_inside hrow hdb hlog ?_ hothers
      cases hin with
      | looked hp hw hs =>
        rw [hs] at hnone
        cases hnone
      | updating hp hw hs =>
        refine .updating hp hw fun snap hsnap => ?_
        rw [← Option.some.inj hsnap, hw, hdb]
        rfl
      | auditing hp hw => exact .auditing hp hw
      | committing hp hw => exact .committing hp hw
    · -- The others are outside, but the one whose turn it is is not.
      have hfresh := hothers x (State.mem_others.mpr ⟨hx, hid⟩)
      have hentry : x.proc.statement? = some "SELECT FROM authority_grants" := by
        rw [hfresh.proc]
        exact (program_waiting _ _).2
      rcases hturn hentry with ⟨r, hr, hrevoked⟩ | houtside
      · rw [hdb, RowWrite.find_eq_some hnodup hmem rfl] at hr
        rw [← Option.some.inj hr] at hrevoked
        exact absurd hrow hrevoked
      · exact absurd (houtside z (State.mem_others.mpr ⟨hz, Ne.symm hid⟩)) hin.not_outside
  | settled t h hall =>
    refine .put_late h ?_ hall
    cases hall x hx with
    | looking hp hw hs =>
      refine .looking hp hw fun snap hsnap => ?_
      rw [← Option.some.inj hsnap, hw]
      exact h.find hnodup hmem
    | auditing hp hw => exact .auditing hp hw
    | committing hp hw => exact .committing hp hw

/-- A call completes a statement. -/
theorem Holds.stmt (hnodup : (d₀.grants.map GrantRow.grantId).Nodup) (hmem : row ∈ d₀.grants)
    (h : Holds d₀ row s) (hwf : s.WellFormed store) (hx : x ∈ s.sessions) {sql : String}
    {effect : Db → Db → Postgres.Effect Write Key} {next : Db → Db → Sql Answer}
    {failed : Sql Answer} {snap : Db} {locks : List Key}
    (hp : x.proc = .stmt sql effect next failed) (hs : x.snapshot = some snap) :
    Holds d₀ row (s.resume x.id x.op s.db (next snap (store.view s.db x.writes)) locks
      (x.writes ++ (effect snap (store.view s.db x.writes)).writes)) := by
  have hfind : d₀.grants.find? (fun r => r.grantId = row.grantId) = some row :=
    RowWrite.find_eq_some hnodup hmem rfl
  -- A session that has taken a snapshot has its turn, or comes after the grant is revoked.
  cases h with
  | untouched hrow hdb hlog hall =>
    rw [(hall x hx).snapshot] at hs
    cases hs
  | turn hrow hdb hlog z hz hin hothers =>
    have hid : x.id = z.id := by
      by_contra hne
      rw [(hothers x (State.mem_others.mpr ⟨hx, hne⟩)).snapshot] at hs
      cases hs
    obtain rfl := hwf.eq_of_id hx hz hid
    cases hin with
    | looked hproc hw hsnap =>
      rw [hproc] at hp
      obtain ⟨-, rfl, hnext⟩ := program_next hp
      obtain rfl := Option.some.inj (hsnap.symm.trans hs)
      rw [hnext, hfind, found_unrevoked hrow, hw, List.append_nil,
        State.resume_of_waiting (show (updating row.grantId x.op).Waiting from trivial)]
      exact .put_inside hrow hdb hlog (.updating rfl rfl nofun) hothers
    | updating hproc hw hsnap =>
      rw [hproc] at hp
      obtain rfl := hsnap snap hs
      rw [hw, Postgres.Store.view_nil, hdb]
      obtain ⟨hwrites, hnext⟩ := updating_next hp hfind hfind hrow
      rw [hnext, hwrites,
        State.resume_of_waiting (show (auditing row.grantId x.op (x.op.revokedAt, .revoked)).Waiting
          from trivial)]
      exact .put_inside hrow rfl hlog (.auditing rfl rfl) hothers
    | auditing hproc hw =>
      rw [hproc] at hp
      obtain ⟨hwrites, hnext⟩ := auditing_next hp snap (store.view s.db x.writes)
      rw [hnext, hwrites, hw,
        State.resume_of_waiting (show (committing (x.op.revokedAt, .revoked)).Waiting from trivial)]
      exact .put_inside hrow hdb hlog (.committing rfl rfl) hothers
    | committing hproc hw =>
      rw [hproc] at hp
      cases hp
  | settled t h hall =>
    cases hall x hx with
    | looking hproc hw hsnap =>
      rw [hproc] at hp
      obtain ⟨-, rfl, hnext⟩ := program_next hp
      rw [hnext, hsnap snap hs, found_revoked (t := t) rfl, hw, List.append_nil,
        State.resume_of_waiting (show (auditing row.grantId x.op (t, .revokeNoOp)).Waiting
          from trivial)]
      exact .put_late h (.auditing rfl rfl) hall
    | auditing hproc hw =>
      rw [hproc] at hp
      obtain ⟨hwrites, hnext⟩ := auditing_next hp snap (store.view s.db x.writes)
      rw [hnext, hwrites, hw,
        State.resume_of_waiting (show (committing (t, .revokeNoOp)).Waiting from trivial)]
      exact .put_late h (.committing rfl rfl) hall
    | committing hproc hw =>
      rw [hproc] at hp
      cases hp

/-- A call that is at its look does not commit. -/
theorem not_commit (h : x.proc = program row.grantId x.op) {next failed : Sql Answer} :
    x.proc ≠ .commit next failed := by
  intro hcommit
  have hsql := (program_waiting row.grantId x.op).2
  rw [← h, hcommit] at hsql
  cases hsql

/-- A call commits, and ends. -/
theorem Holds.commit (h : Holds d₀ row s) (hwf : s.WellFormed store) (hx : x ∈ s.sessions)
    {next failed : Sql Answer} (hp : x.proc = .commit next failed) :
    Holds d₀ row (s.resume x.id x.op (store.view s.db x.writes) next [] []) := by
  -- Only a session that has its turn, or comes after it, is about to commit.
  cases h with
  | untouched hrow hdb hlog hall => exact absurd hp (not_commit (hall x hx).proc)
  | turn hrow hdb hlog z hz hin hothers =>
    have hid : x.id = z.id := by
      by_contra hne
      exact not_commit (hothers x (State.mem_others.mpr ⟨hx, hne⟩)).proc hp
    obtain rfl := hwf.eq_of_id hx hz hid
    cases hin with
    | looked hproc hw hsnap => exact absurd hp (not_commit hproc)
    | updating hproc hw hsnap =>
      rw [hproc] at hp
      cases hp
    | auditing hproc hw =>
      rw [hproc] at hp
      cases hp
    | committing hproc hw =>
      rw [hproc] at hp
      obtain ⟨rfl, -⟩ := Proc.commit.inj hp
      -- With this commit the grant is revoked, at the time that this operation has asked for.
      refine .settled x.op.revokedAt ?_ fun y hy => (hothers y hy).late
      have hfirst : Settles d₀ row x.op.revokedAt _
          [⟨x.id, x.op, .ok (x.op.revokedAt, .revoked)⟩] :=
        .first ⟨x.id, x.op, .ok (x.op.revokedAt, .revoked)⟩ hrow rfl
      show Settles d₀ row _ (store.view s.db x.writes)
        (s.log ++ [⟨x.id, x.op, .ok (x.op.revokedAt, .revoked)⟩])
      rw [hw, hdb, hlog]
      exact hfirst
  | settled t h hall =>
    cases hall x hx with
    | looking hproc hw hsnap => exact absurd hp (not_commit hproc)
    | auditing hproc hw =>
      rw [hproc] at hp
      cases hp
    | committing hproc hw =>
      rw [hproc] at hp
      obtain ⟨rfl, -⟩ := Proc.commit.inj hp
      -- A later one answers the time that the grant has been revoked at, and changes nothing of it.
      refine .settled t ?_ fun y hy => hall y (State.mem_others.mp hy).1
      show Settles d₀ row t (store.view s.db x.writes)
        (s.log ++ [⟨x.id, x.op, .ok (t, .revokeNoOp)⟩])
      rw [hw]
      exact h.again ⟨x.id, x.op, .ok (t, .revokeNoOp)⟩ rfl

/-- Every event of a run in which the calls take turns. -/
theorem Holds.step (hnodup : (d₀.grants.map GrantRow.grantId).Nodup) (hmem : row ∈ d₀.grants)
    (h : Holds d₀ row s) (hwf : s.WellFormed store) {ev : Event Call}
    (hturn : InTurn row.grantId s ev) (hstep : (system row.grantId).step s ev = some s') :
    Holds d₀ row s' := by
  rcases Postgres.System.step_cases_of_faultless hstep hturn.1 with ⟨op, rfl⟩ |
    ⟨x, hx, rfl, hnone, -, rfl⟩ | ⟨x, hx, sql, effect, next, failed, snap, hp, hs, rfl⟩ |
    ⟨x, hx, next, failed, hp, rfl⟩
  · exact h.begin hwf op
  · exact h.snapshot hnodup hmem hwf hx hnone (hturn.2 x hx rfl)
  · exact h.stmt hnodup hmem hwf hx hp hs
  · exact h.commit hwf hx hp

/-- Along every run in which the calls take turns. -/
theorem holds (hnodup : (d₀.grants.map GrantRow.grantId).Nodup) (hmem : row ∈ d₀.grants)
    (hs : (system row.grantId).ReachesBy (InTurn row.grantId) d₀ s) : Holds d₀ row s := by
  induction hs with
  | init =>
    cases hrevoked : row.revokedAt with
    | none => exact .untouched hrevoked rfl rfl fun x hx => absurd hx List.not_mem_nil
    | some t => exact .settled t (.before hrevoked) fun x hx => absurd hx List.not_mem_nil
  | step ev hs hturn hstep ih => exact ih.step hnodup hmem hs.wellFormed hturn hstep

/-! ## What the calls come to -/

/-- The audit rows of calls that repeat the time of the revocation. -/
def repeatAudits (id : GrantId) (log : List (Entry Call Answer)) : List GrantAuditRow :=
  log.map fun e => e.op.audit id .revokeNoOp

/-- The grant is revoked once: by the first of the calls to end, or before them. The other calls
repeat the time. Each call adds a row to the audit, and nothing else of the database changes. -/
def RevokedOnce (d₀ : Db) (row : GrantRow) (d : Db) (log : List (Entry Call Answer)) : Prop :=
  (row.revokedAt = none → log = [] ∧ d = d₀ ∨
    ∃ winner losers, log = winner :: losers ∧
      winner.result = .ok (winner.op.revokedAt, .revoked) ∧
      (∀ e ∈ losers, e.result = .ok (winner.op.revokedAt, .revokeNoOp)) ∧
      d = { d₀ with
        grants := (RowWrite.update { row with revokedAt := some winner.op.revokedAt }).apply
          GrantRow.grantId d₀.grants
        grantAudit := d₀.grantAudit ++ winner.op.audit row.grantId .revoked ::
          repeatAudits row.grantId losers }) ∧
    ∀ t, row.revokedAt = some t → (∀ e ∈ log, e.result = .ok (t, .revokeNoOp)) ∧
      d = { d₀ with grantAudit := d₀.grantAudit ++ repeatAudits row.grantId log }

/-- Matters are settled by an earlier revocation, or by the first of the calls to end. -/
theorem Settles.cases {d : Db} {log : List (Entry Call Answer)} (h : Settles d₀ row t d log) :
    (row.revokedAt = some t ∧ (∀ e ∈ log, e.result = .ok (t, .revokeNoOp)) ∧
      d = { d₀ with grantAudit := d₀.grantAudit ++ repeatAudits row.grantId log }) ∨
    (row.revokedAt = none ∧ ∃ winner losers, log = winner :: losers ∧ winner.op.revokedAt = t ∧
      winner.result = .ok (t, .revoked) ∧ (∀ e ∈ losers, e.result = .ok (t, .revokeNoOp)) ∧
      d = { d₀ with
        grants := (RowWrite.update { row with revokedAt := some t }).apply
          GrantRow.grantId d₀.grants
        grantAudit := d₀.grantAudit ++ winner.op.audit row.grantId .revoked ::
          repeatAudits row.grantId losers }) := by
  have hends : ∀ {log : List (Entry Call Answer)} {t : ℤ} {e : Entry Call Answer},
      (∀ e ∈ log, e.result = .ok (t, .revokeNoOp)) → e.result = .ok (t, .revokeNoOp) →
        ∀ e' ∈ log ++ [e], e'.result = .ok (t, .revokeNoOp) := by
    intro log t e hall he e' he'
    rcases List.mem_append.mp he' with he' | he'
    · exact hall e' he'
    · rw [List.mem_singleton.mp he']
      exact he
  induction h with
  | before h =>
    refine .inl ⟨h, nofun, ?_⟩
    simp [repeatAudits]
  | first e h he => exact .inr ⟨h, e, [], rfl, rfl, he, nofun, rfl⟩
  | again e h he ih =>
    rcases ih with ⟨hrow, hall, rfl⟩ | ⟨hrow, winner, losers, rfl, htime, hwins, hall, rfl⟩
    · refine .inl ⟨hrow, hends hall he, ?_⟩
      simp [repeatAudits, store, Db.apply]
    · refine .inr ⟨hrow, winner, losers ++ [e], rfl, htime, hwins, hends hall he, ?_⟩
      simp [repeatAudits, store, Db.apply]

/-- In every run in which the calls take turns, every call that has ended has returned normally, and
the grant is revoked once. -/
theorem revoked_once_of_turns (hnodup : (d₀.grants.map GrantRow.grantId).Nodup)
    (hmem : row ∈ d₀.grants)
    (hs : (system row.grantId).ReachesBy (InTurn row.grantId) d₀ s) :
    s.log.length + s.sessions.length = s.fresh ∧ RevokedOnce d₀ row s.db s.log := by
  refine ⟨hs.length, ?_⟩
  cases holds hnodup hmem hs with
  | untouched hrow hdb hlog hall =>
    refine ⟨fun _ => .inl ⟨hlog, hdb⟩, fun t ht => ?_⟩
    rw [hrow] at ht
    cases ht
  | turn hrow hdb hlog z hz hin hothers =>
    refine ⟨fun _ => .inl ⟨hlog, hdb⟩, fun t ht => ?_⟩
    rw [hrow] at ht
    cases ht
  | settled t h hall =>
    rcases h.cases with
      ⟨hrow, hresults, hdb⟩ | ⟨hrow, winner, losers, hlog, rfl, hwins, hlosers, hdb⟩
    · refine ⟨fun hnone => ?_, fun t' ht' => ?_⟩
      · rw [hnone] at hrow
        cases hrow
      · obtain rfl := Option.some.inj (hrow.symm.trans ht')
        exact ⟨hresults, hdb⟩
    · refine ⟨fun _ => .inr ⟨winner, losers, hlog, hwins, hlosers, hdb⟩, fun t' ht' => ?_⟩
      rw [hrow] at ht'
      cases ht'

/-! ## Two calls -/

/-- A grant that is not revoked. -/
def exampleGrant : GrantRow :=
  ⟨⟨5⟩, ⟨1⟩, "billing.invoice".toList, "*".toList, ⟨1⟩, ⟨2⟩, none, 0, none, "admin".toList,
    "setup".toList, ⟨6⟩, 0, none⟩

/-- A database with this grant. -/
def oneGrant : Db where
  grants := [exampleGrant]

/-- A call at the time `t`. -/
def exampleCall (t : ℤ) (valid : checkMetadata "admin".toList "cleanup".toList t = true) : Call :=
  ⟨"admin".toList, "cleanup".toList, ⟨7⟩, t, valid⟩

/-- The events of two calls, where the second one looks at the grant when it is revoked. -/
def exampleTurns : List (Event Call) :=
  [.begin (exampleCall 10 (by decide)), .begin (exampleCall 11 (by decide)), .snapshot 0,
    .advance 0, .snapshot 0, .advance 0, .snapshot 0, .advance 0, .advance 0, .snapshot 1,
    .advance 1, .snapshot 1, .advance 1, .advance 1]

/-- The events of two calls which both look at the grant before it is revoked. -/
def exampleRace : List (Event Call) :=
  [.begin (exampleCall 10 (by decide)), .begin (exampleCall 11 (by decide)), .snapshot 0,
    .snapshot 1, .advance 0, .advance 1, .snapshot 0, .snapshot 1, .advance 0, .snapshot 0,
    .advance 0, .advance 0, .advance 1]

/-- One call revokes the grant, and the other one repeats the time. -/
theorem revoked_once_of_turns_two : ∃ s, (system ⟨5⟩).ReachesBy (InTurn ⟨5⟩) oneGrant s ∧
    s.sessions = [] ∧ s.log.length = 2 ∧ RevokedOnce oneGrant exampleGrant s.db s.log := by
  have hends : ((system ⟨5⟩).runBy (InTurn ⟨5⟩) { db := oneGrant } exampleTurns).map
      (fun s => (s.sessions.length, s.log.length)) = some (0, 2) := by
    decide +kernel
  obtain ⟨s, hrun, hs⟩ := Option.map_eq_some_iff.mp hends
  obtain ⟨hsessions, hlog⟩ := Prod.mk.inj hs
  have hreach : (system exampleGrant.grantId).ReachesBy (InTurn exampleGrant.grantId) oneGrant s :=
    Postgres.System.ReachesBy.runBy .init hrun
  obtain ⟨-, honce⟩ := revoked_once_of_turns (by decide) List.mem_cons_self hreach
  exact ⟨s, hreach, List.length_eq_zero_iff.mp hsessions, hlog, honce⟩

/-- A call that has looked at the grant before another one revokes it runs into the trigger. -/
theorem overlapping_raises :
    ¬ ∀ (d₀ : Db) (row : GrantRow), (d₀.grants.map GrantRow.grantId).Nodup →
    row ∈ d₀.grants → ∀ s, (system row.grantId).ReachesBy (fun _ ev => ev.Faultless) d₀ s →
      s.sessions = [] → RevokedOnce d₀ row s.db s.log := by
  intro h
  have hends : ((system ⟨5⟩).runBy (fun _ ev => ev.Faultless) { db := oneGrant } exampleRace).map
      (fun s => (s.sessions.length, s.log.any fun e => decide (e.result =
        .error (.raised "authority grants are append-only")))) = some (0, true) := by
    decide +kernel
  obtain ⟨s, hrun, hs⟩ := Option.map_eq_some_iff.mp hends
  obtain ⟨hsessions, hlog⟩ := Prod.mk.inj hs
  obtain ⟨e, he, hfailed⟩ := List.any_eq_true.mp hlog
  rw [decide_eq_true_eq] at hfailed
  have hreach : (system exampleGrant.grantId).ReachesBy (fun _ ev => ev.Faultless) oneGrant s :=
    Postgres.System.ReachesBy.runBy .init hrun
  obtain ⟨honce, -⟩ := h oneGrant exampleGrant (by decide) List.mem_cons_self s hreach
    (List.length_eq_zero_iff.mp hsessions)
  rcases honce rfl with ⟨hnil, -⟩ | ⟨winner, losers, hlog, hwins, hlosers, -⟩
  · rw [hnil] at he
    exact absurd he List.not_mem_nil
  · rw [hlog] at he
    rcases List.mem_cons.mp he with rfl | he
    · rw [hwins] at hfailed
      cases hfailed
    · rw [hlosers e he] at hfailed
      cases hfailed

end RevocationContention

end InfernalLaw
