import InfernalLaw.Runs.Integrity
import InfernalLaw.Runs.Mediation

/-!
# Rights that are withdrawn

A connection reads what it is decided by after it has begun. So when an instance is revoked, no
connection that begins from then on does anything in its name, and while the communication of a
service is not enabled, no such connection does more for it than reserve its request.
-/

namespace InfernalLaw

open Postgres (State)

/-- No two instances have the same identifier. -/
theorem instance_unique {d : Db} (hd : schema.Legal d.rows) {row row' : ServiceInstanceRow}
    (hrow : row ∈ d.serviceInstances) (hrow' : row' ∈ d.serviceInstances)
    (h : row'.instanceId = row.instanceId) : row' = row := by
  have hentry : ∀ {r : ServiceInstanceRow}, Key.serviceInstance r.instanceId ∈
      schema.entries (.serviceInstances r) := fun {r} =>
    schema.pk_mem (.serviceInstances r) (.serviceInstance r.instanceId) rfl
  refine Row.serviceInstances.inj
    (hd.eq_of_entry (Db.mem_rows.mpr hrow') (Db.mem_rows.mpr hrow) hentry ?_)
  exact h ▸ hentry

/-- No service has two admissions. -/
theorem admission_unique {d : Db} (hd : schema.Legal d.rows) {row row' : AdmissionRow}
    (hrow : row ∈ d.admissions) (hrow' : row' ∈ d.admissions) (h : row'.serviceId = row.serviceId) :
    row' = row := by
  have hentry : ∀ {r : AdmissionRow}, Key.admission r.serviceId ∈ schema.entries (.admissions r) :=
    fun {r} => schema.pk_mem (.admissions r) _ rfl
  refine Row.admissions.inj
    (hd.eq_of_entry (Db.mem_rows.mpr hrow') (Db.mem_rows.mpr hrow) hentry ?_)
  exact h ▸ hentry

/-- No two claims have the same identifier. -/
theorem claims_nodup {d : Db} (hd : schema.Legal d.rows) :
    (d.workClaims.map WorkClaimRow.claimId).Nodup := by
  have hle : ((d.workClaims.map Row.workClaims : List Row) : Multiset Row) ≤ d.rows := by
    have hmem : d.table .workClaims ≤ d.rows :=
      Finset.single_le_sum (f := d.table) (fun _ _ => Multiset.zero_le _) (Finset.mem_univ _)
    simpa [Db.table] using hmem
  have hentry : ∀ {r : WorkClaimRow}, Key.claim r.claimId ∈ schema.entries (.workClaims r) :=
    fun {r} => schema.pk_mem (.workClaims r) _ rfl
  refine List.pairwise_map.mpr ((List.pairwise_map.mp (hd.pairwise _ hle)).imp fun h heq => ?_)
  exact h _ hentry (heq ▸ hentry)

/-- The later versions of an admission have later revisions. -/
theorem admission_revision {row : AdmissionRow} {r : Row}
    (h : Relation.ReflTransGen schema.moves (.admissions row) r) :
    ∃ row', r = .admissions row' ∧ (row' = row ∨ row.revision < row'.revision) := by
  induction h with
  | refl => exact ⟨row, rfl, .inl rfl⟩
  | @tail r r' _ hmoves ih =>
    obtain ⟨row', rfl, hrow'⟩ := ih
    cases r' with
    | admissions row'' =>
      have hrevision : row''.revision = row'.revision + 1 := hmoves.2.1
      refine ⟨row'', rfl, .inr ?_⟩
      rcases hrow' with rfl | hlt <;> omega
    | _ => exact hmoves.elim

namespace Kernel

variable {crates : ServerCrates} {app : Application}

section

variable {P : SignedServiceRequest → Prop} {d₀ : Db}
  {s₀ s s' : State Db Write Key Op (Option Response)} {ev : Postgres.Event Op} {id : ℕ} {op : Op}

/-- A reservation writes to its own tables only. -/
theorem tables_of_commits {r : ReplayReservation} {d : Db}
    {answer : Except ReplayProtectionError ReplayDisposition} {ws : List Write}
    (h : Commits r d answer ws) : ∀ w ∈ ws, w.table ∈ reservationTables := by
  cases h <;> simp [reservationTables, Write.table]

/-- An event of a connection that sends a request commits nothing, or it has read after its
beginning that the request is authentic. To change more than the reservations it has also read that
the communication of the sender is enabled. -/
theorem effects_of_sends (h₀ : schema.Legal d₀.rows) (hs : (system crates app).Reaches d₀ s₀)
    (hl : (system crates app).Later s₀ s) (hstep : (system crates app).step s ev = some s')
    (hrun : s.Runs ev id op) (hid : s₀.fresh ≤ id) (hsends : Sends crates P op) :
    s'.db = s.db ∨ ∃ d signed row v now, (system crates app).ReadsSince s₀ s' id d ∧ P signed ∧
      Authentic crates.toMutationCrates.toKeyCrates d signed now row v ∧
      ((∀ t ∉ reservationTables, s'.db.table t = s.db.table t) ∨
        ∃ d', (system crates app).ReadsSince s₀ s' id d' ∧ d'.Enabled v.serviceId) := by
  cases op with
  | connection draws stream =>
    obtain ⟨ws, hdb, hmediated⟩ := mediated_since (claims_nodup h₀) hs hl hstep hrun hid
    cases hmediated with
    | nothing => exact .inl hdb
    | enrolls hread hpath =>
      obtain ⟨request, -, -, hread', hgoverned, -⟩ := hsends
      obtain rfl := Except.ok.inj (hread.symm.trans hread')
      simp only [enrollmentPaths, List.mem_cons, List.not_mem_nil, or_false] at hpath
      rcases hpath with hpath | hpath
      · rw [hpath] at hgoverned
        exact absurd hgoverned (by decide)
      · rw [hpath] at hgoverned
        exact absurd hgoverned (by decide)
    | reserves h hcommits =>
      obtain ⟨d, signed, row, hd, hP, hauthentic⟩ := h.authentic hsends
      refine .inr ⟨d, signed, row, _, _, hd, hP, hauthentic, .inl fun t ht => ?_⟩
      rw [hdb]
      exact Db.table_view_of_not_mem fun w hw heq => ht (heq ▸ tables_of_commits hcommits w hw)
    | acts h _ henabled =>
      obtain ⟨d, signed, row, hd, hP, hauthentic⟩ := h.authentic hsends
      obtain ⟨d', hd', -, henabled⟩ := henabled
      exact .inr ⟨d, signed, row, _, _, hd, hP, hauthentic, .inr ⟨d', hd', henabled⟩⟩
  | _ => exact hsends.elim

/-- What has been written to make the sender from what the migrations leave. -/
def exampleSenderWrites : List Write :=
  [.identities (.insert ⟨⟨1⟩, .service, ['a'], .active⟩), .admissions (.insert ⟨⟨1⟩, false, 0, 5⟩),
    .admissions (.update ⟨⟨1⟩, true, 1, 6⟩),
    .serviceInstances (.insert ⟨⟨2⟩, ⟨1⟩, "https://caller".toList, 0, 1000, 1, none⟩),
    .serviceInstanceKeys (.insert ⟨⟨3⟩, ⟨2⟩, exampleSenderKey, .fill 1, 0, none⟩)]

/-- The database with the sender is legal. -/
theorem legal_exampleSender : integrity.Keeps exampleSender := by
  have hchain : store.Chain Db.Lets (migrated (.fill 0) (.fill 0) 5) exampleSenderWrites := by
    refine ⟨⟨?_, rfl⟩, ⟨?_, rfl, rfl⟩,
      .update (.admissions ⟨⟨1⟩, false, 0, 5⟩) rfl ?_ ?_ rfl rfl ?_,
      ⟨?_, rfl, rfl⟩, ⟨?_, rfl⟩, trivial⟩
    · show Db.checkIdentity _ _ = _
      decide
    · show Db.checkAdmission _ _ = _
      decide
    · show AdmissionRow.check _ = _
      decide
    · show _ ∈ Db.admissions _
      decide
    · exact ⟨rfl, rfl, by decide, by decide⟩
    · show Db.checkServiceInstance _ _ = _
      decide
    · show Db.checkServiceInstanceKey _ _ = _
      decide
  exact hchain.view (I := integrity.Keeps) (fun d w hd hw =>
    Postgres.Discipline.Keeps.apply hd (integrity_permits hd hw)) (legal_migrated (by decide))

/-- Once an instance is revoked, a connection that begins afterwards and sends a request in its name
changes nothing, whatever overlaps. -/
theorem revoked_instances_change_nothing (h₀ : schema.Legal d₀.rows)
    (hs : (system crates app).Reaches d₀ s₀) {row : ServiceInstanceRow}
    (hrow : row ∈ s₀.db.serviceInstances) (hrevoked : row.revokedAt ≠ none)
    (hl : (system crates app).Later s₀ s) (hstep : (system crates app).step s ev = some s')
    (hrun : s.Runs ev id op) (hid : s₀.fresh ≤ id)
    (hsends : Sends crates (fun signed => signed.instanceId = row.instanceId) op) :
    s'.db = s.db := by
  refine (effects_of_sends h₀ hs hl hstep hrun hid hsends).resolve_right ?_
  rintro ⟨d, signed, row', v, now, ⟨t, t', ht, -, -, rfl⟩, hsigned, hauthentic, -⟩
  -- The instance is still revoked where the connection has read it.
  have hstays : row ∈ t.db.serviceInstances :=
    hasRow_of_later h₀ hs ht (r := .serviceInstances row) hrevoked hrow
  have hlegal : schema.Legal t.db.rows :=
    Postgres.Discipline.keeps_of_reaches permits_program h₀ (hs.later ht)
  have hsame : row'.1.instanceId = row.instanceId :=
    hauthentic.sender.2.1.symm.trans (hauthentic.named.2.trans hsigned)
  rw [← instance_unique hlegal hstays hauthentic.instance_mem hsame] at hrevoked
  exact hrevoked hauthentic.unrevoked

/-- The instance of the sender is revoked before its publication arrives, which is answered and has
no effect. -/
theorem revoked_instances_change_nothing_publication :
    ∃ (s₀ s s' : State Db Write Key Op (Option Response)) (ev : Postgres.Event Op) (id : ℕ),
      (system exampleServerCrates exampleApplication).Reaches exampleSender s₀ ∧
      s₀.db.serviceInstances = [⟨⟨2⟩, ⟨1⟩, "https://caller".toList, 0, 1000, 1, some 60⟩] ∧
      (system exampleServerCrates exampleApplication).Later s₀ s ∧
      (system exampleServerCrates exampleApplication).step s ev = some s' ∧
      s.Runs ev id (.connection (examplePublicationDraws 9) examplePublicationStream) ∧
      s'.log.length ≠ s.log.length ∧ s'.db = s.db := by
  obtain ⟨s₀, hs, hidle, hdb, -⟩ := Postgres.System.exec_reaches
    (.init : (system exampleServerCrates exampleApplication).Reaches exampleSender
      { db := exampleSender }) rfl (.revokeInstance ⟨2⟩ 60)
  have hrows : s₀.db.serviceInstances =
      [⟨⟨2⟩, ⟨1⟩, "https://caller".toList, 0, 1000, 1, some 60⟩] := by
    rw [hdb]
    decide
  obtain ⟨s, ev, s', -, hl, hstep, hrun, hne, -⟩ := Postgres.System.exec_event
    (system exampleServerCrates exampleApplication) hidle
    (.connection (examplePublicationDraws 9) examplePublicationStream) (f := fun s => s.log.length)
    (fun s' _ hlog => by omega)
  refine ⟨s₀, s, s', ev, _, hs, hrows, hl, hstep, hrun, hne, revoked_instances_change_nothing
    legal_exampleSender hs (hrows ▸ List.mem_singleton_self _) (by decide) hl hstep hrun le_rfl ?_⟩
  exact (sends_examplePublication 9).mono fun _ h => h.1.2

/-- A version of an admission that is there at two times has been there in between. -/
theorem admission_between (h₀ : schema.Legal d₀.rows) (hs : (system crates app).Reaches d₀ s₀)
    (hl : (system crates app).Later s₀ s) (hl' : (system crates app).Later s s')
    {row : AdmissionRow} (hrow : row ∈ s₀.db.admissions) (hrow' : row ∈ s'.db.admissions) :
    row ∈ s.db.admissions := by
  obtain ⟨r₁, hr₁, hpk₁, hmoves₁⟩ := evolves_of_later h₀ hs hl (.admissions row)
    (Db.mem_rows.mpr hrow)
  obtain ⟨row₁, rfl, hrow₁⟩ := admission_revision hmoves₁
  obtain ⟨r₂, hr₂, hpk₂, hmoves₂⟩ := evolves_of_later h₀ (hs.later hl) hl' _ hr₁
  obtain ⟨row₂, rfl, hrow₂⟩ := admission_revision hmoves₂
  have hlegal : schema.Legal s'.db.rows :=
    Postgres.Discipline.keeps_of_reaches permits_program h₀ ((hs.later hl).later hl')
  have hservice : row₂.serviceId = row.serviceId :=
    Key.admission.inj (Option.some.inj (hpk₂.trans hpk₁))
  obtain rfl : row₂ = row := admission_unique hlegal hrow' (Db.mem_rows.mp hr₂) hservice
  -- The revisions have come back to what they were.
  have hsame : row₁ = row₂ := by
    rcases hrow₁ with h | hlt
    · exact h
    · rcases hrow₂ with h | hlt'
      · exact h.symm
      · omega
  exact hsame ▸ Db.mem_rows.mp hr₁

/-- As long as the communication of a service is not enabled, a connection that begins in that time
and sends a request in its name changes nothing but the reservations, whatever overlaps. -/
theorem barred_services_only_reserve (h₀ : schema.Legal d₀.rows)
    (hs : (system crates app).Reaches d₀ s₀) {row : AdmissionRow} (hrow : row ∈ s₀.db.admissions)
    (hbarred : row.communicationEnabled = false) (hrow' : row ∈ s'.db.admissions)
    (hl : (system crates app).Later s₀ s) (hstep : (system crates app).step s ev = some s')
    (hrun : s.Runs ev id op) (hid : s₀.fresh ≤ id)
    (hsends : Sends crates (fun signed => signed.serviceId = row.serviceId) op) :
    ∀ t ∉ reservationTables, s'.db.table t = s.db.table t := by
  rcases effects_of_sends h₀ hs hl hstep hrun hid hsends with
    hdb | ⟨d, signed, _, v, now, -, hsigned, hauthentic, htables | ⟨d', hread, henabled⟩⟩
  · exact fun t _ => congrArg (fun d : Db => d.table t) hdb
  · exact htables
  -- The admission that has been read is the one that is there before and after.
  obtain ⟨t, t', ht, hsnapshot, hl', rfl⟩ := hread
  obtain ⟨row', hmem, hservice, henabled⟩ := henabled
  have hstays : row ∈ t.db.admissions :=
    admission_between h₀ hs ht (.head ⟨_, hsnapshot⟩ hl') hrow hrow'
  have hlegal : schema.Legal t.db.rows :=
    Postgres.Discipline.keeps_of_reaches permits_program h₀ (hs.later ht)
  obtain rfl : row' = row := admission_unique hlegal hstays hmem
    (hservice.trans (hauthentic.named.1.trans hsigned))
  rw [hbarred] at henabled
  cases henabled

end

/-- The communication of the sender is disabled before its publication arrives, which is reserved
and has no other effect. -/
theorem barred_services_only_reserve_publication :
    ∃ (s₀ s s' : State Db Write Key Op (Option Response)) (ev : Postgres.Event Op) (id : ℕ),
      (system exampleServerCrates exampleApplication).Reaches exampleSender s₀ ∧
      (⟨⟨1⟩, false, 2, 70⟩ : AdmissionRow) ∈ s₀.db.admissions ∧
      (system exampleServerCrates exampleApplication).Later s₀ s ∧
      (system exampleServerCrates exampleApplication).step s ev = some s' ∧
      s.Runs ev id (.connection (examplePublicationDraws 9) examplePublicationStream) ∧
      s'.db.serviceRequestNonces.length ≠ s.db.serviceRequestNonces.length ∧
      ∀ t ∉ reservationTables, s'.db.table t = s.db.table t := by
  obtain ⟨s₀, hs, hidle, hdb, -⟩ := Postgres.System.exec_reaches
    (.init : (system exampleServerCrates exampleApplication).Reaches exampleSender
      { db := exampleSender }) rfl (.setAdmission ⟨⟨1⟩, false, ['a'], ['r'], 9, 70⟩)
  have hrow : (⟨⟨1⟩, false, 2, 70⟩ : AdmissionRow) ∈ s₀.db.admissions := by
    rw [hdb]
    decide
  -- What the publication comes to, when it is run alone.
  have heffect :
      (((system exampleServerCrates exampleApplication).program
          (.connection (examplePublicationDraws 9) examplePublicationStream)).exec
        (system exampleServerCrates exampleApplication).toStore s₀.db
          []).db.serviceRequestNonces.length ≠ s₀.db.serviceRequestNonces.length ∧
      (⟨⟨1⟩, false, 2, 70⟩ : AdmissionRow) ∈
          (((system exampleServerCrates exampleApplication).program
          (.connection (examplePublicationDraws 9) examplePublicationStream)).exec
        (system exampleServerCrates exampleApplication).toStore s₀.db []).db.admissions := by
    rw [show (system exampleServerCrates exampleApplication).program _ = _ from
      program_of_read (read_examplePublication _), hdb]
    decide +kernel
  obtain ⟨s, ev, s', s'', hl, hstep, hrun, hne, hl', -, -, hdb'⟩ := Postgres.System.exec_event
    (system exampleServerCrates exampleApplication) hidle
    (.connection (examplePublicationDraws 9) examplePublicationStream)
    (f := fun s => s.db.serviceRequestNonces.length) (fun s' hdb' _ => by
      rw [hdb']
      exact heffect.1)
  have hafter : (⟨⟨1⟩, false, 2, 70⟩ : AdmissionRow) ∈ s''.db.admissions := by
    rw [hdb']
    exact heffect.2
  have hrow' : (⟨⟨1⟩, false, 2, 70⟩ : AdmissionRow) ∈ s'.db.admissions :=
    admission_between legal_exampleSender hs (hl.tail ⟨ev, hstep⟩) hl' hrow hafter
  exact ⟨s₀, s, s', ev, _, hs, hrow, hl, hstep, hrun, hne, barred_services_only_reserve
    legal_exampleSender hs hrow rfl hrow' hl hstep hrun le_rfl
      ((sends_examplePublication 9).mono fun _ h => h.1.1)⟩

end Kernel

end InfernalLaw
