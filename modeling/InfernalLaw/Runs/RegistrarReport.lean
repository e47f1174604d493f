import InfernalLaw.Runs.RegistrarRepeats
import Mathlib.Data.Char
import Mathlib.Data.List.Lex
import Mathlib.Data.List.Pairwise

/-!
# What the registrar reports

`reconcile` answers with a list of texts for each display name. The list of a service says what the
pass has changed of its record, but services that share a display name share an entry, and the last
one's list replaces the others. So the report is complete if and only if what is due for a service
is also due for the last one that has its display name.
-/

namespace InfernalLaw

/-- A change of the record of a service from `c` to `c'`, by the text under which a report names
it. -/
inductive ServiceRecord.Change (c c' : ServiceRecord) : Str → Prop
  | identity (h : c'.identity ≠ c.identity) : Change c c' "identity".toList
  | binding {row : EnrollmentBindingRow} (hrow : c'.binding = some row) (h : c.binding ≠ some row) :
    Change c c' ("binding -> ".toList ++ row.serviceAccountUid)
  | admission (h : c'.enabled ≠ c.enabled) : Change c c' (AdmissionOutcome.changedTo c'.enabled)
  | grant {row : GrantRow} (hrow : row ∈ c'.grants) (h : row ∉ c.grants) :
    Change c c' (GrantSpec.applied ⟨row.action, row.scope⟩)

/-- A record that stays as it is has no change. -/
theorem ServiceRecord.not_change_self (c : ServiceRecord) (text : Str) : ¬ c.Change c text := by
  intro h
  cases h with
  | identity h => exact h rfl
  | binding hrow h => exact h hrow
  | admission h => exact h rfl
  | grant hrow h => exact h hrow

/-- A pass changes of a record what was due. -/
theorem Registrar.Reconciles.change_iff {r : Registrar} {s : ServiceSpec} {id : ActorId}
    {c c' : ServiceRecord} (h : r.Reconciles s id c c')
    (hbinding : s.workloadNamespace = none ∨ s.serviceAccount = none → c'.binding = c.binding)
    (text : Str) : c.Change c' text ↔ r.Due s id c text := by
  obtain ⟨row, hrow, -, hidentity⟩ := h.identity
  obtain ⟨arow, harow, henabled, -⟩ := h.admission
  have henabled' : c'.enabled = s.communicationEnabled := by
    rw [ServiceRecord.enabled, harow]
    exact henabled
  obtain ⟨new, hnew, hsound, hcomplete⟩ := h.grants
  constructor
  · -- What has changed was due.
    intro hchange
    cases hchange with
    | identity hdiffers => exact .identity hrow fun hsame => hdiffers (hidentity.trans hsame.symm)
    | @binding brow hbrow hdiffers =>
      rcases h.binding with hnone | ⟨listed, hlisted, hfound, -⟩
      · rw [hbinding hnone] at hbrow
        exact absurd hbrow hdiffers
      · obtain rfl := Option.some.inj (hbrow.symm.trans hfound)
        exact .binding hlisted hdiffers
    | admission hdiffers =>
      rw [henabled'] at hdiffers ⊢
      exact .admission hdiffers.symm
    | @grant grow hgrow hold =>
      rw [hnew] at hgrow
      obtain ⟨g, hg, hcreated, hdead⟩ := hsound grow ((List.mem_append.mp hgrow).resolve_left hold)
      rw [hcreated.action, hcreated.scope]
      exact .grant hg hdead
  · -- What was due has changed, since the pass has established all that the manifest lists.
    intro hdue
    cases hdue with
    | identity hrow' hdiffers =>
      obtain rfl := Except.ok.inj (hrow.symm.trans hrow')
      exact .identity fun hsame => hdiffers (hsame.symm.trans hidentity)
    | binding hlisted hdiffers =>
      obtain ⟨listed, hlisted', hfound, -⟩ := h.binding.resolve_left hlisted.not_unlisted
      obtain rfl := hlisted.unique hlisted'
      exact .binding hfound hdiffers
    | admission hdiffers =>
      rw [← henabled'] at hdiffers ⊢
      exact .admission hdiffers.symm
    | @grant g hg hdead =>
      obtain ⟨grow, hgrow, hcreated⟩ := hcomplete g hg hdead
      have hchange : c.Change c' (GrantSpec.applied ⟨grow.action, grow.scope⟩) :=
        .grant (hnew ▸ List.mem_append_right _ hgrow) fun hold => hdead grow hold hcreated.live
      rw [hcreated.action, hcreated.scope] at hchange
      exact hchange

/-! ## Reports -/

namespace ServiceChanges

/-- The names stand in order, each once. -/
def Sorted (changes : ServiceChanges) : Prop := changes.Pairwise fun e e' => e.1 < e'.1

/-- A text is reported under a name. -/
def Reports (changes : ServiceChanges) (name text : Str) : Prop :=
  ∃ applied, (name, applied) ∈ changes ∧ text ∈ applied

variable {changes : ServiceChanges} {name text : Str} {applied : List Str}

/-- An insertion keeps the order. -/
theorem Sorted.insert (h : changes.Sorted) : (changes.insert name applied).Sorted := by
  induction changes with
  | nil => exact List.pairwise_singleton _ _
  | cons e changes ih =>
    obtain ⟨hfirst, htail⟩ := List.pairwise_cons.mp h
    unfold ServiceChanges.insert
    split
    · rename_i heq
      exact List.pairwise_cons.mpr ⟨fun e' he' => heq ▸ hfirst e' he', htail⟩
    · rename_i hne
      split
      · rename_i hlt
        refine List.pairwise_cons.mpr ⟨fun e' he' => ?_, h⟩
        rcases List.mem_cons.mp he' with rfl | he'
        · exact hlt
        · exact lt_trans hlt (hfirst e' he')
      · rename_i hnlt
        refine List.pairwise_cons.mpr ⟨fun e' he' => ?_, ih htail⟩
        rcases mem_insert he' with rfl | he'
        · exact lt_of_le_of_ne (not_lt.mp hnlt) (Ne.symm hne)
        · exact hfirst e' he'

/-- A name has one list. -/
theorem Sorted.unique {applied' : List Str} (h : changes.Sorted) (hmem : (name, applied) ∈ changes)
    (hmem' : (name, applied') ∈ changes) : applied = applied' := by
  by_contra hne
  have hdistinct : changes.Pairwise fun e e' => e.1 ≠ e'.1 := List.Pairwise.imp ne_of_lt h
  have : Std.Symm fun e e' : Str × List Str => e.1 ≠ e'.1 := ⟨fun _ _ => Ne.symm⟩
  exact hdistinct.forall hmem hmem' (fun heq => hne (Prod.ext_iff.mp heq).2) rfl

/-- The list that is inserted is the one under its name. -/
theorem reports_insert_self (h : changes.Sorted) :
    (changes.insert name applied).Reports name text ↔ text ∈ applied := by
  refine ⟨fun ⟨applied', hmem, htext⟩ => ?_, fun htext => ⟨applied, self_mem_insert changes, htext⟩⟩
  exact h.insert.unique hmem (self_mem_insert changes) ▸ htext

/-- Under the other names nothing changes. -/
theorem reports_insert_of_ne {name' : Str} (hne : name ≠ name') :
    (changes.insert name applied).Reports name' text ↔ changes.Reports name' text := by
  refine exists_congr fun applied' => and_congr_left fun _ => ⟨fun hmem => ?_, fun hmem => ?_⟩
  · exact (mem_insert hmem).resolve_left fun heq => hne (Prod.ext_iff.mp heq).1.symm
  · exact mem_insert_of_ne hne.symm hmem

end ServiceChanges

/-- The last of the services that have a display name. -/
def lastNamed (services : List ServiceSpec) (name : Str) : Option ServiceSpec :=
  services.reverse.find? fun s => s.displayName = name

/-- It is the last one of the others, if there is one. -/
theorem lastNamed_cons (s : ServiceSpec) (services : List ServiceSpec) (name : Str) :
    lastNamed (s :: services) name =
      (lastNamed services name).or (if s.displayName = name then some s else none) := by
  rw [lastNamed, List.reverse_cons, List.find?_append, List.find?_singleton, lastNamed]
  by_cases h : s.displayName = name <;> simp [h]

/-- The name of a listed service has a last one. -/
theorem exists_lastNamed {s : ServiceSpec} {services : List ServiceSpec} (hs : s ∈ services) :
    ∃ s', lastNamed services s.displayName = some s' := by
  rw [← Option.isSome_iff_exists, lastNamed, List.find?_isSome]
  exact ⟨s, List.mem_reverse.mpr hs, decide_eq_true rfl⟩

/-- Services with distinct identifiers are told apart by them. -/
theorem eq_of_nodup_id {services : List ServiceSpec} {s s' : ServiceSpec} {id : ActorId}
    (hids : (services.filterMap ServiceSpec.id?).Nodup) (hs : s ∈ services) (hs' : s' ∈ services)
    (hid : s.id? = some id) (hid' : s'.id? = some id) : s = s' := by
  induction services with
  | nil => cases hs
  | cons first services ih =>
    rcases List.mem_cons.mp hs with rfl | hmem
    · rcases List.mem_cons.mp hs' with rfl | hmem'
      · rfl
      · rw [List.filterMap_cons_some hid, List.nodup_cons] at hids
        exact absurd (List.mem_filterMap.mpr ⟨s', hmem', hid'⟩) hids.1
    · rcases List.mem_cons.mp hs' with rfl | hmem'
      · rw [List.filterMap_cons_some hid', List.nodup_cons] at hids
        exact absurd (List.mem_filterMap.mpr ⟨s, hmem, hid⟩) hids.1
      · exact ih (hids.sublist ((List.sublist_cons_self first services).filterMap _)) hmem hmem'

namespace Registrar

/-- What the loop over the services reports. -/
theorem exec_reconcileServices_reports {r : Registrar} (honce : ∀ i, r.admissionRepeats i = [])
    (services : List ServiceSpec) :
    ∀ {i : ℕ} {changes : ServiceChanges} {d d' : Db} {ws : List Write} {answer : ServiceChanges},
      changes.Sorted → (services.filterMap ServiceSpec.id?).Nodup →
      (∀ s ∈ services, ∀ id, s.id? = some id → ∀ i, r.Fresh i (d.record id)) →
      (r.reconcileServices i services changes).run.exec store d [] = ⟨d', ws, .ok answer⟩ →
      answer.Sorted ∧ ∀ name text,
        (∀ s ∈ lastNamed services name, ∀ id, s.id? = some id →
          (answer.Reports name text ↔ r.Due s id (d.record id) text)) ∧
        (lastNamed services name = none →
          (answer.Reports name text ↔ changes.Reports name text)) := by
  induction services with
  | nil =>
    intro i changes d d' ws answer hsorted _ _ h
    obtain ⟨-, -, hanswer⟩ := Postgres.Outcome.mk.inj h
    obtain rfl := Except.ok.inj hanswer
    exact ⟨hsorted, fun _ _ => ⟨fun _ hs => absurd hs (Option.not_mem_none _), fun _ => Iff.rfl⟩⟩
  | cons s services ih =>
    intro i changes d d' ws answer hsorted hnodup hfresh h
    obtain ⟨d₁, ws₁, applied, hservice, hrest⟩ := Postgres.Proc.exec_run_bind_eq_ok.mp h
    obtain ⟨rfl, id, hserves⟩ := exec_reconcileService
      (fun id hid => hfresh s List.mem_cons_self id hid i) hservice
    obtain ⟨us, rfl, habout⟩ := hserves.writes
    have hreconciles := hserves.reconciles
    rw [List.filterMap_cons_some hreconciles.listed, List.nodup_cons] at hnodup
    obtain ⟨hnew, hnodup⟩ := hnodup
    -- The first service's part of the pass leaves the records of the others as they are.
    have hother : ∀ s' ∈ services, ∀ id', s'.id? = some id' →
        (store.view d us).record id' = d.record id' := by
      intro s' hs' id' hid'
      have hne : id ≠ id' := fun heq => hnew (List.mem_filterMap.mpr ⟨s', hs', heq ▸ hid'⟩)
      exact Db.record_view_of_ne hne us d habout
    have hinserted : (changes.insert s.displayName applied).Sorted := hsorted.insert
    obtain ⟨hanswer, hreports⟩ := ih hinserted hnodup
      (fun s' hs' id' hid' => by
        rw [hother s' hs' id' hid']
        exact hfresh s' (List.mem_cons_of_mem _ hs') id' hid') hrest
    refine ⟨hanswer, fun name text => ?_⟩
    obtain ⟨hlast, hnone⟩ := hreports name text
    rw [lastNamed_cons]
    -- A later service of this name has the last word; else it is this one, if the name is its own.
    cases hcase : lastNamed services name with
    | some s' =>
      have hs' : s' ∈ services := List.mem_reverse.mp (List.mem_of_find?_eq_some hcase)
      refine ⟨fun s'' hs'' id' hid' => ?_, fun h => by cases h⟩
      obtain rfl := Option.some.inj hs''
      rw [hlast s' hcase id' hid', hother s' hs' id' hid']
    | none =>
      rw [Option.none_or]
      by_cases hname : s.displayName = name
      · rw [if_pos hname]
        refine ⟨fun s'' hs'' id' hid' => ?_, fun h => by cases h⟩
        obtain rfl := Option.some.inj hs''
        obtain rfl := Option.some.inj (hreconciles.listed.symm.trans hid')
        rw [hnone hcase, ← hname, ServiceChanges.reports_insert_self hsorted, hserves.due (honce i)]
      · rw [if_neg hname]
        refine ⟨fun _ hs'' => absurd hs'' (Option.not_mem_none _), fun _ => ?_⟩
        rw [hnone hcase, ServiceChanges.reports_insert_of_ne hname]

/-- The report names each change of the pass under the display name of its service, and all of its
lists are empty if and only if there is none. A display name is all that the report has of a
service: where two services share one, a text under it is not tied to either of them. -/
structure Faithful (services : List ServiceSpec) (d d' : Db) (changes : ServiceChanges) : Prop where
  names : ∀ id text, (d.record id).Change (d'.record id) text →
    ∃ s ∈ services, s.id? = some id ∧ changes.Reports s.displayName text
  empty : (∀ entry ∈ changes, entry.2 = []) ↔ ∀ id text, ¬ (d.record id).Change (d'.record id) text

/-- The report of a pass that succeeds is faithful if and only if everything that is due for a
service is also due for the last one that has its display name. -/
theorem reconcile_faithful_iff {r : Registrar} {manifest : Manifest} {d d' : Db} {ws : List Write}
    {changes : ServiceChanges} (hids : (manifest.services.filterMap ServiceSpec.id?).Nodup)
    (hdraws : r.Draws d) (honce : ∀ i, r.admissionRepeats i = [])
    (hok : (r.reconcile manifest).run.exec store d [] = ⟨d', ws, .ok changes⟩) :
    Faithful manifest.services d d' changes ↔
      ∀ s ∈ manifest.services, ∀ id, s.id? = some id → ∀ text, r.Due s id (d.record id) text →
        ∀ s' ∈ lastNamed manifest.services s.displayName, ∀ id', s'.id? = some id' →
          r.Due s' id' (d.record id') text := by
  have hfresh : ∀ s ∈ manifest.services, ∀ id, s.id? = some id → ∀ i, r.Fresh i (d.record id) :=
    fun _ _ id _ i => hdraws.fresh i id
  obtain ⟨hall, hframe⟩ := exec_reconcileServices manifest.services hids hfresh hok
  obtain ⟨hsorted, hreports⟩ :=
    exec_reconcileServices_reports honce manifest.services List.Pairwise.nil hids hfresh hok
  have hchange : ∀ s ∈ manifest.services, ∀ id, s.id? = some id → ∀ text,
      (d.record id).Change (d'.record id) text ↔ r.Due s id (d.record id) text := by
    intro s hs id hid text
    obtain ⟨id', hreconciles, hbinding⟩ := hall s hs
    obtain rfl := Option.some.inj (hreconciles.listed.symm.trans hid)
    exact hreconciles.change_iff hbinding text
  -- The last service of a name is listed too, and under that name the report has what is due for
  -- it.
  have hlast : ∀ name, ∀ s' ∈ lastNamed manifest.services name, ∃ id', s'.id? = some id' ∧
      s' ∈ manifest.services ∧
      ∀ text, changes.Reports name text ↔ r.Due s' id' (d.record id') text := by
    intro name s' hs'
    have hmem : s' ∈ manifest.services := List.mem_reverse.mp (List.mem_of_find?_eq_some hs')
    obtain ⟨id', hreconciles, -⟩ := hall s' hmem
    exact ⟨id', hreconciles.listed, hmem, fun text =>
      (hreports name text).1 s' hs' id' hreconciles.listed⟩
  constructor
  · intro hfaithful s hs id hid text hdue s' hs' id' hid'
    obtain ⟨s'', hs'', hid'', hreported⟩ :=
      hfaithful.names id text ((hchange s hs id hid text).mpr hdue)
    obtain rfl := eq_of_nodup_id hids hs hs'' hid hid''
    exact ((hreports s.displayName text).1 s' hs' id' hid').mp hreported
  · intro hcovered
    have hnames : ∀ id text, (d.record id).Change (d'.record id) text →
        ∃ s ∈ manifest.services, s.id? = some id ∧ changes.Reports s.displayName text := by
      intro id text h
      by_cases hid : id ∈ manifest.services.filterMap ServiceSpec.id?
      · obtain ⟨s, hs, hid⟩ := List.mem_filterMap.mp hid
        obtain ⟨s', hs'⟩ := exists_lastNamed hs
        obtain ⟨id', hid', -, hreported⟩ := hlast s.displayName s' hs'
        have hdue := (hchange s hs id hid text).mp h
        exact ⟨s, hs, hid, (hreported text).mpr (hcovered s hs id hid text hdue s' hs' id' hid')⟩
      · rw [hframe id hid] at h
        exact absurd h (ServiceRecord.not_change_self _ text)
    refine ⟨hnames, fun hempty id text h => ?_, fun hnone entry hentry => ?_⟩
    · obtain ⟨s, -, -, applied, hmem, htext⟩ := hnames id text h
      have hnil : applied = [] := hempty _ hmem
      rw [hnil] at htext
      exact List.not_mem_nil htext
    · refine List.eq_nil_iff_forall_not_mem.mpr fun text htext => ?_
      have hreported : changes.Reports entry.1 text := ⟨entry.2, hentry, htext⟩
      cases hcase : lastNamed manifest.services entry.1 with
      | none =>
        obtain ⟨_, hmem, -⟩ := ((hreports entry.1 text).2 hcase).mp hreported
        exact List.not_mem_nil hmem
      | some s' =>
        obtain ⟨id', hid', hmem, hreports'⟩ := hlast entry.1 s' hcase
        exact hnone id' text ((hchange s' hmem id' hid' text).mpr ((hreports' text).mp hreported))

/-- A pass that calls the administrative function once for each service. -/
def passOnce : Registrar := { passAtTen with admissionRepeats := fun _ => [] }

/-- On a database with one service the report is faithful. -/
theorem reconcile_faithful_seeded : ∃ (d' : Db) (ws : List Write) (changes : ServiceChanges),
    (passOnce.reconcile oneService).run.exec store seeded [] = ⟨d', ws, .ok changes⟩ ∧
      Faithful oneService.services seeded d' changes := by
  have hok : ((passOnce.reconcile oneService).run.exec store seeded []).result.isOk = true := by
    decide +kernel
  rcases hexec : (passOnce.reconcile oneService).run.exec store seeded [] with
    ⟨d', ws, er | changes⟩
  · rw [hexec] at hok
    cases hok
  have hdraws : passOnce.Draws seeded :=
    ⟨fun h hh => absurd hh List.not_mem_nil, fun e he => absurd he List.not_mem_nil⟩
  have hids : (oneService.services.filterMap ServiceSpec.id?).Nodup := by decide +kernel
  refine ⟨d', ws, changes, rfl, (reconcile_faithful_iff hids hdraws (fun _ => rfl) hexec).mpr ?_⟩
  intro s hs id hid text hdue s' hs' id' hid'
  obtain rfl := List.mem_singleton.mp hs
  obtain rfl := List.mem_singleton.mp (List.mem_reverse.mp (List.mem_of_find?_eq_some hs'))
  obtain rfl := Option.some.inj (hid.symm.trans hid')
  exact hdue

/-- A service that is listed with the identifier, without binding and without grants. -/
def bareService (serviceId : Str) : ServiceSpec where
  serviceId := serviceId
  kind := "service".toList
  displayName := ['a']
  workloadNamespace := none
  serviceAccount := none
  communicationEnabled := false
  grants := []

/-- A new service, and one that is as listed, with the same display name. -/
def twoOfOneName : Manifest where
  services := [bareService "00000000-0000-0000-0000-000000000002".toList,
    bareService "00000000-0000-0000-0000-000000000001".toList]

/-- The database that has the second one. -/
def settledService : Db :=
  { identityRows := [⟨⟨1⟩, .service, ['a'], .active⟩], admissions := [⟨⟨1⟩, false, 0, 0⟩] }

/-- The new identity is not reported: the empty list of the second service takes the place of the
first one's. -/
theorem reconcile_overwrites :
    ¬ ∀ (r : Registrar) (manifest : Manifest) (d d' : Db) (ws : List Write)
    (changes : ServiceChanges), (manifest.services.filterMap ServiceSpec.id?).Nodup → r.Draws d →
    (∀ i, r.admissionRepeats i = []) →
    (r.reconcile manifest).run.exec store d [] = ⟨d', ws, .ok changes⟩ →
    Faithful manifest.services d d' changes := by
  intro h
  have hresult : ((passOnce.reconcile twoOfOneName).run.exec store settledService []).result =
      .ok [(['a'], [])] := by decide +kernel
  have hinserted : (((passOnce.reconcile twoOfOneName).run.exec store settledService []).db.record
      ⟨2⟩).identity = some ⟨⟨2⟩, .service, ['a'], .active⟩ := by decide +kernel
  rcases hexec : (passOnce.reconcile twoOfOneName).run.exec store settledService [] with
    ⟨d', ws, result⟩
  rw [hexec] at hresult hinserted
  subst hresult
  have hdraws : passOnce.Draws settledService :=
    ⟨fun h hh => absurd hh List.not_mem_nil, fun e he => absurd he List.not_mem_nil⟩
  have hids : (twoOfOneName.services.filterMap ServiceSpec.id?).Nodup := by decide +kernel
  have hfaithful := h passOnce twoOfOneName settledService d' ws _ hids hdraws (fun _ => rfl) hexec
  have hchange : (settledService.record ⟨2⟩).Change (d'.record ⟨2⟩) "identity".toList := by
    refine .identity ?_
    rw [hinserted]
    decide
  obtain ⟨s, -, -, applied, hmem, htext⟩ := hfaithful.names ⟨2⟩ _ hchange
  rw [List.mem_singleton, Prod.mk.injEq] at hmem
  rw [hmem.2] at htext
  exact List.not_mem_nil htext

end Registrar

end InfernalLaw
