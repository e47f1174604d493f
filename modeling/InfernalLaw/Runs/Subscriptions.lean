import InfernalLaw.Infrastructure.SubscriptionRepository
import InfernalLaw.Postgres.Atomic
import Mathlib.Data.Set.List

/-!
# Subscriptions in every run

Any number of subscriptions are created and disabled, concurrently with each other and with anything
that leaves `subscriptions` and its audit alone. A subscription and its audit are written in one
commit, so in every reachable state the audit of a subscription is what its row says of its history.
-/

namespace InfernalLaw

open Postgres (Atomic Contract Entry Event Proc RowWrite State Store)
open PostgresSubscriptionRepository (Disables)

/-- The row that the audit gets about a subscription. -/
def SubscriptionRow.auditRow (r : SubscriptionRow) (action : SubscriptionAuditAction)
    (recordedAt : ℤ) : SubscriptionAuditRow where
  subscriptionId := r.id
  serviceId := r.serviceId
  eventType := r.eventType
  deliveryMode := r.deliveryMode
  action := action
  recordedAt := recordedAt

/-- The audit of a subscription's history: it was created, and disabled if it has been. -/
def SubscriptionRow.trail (r : SubscriptionRow) : List SubscriptionAuditRow :=
  r.auditRow .created r.createdAt :: (r.disabledAt.map fun t => r.auditRow .disabled t).toList

/-- The audit of one subscription, oldest row first. -/
def Db.auditOf (d : Db) (id : SubscriptionId) : List SubscriptionAuditRow :=
  d.subscriptionAudit.filter fun a => a.subscriptionId = id

namespace Subscriptions

/-! ## The operations -/

/-- The tables of the subscriptions. -/
def tables : List TableName := [.subscriptions, .subscriptionAudit]

/-- What runs. The identifiers that the operations draw are given. -/
inductive Op where
  | create (id : SubscriptionId) (serviceId : ActorId) (eventType : EventType)
      (deliveryMode : DeliveryMode) (now : ℤ)
  | disable (serviceId : ActorId) (subscriptionId : SubscriptionId) (now : ℤ)
  /-- Another component's transaction. -/
  | other (writes : List Write) (h : ∀ w ∈ writes, w.table ∉ tables)

/-- What an operation answers; another component's transaction answers nothing. -/
abbrev Result : Type := Option (Except SubscriptionError Subscription)

/-- What the operations do. -/
def program : Op → Sql Result
  | .create id serviceId eventType deliveryMode now =>
    (SubscriptionService.create id serviceId eventType deliveryMode now).bind fun r =>
      .done (some r)
  | .disable serviceId subscriptionId now =>
    (SubscriptionService.disable serviceId subscriptionId now).bind fun r => .done (some r)
  | .other writes _ => (background writes).bind fun _ => .done none

/-- The sessions of the kernels that share the database. -/
abbrev system : Postgres.System Db Write Key Op Result := kernelSystem program

/-- What an operation that succeeds commits. -/
inductive Commits : Op → Db → Result → List Write → Prop where
  | create {id serviceId eventType deliveryMode now d s}
      (hs : Subscription.create id serviceId eventType deliveryMode now = .ok s)
      (h : Subscribes d s) :
      Commits (.create id serviceId eventType deliveryMode now) d (some (.ok s)) s.createdWrites
  | disable {serviceId subscriptionId now d old s}
      (hold : Disables subscriptionId serviceId now old) (h : Unsubscribes d old now s) :
      Commits (.disable serviceId subscriptionId now) d (some (.ok s)) (s.disabledWrites now)

/-! ## The invariant -/

/-- What holds of the subscriptions and their audit between events. -/
structure Inv (d : Db) : Prop where
  nodup_id : (d.subscriptions.map SubscriptionRow.id).Nodup
  one_active : ∀ r ∈ d.subscriptions, ∀ r' ∈ d.subscriptions, r.disabledAt = none →
    r'.disabledAt = none → r.serviceId = r'.serviceId → r.eventType = r'.eventType → r = r'
  /-- Every row is the stored form of a subscription. -/
  stored : ∀ r ∈ d.subscriptions, ∃ s : Subscription, s.row = r
  trail : ∀ r ∈ d.subscriptions, d.auditOf r.id = r.trail
  /-- The audit is about subscriptions that exist. -/
  audited : ∀ a ∈ d.subscriptionAudit, ∃ r ∈ d.subscriptions, r.id = a.subscriptionId

namespace Inv

variable {d : Db} {s : Subscription} {old : SubscriptionRow} {now : ℤ}

/-- Writes to other tables keep the invariant. -/
theorem other (h : Inv d) {ws : List Write} (hws : ∀ w ∈ ws, w.table ∉ tables) :
    Inv (store.view d ws) := by
  have hrows : (store.view d ws).subscriptions = d.subscriptions :=
    subscriptions_versioned.view_other fun w hw rw hrw =>
    hws w hw (by simp [hrw, Write.table, tables])
  have haudit : (store.view d ws).subscriptionAudit = d.subscriptionAudit :=
    subscriptionAudit_appendOnly.view_other fun w hw row hrow =>
      hws w hw (by simp [hrow, Write.table, tables])
  constructor <;> rw [hrows]
  · exact h.nodup_id
  · exact h.one_active
  · exact h.stored
  · unfold Db.auditOf
    rw [haudit]
    exact h.trail
  · rw [haudit]
    exact h.audited

/-- A new subscription, with its first row in the audit. -/
theorem create (h : Inv d) (hs : Subscribes d s) : Inv (store.view d s.createdWrites) := by
  have hrows : (store.view d s.createdWrites).subscriptions = d.subscriptions ++ [s.row] := rfl
  have haudit : (store.view d s.createdWrites).subscriptionAudit =
      d.subscriptionAudit ++ [s.auditRow .created s.createdAt] := rfl
  -- The audit has no row about the new subscription yet.
  have hnone : d.auditOf s.id = [] := by
    refine List.filter_eq_nil_iff.mpr fun a ha heq => ?_
    obtain ⟨r, hr, hid⟩ := h.audited a ha
    exact hs.fresh_id r hr (hid.trans (of_decide_eq_true heq))
  have htrail : ∀ id, (store.view d s.createdWrites).auditOf id =
      d.auditOf id ++ if s.id = id then [s.row.auditRow .created s.createdAt] else [] := by
    intro id
    rw [Db.auditOf, haudit, List.filter_append]
    by_cases hid : s.id = id <;> simp [Db.auditOf, hid, Subscription.auditRow,
      SubscriptionRow.auditRow, Subscription.row]
  constructor <;> rw [hrows]
  · refine RowWrite.nodup_apply (w := .insert s.row) h.nodup_id fun x hx r hr => ?_
    obtain rfl := RowWrite.insert.inj hx
    exact hs.fresh_id r hr
  · intro r hr r' hr' hactive hactive' hservice htype
    rcases List.mem_append.mp hr with hr | hr <;> rcases List.mem_append.mp hr' with hr' | hr'
    · exact h.one_active r hr r' hr' hactive hactive' hservice htype
    · obtain rfl := List.mem_singleton.mp hr'
      exact absurd htype (hs.fresh_event r hr hactive hservice)
    · obtain rfl := List.mem_singleton.mp hr
      exact absurd htype.symm (hs.fresh_event r' hr' hactive' hservice.symm)
    · rw [List.mem_singleton.mp hr, List.mem_singleton.mp hr']
  · intro r hr
    rcases List.mem_append.mp hr with hr | hr
    · exact h.stored r hr
    · exact ⟨s, (List.mem_singleton.mp hr).symm⟩
  · intro r hr
    rw [htrail]
    rcases List.mem_append.mp hr with hr | hr
    · rw [if_neg (hs.fresh_id r hr).symm, List.append_nil, h.trail r hr]
    · have hdisabled : s.row.disabledAt = none := hs.active
      rw [List.mem_singleton.mp hr, show s.row.id = s.id from rfl, hnone, if_pos rfl]
      simp [SubscriptionRow.trail, hdisabled, show s.row.createdAt = s.createdAt from rfl]
  · intro a ha
    rw [haudit] at ha
    rcases List.mem_append.mp ha with ha | ha
    · obtain ⟨r, hr, hid⟩ := h.audited a ha
      exact ⟨r, List.mem_append_left _ hr, hid⟩
    · rw [List.mem_singleton.mp ha]
      exact ⟨s.row, List.mem_append_right _ (List.mem_singleton_self _), rfl⟩

/-- A subscription that is disabled, with its second row in the audit. -/
theorem disable (h : Inv d) (hs : Unsubscribes d old now s) :
    Inv (store.view d (s.disabledWrites now)) := by
  have hid : old.id = s.row.id := by rw [hs.row]
  have hrows : ∀ r, r ∈ (store.view d (s.disabledWrites now)).subscriptions ↔
      r = s.row ∨ r ∈ d.subscriptions ∧ r.id ≠ s.row.id := fun r =>
    RowWrite.mem_update hs.mem hid
  have haudit : (store.view d (s.disabledWrites now)).subscriptionAudit =
      d.subscriptionAudit ++ [s.row.auditRow .disabled now] := rfl
  -- Only the audit of the disabled subscription grows.
  have htrail : ∀ id, (store.view d (s.disabledWrites now)).auditOf id =
      d.auditOf id ++ if s.row.id = id then [s.row.auditRow .disabled now] else [] := by
    intro id
    unfold Db.auditOf
    rw [haudit, List.filter_append]
    by_cases heq : s.row.id = id <;> simp [heq, SubscriptionRow.auditRow]
  have hdisabled : s.row.disabledAt = some now := by rw [hs.row]
  constructor
  · rw [show (store.view d (s.disabledWrites now)).subscriptions =
      (RowWrite.update s.row).apply SubscriptionRow.id d.subscriptions from rfl,
      RowWrite.map_pk_update]
    exact h.nodup_id
  · -- The row that has been written is not active, so the active one is as before.
    intro r hr r' hr' hactive hactive'
    rcases (hrows r).mp hr with rfl | ⟨hr, -⟩
    · rw [hdisabled] at hactive
      cases hactive
    rcases (hrows r').mp hr' with rfl | ⟨hr', -⟩
    · rw [hdisabled] at hactive'
      cases hactive'
    exact h.one_active r hr r' hr' hactive hactive'
  · intro r hr
    rcases (hrows r).mp hr with rfl | ⟨hr, -⟩
    · exact ⟨s, rfl⟩
    · exact h.stored r hr
  · intro r hr
    rw [htrail]
    rcases (hrows r).mp hr with rfl | ⟨hr, hne⟩
    · rw [← hid, h.trail old hs.mem, hid, if_pos rfl, hs.row]
      simp [SubscriptionRow.trail, SubscriptionRow.auditRow, hs.active]
    · rw [if_neg hne.symm, List.append_nil, h.trail r hr]
  · intro a ha
    rw [haudit] at ha
    rcases List.mem_append.mp ha with ha | ha
    · obtain ⟨r, hr, heq⟩ := h.audited a ha
      by_cases hne : r.id = s.row.id
      · exact ⟨s.row, (hrows _).mpr (.inl rfl), hne.symm.trans heq⟩
      · exact ⟨r, (hrows r).mpr (.inr ⟨hr, hne⟩), heq⟩
    · rw [List.mem_singleton.mp ha]
      exact ⟨s.row, (hrows _).mpr (.inl rfl), rfl⟩

end Inv

/-! ## The contract -/

/-- The operations commit once, and say so by answering a subscription. -/
def atomic : Atomic system where
  inv d _ := Inv d
  quiet ws := ∀ w ∈ ws, w.table ∉ tables
  done a := ∃ s, a = some (.ok s)
  commits := Commits
  quiet_nil := by simp
  done_of_commits h := by cases h <;> exact ⟨_, rfl⟩
  inv_quiet h hws := h.other hws
  inv_ends _ h _ := h
  inv_commits _ _ _ _ h hc := by
    cases hc with
    | create _ hs => exact h.create hs
    | disable _ hs => exact h.disable hs

/-- Every operation keeps to the contract. -/
theorem atomic_sound : atomic.contract.Sound := by
  refine Atomic.sound fun op e hgood => ?_
  have hgood' : ∀ d, atomic.contract.Good d → Inv d := fun d ⟨_, h⟩ => h
  have herr : ∀ op d er, atomic.contract.Good d →
      atomic.contract.Final op (some (.error er)) d [] [] [] :=
    fun _ _ _ _ => Atomic.guar_of_not_done fun ⟨_, h⟩ => by cases h
  cases op with
  | create id serviceId eventType deliveryMode now =>
    refine Contract.wp_bind.mpr (Contract.wp_ensure_bind.mpr ?_)
    split
    · rename_i s hs
      have hactive : s.disabledAt = none := (Subscription.restore_eq_ok.mp hs).2.2.2.2.2
      refine Contract.wp_run_bind.mpr ?_
      refine PostgresSubscriptionRepository.wp_insert (Atomic.guar_nil _) hactive (herr _) ?_
      exact fun d _ hsub => .inr ⟨_, rfl, .create hs hsub⟩
    · exact herr _ _ _ hgood
  | disable serviceId subscriptionId now =>
    refine Contract.wp_bind.mpr ?_
    unfold SubscriptionService.disable
    split
    · exact herr _ _ _ hgood
    · refine PostgresSubscriptionRepository.wp_disable (Atomic.guar_nil _)
        (fun d hg => (hgood' d hg).stored) (herr _) ?_ hgood
      exact fun d old s _ hold hsub => .inr ⟨_, rfl, .disable hold hsub⟩
  | other writes hwrites =>
    refine Contract.wp_bind.mpr (wp_background (Atomic.guar_nil _) (fun d _ => ?_) fun d _ => ?_)
    · exact Atomic.guar_of_not_done fun ⟨_, h⟩ => by cases h
    · refine .inl ⟨hwrites, fun a ha => ?_⟩
      obtain rfl := Option.some.inj ha
      exact fun ⟨_, h⟩ => by cases h

/-! ## What holds in every run -/

/-- The order of the lists. -/
theorem le_trans (a b c : SubscriptionRow)
    (hab : decide (a.createdAt < b.createdAt ∨
      a.createdAt = b.createdAt ∧ a.id.uuid.toNat ≤ b.id.uuid.toNat) = true)
    (hbc : decide (b.createdAt < c.createdAt ∨
      b.createdAt = c.createdAt ∧ b.id.uuid.toNat ≤ c.id.uuid.toNat) = true) :
    decide (a.createdAt < c.createdAt ∨
      a.createdAt = c.createdAt ∧ a.id.uuid.toNat ≤ c.id.uuid.toNat) = true := by
  simp only [decide_eq_true_eq] at *
  omega

namespace Inv

variable {d : Db}

/-- The active rows of a service are those of its history, in the same order. -/
theorem listActiveRows_eq (h : Inv d) (serviceId : ActorId) :
    PostgresSubscriptionRepository.listActiveRows serviceId d =
      (PostgresSubscriptionRepository.listHistoryRows serviceId d).filter
        fun r => r.disabledAt = none := by
  unfold PostgresSubscriptionRepository.listActiveRows
    PostgresSubscriptionRepository.listHistoryRows
  rw [← Postgres.filter_mergeSort le_trans]
  · rw [List.filter_filter]
    refine congrArg (List.mergeSort · _) (List.filter_congr fun r _ => ?_)
    rw [Bool.decide_and, Bool.and_comm]
  · intro a b
    simp only [Bool.or_eq_true, decide_eq_true_eq]
    omega
  · -- Rows of one age with one identifier are the same row.
    intro a ha b hb hab hba
    simp only [decide_eq_true_eq] at hab hba
    have hid : a.id.uuid.toNat = b.id.uuid.toNat := by omega
    refine List.inj_on_of_nodup_map h.nodup_id (List.mem_filter.mp ha).1
      (List.mem_filter.mp hb).1 ?_
    exact congrArg SubscriptionId.mk (BitVec.eq_of_toNat_eq hid)

/-- A selection of the rows is read as the subscriptions that it stores. -/
theorem read (h : Inv d) {rows : List SubscriptionRow} {p : SubscriptionRow → Bool}
    (hrows : rows.Perm (d.subscriptions.filter p)) : ∃ l : List Subscription,
      l.map Subscription.row = rows ∧ rows.mapM subscriptionFromRow = .ok l ∧ l.Nodup ∧
        ∀ s, s ∈ l ↔ s.row ∈ d.subscriptions ∧ p s.row = true := by
  have hstored : rows ∈ Set.range (List.map Subscription.row) := by
    rw [Set.range_list_map]
    exact fun r hr => h.stored r (List.mem_filter.mp (hrows.mem_iff.mp hr)).1
  obtain ⟨l, rfl⟩ := hstored
  refine ⟨l, rfl, mapM_subscriptionFromRow l, ?_, fun s => ?_⟩
  · exact (hrows.nodup_iff.mpr (h.nodup_id.of_map.filter p)).of_map
  · rw [← List.mem_filter, ← hrows.mem_iff, List.mem_map]
    constructor
    · exact fun hs => ⟨s, hs, rfl⟩
    · rintro ⟨s', hs', heq⟩
      rwa [← Subscription.row_injective heq]

/-- The history of a service can be listed, and its active part is the history filtered. -/
theorem list_alone (h : Inv d) (serviceId : ActorId) : ∃ history : List Subscription,
    (SubscriptionService.list serviceId).exec store d [] = ⟨d, [], .ok history⟩ ∧
    (SubscriptionService.listActive serviceId).exec store d [] =
      ⟨d, [], .ok (history.filter Subscription.isActive)⟩ ∧
    history.Nodup ∧
    ∀ s, s ∈ history ↔ s.row ∈ d.subscriptions ∧ s.serviceId = serviceId := by
  obtain ⟨history, hmap, hread, hnodup, hmem⟩ := h.read (List.mergeSort_perm
    (d.subscriptions.filter fun r => r.serviceId = serviceId)
    fun r r' => r.createdAt < r'.createdAt ∨
      r.createdAt = r'.createdAt ∧ r.id.uuid.toNat ≤ r'.id.uuid.toNat)
  have hactive : PostgresSubscriptionRepository.listActiveRows serviceId d =
      (history.filter Subscription.isActive).map Subscription.row := by
    rw [h.listActiveRows_eq, PostgresSubscriptionRepository.listHistoryRows, ← hmap,
      List.filter_map]
    refine congrArg (List.map _) (List.filter_congr fun s _ => ?_)
    cases hs : s.disabledAt <;> simp [Subscription.isActive, Subscription.row, hs]
  refine ⟨history, ?_, ?_, hnodup, fun s => (hmem s).trans ?_⟩
  · exact Proc.exec_orFail_query_ensure.trans (congrArg _ hread)
  · refine Proc.exec_orFail_query_ensure.trans (congrArg _ ?_)
    rw [hactive, mapM_subscriptionFromRow]
  · exact and_congr_right fun _ => decide_eq_true_iff

/-- The active subscriptions of an event type are found, over all services. -/
theorem findActiveByEventType_alone (h : Inv d) (eventType : EventType) :
    ∃ found : List Subscription,
    (SubscriptionService.findActiveByEventType eventType).exec store d [] = ⟨d, [], .ok found⟩ ∧
    found.Nodup ∧
    ∀ s, s ∈ found ↔ s.row ∈ d.subscriptions ∧ s.eventType = eventType ∧ s.isActive = true := by
  obtain ⟨found, -, hread, hnodup, hmem⟩ := h.read (List.mergeSort_perm
    (d.subscriptions.filter fun r => r.eventType = eventType.text ∧ r.disabledAt = none)
    fun r r' => r.createdAt < r'.createdAt ∨
      r.createdAt = r'.createdAt ∧ r.id.uuid.toNat ≤ r'.id.uuid.toNat)
  refine ⟨found, ?_, hnodup, fun s => (hmem s).trans (and_congr_right fun _ => ?_)⟩
  · exact Proc.exec_orFail_query_ensure.trans (congrArg _ hread)
  · have htype : s.row.eventType = eventType.text ↔ s.eventType = eventType := by
      cases hs : s.eventType
      cases eventType
      simp [Subscription.row, hs]
    rw [decide_eq_true_iff, htype]
    refine and_congr_right fun _ => ?_
    cases hs : s.disabledAt <;> simp [Subscription.isActive, Subscription.row, hs]

end Inv

/-- What holds of the subscriptions and their audit in every state. -/
structure Safe (d : Db) : Prop where
  one_active : ∀ r ∈ d.subscriptions, ∀ r' ∈ d.subscriptions, r.disabledAt = none →
    r'.disabledAt = none → r.serviceId = r'.serviceId → r.eventType = r'.eventType → r = r'
  disabled_after : ∀ r ∈ d.subscriptions, ∀ disabledAt ∈ r.disabledAt, r.createdAt ≤ disabledAt
  /-- A subscription has one row about its creation in the audit, and one about its end if it has
  ended. -/
  created_once : ∀ r ∈ d.subscriptions,
    (d.auditOf r.id).filter (fun a => a.action = .created) = [r.auditRow .created r.createdAt]
  disabled_once : ∀ r ∈ d.subscriptions, (d.auditOf r.id).filter (fun a => a.action = .disabled) =
    (r.disabledAt.map fun t => r.auditRow .disabled t).toList
  /-- The active list of a service is its history, filtered. -/
  lists : ∀ serviceId, ∃ history : List Subscription,
    (SubscriptionService.list serviceId).exec store d [] = ⟨d, [], .ok history⟩ ∧
    (SubscriptionService.listActive serviceId).exec store d [] =
      ⟨d, [], .ok (history.filter Subscription.isActive)⟩ ∧
    history.Nodup ∧ ∀ s, s ∈ history ↔ s.row ∈ d.subscriptions ∧ s.serviceId = serviceId
  /-- The active subscriptions of an event type are found, over all services. -/
  finds : ∀ eventType, ∃ found : List Subscription,
    (SubscriptionService.findActiveByEventType eventType).exec store d [] = ⟨d, [], .ok found⟩ ∧
    found.Nodup ∧
    ∀ s, s ∈ found ↔ s.row ∈ d.subscriptions ∧ s.eventType = eventType ∧ s.isActive = true

/-- The invariant gives the safety of the subscriptions. -/
theorem Inv.safe {d : Db} (h : Inv d) : Safe d where
  one_active := h.one_active
  disabled_after r hr := by
    obtain ⟨s, rfl⟩ := h.stored r hr
    exact s.timestamps.2
  created_once r hr := by
    rw [h.trail r hr]
    cases hd : r.disabledAt <;> simp [SubscriptionRow.trail, SubscriptionRow.auditRow, hd]
  disabled_once r hr := by
    rw [h.trail r hr]
    cases hd : r.disabledAt <;> simp [SubscriptionRow.trail, SubscriptionRow.auditRow, hd]
  lists := h.list_alone
  finds := h.findActiveByEventType_alone

/-- A database without subscriptions keeps the invariant. -/
theorem inv_init {d₀ : Db} (hs : d₀.subscriptions = []) (ha : d₀.subscriptionAudit = []) :
    Inv d₀ := by
  constructor <;> simp [hs, ha]

/-- A disabled subscription stays as it is. -/
theorem later_disabled {d₀ : Db} (hs₀ : d₀.subscriptions = []) (ha₀ : d₀.subscriptionAudit = [])
    {s s' : State Db Write Key Op Result} (hs : system.Reaches d₀ s) (hl : system.Later s s')
    {r : SubscriptionRow} (hr : r ∈ s.db.subscriptions) (hdisabled : r.disabledAt ≠ none) :
    r ∈ s'.db.subscriptions := by
  refine Atomic.later atomic_sound (inv_init hs₀ ha₀) (P := fun d => r ∈ d.subscriptions) ?_ ?_ hs
    hl hr
  · intro d ws hws hmem
    rwa [subscriptions_versioned.view_other fun w hw rw hrw =>
      hws w hw (by simp [hrw, Write.table, tables])]
  · intro d log op a ws hinv hcommits hmem
    cases hcommits with
    | create _ _ => exact List.mem_append_left _ hmem
    | disable _ hsub =>
      refine (RowWrite.mem_update hsub.mem (by rw [hsub.row])).mpr (.inr ⟨hmem, fun heq => ?_⟩)
      -- The row that is replaced is active, so it is another one.
      rw [hsub.row] at heq
      exact hdisabled (List.inj_on_of_nodup_map hinv.nodup_id hmem hsub.mem heq ▸ hsub.active)

/-- The subscription state machine, in every state `s` of every run from empty tables. -/
theorem subscriptions_safe {d₀ : Db} (hs₀ : d₀.subscriptions = []) (ha₀ : d₀.subscriptionAudit = [])
    {s : State Db Write Key Op Result} (hs : system.Reaches d₀ s) :
    Safe s.db ∧
    -- A disabled subscription never changes again.
    (∀ s', system.Later s s' → ∀ r ∈ s.db.subscriptions, r.disabledAt ≠ none →
      r ∈ s'.db.subscriptions ∧ ∀ r' ∈ s'.db.subscriptions, r'.id = r.id → r' = r) ∧
    -- An operation that answers an error changes nothing in any of its events.
    (∀ ev s' id op, system.step s ev = some s' → s.Runs ev id op →
      ∀ s₂ op₂ error, system.Later s' s₂ → ⟨id, op₂, some (.error error)⟩ ∈ s₂.log →
      s'.db.subscriptions = s.db.subscriptions ∧
        s'.db.subscriptionAudit = s.db.subscriptionAudit) := by
  have h₀ := inv_init hs₀ ha₀
  refine ⟨(Atomic.holds atomic_sound h₀ hs).inv.safe, fun s' hl r hr hdisabled => ?_,
    fun ev s' id op hstep hruns s₂ op₂ error hl he => ?_⟩
  · have hr' := later_disabled hs₀ ha₀ hs hl hr hdisabled
    exact ⟨hr', fun r'' hr'' hid => List.inj_on_of_nodup_map
      (Atomic.holds atomic_sound h₀ (hs.later hl)).inv.nodup_id hr'' hr' hid⟩
  · obtain ⟨ws, hws, hdb⟩ := Atomic.quiet_of_not_done atomic_sound h₀ hs hstep hruns hl he
      fun ⟨_, h⟩ => by cases h
    rw [hdb]
    exact ⟨subscriptions_versioned.view_other fun w hw rw hrw =>
        hws w hw (by simp [hrw, Write.table, tables]),
      subscriptionAudit_appendOnly.view_other fun w hw row hrow =>
        hws w hw (by simp [hrow, Write.table, tables])⟩

/-- A database with one service. -/
def oneService : Db where
  identityRows := [⟨⟨1⟩, .service, ['a'], .active⟩]

/-- An event type. -/
def invoices : EventType := ⟨"billing.invoice".toList, by decide⟩

/-- A subscription that is created, disabled, and created again. -/
theorem subscriptions_safe_again : ∃ s, system.Reaches oneService s ∧
    s.db.subscriptions.map SubscriptionRow.disabledAt = [some 20, none] ∧
    s.db.subscriptionAudit.map SubscriptionAuditRow.action = [.created, .disabled, .created] ∧
    Safe s.db := by
  obtain ⟨s₁, hs₁, hidle₁, hdb₁, -⟩ := Postgres.System.exec_reaches
    (.init : system.Reaches oneService { db := oneService }) rfl
    (.create ⟨5⟩ ⟨1⟩ invoices .inclusive 10)
  obtain ⟨s₂, hs₂, hidle₂, hdb₂, -⟩ := Postgres.System.exec_reaches hs₁ hidle₁
    (.disable ⟨1⟩ ⟨5⟩ 20)
  obtain ⟨s₃, hs₃, -, hdb₃, -⟩ := Postgres.System.exec_reaches hs₂ hidle₂
    (.create ⟨6⟩ ⟨1⟩ invoices .inclusive 30)
  refine ⟨s₃, hs₃, ?_, ?_, (subscriptions_safe rfl rfl hs₃).1⟩ <;>
    rw [hdb₃, hdb₂, hdb₁] <;> decide

end Subscriptions

end InfernalLaw
