import InfernalLaw.Infrastructure.Background
import InfernalLaw.Infrastructure.Constraints

/-!
# The subscription repository

`PostgresSubscriptionRepository` as processes over the database, and the rules of the two that
write: `insert` and `disable` commit a row together with its entry in the audit.
-/

namespace InfernalLaw

open Postgres (Contract DbError RowWrite Store)
open Postgres.Proc (autocommit commitNow ensure insert orFail query transaction update)

/-- `repository_error`. -/
def SubscriptionError.ofDatabase (e : DbError) : SubscriptionError := .repository (.database e)

/-- What the error of the insert of `subscription` means. -/
def SubscriptionError.ofInsert (subscription : Subscription) : DbError → SubscriptionError
  | .uniqueViolation "subscriptions_pkey" => .alreadyExists subscription.id
  | .uniqueViolation _ => .duplicateActive subscription.serviceId subscription.eventType
  | .foreignKeyViolation _ => .unknownService subscription.serviceId
  | e => .ofDatabase e

/-- The row that `insert` writes. -/
def Subscription.row (s : Subscription) : SubscriptionRow where
  id := s.id
  serviceId := s.serviceId
  eventType := s.eventType.text
  deliveryMode := s.deliveryMode
  createdAt := s.createdAt
  disabledAt := s.disabledAt

/-- The row of `subscription_audit`. -/
def Subscription.auditRow (s : Subscription) (action : SubscriptionAuditAction) (recordedAt : ℤ) :
    SubscriptionAuditRow where
  subscriptionId := s.id
  serviceId := s.serviceId
  eventType := s.eventType.text
  deliveryMode := s.deliveryMode
  action := action
  recordedAt := recordedAt

/-- `subscription_from_row`. -/
def subscriptionFromRow (row : SubscriptionRow) : Except SubscriptionError Subscription := do
  let eventType ← (EventType.new row.eventType).elim (.error .invalidEventType) .ok
  (Subscription.restore row.id row.serviceId eventType row.deliveryMode row.createdAt
    row.disabledAt).mapError fun _ => .repository (.kernel "stored subscription is invalid")

/-- A row is read as the subscription of which it is the stored form. -/
theorem subscriptionFromRow_row (s : Subscription) : subscriptionFromRow s.row = .ok s := by
  refine Postgres.bind_eq_ok.mpr ⟨s.eventType, ?_, ?_⟩
  · simp [Subscription.row]
  · rw [Postgres.mapError_eq_ok, Subscription.restore_eq_ok]
    exact ⟨rfl, rfl, rfl, rfl, rfl, rfl⟩

/-- The stored form determines the subscription. -/
theorem Subscription.row_injective {s s' : Subscription} (h : s.row = s'.row) : s = s' := by
  have hread := subscriptionFromRow_row s
  rw [h, subscriptionFromRow_row] at hread
  exact (Except.ok.inj hread).symm

/-- Stored subscriptions are read as they were. -/
theorem mapM_subscriptionFromRow (l : List Subscription) :
    (l.map Subscription.row).mapM subscriptionFromRow = .ok l := by
  refine Postgres.mapM_eq_ok.mpr (List.forall₂_map_left_iff.mpr ?_)
  exact List.forall₂_same.mpr fun s _ => subscriptionFromRow_row s

namespace PostgresSubscriptionRepository

/-- The `INSERT` of `insert`, which waits for a transaction that may disable the active subscription
of the same service. -/
def insertSubscription (row : SubscriptionRow) : Sql (Except DbError Unit) :=
  insert store "INSERT INTO subscriptions"
    (fun d => (d.subscriptions.filter fun r => r.disabledAt = none ∧ r.serviceId = row.serviceId ∧
      r.eventType = row.eventType).map fun r => .subscription r.id)
    (fun d => d.checkSubscription row) (.subscriptions (.insert row))

/-- `append_audit`. -/
def appendAudit (row : SubscriptionAuditRow) : Sql (Except DbError Unit) :=
  insert store "INSERT INTO subscription_audit" (fun _ => []) (fun _ => row.check)
    (.subscriptionAudit row)

/-- `insert`. -/
def insert (subscription : Subscription) : Sql (Except SubscriptionError Unit) :=
  transaction do
    let _ ← orFail (.ofInsert subscription) (insertSubscription subscription.row)
    let _ ← orFail .ofDatabase
      (appendAudit (subscription.auditRow .created subscription.createdAt))
    orFail .ofDatabase commitNow

/-- `FIND_ACTIVE_BY_EVENT_TYPE_SQL`, with the rows ordered by age and identifier. -/
def findActiveRows (eventType : Str) (d : Db) : List SubscriptionRow :=
  (d.subscriptions.filter fun r => r.eventType = eventType ∧ r.disabledAt = none).mergeSort
    fun r r' => r.createdAt < r'.createdAt ∨
      r.createdAt = r'.createdAt ∧ r.id.uuid.toNat ≤ r'.id.uuid.toNat

/-- `find_active_by_event_type`. -/
def findActiveByEventType (eventType : EventType) :
    Sql (Except SubscriptionError (List Subscription)) :=
  ExceptT.run do
    let rows ← orFail .ofDatabase
      (autocommit (query "FIND_ACTIVE_BY_EVENT_TYPE_SQL" (findActiveRows eventType.text)))
    ensure (rows.mapM subscriptionFromRow)

/-- `LIST_HISTORY_SQL`, with the rows ordered by age and identifier. -/
def listHistoryRows (serviceId : ActorId) (d : Db) : List SubscriptionRow :=
  (d.subscriptions.filter fun r => r.serviceId = serviceId).mergeSort
    fun r r' => r.createdAt < r'.createdAt ∨
      r.createdAt = r'.createdAt ∧ r.id.uuid.toNat ≤ r'.id.uuid.toNat

/-- `LIST_ACTIVE_SQL`, with the rows ordered by age and identifier. -/
def listActiveRows (serviceId : ActorId) (d : Db) : List SubscriptionRow :=
  (d.subscriptions.filter fun r => r.serviceId = serviceId ∧ r.disabledAt = none).mergeSort
    fun r r' => r.createdAt < r'.createdAt ∨
      r.createdAt = r'.createdAt ∧ r.id.uuid.toNat ≤ r'.id.uuid.toNat

/-- `list`. -/
def list (serviceId : ActorId) (activeOnly : Bool) :
    Sql (Except SubscriptionError (List Subscription)) :=
  ExceptT.run do
    let rows ← orFail .ofDatabase (autocommit
      (if activeOnly then query "LIST_ACTIVE_SQL" (listActiveRows serviceId)
        else query "LIST_HISTORY_SQL" (listHistoryRows serviceId)))
    ensure (rows.mapM subscriptionFromRow)

/-- The rows that `DISABLE_SQL` is about. -/
def Disables (subscriptionId : SubscriptionId) (serviceId : ActorId) (disabledAt : ℤ)
    (row : SubscriptionRow) : Prop :=
  row.id = subscriptionId ∧ row.serviceId = serviceId ∧ row.disabledAt = none ∧
    row.createdAt ≤ disabledAt

instance (subscriptionId : SubscriptionId) (serviceId : ActorId) (disabledAt : ℤ) :
    DecidablePred (Disables subscriptionId serviceId disabledAt) :=
  fun _ => inferInstanceAs (Decidable (_ ∧ _))

/-- `DISABLE_SQL`. -/
def disableRow (subscriptionId : SubscriptionId) (serviceId : ActorId) (disabledAt : ℤ) :
    Sql (Except DbError (Option SubscriptionRow)) :=
  update "DISABLE_SQL"
    (fun d => d.subscriptions.find? fun r => Disables subscriptionId serviceId disabledAt r)
    (fun r => .subscription r.id)
    (fun d _ => d.subscriptions.find? fun r => Disables subscriptionId serviceId disabledAt r)
    (fun _ old => changeSubscription old { old with disabledAt := some disabledAt })
    fun new => .subscriptions (.update new)

/-- The row that `classify_failed_disable` looks at. -/
def findSubscription (subscriptionId : SubscriptionId) :
    Sql (Except DbError (Option SubscriptionRow)) :=
  query "SELECT service_id::text, created_at, disabled_at" fun d =>
    d.subscriptions.find? fun r => r.id = subscriptionId

/-- `classify_failed_disable`, from the row that it finds. -/
def classifyFailedDisable (serviceId : ActorId) (subscriptionId : SubscriptionId)
    (disabledAt : ℤ) : Option SubscriptionRow → SubscriptionError
  | none => .notFound subscriptionId
  | some row =>
    if row.serviceId ≠ serviceId then .notFound subscriptionId
    else if row.disabledAt.isSome then .alreadyDisabled subscriptionId
    else if disabledAt < row.createdAt then .invalidTimestamp
    else .repository (.kernel "subscription disable was not applied")

/-- What `disable` does when its `UPDATE` answers. -/
def concludeDisable (serviceId : ActorId) (subscriptionId : SubscriptionId) (disabledAt : ℤ) :
    Option SubscriptionRow → Fallible SubscriptionError Subscription
  | some row => do
    let subscription ← ensure (subscriptionFromRow row)
    let _ ← orFail .ofDatabase (appendAudit (subscription.auditRow .disabled disabledAt))
    let _ ← orFail .ofDatabase commitNow
    return subscription
  | none => do
    let row ← orFail .ofDatabase (findSubscription subscriptionId)
    throw (classifyFailedDisable serviceId subscriptionId disabledAt row)

/-- `disable`. -/
def disable (serviceId : ActorId) (subscriptionId : SubscriptionId) (disabledAt : ℤ) :
    Sql (Except SubscriptionError Subscription) :=
  if disabledAt < 0 then .done (.error .invalidTimestamp)
  else
    transaction do
      let row ← orFail .ofDatabase (disableRow subscriptionId serviceId disabledAt)
      concludeDisable serviceId subscriptionId disabledAt row

end PostgresSubscriptionRepository

namespace SubscriptionService

/-- `SubscriptionService::create`, with the identifier that it draws. -/
def create (id : SubscriptionId) (serviceId : ActorId) (eventType : EventType)
    (deliveryMode : DeliveryMode) (now : ℤ) : Sql (Except SubscriptionError Subscription) :=
  ExceptT.run do
    let subscription ← ensure (Subscription.create id serviceId eventType deliveryMode now)
    let _ ← ExceptT.mk (PostgresSubscriptionRepository.insert subscription)
    return subscription

/-- `SubscriptionService::disable`. -/
def disable (serviceId : ActorId) (subscriptionId : SubscriptionId) (now : ℤ) :
    Sql (Except SubscriptionError Subscription) :=
  if now < 0 then .done (.error .invalidTimestamp)
  else PostgresSubscriptionRepository.disable serviceId subscriptionId now

/-- `SubscriptionService::list`. -/
def list (serviceId : ActorId) : Sql (Except SubscriptionError (List Subscription)) :=
  PostgresSubscriptionRepository.list serviceId false

/-- `SubscriptionService::list_active`. -/
def listActive (serviceId : ActorId) : Sql (Except SubscriptionError (List Subscription)) :=
  PostgresSubscriptionRepository.list serviceId true

/-- `SubscriptionService::find_active_by_event_type`. -/
def findActiveByEventType (eventType : EventType) :
    Sql (Except SubscriptionError (List Subscription)) :=
  PostgresSubscriptionRepository.findActiveByEventType eventType

end SubscriptionService

/-! ## What the operations commit -/

/-- Subscriptions come in addition, or get a new version. -/
theorem subscriptions_versioned :
    store.Versioned Db.subscriptions Write.subscriptions SubscriptionRow.id where
  apply_write _ _ := rfl
  apply_other _ w hw := by cases w <;> first | rfl | exact absurd rfl (hw _)

/-- Rows of the audit only ever come in addition. -/
theorem subscriptionAudit_appendOnly :
    store.AppendOnly Db.subscriptionAudit Write.subscriptionAudit where
  apply_write _ _ := rfl
  apply_other _ w hw := by cases w <;> first | rfl | exact absurd rfl (hw _)

/-- What holds when `insert` commits. -/
structure Subscribes (d : Db) (s : Subscription) : Prop where
  active : s.disabledAt = none
  fresh_id : ∀ r ∈ d.subscriptions, r.id ≠ s.id
  fresh_event : ∀ r ∈ d.subscriptions, r.disabledAt = none → r.serviceId = s.serviceId →
    r.eventType ≠ s.eventType.text

/-- What holds when `disable` commits `s` in place of `old`. -/
structure Unsubscribes (d : Db) (old : SubscriptionRow) (disabledAt : ℤ) (s : Subscription) :
    Prop where
  mem : old ∈ d.subscriptions
  active : old.disabledAt = none
  row : s.row = { old with disabledAt := some disabledAt }

/-- The writes of `insert`. -/
def Subscription.createdWrites (s : Subscription) : List Write :=
  [.subscriptions (.insert s.row), .subscriptionAudit (s.auditRow .created s.createdAt)]

/-- The writes of `disable`. -/
def Subscription.disabledWrites (s : Subscription) (disabledAt : ℤ) : List Write :=
  [.subscriptions (.update s.row), .subscriptionAudit (s.auditRow .disabled disabledAt)]

/-- A subscription can be entered while the keys of its row are held. -/
theorem subscribes_stable {s : Subscription} {locks : List Key}
    (hid : .subscription s.id ∈ locks)
    (hevent : .activeSubscription s.serviceId s.eventType.text ∈ locks) :
    store.Stable locks fun d => Subscribes d s := by
  intro d w hd hk
  have hid' : store.Stable locks fun d => ∀ r ∈ d.subscriptions, r.id ≠ s.id :=
    subscriptions_versioned.stable_forall fun rw hrw heq =>
      hrw (.subscription rw.row.id) (by simp [Write.keys]) (heq ▸ hid)
  have hevent' : store.Stable locks fun d => ∀ r ∈ d.subscriptions, r.disabledAt = none →
      r.serviceId = s.serviceId → r.eventType ≠ s.eventType.text :=
    subscriptions_versioned.stable_forall fun rw hrw hactive hservice htype =>
      hrw (.activeSubscription rw.row.serviceId rw.row.eventType)
        (by simp [Write.keys, hactive]) (hservice ▸ htype ▸ hevent)
  exact ⟨hd.active, hid' d w hd.fresh_id hk, hevent' d w hd.fresh_event hk⟩

/-- A locked subscription stays as it is. -/
theorem stable_mem_subscriptions {row : SubscriptionRow} {locks : List Key}
    (hl : .subscription row.id ∈ locks) : store.Stable locks fun d => row ∈ d.subscriptions :=
  subscriptions_versioned.stable_mem fun rw hrw =>
    ⟨.subscription rw.row.id, by simp [Write.keys], hrw ▸ hl⟩

/-- What the constraints of `subscriptions` let through. -/
theorem Db.subscribes_of_check {d : Db} {s : Subscription} (hactive : s.disabledAt = none)
    (h : d.checkSubscription s.row = .ok ()) : Subscribes d s := by
  simp only [checkSubscription, Postgres.require_bind_eq_ok, Postgres.require_eq_ok] at h
  obtain ⟨-, -, -, hid, hevent, -⟩ := h
  exact ⟨hactive, hid, fun r hr hr' hservice => hevent hactive r hr hr' hservice⟩

/-- What the trigger lets through. -/
theorem changeSubscription_eq_ok {old new new' : SubscriptionRow}
    (h : changeSubscription old new = .ok new') :
    new' = new ∧ old.disabledAt = none ∧
      ∀ disabledAt ∈ new.disabledAt, new.createdAt ≤ disabledAt := by
  simp only [changeSubscription, Postgres.require_bind_eq_ok, pure, Except.pure,
    Except.ok.injEq] at h
  obtain ⟨⟨-, -, -, -, -, hactive, -⟩, htimes, hnew⟩ := h
  exact ⟨hnew.symm, hactive, htimes⟩

/-- The subscription `s`, once it is disabled. -/
def Subscription.disable (s : Subscription) (disabledAt : ℤ) (h : s.createdAt ≤ disabledAt) :
    Subscription :=
  { s with
    disabledAt := some disabledAt
    timestamps := ⟨s.timestamps.1, fun _ hd => Option.some.inj hd ▸ h⟩ }

namespace PostgresSubscriptionRepository

variable {Op α : Type} {program : Op → Sql α} {C : Contract (kernelSystem program)} {op : Op}

/-- The rule of `insert`. -/
theorem wp_insert (hquiet : ∀ d, C.guar op d [] none) {s : Subscription}
    (hactive : s.disabledAt = none) {Q : C.Post (Except SubscriptionError Unit)}
    (herr : ∀ d er, C.Good d → Q (.error er) d [] [] [])
    (hok : ∀ d, C.Good d → Subscribes d s → Q (.ok ()) d s.createdWrites [] []) {e : Db} :
    C.wp op (PostgresSubscriptionRepository.insert s) Q e [] [] [] := by
  refine Contract.wp_transaction.mpr (Contract.wp_orFail_bind.mpr ?_)
  refine Contract.wp_insert (hquiet e) (fun d _ _ _ hg => herr d _ hg) ?_
  intro d₁ _ _ hcheck
  have hsub₁ := Db.subscribes_of_check hactive hcheck
  refine Contract.wp_orFail_bind.mpr ?_
  refine Contract.wp_insert (hquiet d₁) (fun d _ _ _ hg => herr d _ hg) ?_
  intro d₂ hr₂ _ _
  -- The keys of the row are held until the commit.
  have hstable : ∀ locks, store.Stable (([] ++ (Write.subscriptions (.insert s.row)).keys) ++ locks)
      fun d => Subscribes d s := fun locks => by
    refine subscribes_stable (List.mem_append_left _ ?_) (List.mem_append_left _ ?_) <;>
      simp [Write.keys, Subscription.row, hactive]
  have hsub₂ := hr₂.stable (by simpa using hstable []) hsub₁
  refine Contract.wp_bind.mpr (Contract.wp_commitNow (hquiet d₂) (fun d _ _ _ hg => herr d _ hg) ?_)
  intro d₃ hr₃ hg₃
  exact hok d₃ hg₃ (hr₃.stable (hstable _) hsub₂)

/-- The rule of `disable`, which reads the new version of the row back. -/
theorem wp_disable_read (hquiet : ∀ d, C.guar op d [] none) {serviceId : ActorId}
    {subscriptionId : SubscriptionId} {disabledAt : ℤ} (hnow : ¬ disabledAt < 0)
    {Q : C.Post (Except SubscriptionError Subscription)}
    (herr : ∀ d er, C.Good d → Q (.error er) d [] [] [])
    (hok : ∀ d old s, C.Good d → Disables subscriptionId serviceId disabledAt old →
      old ∈ d.subscriptions →
      subscriptionFromRow { old with disabledAt := some disabledAt } = .ok s →
      Q (.ok s) d [.subscriptions (.update { old with disabledAt := some disabledAt }),
        .subscriptionAudit (s.auditRow .disabled disabledAt)] [] []) {e : Db} :
    C.wp op (PostgresSubscriptionRepository.disable serviceId subscriptionId disabledAt) Q e [] []
      [] := by
  unfold PostgresSubscriptionRepository.disable
  rw [if_neg hnow]
  refine Contract.wp_transaction.mpr (Contract.wp_orFail_bind.mpr ?_)
  refine Contract.wp_update (hquiet e) (fun d _ _ _ hg => herr d _ hg) ?_ ?_
  · intro d₁ d₂ _ _ _ _ _
    refine Contract.wp_orFail_bind.mpr (Contract.wp_query (hquiet d₂) ?_ ?_)
    · exact fun d _ _ _ hg => herr d _ hg
    · exact fun _ d _ _ _ _ hg => herr d _ hg
  · intro d₁ d₂ r old new _ _ _ hg₂ _ hold hchange
    rw [Store.view_nil] at hold
    have hmem := List.mem_of_find?_eq_some hold
    have hdisables := List.find?_some hold
    rw [decide_eq_true_eq] at hdisables
    obtain ⟨rfl, -⟩ := changeSubscription_eq_ok hchange
    refine Contract.wp_ensure_bind.mpr ?_
    cases hread : subscriptionFromRow { old with disabledAt := some disabledAt } with
    | error er => exact herr d₂ _ hg₂
    | ok s =>
      refine Contract.wp_orFail_bind.mpr ?_
      refine Contract.wp_insert (hquiet d₂) (fun d _ _ _ hg => herr d _ hg) ?_
      intro d₃ hr₃ _ _
      -- The row is locked until the commit.
      have hstable : ∀ locks, store.Stable (([] ++ (Write.subscriptions
          (.update { old with disabledAt := some disabledAt })).keys) ++ locks)
          fun d => old ∈ d.subscriptions := fun locks =>
        stable_mem_subscriptions (List.mem_append_left _ (by simp [Write.keys]))
      have hmem₃ := hr₃.stable (by simpa using hstable []) hmem
      refine Contract.wp_orFail_bind.mpr ?_
      refine Contract.wp_commitNow (hquiet d₃) (fun d _ _ _ hg => herr d _ hg) ?_
      intro d₄ hr₄ hg₄
      exact hok d₄ old s hg₄ hdisables (hr₄.stable (hstable _) hmem₃) hread

/-- The rule of `disable`, where the rows are the stored forms of subscriptions. -/
theorem wp_disable (hquiet : ∀ d, C.guar op d [] none)
    (hrows : ∀ d, C.Good d → ∀ r ∈ d.subscriptions, ∃ s : Subscription, s.row = r)
    {serviceId : ActorId} {subscriptionId : SubscriptionId} {disabledAt : ℤ}
    {Q : C.Post (Except SubscriptionError Subscription)}
    (herr : ∀ d er, C.Good d → Q (.error er) d [] [] [])
    (hok : ∀ d old s, C.Good d → Disables subscriptionId serviceId disabledAt old →
      Unsubscribes d old disabledAt s → Q (.ok s) d (s.disabledWrites disabledAt) [] [])
    {e : Db} (hgood : C.Good e) :
    C.wp op (PostgresSubscriptionRepository.disable serviceId subscriptionId disabledAt) Q e [] []
      [] := by
  by_cases hnow : disabledAt < 0
  · unfold PostgresSubscriptionRepository.disable
    rw [if_pos hnow]
    exact herr e _ hgood
  refine wp_disable_read hquiet hnow herr fun d old s hg hdisables hmem hread => ?_
  -- The new row is the stored form of the subscription that the old one stores, disabled.
  obtain ⟨s₀, rfl⟩ := hrows d hg old hmem
  have hrow : (s₀.disable disabledAt hdisables.2.2.2).row =
      { s₀.row with disabledAt := some disabledAt } := rfl
  rw [← hrow, subscriptionFromRow_row] at hread
  obtain rfl := Except.ok.inj hread
  rw [← hrow]
  exact hok d s₀.row _ hg hdisables ⟨hmem, hdisables.2.2.1, hrow⟩

end PostgresSubscriptionRepository

end InfernalLaw
