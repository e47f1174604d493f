import InfernalLaw.Postgres.Rules

/-!
# Operations that commit once

Most operations run a single transaction, and answer as soon as it has committed. `Atomic` is the
contract of such operations: an event leaves alone what the contract is about, or it commits the
writes of one operation and ends it with an answer that says so. What an operation that answers
otherwise has done is then nothing at all.
-/

namespace Postgres

variable {D W K Op α : Type}

/-- Operations that commit once. -/
structure Atomic (sys : System D W K Op α) where
  /-- What holds of the committed database and the log between events. -/
  inv : D → List (Entry Op α) → Prop
  /-- Writes that leave alone what the contract is about. -/
  quiet : List W → Prop
  /-- Answers that say that the operation has committed. -/
  done : α → Prop
  /-- What the operation commits at a database when it answers so. -/
  commits : Op → D → α → List W → Prop
  quiet_nil : quiet []
  done_of_commits : ∀ {op d a ws}, commits op d a ws → done a
  inv_quiet : ∀ {d log ws}, inv d log → quiet ws → inv (sys.view d ws) log
  inv_ends : ∀ {d log} e, inv d log → ¬ done e.result → inv d (log ++ [e])
  inv_commits : ∀ {d log} id op a ws, inv d log → commits op d a ws →
    inv (sys.view d ws) (log ++ [⟨id, op, a⟩])

namespace Atomic

variable {sys : System D W K Op α} (A : Atomic sys)

/-- The contract that the operations keep to. -/
def contract : Contract sys where
  inv := A.inv
  guar op d ws r :=
    (A.quiet ws ∧ ∀ a, r = some a → ¬ A.done a) ∨ ∃ a, r = some a ∧ A.commits op d a ws

variable {A}

/-- To write nothing and answer nothing is always allowed. -/
theorem guar_nil (op : Op) (d : D) : A.contract.guar op d [] none :=
  .inl ⟨A.quiet_nil, fun _ h => by cases h⟩

/-- An operation may answer that it has not committed. -/
theorem guar_of_not_done {op : Op} {d : D} {a : α} (h : ¬ A.done a) :
    A.contract.guar op d [] (some a) :=
  .inl ⟨A.quiet_nil, fun _ ha => Option.some.inj ha ▸ h⟩

/-- The contract is sound when every operation keeps to it. -/
theorem sound (h : ∀ op d, A.contract.Good d →
    A.contract.wp op (sys.program op) (A.contract.Final op) d [] [] []) : A.contract.Sound where
  stutter := guar_nil
  preserves id op d log ws r hinv hguar := by
    rcases hguar with ⟨hquiet, hr⟩ | ⟨a, rfl, hcommits⟩
    · have hview := A.inv_quiet hinv hquiet
      cases r with
      | none => exact (congrArg (A.inv _) (List.append_nil log)).mpr hview
      | some a => exact A.inv_ends ⟨id, op, a⟩ hview (hr a rfl)
    · exact A.inv_commits id op a ws hinv hcommits
  program := h

variable [DecidableEq K] {d₀ : D} {s s' s₂ : State D W K Op α} {ev : Event Op} {id : ℕ} {op : Op}

/-- Every state that is reached keeps the invariant. -/
theorem holds (hS : A.contract.Sound) (h₀ : A.inv d₀ []) (hs : sys.Reaches d₀ s) :
    A.contract.Holds s :=
  Contract.Sound.holds hS (fun _ _ _ => trivial) h₀ hs

/-- What one event does: it leaves alone what the contract is about and ends no operation that has
committed, or it commits an operation and ends it. -/
theorem event (hS : A.contract.Sound) (h₀ : A.inv d₀ []) (hs : sys.Reaches d₀ s)
    (hstep : sys.step s ev = some s') :
    (∃ ws, A.quiet ws ∧ s'.db = sys.view s.db ws ∧
      ∀ e, s'.log = s.log ++ [e] → ¬ A.done e.result) ∨
      ∃ id op a ws, s.Runs ev id op ∧ A.commits op s.db a ws ∧ s'.db = sys.view s.db ws ∧
        s'.log = s.log ++ [⟨id, op, a⟩] := by
  obtain ⟨id, op, ws, r, hruns, hguar, hdb, hlog⟩ :=
    Contract.Sound.event hS (fun _ _ _ => trivial) h₀ hs hstep
  rcases hguar with ⟨hquiet, hnot⟩ | ⟨a, rfl, hcommits⟩
  · refine .inl ⟨ws, hquiet, hdb, fun e he => ?_⟩
    have heq := List.append_cancel_left (he.symm.trans hlog)
    cases r with
    | none => cases heq
    | some a =>
      rw [(List.cons.inj heq).1]
      exact hnot a rfl
  · exact .inr ⟨id, op, a, ws, hruns, hcommits, hdb, hlog⟩

/-- A fact that commits and quiet writes preserve holds from then on. -/
theorem later (hS : A.contract.Sound) (h₀ : A.inv d₀ []) {P : D → Prop}
    (hquiet : ∀ d ws, A.quiet ws → P d → P (sys.view d ws))
    (hcommits : ∀ d log op a ws, A.inv d log → A.commits op d a ws → P d → P (sys.view d ws))
    (hs : sys.Reaches d₀ s) (hl : sys.Later s s') (hP : P s.db) : P s'.db := by
  refine Contract.Sound.later hS (fun _ _ _ => trivial) h₀ ?_ hs hl hP
  rintro op d log ws r hinv (⟨hws, -⟩ | ⟨a, -, hws⟩) hd
  · exact hquiet d ws hws hd
  · exact hcommits d log op a ws hinv hws hd

/-- No event of an operation that answers otherwise than done commits anything. -/
theorem quiet_of_not_done (hS : A.contract.Sound) (h₀ : A.inv d₀ []) (hs : sys.Reaches d₀ s)
    (hstep : sys.step s ev = some s') (hruns : s.Runs ev id op) (hl : sys.Later s' s₂) {op₂ : Op}
    {a₂ : α} (he : ⟨id, op₂, a₂⟩ ∈ s₂.log) (ha : ¬ A.done a₂) :
    ∃ ws, A.quiet ws ∧ s'.db = sys.view s.db ws := by
  rcases event hS h₀ hs hstep with
    ⟨ws, hquiet, hdb, -⟩ | ⟨id', op', a, ws, hruns', hcommits, -, hlog⟩
  · exact ⟨ws, hquiet, hdb⟩
  obtain ⟨rfl, rfl⟩ := hruns.unique (holds hS h₀ hs).wellFormed hruns'
  -- The operation would have two entries in the log.
  have hs' : sys.Reaches d₀ s' := .step ev hs trivial hstep
  have hdone : (⟨id, op, a⟩ : Entry Op α) ∈ s₂.log :=
    hl.log_extends.subset (hlog ▸ List.mem_append_right _ (List.mem_singleton_self _))
  have hnodup := (holds hS h₀ (hs'.later hl)).wellFormed.log_nodup
  have heq := List.inj_on_of_nodup_map hnodup hdone he rfl
  cases heq
  exact absurd (A.done_of_commits hcommits) ha

end Atomic

end Postgres
