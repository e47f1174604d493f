import InfernalLaw.Postgres.Receipts
import InfernalLaw.Postgres.Writes

/-!
# Writes behind a receipt

Some operations have to pay before they act: they commit a write that can be committed once only,
and what they are for comes after. `Proc.Guards` says of a process that it commits nothing of the
kind before it has paid. Of all the operations that pay with the same write at most one ever acts,
and whether it still runs or has ended long ago does not matter.
-/

namespace Postgres

variable {D W K Op α β γ ε R : Type}

namespace Proc

/-- As long as no write with `P` has been committed, none with `A` is. -/
def Guards (P A : W → Prop) : Proc D W K β → List W → Prop
  | .done _, _ => True
  | .stmt _ effect next failed, ws => failed.Guards P A [] ∧
      ∀ snap cur, (next snap cur).Guards P A (ws ++ (effect snap cur).writes)
  | .commit next failed, ws => failed.Guards P A [] ∧ (∀ w ∈ ws, ¬ A w) ∧
      ((∀ w ∈ ws, ¬ P w) → next.Guards P A [])
  | .rollback next, _ => next.Guards P A []

variable {P A : W → Prop}

/-- Running up to the next statement keeps the guard. -/
theorem Guards.settle {p : Proc D W K β} : ∀ {locks : List K} {ws : List W},
    p.Guards P A ws → (p.settle locks ws).1.Guards P A (p.settle locks ws).2.2 := by
  induction p with
  | rollback next ih =>
    intro locks ws hp
    exact ih hp
  | _ => exact fun hp => hp

/-- Sequencing: the first process does not act, and the second one guards unless the first has
paid. -/
theorem Guards.bind {p : Proc D W K β} {f : β → Proc D W K γ}
    (hwrites : p.Writes (fun _ => True) fun w => ¬ A w) {ws : List W} (hws : ∀ w ∈ ws, ¬ A w)
    (hp : p.Pays P (fun b ws => (f b).Guards P A ws) (fun _ => True) ws) :
    (p.bind f).Guards P A ws := by
  have hnil : ∀ w ∈ ([] : List W), ¬ A w := fun w hw => absurd hw List.not_mem_nil
  induction p generalizing ws with
  | done b => exact hp
  | stmt sql effect next failed ihn ihf =>
    refine ⟨ihf hwrites.1 hnil hp.1, fun snap cur => ?_⟩
    obtain ⟨heffect, hnext⟩ := hwrites.2 snap cur trivial trivial
    exact ihn _ _ hnext (fun w hw => (List.mem_append.mp hw).elim (hws w) (heffect w))
      (hp.2 snap cur)
  | commit next failed ihn ihf =>
    exact ⟨ihf hwrites.1 hnil hp.1, hws, fun hnot => ihn hwrites.2 hnil (hp.2.2 hnot)⟩
  | rollback next ih => exact ih hwrites hnil hp

/-- An `INSERT` that may find a conflict. -/
theorem Pays.insertOrNothing {S : Store D W K} {sql : String} {valid : Except DbError Unit}
    {conflict : D → Bool} {check : D → Except DbError Unit} {w : W}
    {before : Except DbError ℕ → List W → Prop} {after : Except DbError ℕ → Prop} {ws : List W}
    (herr : ∀ e ws, before (.error e) ws) (hnothing : before (.ok 0) ws)
    (hok : before (.ok 1) (ws ++ [w])) :
    (Proc.insertOrNothing S sql valid conflict check w).Pays P before after ws := by
  refine ⟨herr _ _, fun snap cur => ?_⟩
  change before _ _
  rcases hv : valid with e | _
  · exact herr _ _
  cases hconflict : conflict cur with
  | true => simpa [hconflict, Except.bind] using hnothing
  | false =>
    rcases hk : check cur with e | _
    · simpa [hconflict, hk, Except.bind, Except.map] using herr e _
    · simpa [hconflict, hk, Except.bind, Except.map] using hok

/-- A query that must answer one row. -/
theorem Pays.one {p : Proc D W K (Except DbError (Option β))}
    {before : Except DbError β → List W → Prop} {after : Except DbError β → Prop} {ws : List W}
    (hp : p.Pays P (fun r => before (r.bind fun b => b.elim (.error .unexpectedRowCount) .ok))
      (fun r => after (r.bind fun b => b.elim (.error .unexpectedRowCount) .ok)) ws) :
    (Proc.one p).Pays P before after ws := .bind hp

/-- A client function that opens a transaction. -/
theorem Pays.transaction {body : ExceptT ε (Proc D W K) β} {before : Except ε β → List W → Prop}
    {after : Except ε β → Prop} {ws : List W}
    (hp : body.run.Pays P (fun r _ => before r []) after ws) :
    (Proc.transaction body).Pays P before after ws := .bind (hp.mono (fun _ _ h => h) fun _ h => h)

/-- A client function whose errors become those of its caller. -/
theorem Pays.run_adapt {ε' : Type} {error : ε → ε'} {m : ExceptT ε (Proc D W K) β}
    {before : Except ε' β → List W → Prop} {after : Except ε' β → Prop} {ws : List W}
    (hp : m.run.Pays P (fun r => before (r.mapError error))
      (fun r => after (r.mapError error)) ws) :
    (m.adapt error).run.Pays P before after ws := .bind hp

end Proc

/-- The operations that have to pay before they act, and with what. -/
structure Guard (sys : System D W K Op α) where
  pays : W → Prop
  acts : W → Prop
  member : Op → Prop
  program : ∀ op, member op → (sys.program op).Guards pays acts []

namespace Guard

variable {sys : System D W K Op α} {G : Guard sys}

/-- Every member that has not paid guards its writes, and only the holder has. -/
structure Kept (G : Guard sys) (spent : D → Prop) (s : State D W K Op α)
    (holder : Option ℕ) : Prop where
  spent : holder ≠ none → spent s.db
  session : ∀ x ∈ s.sessions, G.member x.op →
    x.proc.Guards G.pays G.acts x.writes ∨ holder = some x.id

section

variable {s s' : State D W K Op α} {spent : D → Prop} {holder : Option ℕ} {id : ℕ} {op : Op}
  {db : D} {p : Proc D W K α} {locks : List K} {ws : List W}

/-- A session goes on, or ends. -/
theorem Kept.resume (hspent : holder ≠ none → spent db)
    (hothers : ∀ x ∈ s.others id, G.member x.op →
      x.proc.Guards G.pays G.acts x.writes ∨ holder = some x.id)
    (hp : G.member op → p.Guards G.pays G.acts ws ∨ holder = some id) :
    G.Kept spent (s.resume id op db p locks ws) holder := by
  obtain ⟨hsessions, -, hdb⟩ := s.resume_parts id op db p locks ws
  refine ⟨fun h => ?_, fun x hx hmember => ?_⟩
  · rw [hdb]
    exact hspent h
  rcases hsessions x hx with hx | ⟨hid, hop, hx⟩
  · exact hothers x hx hmember
  · refine (hp (hop ▸ hmember)).imp (fun hguards => ?_) fun h => h.trans (congrArg some hid.symm)
    have hsettled : (p.settle locks ws).1.Guards G.pays G.acts (p.settle locks ws).2.2 :=
      Proc.Guards.settle hguards
    rwa [hx] at hsettled

variable [DecidableEq K] {C : Contract sys} {ev : Event Op}

/-- A write that pays is committed once, and that is remembered. -/
structure Once (G : Guard sys) (C : Contract sys) (spent : D → Prop) : Prop where
  fresh : ∀ {op d ws r}, C.Good d → C.guar op d ws r → (∃ w ∈ ws, G.pays w) → ¬ spent d
  paid : ∀ {d ws}, (∃ w ∈ ws, G.pays w) → spent (sys.view d ws)
  kept : ∀ {d ws}, spent d → spent (sys.view d ws)

/-- In every event the holder stays the holder, or the session that has just paid becomes it. -/
theorem Kept.step (h : G.Kept spent s holder) (hG : G.Once C spent) (hs : C.Holds s)
    (hstep : sys.step s ev = some s') :
    ∃ holder', G.Kept spent s' holder' ∧ (holder ≠ none → holder' = holder) := by
  have hothers : ∀ id', ∀ y ∈ s.others id', G.member y.op →
      y.proc.Guards G.pays G.acts y.writes ∨ holder = some y.id :=
    fun id' y hy => h.session y (State.mem_others.mp hy).1
  rcases System.step_cases hstep with
    ⟨op, rfl, rfl⟩ | ⟨x, hx, rfl, -, -, rfl⟩ | ⟨x, hx, -, db, p, locks, ws, hmove, rfl⟩
  · exact ⟨holder, .resume (s := { s with fresh := s.fresh + 1 }) h.spent (hothers _)
      fun hmember => .inl (G.program op hmember), fun _ => rfl⟩
  · refine ⟨holder, ⟨h.spent, fun y hy hmember => ?_⟩, fun _ => rfl⟩
    rcases List.mem_cons.mp hy with rfl | hy
    · exact h.session x hx hmember
    · exact hothers _ y hy hmember
  · -- What a session does other than a commit leaves the database.
    have hproc := h.session x hx
    cases hmove with
    | stmt hp =>
      rw [hp] at hproc
      exact ⟨holder, .resume h.spent (hothers _) fun hm => (hproc hm).imp_left fun hg => hg.2 _ _,
        fun _ => rfl⟩
    | stmtFails hp =>
      rw [hp] at hproc
      exact ⟨holder, .resume h.spent (hothers _) fun hm => (hproc hm).imp_left fun hg => hg.1,
        fun _ => rfl⟩
    | commitFails hp =>
      rw [hp] at hproc
      exact ⟨holder, .resume h.spent (hothers _) fun hm => (hproc hm).imp_left fun hg => hg.1,
        fun _ => rfl⟩
    | commit hp =>
      rw [hp] at hproc
      by_cases hpays : ∃ w ∈ x.writes, G.pays w
      · -- Nobody has paid before, so the session becomes the holder.
        obtain ⟨r, hguar⟩ := hs.guar_of_commit hx hp
        have hfresh := hG.fresh ⟨_, hs.inv⟩ hguar hpays
        have hnone : holder = none := by
          by_contra hsome
          exact hfresh (h.spent hsome)
        refine ⟨some x.id, .resume (fun _ => hG.paid hpays) (fun y hy hm => ?_) fun _ => .inr rfl,
          fun hsome => absurd hnone hsome⟩
        refine (hothers _ y hy hm).imp_right fun hy' => ?_
        rw [hnone] at hy'
        cases hy'
      · push Not at hpays
        exact ⟨holder, .resume (fun hsome => hG.kept (h.spent hsome)) (hothers _)
          fun hm => (hproc hm).imp_left fun hg => hg.2.2 hpays, fun _ => rfl⟩

/-- An event of a member commits nothing that acts, unless the member is the holder. -/
theorem Kept.event (h : G.Kept spent s holder) (hwf : s.WellFormed sys.toStore)
    (hstep : sys.step s ev = some s') (hrun : s.Runs ev id op) (hmember : G.member op) :
    holder = some id ∨ ∃ ws, (∀ w ∈ ws, ¬ G.acts w) ∧ s'.db = sys.view s.db ws := by
  rcases System.step_cases hstep with
    ⟨op', -, rfl⟩ | ⟨x, -, -, -, -, rfl⟩ | ⟨x, hx, hev, db, p, locks, ws, hmove, rfl⟩
  · exact .inr ⟨[], nofun, (State.resume_parts _ _ _ _ _ _ _).2.2⟩
  · exact .inr ⟨[], nofun, rfl⟩
  obtain ⟨rfl, rfl⟩ := State.Runs.unique hwf hrun (.inr ⟨hev, x, hx, rfl, rfl⟩)
  have hdb := (s.resume_parts x.id x.op db p locks ws).2.2
  cases hmove with
  | commit hp =>
    have hproc := h.session x hx hmember
    rw [hp] at hproc
    exact hproc.symm.imp_right fun hg => ⟨x.writes, hg.2.1, hdb⟩
  | _ => exact .inr ⟨[], nofun, hdb⟩

section Runs

variable {d₀ : D} (hS : C.Sound) (hassume : ∀ op sql d, C.assume op sql d) (hG : G.Once C spent)
  (h₀ : C.inv d₀ [])

include hS hassume hG h₀

/-- In every state that is reached the guard has one holder at most. -/
theorem kept (hs : sys.Reaches d₀ s) : ∃ holder, G.Kept spent s holder := by
  induction hs with
  | init => exact ⟨none, fun h => absurd rfl h, nofun⟩
  | step ev hs _ hstep ih =>
    obtain ⟨holder, hkept⟩ := ih
    obtain ⟨holder', hkept', -⟩ := hkept.step hG (hS.holds hassume h₀ hs) hstep
    exact ⟨holder', hkept'⟩

/-- Who holds the receipt holds it from then on. -/
theorem Kept.later (hs : sys.Reaches d₀ s) (h : G.Kept spent s (some id)) (hl : sys.Later s s') :
    G.Kept spent s' (some id) := by
  induction hl with
  | refl => exact h
  | @tail t t' hl hstep ih =>
    obtain ⟨ev, hstep⟩ := hstep
    obtain ⟨holder, hkept, hsame⟩ := ih.step hG (hS.holds hassume h₀ (hs.later hl)) hstep
    rwa [hsame (Option.some_ne_none id)] at hkept

/-- Once a member has acted, no other member acts. -/
theorem acts_once {s₁ s₁' s₂ s₂' : State D W K Op α} {ev₁ ev₂ : Event Op} {id₁ id₂ : ℕ}
    {op₁ op₂ : Op} (hs : sys.Reaches d₀ s₁) (hstep₁ : sys.step s₁ ev₁ = some s₁')
    (hl : sys.Later s₁' s₂) (hstep₂ : sys.step s₂ ev₂ = some s₂') (hrun₁ : s₁.Runs ev₁ id₁ op₁)
    (hrun₂ : s₂.Runs ev₂ id₂ op₂) (hmember₁ : G.member op₁) (hmember₂ : G.member op₂)
    (hacts : ¬ ∃ ws, (∀ w ∈ ws, ¬ G.acts w) ∧ s₁'.db = sys.view s₁.db ws) (hne : id₂ ≠ id₁) :
    ∃ ws, (∀ w ∈ ws, ¬ G.acts w) ∧ s₂'.db = sys.view s₂.db ws := by
  obtain ⟨holder, hkept⟩ := kept hS hassume hG h₀ hs
  have hholds₁ := hS.holds hassume h₀ hs
  obtain rfl := (hkept.event hholds₁.wellFormed hstep₁ hrun₁ hmember₁).resolve_right hacts
  have hs₁' : sys.Reaches d₀ s₁' := hs.later (.single ⟨ev₁, hstep₁⟩)
  have hkept₂ := (hkept.later hS hassume hG h₀ hs (.single ⟨ev₁, hstep₁⟩)).later hS hassume
    hG h₀ hs₁' hl
  have hholds₂ := hS.holds hassume h₀ (hs₁'.later hl)
  refine (hkept₂.event hholds₂.wellFormed hstep₂ hrun₂ hmember₂).resolve_left fun h => ?_
  exact hne (Option.some.inj h).symm

end Runs

end

end Guard

end Postgres
