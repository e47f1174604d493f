import InfernalLaw.Postgres.Rules

/-!
# Receipts

Some writes can be committed once only, like the consumption of a challenge. An operation that has
committed such a write holds a receipt, and its answer may rest on it long after the commit, when
the database no longer tells who has committed the write. `Proc.Pays` says of a process what it may
come to before and after that commit. From it follows that at most one operation holds the receipt,
and that an operation whose answer needs no receipt has not committed the write.
-/

namespace Postgres

variable {D W K Op α β γ ε R : Type}

/-! ## Processes -/

namespace Proc

/-- Everything that the process may come to satisfies `after`. -/
def Ends (after : β → Prop) : Proc D W K β → Prop
  | .done b => after b
  | .stmt _ _ next failed => failed.Ends after ∧ ∀ snap cur, (next snap cur).Ends after
  | .commit next failed => failed.Ends after ∧ next.Ends after
  | .rollback next => next.Ends after

/-- What the process comes to, with the writes that are then pending, satisfies `before` as long as
no write with `P` has been committed, and `after` from then on. -/
def Pays (P : W → Prop) (before : β → List W → Prop) (after : β → Prop) :
    Proc D W K β → List W → Prop
  | .done b, ws => before b ws
  | .stmt _ effect next failed, ws => failed.Pays P before after [] ∧
      ∀ snap cur, (next snap cur).Pays P before after (ws ++ (effect snap cur).writes)
  | .commit next failed, ws => failed.Pays P before after [] ∧
      ((∃ w ∈ ws, P w) → next.Ends after) ∧
      ((∀ w ∈ ws, ¬ P w) → next.Pays P before after [])
  | .rollback next, _ => next.Pays P before after []

variable {P : W → Prop} {after : γ → Prop} {before : γ → List W → Prop}

/-- What ends in one way ends in any that is weaker. -/
theorem Ends.mono {after after' : β → Prop} (h : ∀ b, after b → after' b) {p : Proc D W K β}
    (hp : p.Ends after) : p.Ends after' := by
  induction p with
  | done b => exact h b hp
  | stmt sql effect next failed ihn ihf => exact ⟨ihf hp.1, fun snap cur => ihn _ _ (hp.2 snap cur)⟩
  | commit next failed ihn ihf => exact ⟨ihf hp.1, ihn hp.2⟩
  | rollback next ih => exact ih hp

/-- Every process ends somehow. -/
theorem Ends.trivially (p : Proc D W K β) : p.Ends fun _ => True := by
  induction p with
  | done b => trivial
  | stmt sql effect next failed ihn ihf => exact ⟨ihf, fun _ _ => ihn _ _⟩
  | commit next failed ihn ihf => exact ⟨ihf, ihn⟩
  | rollback next ih => exact ih

/-- A process ends as what follows its first part does. -/
theorem Ends.bind {p : Proc D W K β} {f : β → Proc D W K γ}
    (hp : p.Ends fun b => (f b).Ends after) : (p.bind f).Ends after := by
  induction p with
  | done b => exact hp
  | stmt sql effect next failed ihn ihf => exact ⟨ihf hp.1, fun snap cur => ihn _ _ (hp.2 snap cur)⟩
  | commit next failed ihn ihf => exact ⟨ihf hp.1, ihn hp.2⟩
  | rollback next ih => exact ih hp

/-- Sequencing: the second process pays, or the first one has paid. -/
theorem Pays.bind {p : Proc D W K β} {f : β → Proc D W K γ} {ws : List W}
    (hp : p.Pays P (fun b ws => (f b).Pays P before after ws) (fun b => (f b).Ends after) ws) :
    (p.bind f).Pays P before after ws := by
  induction p generalizing ws with
  | done b => exact hp
  | stmt sql effect next failed ihn ihf => exact ⟨ihf hp.1, fun snap cur => ihn _ _ (hp.2 snap cur)⟩
  | commit next failed ihn ihf =>
    exact ⟨ihf hp.1, fun hw => .bind (hp.2.1 hw), fun hw => ihn (hp.2.2 hw)⟩
  | rollback next ih => exact ih hp

/-- A process that ends so has nothing to pay for. -/
theorem Pays.of_ends {p : Proc D W K γ} (hafter : ∀ b ws, after b → before b ws)
    (hp : p.Ends after) : ∀ {ws}, p.Pays P before after ws := by
  induction p with
  | done b => exact hafter b _ hp
  | stmt sql effect next failed ihn ihf => exact ⟨ihf hp.1, fun snap cur => ihn _ _ (hp.2 snap cur)⟩
  | commit next failed ihn ihf => exact ⟨ihf hp.1, fun _ => hp.2, fun _ => ihn hp.2⟩
  | rollback next ih => exact ih hp

/-- What is paid for is paid for by anything weaker. -/
theorem Pays.mono {before before' : β → List W → Prop} {after after' : β → Prop}
    (hbefore : ∀ b ws, before b ws → before' b ws) (hafter : ∀ b, after b → after' b)
    {p : Proc D W K β} {ws : List W} (hp : p.Pays P before after ws) :
    p.Pays P before' after' ws := by
  induction p generalizing ws with
  | done b => exact hbefore b _ hp
  | stmt sql effect next failed ihn ihf => exact ⟨ihf hp.1, fun snap cur => ihn _ _ (hp.2 snap cur)⟩
  | commit next failed ihn ihf =>
    exact ⟨ihf hp.1, fun hw => (hp.2.1 hw).mono hafter, fun hw => ihn (hp.2.2 hw)⟩
  | rollback next ih => exact ih hp

/-- Running up to the next statement changes no end. -/
theorem Ends.settle {p : Proc D W K γ} (hp : p.Ends after) :
    ∀ {locks : List K} {ws : List W}, (p.settle locks ws).1.Ends after := by
  induction p with
  | rollback next ih => exact ih hp
  | _ => exact hp

/-- Nor does it change what is paid. -/
theorem Pays.settle {p : Proc D W K γ} : ∀ {locks : List K} {ws : List W},
    p.Pays P before after ws →
      (p.settle locks ws).1.Pays P before after (p.settle locks ws).2.2 := by
  induction p with
  | rollback next ih =>
    intro locks ws hp
    exact ih hp
  | _ => exact fun hp => hp

/-! ## The rules of the statements -/

/-- A plain `SELECT` writes nothing. -/
theorem Pays.query {sql : String} {read : D → β} {before : Except DbError β → List W → Prop}
    {after : Except DbError β → Prop} {ws : List W} (herr : before (.error .unavailable) [])
    (hok : ∀ d, before (.ok (read d)) ws) :
    (Proc.query sql read : Proc D W K _).Pays P before after ws := by
  refine ⟨herr, fun snap cur => ?_⟩
  rw [List.append_nil]
  exact hok snap

/-- An `INSERT` writes its row. -/
theorem Pays.insert {S : Store D W K} {sql : String} {waits : D → List K}
    {check : D → Except DbError Unit} {w : W} {before : Except DbError Unit → List W → Prop}
    {after : Except DbError Unit → Prop} {ws : List W} (herr : ∀ e ws, before (.error e) ws)
    (hok : before (.ok ()) (ws ++ [w])) :
    (Proc.insert S sql waits check w).Pays P before after ws := by
  refine ⟨herr _ _, fun snap cur => ?_⟩
  change before _ _
  rcases hc : check cur with e | _
  · simpa [hc] using herr e ws
  · simpa [hc] using hok

/-- An `UPDATE` writes the row that it answers. -/
theorem Pays.update {sql : String} {select : D → Option R} {key : R → K}
    {recheck : D → R → Option R} {change : D → R → Except DbError R} {write : R → W}
    {before : Except DbError (Option R) → List W → Prop} {after : Except DbError (Option R) → Prop}
    {ws : List W} (herr : ∀ e ws, before (.error e) ws) (hnone : before (.ok none) ws)
    (hok : ∀ d r old new, recheck d r = some old → change d old = .ok new →
      before (.ok (some new)) (ws ++ [write new])) :
    (Proc.update sql select key recheck change write).Pays P before after ws := by
  refine ⟨herr _ _, fun snap cur => ?_⟩
  change before _ _
  rcases hs : select snap with _ | r
  · simpa [hs] using hnone
  rcases ho : recheck cur r with _ | old
  · simpa [hs, ho] using hnone
  rcases hn : change cur old with e | new
  · simpa [hs, ho, hn, Except.map] using herr e ws
  · simpa [hs, ho, hn, Except.map] using hok cur r old new ho hn

/-- A statement that is a transaction of its own: what it has written is paid when it is over. -/
theorem Pays.autocommit {p : Proc D W K (Except DbError β)}
    {before : Except DbError β → List W → Prop} {after : Except DbError β → Prop} {ws : List W}
    (herr : ∀ e, before (.error e) [])
    (hp : p.Pays P (fun r ws =>
      match r with
      | .ok b => ((∃ w ∈ ws, P w) → after (.ok b)) ∧ ((∀ w ∈ ws, ¬ P w) → before (.ok b) [])
      | .error _ => True) (fun _ => False) ws) :
    (Proc.autocommit p).Pays P before after ws := by
  refine .bind (hp.mono (fun r ws hr => ?_) fun _ h => h.elim)
  cases r with
  | error e => exact herr e
  | ok b => exact ⟨herr _, hr⟩

/-- A `SELECT` that is a transaction of its own pays nothing. -/
theorem Pays.autocommit_query {sql : String} {read : D → β}
    {before : Except DbError β → List W → Prop} {after : Except DbError β → Prop}
    (herr : ∀ e, before (.error e) []) (hok : ∀ d, before (.ok (read d)) []) :
    (Proc.autocommit (Proc.query sql read) : Proc D W K _).Pays P before after [] :=
  .autocommit herr (.query trivial fun d =>
    ⟨fun ⟨_, hw, _⟩ => absurd hw List.not_mem_nil, fun _ => hok d⟩)

/-- A statement of a client function. -/
theorem Pays.orFail {error : DbError → ε} {p : Proc D W K (Except DbError β)}
    {before : Except ε β → List W → Prop} {after : Except ε β → Prop} {ws : List W}
    (hp : p.Pays P (fun r ws => before (r.mapError error) ws)
      (fun r => after (r.mapError error)) ws) :
    (Proc.orFail error p).run.Pays P before after ws := .bind hp

/-- Sequencing for client functions. -/
theorem Pays.run_bind {m : ExceptT ε (Proc D W K) β} {f : β → ExceptT ε (Proc D W K) γ}
    {before : Except ε γ → List W → Prop} {after : Except ε γ → Prop} {ws : List W}
    (hm : m.run.Pays P (fun r ws =>
      match r with
      | .ok b => (f b).run.Pays P before after ws
      | .error e => before (.error e) ws) (fun r =>
      match r with
      | .ok b => (f b).run.Ends after
      | .error e => after (.error e)) ws) :
    (m >>= f).run.Pays P before after ws := by
  refine .bind (hm.mono (fun r ws hr => ?_) fun r hr => ?_)
  · cases r <;> exact hr
  · cases r <;> exact hr

/-- A client function's own computation, followed by the rest of it. -/
theorem Pays.ensure_bind {r : Except ε β} {f : β → ExceptT ε (Proc D W K) γ}
    {before : Except ε γ → List W → Prop} {after : Except ε γ → Prop} {ws : List W}
    (herr : ∀ e, r = .error e → before (.error e) ws)
    (hok : ∀ b, r = .ok b → (f b).run.Pays P before after ws) :
    (Proc.ensure r >>= f).run.Pays P before after ws := by
  cases r with
  | error e => exact herr e rfl
  | ok b => exact hok b rfl

end Proc

/-! ## Sessions -/

/-- What a session that goes on, or ends, leaves of the state. -/
theorem State.resume_parts (s : State D W K Op α) (id : ℕ) (op : Op) (db : D)
    (p : Proc D W K α) (locks : List K) (ws : List W) :
    (∀ x ∈ (s.resume id op db p locks ws).sessions, x ∈ s.others id ∨ x.id = id ∧ x.op = op ∧
      p.settle locks ws = (x.proc, x.locks, x.writes)) ∧
    (∀ e ∈ (s.resume id op db p locks ws).log, e ∈ s.log ∨ e.id = id ∧ e.op = op ∧
      (p.settle locks ws).1 = .done e.result) ∧
    (s.resume id op db p locks ws).db = db := by
  rcases s.resume_cases id op db p locks ws with ⟨a, hdone, hr⟩ | ⟨x, hid, hop, -, hx, -, hr⟩
  · rw [hr]
    refine ⟨fun x hx => .inl hx, fun e he => ?_, rfl⟩
    rcases List.mem_append.mp he with he | he
    · exact .inl he
    · rw [List.mem_singleton.mp he]
      exact .inr ⟨rfl, rfl, hdone⟩
  · rw [hr]
    refine ⟨fun y hy => ?_, fun e he => .inl he, rfl⟩
    rcases List.mem_cons.mp hy with rfl | hy
    · exact .inr ⟨hid, hop, hx⟩
    · exact .inl (hid ▸ hy)

/-- What a session may come to it may come to from wherever it moves. -/
theorem Proc.Ends.moves [DecidableEq K] {sys : System D W K Op α} {s : State D W K Op α}
    {x : Session D W K Op α} {after : α → Prop} {db : D} {p : Proc D W K α} {locks : List K}
    {ws : List W} (h : x.proc.Ends after) (hmove : sys.Moves s x db p locks ws) : p.Ends after := by
  cases hmove with
  | stmt hp =>
    rw [hp] at h
    exact h.2 _ _
  | commit hp =>
    rw [hp] at h
    exact h.2
  | stmtFails hp =>
    rw [hp] at h
    exact h.1
  | commitFails hp =>
    rw [hp] at h
    exact h.1

/-- What an operation may answer without the receipt, and with it, and the writes that give it. -/
structure Receipt (sys : System D W K Op α) where
  pays : W → Prop
  before : Op → α → Prop
  after : Op → α → Prop
  program : ∀ op, (sys.program op).Pays pays (fun a _ => before op a) (after op) []

namespace Receipt

variable {sys : System D W K Op α} (R : Receipt sys)

/-- The process does not hold the receipt yet. -/
def Owes (op : Op) (p : Proc D W K α) (ws : List W) : Prop :=
  p.Pays R.pays (fun a _ => R.before op a) (R.after op) ws

/-- The operation `id` may hold the receipt. -/
def Holder (s : State D W K Op α) (id : ℕ) : Prop :=
  (∃ x ∈ s.sessions, x.id = id ∧ ¬ R.Owes x.op x.proc x.writes) ∨
    ∃ e ∈ s.log, e.id = id ∧ ¬ R.before e.op e.result

/-- What holds of the receipt between events, where `spent` says that the write was committed. -/
structure Kept (spent : D → Prop) (s : State D W K Op α) : Prop where
  session : ∀ x ∈ s.sessions, R.Owes x.op x.proc x.writes ∨ x.proc.Ends (R.after x.op) ∧ spent s.db
  entry : ∀ e ∈ s.log, R.before e.op e.result ∨ R.after e.op e.result ∧ spent s.db
  one : ∀ id id', R.Holder s id → R.Holder s id' → id = id'

section Kept

variable {R} {s : State D W K Op α} {spent : D → Prop} {id : ℕ} {op : Op} {db : D}
  {p : Proc D W K α} {locks : List K} {ws : List W}

/-- Where there is a holder, the write was committed. -/
theorem Kept.spent_of_holder (h : R.Kept spent s) (hid : R.Holder s id) : spent s.db := by
  rcases hid with ⟨x, hx, -, hnot⟩ | ⟨e, he, -, hnot⟩
  · exact ((h.session x hx).resolve_left hnot).2
  · exact ((h.entry e he).resolve_left hnot).2

/-- A session goes on, or ends: as one that owes, or as one that has paid and is the holder. -/
theorem Kept.resume (h : R.Kept spent s) (hspent : spent s.db → spent db)
    (hp : R.Owes op p ws ∨
      p.Ends (R.after op) ∧ spent db ∧ ∀ id', R.Holder s id' → id' = id) :
    R.Kept spent (s.resume id op db p locks ws) := by
  obtain ⟨hsessions, hlog, hdb⟩ := s.resume_parts id op db p locks ws
  have hsession : ∀ x : Session D W K Op α, x.op = op →
      p.settle locks ws = (x.proc, x.locks, x.writes) → R.Owes x.op x.proc x.writes ∨
        x.proc.Ends (R.after x.op) ∧ spent db ∧ ∀ id', R.Holder s id' → id' = id := by
    intro x hop hx
    rw [hop]
    refine hp.imp (fun h => ?_) fun ⟨h, hrest⟩ => ⟨?_, hrest⟩
    · have hsettled : R.Owes op (p.settle locks ws).1 (p.settle locks ws).2.2 := Proc.Pays.settle h
      rwa [hx] at hsettled
    · have hsettled : (p.settle locks ws).1.Ends (R.after op) := Proc.Ends.settle h
      rwa [hx] at hsettled
  have hentry : ∀ e : Entry Op α, e.op = op → (p.settle locks ws).1 = .done e.result →
      R.before e.op e.result ∨
        R.after e.op e.result ∧ spent db ∧ ∀ id', R.Holder s id' → id' = id := by
    intro e hop hdone
    rw [hop]
    refine hp.imp (fun h => ?_) fun ⟨h, hrest⟩ => ⟨?_, hrest⟩
    · have hsettled : R.Owes op (p.settle locks ws).1 (p.settle locks ws).2.2 := Proc.Pays.settle h
      rwa [hdone] at hsettled
    · have hsettled : (p.settle locks ws).1.Ends (R.after op) := Proc.Ends.settle h
      rwa [hdone] at hsettled
  -- A holder was one before, or is the session when it has just paid.
  have hholder : ∀ id', R.Holder (s.resume id op db p locks ws) id' →
      R.Holder s id' ∨ id' = id ∧ ∀ id'', R.Holder s id'' → id'' = id := by
    rintro id' (⟨x, hx, hxid, hnot⟩ | ⟨e, he, heid, hnot⟩)
    · rcases hsessions x hx with hx | ⟨hid, hop, hx⟩
      · exact .inl (.inl ⟨x, (State.mem_others.mp hx).1, hxid, hnot⟩)
      · exact .inr ⟨hxid.symm.trans hid, ((hsession x hop hx).resolve_left hnot).2.2⟩
    · rcases hlog e he with he | ⟨hid, hop, he⟩
      · exact .inl (.inr ⟨e, he, heid, hnot⟩)
      · exact .inr ⟨heid.symm.trans hid, ((hentry e hop he).resolve_left hnot).2.2⟩
  constructor
  · intro x hx
    rw [hdb]
    rcases hsessions x hx with hx | ⟨-, hop, hx⟩
    · exact (h.session x (State.mem_others.mp hx).1).imp_right fun ⟨hp, hs⟩ => ⟨hp, hspent hs⟩
    · exact (hsession x hop hx).imp_right fun ⟨hp, hs, _⟩ => ⟨hp, hs⟩
  · intro e he
    rw [hdb]
    rcases hlog e he with he | ⟨-, hop, he⟩
    · exact (h.entry e he).imp_right fun ⟨hp, hs⟩ => ⟨hp, hspent hs⟩
    · exact (hentry e hop he).imp_right fun ⟨hp, hs, _⟩ => ⟨hp, hs⟩
  · intro i j hi hj
    rcases hholder i hi with hi₀ | ⟨hid, hall⟩
    · rcases hholder j hj with hj₀ | ⟨hjd, hall⟩
      · exact h.one i j hi₀ hj₀
      · exact (hall i hi₀).trans hjd.symm
    · rcases hholder j hj with hj₀ | ⟨hjd, -⟩
      · exact hid.trans (hall j hj₀).symm
      · exact hid.trans hjd.symm

variable [DecidableEq K] {s' : State D W K Op α} {ev : Event Op} {C : Contract sys}

/-- What a contract says of the write: it is committed once, and that is remembered. -/
structure Once (C : Contract sys) (spent : D → Prop) : Prop where
  fresh : ∀ {op d ws r}, C.Good d → C.guar op d ws r → (∃ w ∈ ws, R.pays w) →
    ¬ spent d ∧ spent (sys.view d ws)
  kept : ∀ {op d ws r}, C.Good d → C.guar op d ws r → spent d → spent (sys.view d ws)

/-- The receipt is kept in every event of a run that keeps to the contract. -/
theorem Kept.step (h : R.Kept spent s) (hR : R.Once C spent) (hs : C.Holds s)
    (hstep : sys.step s ev = some s') : R.Kept spent s' := by
  rcases System.step_cases hstep with ⟨op, rfl, rfl⟩ |
    ⟨x, hx, rfl, hsnap, ⟨sql, effect, next, failed, hp⟩, rfl⟩ |
    ⟨x, hx, hev, db, p, locks, ws, hmove, rfl⟩
  · have h₀ : R.Kept spent { s with fresh := s.fresh + 1 } := ⟨h.session, h.entry, h.one⟩
    exact h₀.resume (fun h => h) (.inl (R.program op))
  · -- A snapshot changes neither the process nor what is pending.
    have hmem : ∀ y ∈ (s.put { x with snapshot := some (sys.view s.db x.writes) }).sessions,
        ∃ z ∈ s.sessions, z.id = y.id ∧ z.op = y.op ∧ z.proc = y.proc ∧ z.writes = y.writes := by
      intro y hy
      rcases List.mem_cons.mp hy with rfl | hy
      · exact ⟨x, hx, rfl, rfl, rfl, rfl⟩
      · exact ⟨y, (State.mem_others.mp hy).1, rfl, rfl, rfl, rfl⟩
    refine ⟨fun y hy => ?_, h.entry, fun i j hi hj => h.one i j ?_ ?_⟩
    · obtain ⟨z, hz, -, hop, hproc, hwrites⟩ := hmem y hy
      rw [← hop, ← hproc, ← hwrites]
      exact h.session z hz
    · refine hi.imp_left fun ⟨y, hy, hid, hnot⟩ => ?_
      obtain ⟨z, hz, hzid, hop, hproc, hwrites⟩ := hmem y hy
      exact ⟨z, hz, hzid.trans hid, by rwa [hop, hproc, hwrites]⟩
    · refine hj.imp_left fun ⟨y, hy, hid, hnot⟩ => ?_
      obtain ⟨z, hz, hzid, hop, hproc, hwrites⟩ := hmem y hy
      exact ⟨z, hz, hzid.trans hid, by rwa [hop, hproc, hwrites]⟩
  · -- A session that has paid is the holder.
    have hpaid : ¬ R.Owes x.op x.proc x.writes →
        x.proc.Ends (R.after x.op) ∧ spent s.db ∧ ∀ id', R.Holder s id' → id' = x.id :=
      fun hnot =>
        have ⟨hends, hspent⟩ := (h.session x hx).resolve_left hnot
        ⟨hends, hspent, fun id' hid' => h.one id' x.id hid' (.inl ⟨x, hx, rfl, hnot⟩)⟩
    by_cases howes : R.Owes x.op x.proc x.writes
    · unfold Owes at howes
      cases hmove with
      | stmt hp hs' hfree =>
        rw [hp] at howes
        exact h.resume (fun h => h) (.inl (howes.2 _ _))
      | stmtFails hp =>
        rw [hp] at howes
        exact h.resume (fun h => h) (.inl howes.1)
      | commitFails hp =>
        rw [hp] at howes
        exact h.resume (fun h => h) (.inl howes.1)
      | commit hp =>
        obtain ⟨r, hguar⟩ := hs.guar_of_commit hx hp
        have hkept := hR.kept ⟨_, hs.inv⟩ hguar
        rw [hp] at howes
        by_cases hpays : ∃ w ∈ x.writes, R.pays w
        · obtain ⟨hfresh, hspent⟩ := hR.fresh ⟨_, hs.inv⟩ hguar hpays
          refine h.resume hkept (.inr ⟨howes.2.1 hpays, hspent, fun id' hid' => ?_⟩)
          exact absurd (h.spent_of_holder hid') hfresh
        · push Not at hpays
          exact h.resume hkept (.inl (howes.2.2 hpays))
    · obtain ⟨hends, hspent, hall⟩ := hpaid howes
      cases hmove with
      | stmt hp hs' hfree =>
        rw [hp] at hends
        exact h.resume (fun h => h) (.inr ⟨hends.2 _ _, hspent, hall⟩)
      | stmtFails hp =>
        rw [hp] at hends
        exact h.resume (fun h => h) (.inr ⟨hends.1, hspent, hall⟩)
      | commitFails hp =>
        rw [hp] at hends
        exact h.resume (fun h => h) (.inr ⟨hends.1, hspent, hall⟩)
      | commit hp =>
        obtain ⟨r, hguar⟩ := hs.guar_of_commit hx hp
        have hkept := hR.kept ⟨_, hs.inv⟩ hguar
        rw [hp] at hends
        exact h.resume hkept (.inr ⟨hends.2, hkept hspent, hall⟩)

/-- The receipt is kept in every run of a sound contract. -/
theorem kept (hS : C.Sound) (hassume : ∀ op sql d, C.assume op sql d) (hR : R.Once C spent) {d₀ : D}
    (h₀ : C.inv d₀ []) (hs : sys.Reaches d₀ s) : R.Kept spent s := by
  induction hs with
  | init => exact ⟨nofun, nofun, fun _ _ h => by rcases h with ⟨_, h, -⟩ | ⟨_, h, -⟩ <;> cases h⟩
  | step ev hs _ hstep ih => exact ih.step hR (hS.holds hassume h₀ hs) hstep

/-- Two entries of the log whose answers need the receipt are one. -/
theorem entry_unique (hS : C.Sound) (hassume : ∀ op sql d, C.assume op sql d)
    (hR : R.Once C spent) {d₀ : D} (h₀ : C.inv d₀ []) (hs : sys.Reaches d₀ s) {e e' : Entry Op α}
    (he : e ∈ s.log) (he' : e' ∈ s.log) (h : ¬ R.before e.op e.result)
    (h' : ¬ R.before e'.op e'.result) : e = e' := by
  have hone := (kept hS hassume hR h₀ hs).one e.id e'.id (.inr ⟨e, he, rfl, h⟩)
    (.inr ⟨e', he', rfl, h'⟩)
  exact List.inj_on_of_nodup_map hs.wellFormed.log_nodup he he' hone

end Kept

/-! ## Operations that have no receipt to show -/

/-- Every session either owes, or has nothing left but to end as a payer does. -/
def Sorted (s : State D W K Op α) : Prop :=
  ∀ x ∈ s.sessions, R.Owes x.op x.proc x.writes ∨ x.proc.Ends (R.after x.op)

/-- The operation `id` has ended as a payer does, or will. -/
structure Paid (s : State D W K Op α) (id : ℕ) : Prop where
  begun : id < s.fresh
  session : ∀ x ∈ s.sessions, x.id = id → x.proc.Ends (R.after x.op)
  entry : ∀ e ∈ s.log, e.id = id → R.after e.op e.result

section Unpaid

variable {R} {s s' : State D W K Op α} {id : ℕ} {op : Op} {db : D} {p : Proc D W K α}
  {locks : List K} {ws : List W}

/-- A session that goes on owes still, or has ended. -/
theorem Sorted.resume (h : R.Sorted s) (hp : R.Owes op p ws ∨ p.Ends (R.after op)) :
    R.Sorted (s.resume id op db p locks ws) := by
  intro x hx
  rcases (s.resume_parts id op db p locks ws).1 x hx with hx | ⟨-, hop, hx⟩
  · exact h x (State.mem_others.mp hx).1
  · rw [hop]
    refine hp.imp (fun h => ?_) fun h => ?_
    · have hsettled : R.Owes op (p.settle locks ws).1 (p.settle locks ws).2.2 := Proc.Pays.settle h
      rwa [hx] at hsettled
    · have hsettled : (p.settle locks ws).1.Ends (R.after op) := Proc.Ends.settle h
      rwa [hx] at hsettled

/-- A session goes on, or ends. If it is the payer, it goes on as one. -/
theorem paid_resume {id' : ℕ} (hbegun : id' < s.fresh)
    (hsession : ∀ x ∈ s.others id, x.id = id' → x.proc.Ends (R.after x.op))
    (hentry : ∀ e ∈ s.log, e.id = id' → R.after e.op e.result)
    (hp : id = id' → p.Ends (R.after op)) : R.Paid (s.resume id op db p locks ws) id' := by
  obtain ⟨hsessions, hlog, -⟩ := s.resume_parts id op db p locks ws
  refine ⟨?_, fun x hx hid => ?_, fun e he hid => ?_⟩
  · rcases s.resume_cases id op db p locks ws with
      ⟨a, -, hr⟩ | ⟨x, -, -, -, -, -, hr⟩ <;> rw [hr] <;> exact hbegun
  · rcases hsessions x hx with hx | ⟨hxid, hop, hx⟩
    · exact hsession x hx hid
    · have hsettled : (p.settle locks ws).1.Ends (R.after op) :=
        Proc.Ends.settle (hp (hxid.symm.trans hid))
      rw [hx] at hsettled
      rwa [hop]
  · rcases hlog e he with he | ⟨heid, hop, he⟩
    · exact hentry e he hid
    · have hsettled : (p.settle locks ws).1.Ends (R.after op) :=
        Proc.Ends.settle (hp (heid.symm.trans hid))
      rw [he] at hsettled
      rwa [hop]

variable [DecidableEq K] {ev : Event Op}

/-- A step keeps the sessions sorted. -/
theorem Sorted.step (h : R.Sorted s) (hstep : sys.step s ev = some s') : R.Sorted s' := by
  rcases System.step_cases hstep with
    ⟨op, rfl, rfl⟩ | ⟨x, hx, -, -, -, rfl⟩ | ⟨x, hx, -, db, p, locks, ws, hmove, rfl⟩
  · have h₀ : R.Sorted { s with fresh := s.fresh + 1 } := h
    exact h₀.resume (.inl (R.program op))
  · intro y hy
    rcases List.mem_cons.mp hy with rfl | hy
    · exact h x hx
    · exact h y (State.mem_others.mp hy).1
  · refine h.resume ?_
    have hx := h x hx
    unfold Owes at hx ⊢
    cases hmove with
    | stmt hp =>
      rw [hp] at hx
      exact hx.imp (fun h => h.2 _ _) fun h => h.2 _ _
    | commit hp =>
      rw [hp] at hx
      rcases hx with hx | hx
      · by_cases hpays : ∃ w ∈ x.writes, R.pays w
        · exact .inr (hx.2.1 hpays)
        · push Not at hpays
          exact .inl (hx.2.2 hpays)
      · exact .inr hx.2
    | stmtFails hp =>
      rw [hp] at hx
      exact hx.imp (fun h => h.1) fun h => h.1
    | commitFails hp =>
      rw [hp] at hx
      exact hx.imp (fun h => h.1) fun h => h.1

/-- In every state that is reached the sessions are sorted. -/
theorem sorted {d₀ : D} (hs : sys.Reaches d₀ s) : R.Sorted s := by
  induction hs with
  | init => exact nofun
  | step ev _ _ hstep ih => exact ih.step hstep

/-- What is paid stays paid. -/
theorem Paid.step (h : R.Paid s id) (hstep : sys.step s ev = some s') : R.Paid s' id := by
  rcases System.step_cases hstep with
    ⟨op, rfl, rfl⟩ | ⟨x, hx, -, -, -, rfl⟩ | ⟨x, hx, -, db, p, locks, ws, hmove, rfl⟩
  · refine paid_resume (Nat.lt_succ_of_lt h.begun)
      (fun y hy => h.session y (State.mem_others.mp hy).1) h.entry fun hid => ?_
    exact absurd hid.symm (Nat.ne_of_lt h.begun)
  · refine ⟨h.begun, fun y hy hid => ?_, h.entry⟩
    rcases List.mem_cons.mp hy with rfl | hy
    · exact h.session x hx hid
    · exact h.session y (State.mem_others.mp hy).1 hid
  · refine paid_resume h.begun (fun y hy => h.session y (State.mem_others.mp hy).1) h.entry
      fun hid => ?_
    exact (h.session x hx hid).moves hmove

/-- What comes later does not undo the payment. -/
theorem Paid.later (h : R.Paid s id) (hl : sys.Later s s') : R.Paid s' id := by
  induction hl with
  | refl => exact h
  | tail _ hstep ih =>
    obtain ⟨ev, hstep⟩ := hstep
    exact ih.step hstep

/-- An event of an operation that has not answered as a payer in the end commits nothing that gives
the receipt. -/
theorem commits_nothing {d₀ : D} (hs : sys.Reaches d₀ s) (hstep : sys.step s ev = some s')
    (hrun : s.Runs ev id op) {s₂ : State D W K Op α} (hl : sys.Later s' s₂) {a : α}
    (he : ⟨id, op, a⟩ ∈ s₂.log) (hnot : ¬ R.after op a) :
    ∃ ws, (∀ w ∈ ws, ¬ R.pays w) ∧ s'.db = sys.view s.db ws := by
  have hunpaid : ¬ R.Paid s' id := fun h => hnot ((h.later hl).entry _ he rfl)
  rcases System.step_cases hstep with
    ⟨op', -, rfl⟩ | ⟨x, -, -, -, -, rfl⟩ | ⟨x, hx, hev, db, p, locks, ws, hmove, rfl⟩
  · exact ⟨[], nofun, (State.resume_parts _ _ _ _ _ _ _).2.2⟩
  · exact ⟨[], nofun, rfl⟩
  obtain ⟨rfl, rfl⟩ := State.Runs.unique hs.wellFormed hrun (.inr ⟨hev, x, hx, rfl, rfl⟩)
  have hdb := (s.resume_parts x.id x.op db p locks ws).2.2
  cases hmove with
  | commit hp =>
    refine ⟨x.writes, fun w hw hpays => hunpaid ?_, hdb⟩
    -- With this commit the session has paid.
    have hnext : p.Ends (R.after x.op) := by
      have hsorted := sorted (R := R) hs x hx
      unfold Owes at hsorted
      rw [hp] at hsorted
      exact hsorted.elim (fun h => h.2.1 ⟨w, hw, hpays⟩) fun h => h.2
    refine paid_resume (hs.wellFormed.sessions_fresh x hx) (fun y hy hid => ?_)
      (fun e he hid => absurd hid (hs.wellFormed.log_sessions e he x hx)) fun _ => hnext
    exact absurd hid (State.mem_others.mp hy).2
  | _ => exact ⟨[], nofun, hdb⟩

end Unpaid

end Receipt

end Postgres
