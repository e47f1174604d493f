import InfernalLaw.Postgres.Answers

/-!
# Operations that the server does not fail

A client that is told of a failure of the server learns nothing about the data, so what an operation
must answer can only be said of runs in which the server does not fail it. `System.ReachesSparing`
are the runs in which it does not: the other operations may fail at any time, and this one meets
them as every operation does. `Proc.Delivers` says of a process what all of its answers satisfy
then, and `System.Returns` is the event in which such an operation answers. With a contract it
follows what the operation has found in the database in that event (`Returns.guar`).

An operation that begins where no other is running can run alone, and then it does return
(`exec_returns`).
-/

namespace Postgres

variable {D W K Op α β γ ε : Type}

/-! ## Processes -/

namespace Proc

/-- Everything that the process may come to satisfies `after`, if none of its statements and commits
fails. -/
def Delivers (after : β → Prop) : Proc D W K β → Prop
  | .done b => after b
  | .stmt _ _ next _ => ∀ snap cur, (next snap cur).Delivers after
  | .commit next _ => next.Delivers after
  | .rollback next => next.Delivers after

namespace Delivers

variable {after : γ → Prop}

/-- What a process delivers satisfies everything weaker. -/
theorem mono {after after' : β → Prop} (h : ∀ b, after b → after' b) {p : Proc D W K β}
    (hp : p.Delivers after) : p.Delivers after' := by
  induction p with
  | done b => exact h b hp
  | stmt sql effect next failed ihn _ => exact fun snap cur => ihn _ _ (hp snap cur)
  | commit next failed ihn _ => exact ihn hp
  | rollback next ih => exact ih hp

/-- A process delivers what all of its answers satisfy. -/
theorem of_ends {p : Proc D W K γ} (hp : p.Ends after) : p.Delivers after := by
  induction p with
  | done b => exact hp
  | stmt sql effect next failed ihn _ => exact fun snap cur => ihn _ _ (hp.2 snap cur)
  | commit next failed ihn _ => exact ihn hp.2
  | rollback next ih => exact ih hp

/-- Sequencing: the second process delivers, from whatever the first one has delivered. -/
theorem bind {p : Proc D W K β} {f : β → Proc D W K γ}
    (hp : p.Delivers fun b => (f b).Delivers after) : (p.bind f).Delivers after := by
  induction p with
  | done b => exact hp
  | stmt sql effect next failed ihn _ => exact fun snap cur => ihn _ _ (hp snap cur)
  | commit next failed ihn _ => exact ihn hp
  | rollback next ih => exact ih hp

/-- Dropping a transaction does not change what a process delivers. -/
theorem settle {p : Proc D W K γ} (hp : p.Delivers after) :
    ∀ {locks : List K} {ws : List W}, (p.settle locks ws).1.Delivers after := by
  induction p with
  | rollback next ih => exact ih hp
  | _ => exact hp

/-! ### The rules of the statements -/

/-- A statement answers its result. -/
theorem statement {sql : String} {effect : D → D → Effect W K} {result : D → D → Except DbError β}
    {after : Except DbError β → Prop} (h : ∀ snap cur, after (result snap cur)) :
    (Proc.statement sql effect result).Delivers after := h

/-- A plain `SELECT` answers what it reads. -/
theorem query {sql : String} {read : D → β} {after : Except DbError β → Prop}
    (h : ∀ d, after (.ok (read d))) : (Proc.query sql read : Proc D W K _).Delivers after :=
  statement fun snap _ => h snap

/-- An `INSERT` answers with the verdict of the constraints. -/
theorem insert {S : Store D W K} {sql : String} {waits : D → List K}
    {check : D → Except DbError Unit} {w : W} {after : Except DbError Unit → Prop}
    (h : ∀ d, after (check d)) : (Proc.insert S sql waits check w).Delivers after :=
  statement fun _ cur => h cur

/-- An `INSERT ... ON CONFLICT DO NOTHING` answers with the verdict of the constraints, or with the
number of rows. -/
theorem insertOrNothing {S : Store D W K} {sql : String} {valid : Except DbError Unit}
    {conflict : D → Bool} {check : D → Except DbError Unit} {w : W}
    {after : Except DbError ℕ → Prop} (hvalid : ∀ e, valid = .error e → after (.error e))
    (hcheck : ∀ d e, check d = .error e → after (.error e)) (hok : ∀ n, after (.ok n)) :
    (Proc.insertOrNothing S sql valid conflict check w).Delivers after := by
  refine statement fun _ cur => ?_
  rcases valid with e | _
  · exact hvalid e rfl
  cases hconflict : conflict cur with
  | true => simpa [Except.bind] using hok 0
  | false =>
    cases hc : check cur with
    | error e => simpa [Except.bind, Except.map] using hcheck cur e hc
    | ok _ => simpa [Except.bind, Except.map] using hok 1

/-- A `COMMIT` succeeds. -/
theorem commitNow {after : Except DbError Unit → Prop} (h : after (.ok ())) :
    (Proc.commitNow : Proc D W K _).Delivers after := h

/-! ### Client functions -/

/-- A client function that opens a transaction. -/
theorem transaction {body : ExceptT ε (Proc D W K) γ} {after : Except ε γ → Prop}
    (hp : body.run.Delivers after) : (Proc.transaction body).Delivers after := .bind hp

/-- A statement of a client function, followed by the rest of it. -/
theorem orFail_bind {error : DbError → ε} {p : Proc D W K (Except DbError β)}
    {f : β → ExceptT ε (Proc D W K) γ} {after : Except ε γ → Prop} (hp : p.Delivers fun r =>
      match r with
      | .ok b => (f b).run.Delivers after
      | .error e => after (.error (error e))) : (Proc.orFail error p >>= f).run.Delivers after := by
  rw [Proc.orFail_bind_run]
  refine .bind (hp.mono fun r hr => ?_)
  cases r <;> exact hr

/-- A client function's own computation, followed by the rest of it. -/
theorem ensure_bind {r : Except ε β} {f : β → ExceptT ε (Proc D W K) γ} {after : Except ε γ → Prop}
    (herr : ∀ e, r = .error e → after (.error e)) (hok : ∀ b, r = .ok b →
      (f b).run.Delivers after) :
    (Proc.ensure r >>= f).run.Delivers after := by
  cases r with
  | error e => exact herr e rfl
  | ok b => exact hok b rfl

end Delivers

end Proc

/-! ## Runs -/

namespace System

variable [DecidableEq K] (sys : System D W K Op α)

/-- The states that runs from the database `d` reach in which the server does not fail the operation
`id`. -/
abbrev ReachesSparing (id : ℕ) (d : D) (s : State D W K Op α) : Prop :=
  sys.ReachesBy (fun _ ev => ev ≠ .fault id) d s

/-- In a run from the database `d₀`, the operation of the entry `e` answers in the event that leads
from `s` to `s'`, and neither then nor before has the server failed it. -/
structure Returns (d₀ : D) (s s' : State D W K Op α) (e : Entry Op α) : Prop where
  reaches : sys.ReachesSparing e.id d₀ s
  event : ∃ ev, ev ≠ .fault e.id ∧ sys.step s ev = some s'
  log : s'.log = s.log ++ [e]

variable {sys} {d₀ : D} {s s' : State D W K Op α} {id : ℕ} {e : Entry Op α}

/-- A run that spares an operation is a run. -/
theorem ReachesBy.reaches {P : State D W K Op α → Event Op → Prop} (h : sys.ReachesBy P d₀ s) :
    sys.Reaches d₀ s := by
  induction h with
  | init => exact .init
  | step ev _ _ hstep ih => exact .step ev ih trivial hstep

/-- Events never make an identifier new again. -/
theorem step_fresh_le {ev : Event Op} (h : sys.step s ev = some s') : s.fresh ≤ s'.fresh := by
  have hresume : ∀ (t : State D W K Op α) id op db (p : Proc D W K α) locks ws,
      (t.resume id op db p locks ws).fresh = t.fresh := by
    intro t id op db p locks ws
    rcases t.resume_cases id op db p locks ws with
      ⟨a, -, hr⟩ | ⟨x, -, -, -, -, -, hr⟩ <;> exact (congrArg State.fresh hr).trans rfl
  rcases step_cases h with ⟨op, -, rfl⟩ | ⟨x, -, -, -, -, rfl⟩ | ⟨x, -, -, db, p, ls, ws, -, rfl⟩
  · rw [hresume]
    exact Nat.le_succ _
  · exact Nat.le_refl _
  · exact Nat.le_of_eq (hresume _ _ _ _ _ _ _).symm

/-- A run has spared the operations that have not begun. -/
theorem ReachesBy.sparing (h : sys.Reaches d₀ s) (hid : s.fresh ≤ id) :
    sys.ReachesSparing id d₀ s := by
  induction h with
  | init => exact .init
  | @step s₁ s₂ ev hs₁ _ hstep ih =>
    have hid₁ : s₁.fresh ≤ id := Nat.le_trans (step_fresh_le hstep) hid
    refine .step ev (ih hid₁) ?_ hstep
    rintro rfl
    -- The server only fails a session that there is.
    rcases step_cases hstep with ⟨op, hev, -⟩ | ⟨x, -, hev, -⟩ | ⟨x, hx, hev, -⟩
    · cases hev
    · cases hev
    · obtain rfl : id = x.id := Option.some.inj hev
      exact absurd (hs₁.wellFormed.sessions_fresh x hx) (Nat.not_lt.mpr hid₁)

/-- What the operation `id` has left to do delivers `after`, and so does its answer. -/
structure Delivering (after : Op → α → Prop) (id : ℕ) (s : State D W K Op α) : Prop where
  session : ∀ x ∈ s.sessions, x.id = id → x.proc.Delivers (after x.op)
  entry : ∀ e ∈ s.log, e.id = id → after e.op e.result

omit [DecidableEq K] in
/-- A session that goes on, or ends, from a process that delivers. -/
theorem Delivering.resume {id' : ℕ} {op : Op} {db : D} {p : Proc D W K α} {locks : List K}
    {ws : List W} (hsession : ∀ x ∈ s.others id', x.id = id → x.proc.Delivers (after x.op))
    (hentry : ∀ e ∈ s.log, e.id = id → after e.op e.result)
    (hp : id' = id → p.Delivers (after op)) :
    Delivering after id (s.resume id' op db p locks ws) := by
  obtain ⟨hsessions, hlog, -⟩ := s.resume_parts id' op db p locks ws
  constructor
  · intro x hx hid
    rcases hsessions x hx with hx | ⟨hxid, hop, hx⟩
    · exact hsession x hx hid
    · have hsettled : (p.settle locks ws).1.Delivers (after op) :=
        (hp (hxid.symm.trans hid)).settle
      rw [hx] at hsettled
      rwa [hop]
  · intro e he hid
    rcases hlog e he with he | ⟨heid, hop, he⟩
    · exact hentry e he hid
    · have hsettled : (p.settle locks ws).1.Delivers (after op) :=
        (hp (heid.symm.trans hid)).settle
      rw [he] at hsettled
      rwa [hop]

/-- A session that completes what it is doing goes on with a process that delivers as much. -/
theorem advance_delivers {x : Session D W K Op α} {P : α → Prop} (h : x.proc.Delivers P)
    (hstep : sys.advance s x = some s') :
    ∃ db p locks ws, s' = s.resume x.id x.op db p locks ws ∧ p.Delivers P := by
  unfold System.advance at hstep
  split at hstep
  · rename_i hp _
    simp only at hstep
    split at hstep
    · rw [hp] at h
      exact ⟨_, _, _, _, (Option.some.inj hstep).symm, h _ _⟩
    · cases hstep
  · rename_i hp
    rw [hp] at h
    exact ⟨_, _, _, _, (Option.some.inj hstep).symm, h⟩
  · cases hstep

/-- An event that does not fail the operation keeps it delivering. -/
theorem Delivering.step (hp : ∀ op, (sys.program op).Delivers (after op)) {ev : Event Op}
    (h : Delivering after id s) (hev : ev ≠ .fault id) (hstep : sys.step s ev = some s') :
    Delivering after id s' := by
  have hothers : ∀ i, ∀ x ∈ s.others i, x.id = id → x.proc.Delivers (after x.op) :=
    fun i x hx => h.session x (State.mem_others.mp hx).1
  cases ev with
  | begin op =>
    obtain rfl := Option.some.inj hstep
    exact .resume (hothers _) h.entry fun _ => hp op
  | snapshot i =>
    obtain ⟨x, hfind, hsnap⟩ := Option.bind_eq_some_iff.mp hstep
    obtain ⟨hx, rfl⟩ := State.mem_of_find hfind
    unfold takeSnapshot at hsnap
    split at hsnap
    · obtain rfl := Option.some.inj hsnap
      refine ⟨fun y hy => ?_, h.entry⟩
      rcases List.mem_cons.mp hy with rfl | hy
      · exact h.session x hx
      · exact hothers _ y hy
    · cases hsnap
  | advance i =>
    obtain ⟨x, hfind, hadvance⟩ := Option.bind_eq_some_iff.mp hstep
    obtain ⟨hx, rfl⟩ := State.mem_of_find hfind
    have hx : x.proc.Delivers fun a => x.id = id → after x.op a := by
      by_cases hid : x.id = id
      · exact (h.session x hx hid).mono fun _ ha _ => ha
      · exact .of_ends ((Proc.Ends.trivially _).mono fun _ _ hxid => absurd hxid hid)
    obtain ⟨db, p, locks, ws, rfl, hp⟩ := advance_delivers hx hadvance
    exact .resume (hothers _) h.entry fun hid => hp.mono fun _ ha => ha hid
  | fault i =>
    rcases step_cases hstep with
      ⟨op, hbegin, -⟩ | ⟨x, -, hsnap, -⟩ | ⟨x, -, hx, _, p, _, _, -, rfl⟩
    · cases hbegin
    · cases hsnap
    · -- Another operation fails.
      obtain rfl : i = x.id := Option.some.inj hx
      exact .resume (hothers _) h.entry fun hid => absurd (congrArg _ hid) hev

/-- An operation that the server does not fail keeps delivering in every run. -/
theorem ReachesBy.delivering (hp : ∀ op, (sys.program op).Delivers (after op))
    (h : sys.ReachesSparing id d₀ s) : Delivering after id s := by
  induction h with
  | init => exact ⟨nofun, nofun⟩
  | step ev _ hev hstep ih => exact ih.step hp hev hstep

namespace Returns

/-- The state in which the operation has answered is reached too. -/
theorem reaches_after (h : sys.Returns d₀ s s' e) : sys.ReachesSparing e.id d₀ s' := by
  obtain ⟨ev, hev, hstep⟩ := h.event
  exact .step ev h.reaches hev hstep

/-- The event in which the operation answers leads on. -/
theorem later (h : sys.Returns d₀ s s' e) : sys.Later s s' :=
  .single (h.event.imp fun _ h => h.2)

/-- What an operation delivers it returns. -/
theorem delivers {P : Op → α → Prop} (h : sys.Returns d₀ s s' e)
    (hp : ∀ op, (sys.program op).Delivers (P op)) : P e.op e.result := by
  refine (ReachesBy.delivering hp h.reaches_after).entry e ?_ rfl
  rw [h.log]
  exact List.mem_append_right _ List.mem_cons_self

/-- In the event in which it returns, an operation does what the contract allows. -/
theorem guar {C : Contract sys} (hS : C.Sound) (hassume : ∀ op sql d, C.assume op sql d)
    (h₀ : C.inv d₀ []) (h : sys.Returns d₀ s s' e) :
    ∃ ws, C.guar e.op s.db ws (some e.result) ∧ s'.db = sys.view s.db ws := by
  obtain ⟨ev, -, hstep⟩ := h.event
  obtain ⟨id, op, ws, r, -, hguar, hdb, hlog⟩ := hS.event hassume h₀ h.reaches.reaches hstep
  rw [h.log] at hlog
  have hr := List.append_cancel_left hlog
  cases r with
  | none => cases hr
  | some a =>
    obtain rfl : e = ⟨id, op, a⟩ := List.cons.inj hr |>.1
    exact ⟨ws, hguar, hdb⟩

end Returns

/-! ## Facts that stay -/

/-- A fact that no write can falsify holds from then on. -/
theorem Later.stable {P : D → Prop} (hP : sys.Stable [] P) (hl : sys.Later s s') (hd : P s.db) :
    P s'.db := by
  induction hl with
  | refl => exact hd
  | tail _ hstep ih =>
    obtain ⟨ev, hstep⟩ := hstep
    rcases step_cases hstep with
      ⟨op, -, rfl⟩ | ⟨x, -, -, -, -, rfl⟩ | ⟨x, -, -, db, p, locks, ws, hmove, rfl⟩
    · rwa [(State.resume_parts _ _ _ _ _ _ _).2.2]
    · exact ih
    · rw [(State.resume_parts _ _ _ _ _ _ _).2.2]
      cases hmove with
      | commit => exact hP.view _ _ (fun _ _ _ _ => List.not_mem_nil) ih
      | _ => exact ih

/-! ## Running alone -/

/-- What an operation does unfailed keeps sparing it. -/
theorem LaterOf.sparing {op : Op} (hl : sys.LaterOf id op s s') (h : sys.ReachesSparing id d₀ s) :
    sys.ReachesSparing id d₀ s' := by
  induction hl with
  | refl => exact h
  | tail _ hstep ih =>
    obtain ⟨ev, hstep, -, hev⟩ := hstep
    exact .step ev ih hev hstep

/-- From a reachable state without running operations an operation can run alone, and returns. -/
theorem exec_returns (h : sys.Reaches d₀ s) (hs : s.sessions = []) (op : Op) :
    ∃ s₁ s₂ s', sys.Later s s₁ ∧ s₁.log = s.log ∧ sys.Returns d₀ s₁ s₂
        ⟨s.fresh, op, ((sys.program op).exec sys.toStore s.db []).result⟩ ∧ sys.Later s₂ s' ∧
      s'.sessions = [] ∧ s'.db = ((sys.program op).exec sys.toStore s.db []).db := by
  obtain ⟨s', hl, hs', hdb, -, hlog⟩ := resume_later sys (sys.program op)
    { s with fresh := s.fresh + 1 } s.fresh op s.db [] [] (by simp [State.others, hs])
  have hbegin : sys.LaterOf s.fresh op s s' := .head ⟨.begin op, rfl, .inl ⟨rfl, rfl⟩, by simp⟩ hl
  obtain ⟨s₁, s₂, hl₁, ⟨ev, hstep, -, hev⟩, hl₂, hne⟩ :=
    exists_changing_step hbegin (f := State.log) (by simp [hlog])
  -- The log grows by one entry in all, and in this event it grows.
  have h₁ := (LaterOf.later hl₁).log_extends
  have h₂ : s₁.log <+: s₂.log := Later.log_extends (.single ⟨ev, hstep⟩)
  have h₃ := (LaterOf.later hl₂).log_extends
  have hlength : s₁.log.length < s₂.log.length :=
    Nat.lt_of_le_of_ne h₂.length_le fun heq => hne (h₂.eq_of_length heq).symm
  have htotal : s'.log.length = s.log.length + 1 := by simp [hlog]
  have hlog₁ : s.log = s₁.log :=
    h₁.eq_of_length (by have := h₁.length_le; have := h₃.length_le; omega)
  have hlog₂ : s₂.log = s'.log :=
    h₃.eq_of_length (by have := h₁.length_le; have := h₃.length_le; omega)
  refine ⟨s₁, s₂, s', LaterOf.later hl₁, hlog₁.symm,
    ⟨LaterOf.sparing hl₁ (h.sparing (Nat.le_refl _)),
    ⟨ev, hev, hstep⟩, ?_⟩, LaterOf.later hl₂, hs', hdb⟩
  rw [hlog₂, hlog, hlog₁]

end System

end Postgres
