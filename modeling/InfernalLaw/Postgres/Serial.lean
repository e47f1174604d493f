import InfernalLaw.Postgres.Engine

/-!
# Running alone

`Proc.exec` is what a process does when no other session runs and the server does not fail: every
statement completes in the state of its snapshot. `System.exec_reaches` connects it to the events of
`Engine.lean`: from a state without running operations, some run of events executes an operation
alone.
-/

namespace Postgres

variable {D W K Op α β ε R : Type}

/-- What a process has come to: the committed database, the writes of the open transaction, and the
result. -/
structure Outcome (D W α : Type) where
  db : D
  pending : List W
  result : α

namespace Proc

variable (S : Store D W K)

/-- The process alone, from the committed database `d` and the pending writes `ws`. -/
def exec : Proc D W K α → D → List W → Outcome D W α
  | .done a, d, ws => ⟨d, ws, a⟩
  | .stmt _ effect next _, d, ws =>
    (next (S.view d ws) (S.view d ws)).exec d (ws ++ (effect (S.view d ws) (S.view d ws)).writes)
  | .commit next _, d, ws => next.exec (S.view d ws) []
  | .rollback next, d, _ => next.exec d []

variable {S} {d : D} {ws : List W}

/-- Sequencing runs one process after the other. -/
theorem exec_bind (p : Proc D W K α) (f : α → Proc D W K β) : ∀ (d : D) (ws : List W),
    (p.bind f).exec S d ws =
      (f (p.exec S d ws).result).exec S (p.exec S d ws).db (p.exec S d ws).pending := by
  induction p with
  | done a => exact fun _ _ => rfl
  | stmt sql effect next failed ihn _ => exact fun _ _ => ihn _ _ _ _
  | commit next failed ihn _ => exact fun _ _ => ihn _ _
  | rollback next ih => exact fun _ _ => ih _ _

/-- A process that has ended does nothing. -/
@[simp] theorem exec_done (a : α) : (done a : Proc D W K α).exec S d ws = ⟨d, ws, a⟩ := rfl

/-- A `ROLLBACK` drops what is pending. -/
@[simp] theorem exec_rollback (p : Proc D W K α) : (rollback p).exec S d ws = p.exec S d [] := rfl

/-- A `COMMIT` makes what is pending durable. -/
@[simp] theorem exec_commitNow :
    (commitNow : Proc D W K _).exec S d ws = ⟨S.view d ws, [], .ok ()⟩ :=
  rfl

/-- A statement reads what the transaction sees and leaves its writes pending. -/
@[simp] theorem exec_statement {sql : String} {effect : D → D → Effect W K}
    {result : D → D → Except DbError β} :
    (statement sql effect result).exec S d ws =
      ⟨d, ws ++ (effect (S.view d ws) (S.view d ws)).writes,
      result (S.view d ws) (S.view d ws)⟩ := rfl

/-- A `SELECT` reads what the transaction sees. -/
@[simp] theorem exec_query {sql : String} (read : D → β) :
    (query sql read : Proc D W K _).exec S d ws = ⟨d, ws, .ok (read (S.view d ws))⟩ := by
  simp [query, statement, exec]

/-- Nobody changes the row that a `SELECT ... FOR UPDATE` finds. -/
@[simp] theorem exec_selectForUpdate {sql : String} (select : D → Option R) (key : R → K)
    (current : D → R → Option R) :
    (selectForUpdate sql select key current : Proc D W K _).exec S d ws =
      ⟨d, ws, .ok ((select (S.view d ws)).bind (current (S.view d ws)))⟩ := by
  simp [selectForUpdate, statement, exec]

/-- An `INSERT` whose constraints hold writes its row. -/
theorem exec_insert_ok {sql : String} {waits : D → List K} {check : D → Except DbError Unit} {w : W}
    (h : check (S.view d ws) = .ok ()) :
    (insert S sql waits check w).exec S d ws = ⟨d, ws ++ [w], .ok ()⟩ := by
  simp [insert, statement, exec, h]

/-- An `INSERT` that a constraint refuses writes nothing. -/
theorem exec_insert_error {sql : String} {waits : D → List K} {check : D → Except DbError Unit}
    {w : W} {e : DbError} (h : check (S.view d ws) = .error e) :
    (insert S sql waits check w).exec S d ws = ⟨d, ws, .error e⟩ := by
  simp [insert, statement, exec, h]

/-- An `INSERT` that succeeds has written its row, and its constraints hold. -/
theorem exec_insert_eq_ok {sql : String} {waits : D → List K} {check : D → Except DbError Unit}
    {w : W} {d' : D} {ws' : List W} {b : Unit}
    (h : (insert S sql waits check w).exec S d ws = ⟨d', ws', .ok b⟩) :
    d' = d ∧ ws' = ws ++ [w] ∧ check (S.view d ws) = .ok () := by
  cases hcheck : check (S.view d ws) with
  | ok _ =>
    rw [exec_insert_ok hcheck] at h
    cases h
    exact ⟨rfl, rfl, rfl⟩
  | error e =>
    rw [exec_insert_error hcheck] at h
    cases h

/-- An `INSERT` commits nothing by itself. -/
@[simp] theorem exec_insert_db {sql : String} {waits : D → List K}
    {check : D → Except DbError Unit} {w : W} :
    ((insert S sql waits check w).exec S d ws).db = d := rfl

/-- An `INSERT ... ON CONFLICT (...) DO UPDATE` whose row is new. -/
theorem exec_upsert_new {sql : String} {find : D → Option R}
    {change : D → R → Except DbError (Option R)} {check : D → Except DbError Unit} {new : W}
    {write : R → W} (hfind : find (S.view d ws) = none) (hcheck : check (S.view d ws) = .ok ()) :
    (upsert S sql find change check new write).exec S d ws = ⟨d, ws ++ [new], .ok .inserted⟩ := by
  simp [upsert, statement, exec, upsertOutcome, hfind, hcheck, Except.map]

/-- One that finds a row, and leaves or changes it. -/
theorem exec_upsert_found {sql : String} {find : D → Option R}
    {change : D → R → Except DbError (Option R)} {check : D → Except DbError Unit} {new : W}
    {write : R → W} {old : R} {r : Option R} (hfind : find (S.view d ws) = some old)
    (hchange : change (S.view d ws) old = .ok r) :
    (upsert S sql find change check new write).exec S d ws =
      ⟨d, ws ++ (r.map write).toList, .ok (r.elim .unchanged fun _ => .updated)⟩ := by
  cases r <;> simp [upsert, statement, exec, upsertOutcome, hfind, hchange, Except.map]

/-- An `INSERT ... ON CONFLICT DO UPDATE` that succeeds alone: it found a row and left it, found a
row and changed it, or inserted the new one. -/
theorem exec_upsert_eq_ok {sql : String} {find : D → Option R}
    {change : D → R → Except DbError (Option R)} {check : D → Except DbError Unit} {new : W}
    {write : R → W} {d' : D} {ws' : List W} {o : Upserted}
    (h : (upsert S sql find change check new write).exec S d ws = ⟨d', ws', .ok o⟩) : d' = d ∧
      ((∃ old, find (S.view d ws) = some old ∧ change (S.view d ws) old = .ok none ∧ ws' = ws ∧
          o = .unchanged) ∨
        (∃ old r, find (S.view d ws) = some old ∧ change (S.view d ws) old = .ok (some r) ∧
          ws' = ws ++ [write r] ∧ o = .updated) ∨
        (find (S.view d ws) = none ∧ check (S.view d ws) = .ok () ∧ ws' = ws ++ [new] ∧
          o = .inserted)) := by
  simp only [upsert, exec_statement, Outcome.mk.injEq, upsertOutcome] at h
  obtain ⟨rfl, hws, ho⟩ := h
  refine ⟨rfl, ?_⟩
  cases hfind : find (S.view d ws) with
  | none =>
    rw [hfind] at hws ho
    cases hcheck : check (S.view d ws) with
    | error e => simp [hcheck, Except.map] at ho
    | ok _ => exact .inr (.inr ⟨rfl, rfl, by simpa [hcheck, Except.map] using hws.symm,
        by simpa [hcheck, Except.map] using ho.symm⟩)
  | some old =>
    rw [hfind] at hws ho
    rcases hchange : change (S.view d ws) old with e | _ | r
    · simp [hchange, Except.map] at ho
    · exact .inl ⟨old, rfl, hchange, by simpa [hchange, Except.map] using hws.symm,
        by simpa [hchange, Except.map] using ho.symm⟩
    · exact .inr (.inl ⟨old, r, rfl, hchange, by simpa [hchange, Except.map] using hws.symm,
        by simpa [hchange, Except.map] using ho.symm⟩)

/-- An `UPDATE` alone, by what it finds. -/
theorem exec_update {sql : String} {select : D → Option R} {key : R → K}
    {recheck : D → R → Option R} {change : D → R → Except DbError R} {write : R → W} :
    (update sql select key recheck change write).exec S d ws =
      match (select (S.view d ws)).bind (recheck (S.view d ws)) with
      | none => ⟨d, ws, .ok none⟩
      | some old =>
        match change (S.view d ws) old with
        | .ok new => ⟨d, ws ++ [write new], .ok (some new)⟩
        | .error e => ⟨d, ws, .error e⟩ := by
  simp only [update, statement, exec]
  cases hs : select (S.view d ws) with
  | none => simp
  | some r =>
    cases ho : recheck (S.view d ws) r with
    | none => simp [ho]
    | some old => cases hc : change (S.view d ws) old <;> simp [ho, hc, Except.map]

/-- A missing row is an error, and nothing else changes. -/
@[simp] theorem exec_one (p : Proc D W K (Except DbError (Option β))) :
    (one p).exec S d ws = ⟨(p.exec S d ws).db, (p.exec S d ws).pending,
      (p.exec S d ws).result.bind fun b => b.elim (.error .unexpectedRowCount) .ok⟩ := by
  simp [one, exec_bind]

/-- A statement that is a transaction of its own commits what it has written, or drops it. -/
theorem exec_autocommit (p : Proc D W K (Except DbError β)) :
    (autocommit p).exec S d ws =
      match (p.exec S d ws).result with
      | .ok b => ⟨S.view (p.exec S d ws).db (p.exec S d ws).pending, [], .ok b⟩
      | .error e => ⟨(p.exec S d ws).db, [], .error e⟩ := by
  rw [autocommit, exec_bind]
  cases (p.exec S d ws).result <;> rfl

/-- A statement that is a transaction of its own and succeeds alone. -/
theorem exec_autocommit_eq_ok {p : Proc D W K (Except DbError β)} {d' : D} {ws' : List W} {b : β} :
    (autocommit p).exec S d ws = ⟨d', ws', .ok b⟩ ↔ ∃ d₁ ws₁,
      p.exec S d ws = ⟨d₁, ws₁, .ok b⟩ ∧ d' = S.view d₁ ws₁ ∧ ws' = [] := by
  rw [exec_autocommit]
  rcases p.exec S d ws with ⟨d₁, ws₁, er | b'⟩
  · simp
  · constructor
    · rintro ⟨⟩
      exact ⟨d₁, ws₁, rfl, rfl, rfl⟩
    · rintro ⟨_, _, ⟨rfl, rfl, rfl⟩, rfl, rfl⟩
      rfl

/-- A transaction alone drops what it has not committed. -/
@[simp] theorem exec_transaction (body : ExceptT ε (Proc D W K) β) :
    (transaction body).exec S d ws =
      ⟨(body.run.exec S d ws).db, [], (body.run.exec S d ws).result⟩ := by
  simp [transaction, exec_bind]

/-- A client function alone, followed by the rest of it. -/
theorem exec_run_bind {γ : Type} {m : ExceptT ε (Proc D W K) β} {f : β → ExceptT ε (Proc D W K) γ} :
    (m >>= f).run.exec S d ws =
      match (m.run.exec S d ws).result with
      | .ok b => (f b).run.exec S (m.run.exec S d ws).db (m.run.exec S d ws).pending
      | .error e => ⟨(m.run.exec S d ws).db, (m.run.exec S d ws).pending, .error e⟩ := by
  refine (exec_bind m.run _ d ws).trans ?_
  cases (m.run.exec S d ws).result <;> rfl

/-- A client function that succeeds alone, and the rest of it too. -/
theorem exec_run_bind_eq_ok {γ : Type} {m : ExceptT ε (Proc D W K) β}
    {f : β → ExceptT ε (Proc D W K) γ} {d' : D} {ws' : List W} {c : γ} :
    (m >>= f).run.exec S d ws = ⟨d', ws', .ok c⟩ ↔ ∃ d₁ ws₁ b,
      m.run.exec S d ws = ⟨d₁, ws₁, .ok b⟩ ∧ (f b).run.exec S d₁ ws₁ = ⟨d', ws', .ok c⟩ := by
  rw [exec_run_bind]
  rcases hm : m.run.exec S d ws with ⟨d₁, ws₁, er | b⟩
  · simp
  · constructor
    · exact fun h => ⟨d₁, ws₁, b, rfl, h⟩
    · rintro ⟨_, _, _, ⟨rfl, rfl, rfl⟩, h⟩
      exact h

/-- A client function's own computation that succeeds alone. -/
theorem exec_ensure_eq_ok {r : Except ε β} {d' : D} {ws' : List W} {b : β} :
    (ensure r : ExceptT ε (Proc D W K) β).run.exec S d ws = ⟨d', ws', .ok b⟩ ↔
      d' = d ∧ ws' = ws ∧ r = .ok b := by
  constructor
  · rintro ⟨⟩
    exact ⟨rfl, rfl, rfl⟩
  · rintro ⟨rfl, rfl, rfl⟩
    rfl

/-- A statement of a client function that succeeds alone. -/
theorem exec_orFail_eq_ok {error : DbError → ε} {p : Proc D W K (Except DbError β)} {d' : D}
    {ws' : List W} {b : β} :
    (orFail error p).run.exec S d ws = ⟨d', ws', .ok b⟩ ↔ p.exec S d ws = ⟨d', ws', .ok b⟩ := by
  have hexec : (orFail error p).run.exec S d ws =
      ⟨(p.exec S d ws).db, (p.exec S d ws).pending, (p.exec S d ws).result.mapError error⟩ :=
    exec_bind p _ d ws
  rw [hexec]
  rcases p.exec S d ws with ⟨d₁, ws₁, er | b'⟩
  · simp [Except.mapError]
  · simp [Except.mapError]

/-- A statement of a client function alone, followed by the rest of it. -/
theorem exec_orFail_bind {γ : Type} {error : DbError → ε} {p : Proc D W K (Except DbError β)}
    {f : β → ExceptT ε (Proc D W K) γ} :
    (orFail error p >>= f).run.exec S d ws =
      match (p.exec S d ws).result with
      | .ok b => (f b).run.exec S (p.exec S d ws).db (p.exec S d ws).pending
      | .error e => ⟨(p.exec S d ws).db, (p.exec S d ws).pending, .error (error e)⟩ := by
  rw [orFail_bind_run, exec_bind]
  cases (p.exec S d ws).result <;> rfl

/-- A statement that is followed by an exception. -/
theorem exec_orFail_throw {γ : Type} {error : DbError → ε} {p : Proc D W K (Except DbError β)}
    (e : ε) : ∃ e' ws', (orFail error p >>= fun _ => throw e : ExceptT ε (Proc D W K) γ).run.exec S
      d ws = ⟨(p.exec S d ws).db, ws', .error e'⟩ := by
  rw [exec_orFail_bind]
  cases (p.exec S d ws).result <;> exact ⟨_, _, rfl⟩

/-- A query that is a transaction of its own, alone. -/
theorem exec_orFail_query {error : DbError → ε} {sql : String} {read : D → β} :
    (orFail error (autocommit (query sql read)) : ExceptT ε (Proc D W K) β).run.exec S d [] =
      ⟨d, [], .ok (read d)⟩ := rfl

/-- A query whose answer the client then reads. -/
theorem exec_orFail_query_ensure {γ : Type} {error : DbError → ε} {sql : String} {read : D → β}
    {f : β → Except ε γ} :
    (orFail error (autocommit (query sql read)) >>= fun b => ensure (f b) :
      ExceptT ε (Proc D W K) γ).run.exec S d [] = ⟨d, [], f (read d)⟩ := rfl

/-- A client function's own computation alone, followed by the rest of it. -/
theorem exec_ensure_bind {γ : Type} {r : Except ε β} {f : β → ExceptT ε (Proc D W K) γ} :
    (ensure r >>= f).run.exec S d ws =
      match r with
      | .ok b => (f b).run.exec S d ws
      | .error e => ⟨d, ws, .error e⟩ := by
  cases r <;> rfl

end Proc

/-! ## Running alone is a run -/

namespace State

/-- In a state with one session, there is no other. -/
theorem others_singleton {s : State D W K Op α} {x : Session D W K Op α}
    (h : s.sessions = [x]) : s.others x.id = [] := by
  simp [others, h]

end State

/-- What changes on the way from one end to the other changes in one of the steps. -/
theorem exists_changing_step {σ : Type} {r : σ → σ → Prop} {a b : σ}
    (h : Relation.ReflTransGen r a b) {f : σ → β} (hf : f b ≠ f a) : ∃ c c',
      Relation.ReflTransGen r a c ∧ r c c' ∧ Relation.ReflTransGen r c' b ∧ f c' ≠ f c := by
  induction h with
  | refl => exact absurd rfl hf
  | @tail c c' hl hstep ih =>
    by_cases hc : f c = f a
    · exact ⟨c, c', hl, hstep, .refl, hc ▸ hf⟩
    · obtain ⟨b, b', hl₁, hb, hl₂, hne⟩ := ih hc
      exact ⟨b, b', hl₁, hb, hl₂.tail hstep, hne⟩

namespace System

variable [DecidableEq K] {sys : System D W K Op α}

/-- The events of one operation, which the server does not fail, lead from a state to another. -/
def LaterOf (sys : System D W K Op α) (id : ℕ) (op : Op) :
    State D W K Op α → State D W K Op α → Prop :=
  Relation.ReflTransGen fun s s' => ∃ ev, sys.step s ev = some s' ∧ s.Runs ev id op ∧ ev ≠ .fault id

/-- The events of one operation are events of a run. -/
theorem LaterOf.later {s s' : State D W K Op α} {id : ℕ} {op : Op} (h : sys.LaterOf id op s s') :
    sys.Later s s' :=
  Relation.ReflTransGen.mono (fun _ _ h => h.imp fun _ h => h.1) _ _ h

/-- A session that is alone runs its process to the end. -/
theorem resume_later (sys : System D W K Op α) (p : Proc D W K α) :
    ∀ (s : State D W K Op α) (id : ℕ) (op : Op) (d : D) (locks : List K) (ws : List W),
      s.others id = [] → ∃ s', sys.LaterOf id op (s.resume id op d p locks ws) s' ∧
      s'.sessions = [] ∧ s'.db = (p.exec sys.toStore d ws).db ∧ s'.fresh = s.fresh ∧
      s'.log = s.log ++ [⟨id, op, (p.exec sys.toStore d ws).result⟩] := by
  induction p with
  | done a => exact fun s id op d locks ws h => ⟨_, .refl, h, rfl, rfl, rfl⟩
  | stmt sql effect next failed ihn _ =>
    intro s id op d locks ws h
    let x : Session D W K Op α := ⟨id, op, .stmt sql effect next failed, none, locks, ws⟩
    let s₁ : State D W K Op α := { s with db := d }.put x
    let s₂ := s₁.put { x with snapshot := some (sys.view d ws) }
    have h₁ : s₁.sessions = [x] := by simp only [s₁, State.put, x]; exact congrArg _ h
    have h₂ : s₂.sessions = [{ x with snapshot := some (sys.view d ws) }] := by
      simp only [s₂, State.put]
      exact congrArg _ (State.others_singleton h₁)
    -- The session is alone, so its snapshot is what it sees, and nobody holds a key that it waits
    -- for.
    have hsnap : sys.step s₁ (.snapshot id) = some s₂ := by
      simp only [step, State.find, h₁, List.find?_cons, x, decide_true]
      rfl
    have hothers : s₂.others id = [] := State.others_singleton h₂
    have hadv : sys.step s₂ (.advance id) = some (s₂.resume id op d
        (next (sys.view d ws) (sys.view d ws))
        (locks ++ sys.held (effect (sys.view d ws) (sys.view d ws)))
        (ws ++ (effect (sys.view d ws) (sys.view d ws)).writes)) := by
      simp only [step, State.find, h₂, List.find?_cons, x, decide_true]
      have hfree : ∀ keys, s₂.free id keys = true := by simp [State.free, hothers]
      exact if_pos (hfree _)
    obtain ⟨s', hl, hs', hdb, hf, hlog⟩ := ihn (sys.view d ws) (sys.view d ws) s₂ id op d
      (locks ++ sys.held (effect (sys.view d ws) (sys.view d ws)))
      (ws ++ (effect (sys.view d ws) (sys.view d ws)).writes) hothers
    have hruns₁ : s₁.Runs (.snapshot id) id op :=
      .inr ⟨rfl, x, h₁ ▸ List.mem_singleton_self x, rfl, rfl⟩
    have hruns₂ : s₂.Runs (.advance id) id op :=
      .inr ⟨rfl, _, h₂ ▸ List.mem_singleton_self _, rfl, rfl⟩
    exact ⟨s', (hl.head ⟨_, hadv, hruns₂, by simp⟩).head ⟨_, hsnap, hruns₁, by simp⟩, hs', hdb, hf,
      hlog⟩
  | commit next failed ihn _ =>
    intro s id op d locks ws h
    let x : Session D W K Op α := ⟨id, op, .commit next failed, none, locks, ws⟩
    let s₁ : State D W K Op α := { s with db := d }.put x
    have h₁ : s₁.sessions = [x] := by simp only [s₁, State.put, x]; exact congrArg _ h
    have hadv : sys.step s₁ (.advance id) =
        some (s₁.resume id op (sys.view d ws) next [] []) := by
      simp only [step, State.find, h₁, List.find?_cons, x, decide_true]
      rfl
    obtain ⟨s', hl, hs', hdb, hf, hlog⟩ := ihn s₁ id op (sys.view d ws) [] []
      (State.others_singleton h₁)
    have hruns : s₁.Runs (.advance id) id op :=
      .inr ⟨rfl, x, h₁ ▸ List.mem_singleton_self x, rfl, rfl⟩
    exact ⟨s', hl.head ⟨_, hadv, hruns, by simp⟩, hs', hdb, hf, hlog⟩
  | rollback next ih =>
    intro s id op d locks ws h
    exact ih s id op d [] [] h

/-- From a reachable state without running operations, an operation can run alone. -/
theorem exec_reaches {d : D} {s : State D W K Op α} (h : sys.Reaches d s) (hs : s.sessions = [])
    (op : Op) : ∃ s', sys.Reaches d s' ∧ s'.sessions = [] ∧
      s'.db = ((sys.program op).exec sys.toStore s.db []).db ∧
      s'.log = s.log ++ [⟨s.fresh, op, ((sys.program op).exec sys.toStore s.db []).result⟩] := by
  obtain ⟨s', hl, hs', hdb, -, hlog⟩ := resume_later sys (sys.program op)
    { s with fresh := s.fresh + 1 } s.fresh op s.db [] [] (by simp [State.others, hs])
  have hbegin : sys.Reaches d ({ s with fresh := s.fresh + 1 }.resume s.fresh op s.db
      (sys.program op) [] []) := .step (.begin op) h trivial rfl
  exact ⟨s', hbegin.later hl.later, hs', hdb, hlog⟩

/-- An operation that runs alone comes to an end. -/
theorem exec_later {s : State D W K Op α} (hs : s.sessions = []) (op : Op) :
    ∃ s', sys.Later s s' ∧ s'.sessions = [] ∧
      s'.db = ((sys.program op).exec sys.toStore s.db []).db := by
  obtain ⟨s', hl, hs', hdb, -⟩ := resume_later sys (sys.program op)
    { s with fresh := s.fresh + 1 } s.fresh op s.db [] [] (by simp [State.others, hs])
  exact ⟨s', .head ⟨.begin op, rfl⟩ hl.later, hs', hdb⟩

/-- What an operation changes that runs alone it changes in one of its events. -/
theorem exec_event (sys : System D W K Op α) {s : State D W K Op α} (hs : s.sessions = []) (op : Op)
    {f : State D W K Op α → β} (hf : ∀ s', s'.db = ((sys.program op).exec sys.toStore s.db []).db →
      s'.log.length = s.log.length + 1 → f s' ≠ f s) :
    ∃ s₁ ev s₂ s', sys.Later s s₁ ∧ sys.step s₁ ev = some s₂ ∧ s₁.Runs ev s.fresh op ∧ f s₂ ≠ f s₁ ∧
      sys.Later s₂ s' ∧ s'.sessions = [] ∧ s'.fresh = s.fresh + 1 ∧
      s'.db = ((sys.program op).exec sys.toStore s.db []).db := by
  obtain ⟨s', hl, hs', hdb, hfresh, hlog⟩ := resume_later sys (sys.program op)
    { s with fresh := s.fresh + 1 } s.fresh op s.db [] [] (by simp [State.others, hs])
  have hbegin : sys.LaterOf s.fresh op s s' := .head ⟨.begin op, rfl, .inl ⟨rfl, rfl⟩, by simp⟩ hl
  obtain ⟨s₁, s₂, hl₁, ⟨ev, hstep, hruns, -⟩, hl₂, hne⟩ :=
    exists_changing_step hbegin (hf s' hdb (by simp [hlog]))
  exact ⟨s₁, ev, s₂, s', LaterOf.later hl₁, hstep, hruns, hne, LaterOf.later hl₂, hs', hfresh, hdb⟩

/-- From a reachable state without running operations, operations can run alone, one after the
other. -/
theorem exec_all_reaches {d : D} {s : State D W K Op α} (h : sys.Reaches d s) (hs : s.sessions = [])
    (ops : List Op) : ∃ s', sys.Reaches d s' ∧ s'.sessions = [] ∧
      s'.db = ops.foldl (fun d op => ((sys.program op).exec sys.toStore d []).db) s.db := by
  induction ops generalizing s with
  | nil => exact ⟨s, h, hs, rfl⟩
  | cons op ops ih =>
    obtain ⟨s₁, h₁, hs₁, hdb₁, -⟩ := exec_reaches h hs op
    obtain ⟨s', h', hs', hdb'⟩ := ih h₁ hs₁
    refine ⟨s', h', hs', ?_⟩
    rw [hdb', hdb₁]
    rfl

end System

end Postgres
