import Mathlib.Data.List.Forall2
import Mathlib.Data.Nat.Notation

/-!
# Database processes

A process is what one client does against a PostgreSQL database at READ COMMITTED: statements
grouped into transactions, with the client's own computation between them, and a result at the end.
The database `D`, the row writes `W`, and the keys `K` that statements wait for are parameters.

A statement is given by two views of the database: the snapshot that it takes when it starts, and
the current state when it completes, which differ when it had to wait for another transaction. Both
contain the transaction's own writes. Its `Effect` says which keys must be free for it to complete,
which of them the transaction holds from then on, and which rows it writes. A row lock, and the
entry of a unique index that an uncommitted row occupies, are both keys: another transaction that
wants the same key waits until this one ends.

A server error ends the transaction: the writes are discarded, the keys are freed, and the process
goes on with the statement's `failed` continuation. A `commit` that fails is rolled back likewise.
-/

namespace Postgres

/-- What the database reports when it refuses a statement. A constraint is given by its name, and
an exception that a trigger or a function raises by its message. -/
inductive DbError where
  | uniqueViolation (constraint : String)
  | foreignKeyViolation (constraint : String)
  | checkViolation (constraint : String)
  | raised (message : String)
  /-- A text value that the database's encoding does not have: one with the character NUL. -/
  | invalidText
  /-- The client driver's complaint about a query that must answer one row and answers none. -/
  | unexpectedRowCount
  /-- The statement or the `COMMIT` failed for a reason that lies outside the data, and the
  transaction with it: a deadlock victim, a timeout, a connection that is lost before the server has
  committed. -/
  | unavailable
  deriving DecidableEq, Repr

/-- A constraint: `e` unless `p` holds. -/
def require (p : Prop) [Decidable p] (e : DbError) : Except DbError Unit :=
  if p then .ok () else .error e

/-- A check passes exactly when what it asks for holds. -/
@[simp] theorem require_eq_ok {p : Prop} [Decidable p] {e : DbError} :
    require p e = .ok () ↔ p := by
  unfold require
  split <;> simp_all

/-- Constraints are checked in order, and all of them hold when the check succeeds. -/
@[simp] theorem require_bind_eq_ok {β : Type} {p : Prop} [Decidable p] {e : DbError}
    {f : Unit → Except DbError β} {b : β} :
    (require p e >>= f) = .ok b ↔ p ∧ f () = .ok b := by
  unfold require
  split <;> simp_all [bind, Except.bind]

/-- A constraint reports its own error, and only when it does not hold. -/
theorem require_eq_error {p : Prop} [Decidable p] {e e' : DbError} :
    require p e = .error e' ↔ ¬ p ∧ e = e' := by
  unfold require
  split <;> simp_all

/-- Of several constraints the first one that does not hold reports its error. -/
theorem require_bind_eq_error {β : Type} {p : Prop} [Decidable p] {e e' : DbError}
    {f : Unit → Except DbError β} :
    (require p e >>= f) = .error e' ↔ ¬ p ∧ e = e' ∨ p ∧ f () = .error e' := by
  unfold require
  split <;> simp_all [bind, Except.bind]

/-- A computation that may fail succeeds when both of its parts do. -/
theorem bind_eq_ok {ε β γ : Type} {x : Except ε β} {f : β → Except ε γ} {c : γ} :
    (x >>= f) = .ok c ↔ ∃ b, x = .ok b ∧ f b = .ok c := by
  cases x <;> simp [bind, Except.bind]

/-- A check and what comes after it. -/
theorem check_bind_eq_ok {ε β : Type} {x : Except ε Unit} {f : Unit → Except ε β} {b : β} :
    (x >>= f) = .ok b ↔ x = .ok () ∧ f () = .ok b := by
  cases x <;> simp [bind, Except.bind]

/-- What becomes of an error does not matter to a success. -/
@[simp] theorem mapError_eq_ok {ε ε' β : Type} {x : Except ε β} {f : ε → ε'} {b : β} :
    x.mapError f = .ok b ↔ x = .ok b := by
  cases x <;> simp [Except.mapError]

/-- A row that is asked for is there. -/
@[simp] theorem elim_eq_ok {ε β : Type} {x : Option β} {e : ε} {b : β} :
    (x.elim (.error e) .ok : Except ε β) = .ok b ↔ x = some b := by
  cases x <;> simp

/-- What a successful computation leaves as an option. -/
theorem toOption_eq_some {ε β : Type} {x : Except ε β} {b : β} :
    x.toOption = some b ↔ x = .ok b := by
  cases x <;> simp [Except.toOption]

/-- A computation fails when its first part does, or when its second part does. -/
theorem bind_eq_error {ε β γ : Type} {x : Except ε β} {f : β → Except ε γ} {e : ε} :
    (x >>= f) = .error e ↔ x = .error e ∨ ∃ b, x = .ok b ∧ f b = .error e := by
  cases x <;> simp [bind, Except.bind]

/-- A renamed error is the name of an error. -/
theorem mapError_eq_error {ε ε' β : Type} {x : Except ε β} {f : ε → ε'} {e : ε'} :
    x.mapError f = .error e ↔ ∃ e', x = .error e' ∧ f e' = e := by
  cases x <;> simp [Except.mapError]

/-- The error for a missing row says that there is none. -/
theorem elim_eq_error {ε β : Type} {x : Option β} {e e' : ε} :
    (x.elim (.error e) .ok : Except ε β) = .error e' ↔ x = none ∧ e = e' := by
  cases x <;> simp

/-- A list is read when each of its elements is. -/
theorem mapM_eq_ok {ε β γ : Type} {f : β → Except ε γ} {l : List β} {l' : List γ} :
    l.mapM f = .ok l' ↔ List.Forall₂ (fun b c => f b = .ok c) l l' := by
  induction l generalizing l' with
  | nil => simp [pure, Except.pure, eq_comm]
  | cons b l ih =>
    rw [List.mapM_cons]
    simp only [bind_eq_ok, ih, pure, Except.pure, Except.ok.injEq]
    constructor
    · rintro ⟨c, hc, l', hl, rfl⟩
      exact .cons hc hl
    · rintro (_ | ⟨hc, hl⟩)
      exact ⟨_, hc, _, hl, rfl⟩

/-- A list whose elements can be read can be read. -/
theorem exists_mapM_eq_ok {ε β γ : Type} {f : β → Except ε γ} {l : List β}
    (h : ∀ b ∈ l, ∃ c, f b = .ok c) : ∃ l', l.mapM f = .ok l' := by
  induction l with
  | nil => exact ⟨[], rfl⟩
  | cons b l ih =>
    obtain ⟨c, hc⟩ := h b List.mem_cons_self
    obtain ⟨l', hl⟩ := ih fun b' hb' => h b' (List.mem_cons_of_mem _ hb')
    exact ⟨c :: l', mapM_eq_ok.mpr (.cons hc (mapM_eq_ok.mp hl))⟩

/-- What is in a list that was read. -/
theorem mem_of_mapM_eq_ok {ε β γ : Type} {f : β → Except ε γ} {l : List β} {l' : List γ} {c : γ}
    (h : l.mapM f = .ok l') : c ∈ l' ↔ ∃ b ∈ l, f b = .ok c := by
  rw [mapM_eq_ok] at h
  induction h with
  | nil => simp
  | @cons b c' l l' hbc _ ih =>
    rw [List.mem_cons, ih]
    constructor
    · rintro (rfl | ⟨b', hb', hc⟩)
      · exact ⟨b, List.mem_cons_self, hbc⟩
      · exact ⟨b', List.mem_cons_of_mem _ hb', hc⟩
    · rintro ⟨b', hb', hc⟩
      rcases List.mem_cons.mp hb' with rfl | hb'
      · exact .inl (Except.ok.inj (hc.symm.trans hbc))
      · exact .inr ⟨b', hb', hc⟩

/-- What a statement needs and does when it completes. -/
structure Effect (W K : Type) where
  /-- Keys that no other transaction may hold at that time, but that are not taken. -/
  waits : List K := []
  /-- Keys that are taken besides those of the writes. -/
  locks : List K := []
  /-- Rows that are written, in order. -/
  writes : List W := []

/-- A process over the database `D` with the result type `α`. -/
inductive Proc (D W K α : Type) where
  /-- The process is over. -/
  | done (result : α)
  /-- The statement `sql`, whose effect and continuation depend on its snapshot and on the current
  state at its completion. -/
  | stmt (sql : String) (effect : D → D → Effect W K) (next : D → D → Proc D W K α)
      (failed : Proc D W K α)
  /-- `COMMIT` of the open transaction. -/
  | commit (next failed : Proc D W K α)
  /-- The open transaction is dropped. -/
  | rollback (next : Proc D W K α)

/-- How writes change a database, and the keys that an uncommitted write holds. -/
structure Store (D W K : Type) where
  apply : D → W → D
  keys : W → List K

variable {D W K α β : Type}

/-- The database as a transaction with the pending writes `ws` sees it. -/
def Store.view (S : Store D W K) (d : D) (ws : List W) : D := ws.foldl S.apply d

/-- No writes show the state itself. -/
@[simp] theorem Store.view_nil (S : Store D W K) (d : D) : S.view d [] = d := rfl

/-- The first of the writes is applied first. -/
@[simp] theorem Store.view_cons (S : Store D W K) (d : D) (w : W) (ws : List W) :
    S.view d (w :: ws) = S.view (S.apply d w) ws := rfl

/-- Writes are applied one part after the other. -/
theorem Store.view_append (S : Store D W K) (d : D) (ws ws' : List W) :
    S.view d (ws ++ ws') = S.view (S.view d ws) ws' := List.foldl_append

/-- The keys that a transaction holds for an effect once the statement has completed. -/
def Store.held (S : Store D W K) (e : Effect W K) : List K := e.locks ++ e.writes.flatMap S.keys

/-- The keys that must be free of other transactions for the statement to complete. -/
def Store.needs (S : Store D W K) (e : Effect W K) : List K := e.waits ++ S.held e

/-- To do nothing holds no locks. -/
@[simp] theorem Store.held_empty (S : Store D W K) : S.held {} = [] := rfl

/-- A statement holds the keys of what it writes. -/
theorem Store.mem_held_of_write (S : Store D W K) {e : Effect W K} {w : W} {k : K}
    (hw : w ∈ e.writes) (hk : k ∈ S.keys w) : k ∈ S.held e :=
  List.mem_append_right _ (List.mem_flatMap.mpr ⟨w, hw, hk⟩)

/-- A fact that no write can falsify which leaves the keys `locks` alone. -/
def Store.Stable (S : Store D W K) (locks : List K) (P : D → Prop) : Prop :=
  ∀ d w, P d → (∀ k ∈ S.keys w, k ∉ locks) → P (S.apply d w)

namespace Store.Stable

variable {S : Store D W K} {locks locks' : List K} {P P' : D → Prop}

/-- More locks protect more facts. -/
theorem mono (h : S.Stable locks P) (hl : ∀ k ∈ locks, k ∈ locks') : S.Stable locks' P :=
  fun d w hd hk => h d w hd fun k hkw hkl => hk k hkw (hl k hkl)

/-- Two properties that nobody else disturbs, together, are one. -/
theorem and (h : S.Stable locks P) (h' : S.Stable locks P') :
    S.Stable locks fun d => P d ∧ P' d :=
  fun d w hd hk => ⟨h d w hd.1 hk, h' d w hd.2 hk⟩

/-- A stable fact survives a list of writes. -/
theorem view (h : S.Stable locks P) : ∀ (ws : List W) (d : D),
    (∀ w ∈ ws, ∀ k ∈ S.keys w, k ∉ locks) → P d → P (S.view d ws)
  | [], _, _, hd => hd
  | w :: ws, d, hkeys, hd =>
    h.view ws _ (fun w' hw' => hkeys w' (List.mem_cons_of_mem _ hw'))
      (h d w hd (hkeys w List.mem_cons_self))

end Store.Stable

namespace Proc

/-- Sequencing: the second process starts with the first one's result. -/
def bind : Proc D W K α → (α → Proc D W K β) → Proc D W K β
  | done a, f => f a
  | stmt sql effect next failed, f =>
    stmt sql effect (fun snap cur => (next snap cur).bind f) (failed.bind f)
  | commit next failed, f => commit (next.bind f) (failed.bind f)
  | rollback next, f => rollback (next.bind f)

instance : Monad (Proc D W K) where
  pure := done
  bind := bind

/-- The monad's result is a process that has ended. -/
@[simp] theorem pure_eq (a : α) : (pure a : Proc D W K α) = done a := rfl

/-- The monad's sequence is that of processes. -/
@[simp] theorem bind_eq (p : Proc D W K α) (f : α → Proc D W K β) : p >>= f = p.bind f := rfl

/-- What follows an ended process starts with its result. -/
@[simp] theorem done_bind (a : α) (f : α → Proc D W K β) : (done a).bind f = f a := rfl

/-- Sequencing is associative. -/
theorem bind_assoc {γ : Type} (p : Proc D W K α) (f : α → Proc D W K β) (g : β → Proc D W K γ) :
    (p.bind f).bind g = p.bind fun a => (f a).bind g := by
  induction p with
  | done a => rfl
  | stmt sql effect next failed ihn ihf => simp only [bind, ihn, ihf]
  | commit next failed ihn ihf => simp only [bind, ihn, ihf]
  | rollback next ih => simp only [bind, ih]

/-- Answering the result changes nothing. -/
theorem bind_done (p : Proc D W K α) : p.bind .done = p := by
  induction p with
  | done a => rfl
  | stmt sql effect next failed ihn ihf => simp only [bind, ihn, ihf]
  | commit next failed ihn ihf => simp only [bind, ihn, ihf]
  | rollback next ih => simp only [bind, ih]

/-- A statement that answers a value or an error of the server. -/
def statement (sql : String) (effect : D → D → Effect W K) (result : D → D → Except DbError β) :
    Proc D W K (Except DbError β) :=
  stmt sql effect (fun snap cur => done (result snap cur)) (done (.error .unavailable))

/-- A plain `SELECT`: it reads its snapshot and waits for nothing. -/
def query (sql : String) (read : D → β) : Proc D W K (Except DbError β) :=
  statement sql (fun _ _ => {}) fun snap _ => .ok (read snap)

/-- `SELECT ... FOR UPDATE` of at most one row. The row is chosen in the snapshot; the statement
waits for its key, and answers the version that is current then, as `current` finds it. -/
def selectForUpdate {R : Type} (sql : String) (select : D → Option R) (key : R → K)
    (current : D → R → Option R) : Proc D W K (Except DbError (Option R)) :=
  statement sql
    (fun snap _ => { locks := ((select snap).map key).toList })
    fun snap cur => .ok ((select snap).bind (current cur))

/-- An `INSERT` of the row that `w` writes. `check` is the verdict of the table's constraints on the
current state. The statement first waits for the keys of the row's index entries, and for `waits`,
the rows that another transaction may be moving out of the way. -/
def insert (S : Store D W K) (sql : String) (waits : D → List K) (check : D → Except DbError Unit)
    (w : W) : Proc D W K (Except DbError Unit) :=
  statement sql
    (fun _ cur =>
      match check cur with
      | .ok _ => { waits := waits cur, writes := [w] }
      | .error _ => { waits := waits cur ++ S.keys w })
    fun _ cur => check cur

/-- An `INSERT ... ON CONFLICT (...) DO NOTHING`: `valid` is the verdict of the `CHECK` constraints,
which come first. When `conflict` holds of the current state nothing is written; otherwise the other
constraints decide, by `check`. The answer is the number of rows inserted. -/
def insertOrNothing (S : Store D W K) (sql : String) (valid : Except DbError Unit)
    (conflict : D → Bool) (check : D → Except DbError Unit) (w : W) :
    Proc D W K (Except DbError ℕ) :=
  statement sql
    (fun _ cur =>
      if conflict cur then { waits := S.keys w }
      else
        match valid.bind fun _ => check cur with
        | .ok _ => { writes := [w] }
        | .error _ => { waits := S.keys w })
    fun _ cur =>
      valid.bind fun _ => if conflict cur then .ok 0 else (check cur).map fun _ => 1

/-- What an `INSERT ... ON CONFLICT (...) DO UPDATE` has done. -/
inductive Upserted where
  | inserted
  | updated
  | unchanged
  deriving DecidableEq

/-- The number of rows that the client is told. -/
def Upserted.rows : Upserted → ℕ
  | inserted => 1
  | updated => 1
  | unchanged => 0

/-- What an `INSERT ... ON CONFLICT (...) DO UPDATE` does in the current state. A row that is found
is changed as `change` says: not at all if the `WHERE` clause does not ask for it, or not if a
constraint refuses it. Else the row is new, and its constraints decide, by `check`. -/
def upsertOutcome {R : Type} (find : D → Option R) (change : D → R → Except DbError (Option R))
    (check : D → Except DbError Unit) (new : W) (write : R → W) (cur : D) :
    Except DbError (Upserted × Option W) :=
  match find cur with
  | some old =>
    (change cur old).map fun r => r.elim (.unchanged, none) fun r => (.updated, some (write r))
  | none => (check cur).map fun _ => (.inserted, some new)

/-- An `INSERT ... ON CONFLICT (...) DO UPDATE`, which locks the row that it finds. -/
def upsert {R : Type} (S : Store D W K) (sql : String) (find : D → Option R)
    (change : D → R → Except DbError (Option R)) (check : D → Except DbError Unit) (new : W)
    (write : R → W) : Proc D W K (Except DbError Upserted) :=
  statement sql
    (fun _ cur =>
      match upsertOutcome find change check new write cur with
      | .ok o => { locks := S.keys new, writes := o.2.toList }
      | .error _ => { waits := S.keys new })
    fun _ cur => (upsertOutcome find change check new write cur).map Prod.fst

/-- An `UPDATE` of at most one row, with its `WHERE` clause as `select` on the snapshot and as
`recheck` on the version that is current once the row's key is free. `change` is the new row, or
the error of a trigger or a constraint that refuses it; the answer is the row as updated. -/
def update {R : Type} (sql : String) (select : D → Option R) (key : R → K)
    (recheck : D → R → Option R) (change : D → R → Except DbError R) (write : R → W) :
    Proc D W K (Except DbError (Option R)) :=
  statement sql
    (fun snap cur =>
      match select snap with
      | none => {}
      | some r =>
        match recheck cur r with
        | none => { waits := [key r] }
        | some old =>
          match change cur old with
          | .ok new => { writes := [write new] }
          | .error _ => { waits := [key r] })
    fun snap cur =>
      match (select snap).bind (recheck cur) with
      | none => .ok none
      | some old => (change cur old).map some

/-- An `UPDATE` of any number of rows, which no constraint refuses. The rows are chosen in the
snapshot, and `recheck` finds the version of each that is current once its key is free. -/
def updateAll {R : Type} (sql : String) (select : D → List R) (recheck : D → R → Option R)
    (change : R → R) (write : R → W) : Proc D W K (Except DbError (List R)) :=
  statement sql
    (fun snap cur =>
      { writes := ((select snap).filterMap (recheck cur)).map fun r => write (change r) })
    fun snap cur => .ok (((select snap).filterMap (recheck cur)).map change)

/-- A query of the client that must answer one row. -/
def one (p : Proc D W K (Except DbError (Option β))) : Proc D W K (Except DbError β) :=
  p.bind fun r => done (r.bind fun b => b.elim (.error .unexpectedRowCount) .ok)

/-- `COMMIT`, as a process of its own. -/
def commitNow : Proc D W K (Except DbError Unit) :=
  commit (done (.ok ())) (done (.error .unavailable))

/-- A statement outside of an explicit transaction is a transaction of its own. -/
def autocommit (p : Proc D W K (Except DbError β)) : Proc D W K (Except DbError β) :=
  p.bind fun
    | .ok b => commit (done (.ok b)) (done (.error .unavailable))
    | .error e => rollback (done (.error e))

/-- A client function that stops at the first error: a server error `e` becomes `error e`. -/
def orFail {ε : Type} (error : DbError → ε) (p : Proc D W K (Except DbError β)) :
    ExceptT ε (Proc D W K) β :=
  ExceptT.mk (p.bind fun r => done (r.mapError error))

/-- A client function's own computation, which may fail. -/
def ensure {ε : Type} (r : Except ε β) : ExceptT ε (Proc D W K) β := ExceptT.mk (done r)

/-- A client function that opens a transaction: whatever it has not committed when it returns is
dropped. -/
def transaction {ε : Type} (body : ExceptT ε (Proc D W K) β) : Proc D W K (Except ε β) :=
  body.run.bind fun r => rollback (done r)

variable {ε γ : Type}

/-- A statement of a client function, followed by the rest of it. -/
theorem orFail_bind_run {error : DbError → ε} {p : Proc D W K (Except DbError β)}
    {f : β → ExceptT ε (Proc D W K) γ} :
    (orFail error p >>= f).run = p.bind fun r =>
      match r with
      | .ok b => (f b).run
      | .error er => .done (.error (error er)) := by
  refine (bind_assoc p _ _).trans (congrArg p.bind (funext fun r => ?_))
  cases r <;> rfl

end Proc

end Postgres
