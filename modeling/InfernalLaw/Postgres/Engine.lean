import Mathlib.Data.List.Nodup
import Mathlib.Data.List.Pairwise
import Mathlib.Logic.Relation
import InfernalLaw.Postgres.Process

/-!
# Concurrent sessions

The sessions of a database run processes side by side. A scheduler chooses the events: a session
begins an operation, a statement takes its snapshot, a statement completes or a transaction commits,
or the server fails what a session is doing and undoes its transaction. `step` refuses an event that
PostgreSQL would not let happen: a statement does not complete while another session holds a key
that it needs.

Between two events a session's residual process is a statement or a commit; `settle` runs through
the rest, which is local to the client. So the event that commits an operation's last transaction
also ends the operation, and the log lists the operations in the order in which they ended.
-/

namespace Postgres

/-- A database on which the operations `Op` run as processes. -/
structure System (D W K Op α : Type) extends Store D W K where
  program : Op → Proc D W K α

/-- An operation that has ended, with its result. -/
structure Entry (Op α : Type) where
  id : ℕ
  op : Op
  result : α
  deriving DecidableEq

/-- A running operation: its residual process, the snapshot of the statement under way, and the
writes and keys of the open transaction. -/
structure Session (D W K Op α : Type) where
  id : ℕ
  op : Op
  proc : Proc D W K α
  snapshot : Option D := none
  locks : List K := []
  writes : List W := []

/-- The committed database, the running operations, and the operations that have ended. -/
structure State (D W K Op α : Type) where
  db : D
  /-- The next session's identifier. -/
  fresh : ℕ := 0
  sessions : List (Session D W K Op α) := []
  log : List (Entry Op α) := []

/-- What a scheduler chooses from. -/
inductive Event (Op : Type) where
  | begin (op : Op)
  | snapshot (id : ℕ)
  | advance (id : ℕ)
  | fault (id : ℕ)

variable {D W K Op α : Type}

/-- The session that an event belongs to, when it exists already. -/
def Event.session? : Event Op → Option ℕ
  | begin _ => none
  | snapshot id => some id
  | advance id => some id
  | fault id => some id

/-- The client's own steps: dropped transactions. -/
def Proc.settle : Proc D W K α → List K → List W → Proc D W K α × List K × List W
  | .rollback next, _, _ => next.settle [] []
  | p, locks, writes => (p, locks, writes)

namespace State

/-- The running session `id`. -/
def find (s : State D W K Op α) (id : ℕ) : Option (Session D W K Op α) :=
  s.sessions.find? fun x => x.id = id

/-- The running sessions besides `id`. -/
def others (s : State D W K Op α) (id : ℕ) : List (Session D W K Op α) :=
  s.sessions.filter fun x => x.id ≠ id

/-- The session `x` in its new form. -/
def put (s : State D W K Op α) (x : Session D W K Op α) : State D W K Op α :=
  { s with sessions := x :: s.others x.id }

/-- Session `id` goes on with the process `p` over the database `db`, or ends. -/
def resume (s : State D W K Op α) (id : ℕ) (op : Op) (db : D) (p : Proc D W K α)
    (locks : List K) (writes : List W) : State D W K Op α :=
  match p.settle locks writes with
  | (.done a, _, _) =>
    { s with db := db, sessions := s.others id, log := s.log ++ [⟨id, op, a⟩] }
  | (p', locks', writes') =>
    { s with db := db }.put { id := id, op := op, proc := p', locks := locks', writes := writes' }

/-- No session besides `id` holds one of the keys. -/
def free [DecidableEq K] (s : State D W K Op α) (id : ℕ) (keys : List K) : Bool :=
  (s.others id).all fun x => x.locks.all fun k => k ∉ keys

/-- The server fails what session `x` is doing, and undoes its transaction. That a `COMMIT` takes
effect and its acknowledgement is lost, so that a session is told of a failure whose rows are
durable, is no event of this model. -/
def fail (s : State D W K Op α) (x : Session D W K Op α) : Option (State D W K Op α) :=
  match x.proc with
  | .stmt _ _ _ failed => some (s.resume x.id x.op s.db failed [] [])
  | .commit _ failed => some (s.resume x.id x.op s.db failed [] [])
  | _ => none

end State

namespace System

variable [DecidableEq K] (sys : System D W K Op α)

/-- The session `x` completes what it is doing, if the others let it. -/
def advance (s : State D W K Op α) (x : Session D W K Op α) : Option (State D W K Op α) :=
  match x.proc, x.snapshot with
  | .stmt _ effect next _, some snap =>
    let cur := sys.view s.db x.writes
    let e := effect snap cur
    if s.free x.id (sys.needs e) then
      some (s.resume x.id x.op s.db (next snap cur) (x.locks ++ sys.held e) (x.writes ++ e.writes))
    else none
  | .commit next _, _ => some (s.resume x.id x.op (sys.view s.db x.writes) next [] [])
  | _, _ => none

/-- The statement of session `x` starts. -/
def takeSnapshot (s : State D W K Op α) (x : Session D W K Op α) : Option (State D W K Op α) :=
  match x.proc, x.snapshot with
  | .stmt .., none =>
    some (s.put { x with snapshot := some (sys.view s.db x.writes) })
  | _, _ => none

/-- One event. -/
def step (s : State D W K Op α) : Event Op → Option (State D W K Op α)
  | .begin op =>
    some ({ s with fresh := s.fresh + 1 }.resume s.fresh op s.db (sys.program op) [] [])
  | .snapshot id => (s.find id).bind (sys.takeSnapshot s)
  | .advance id => (s.find id).bind (sys.advance s)
  | .fault id => (s.find id).bind s.fail

/-- A run of events from a state. -/
def run (s : State D W K Op α) (events : List (Event Op)) : Option (State D W K Op α) :=
  events.foldlM sys.step s

/-- The states that runs of events which all meet `P` reach from the database `d`, with no
operation begun there. -/
inductive ReachesBy (P : State D W K Op α → Event Op → Prop) (d : D) :
    State D W K Op α → Prop where
  | init : ReachesBy P d { db := d }
  | step {s s' : State D W K Op α} (ev : Event Op) : ReachesBy P d s → P s ev →
      sys.step s ev = some s' → ReachesBy P d s'

/-- The states that runs from the database `d` reach. -/
abbrev Reaches (d : D) (s : State D W K Op α) : Prop := sys.ReachesBy (fun _ _ => True) d s

/-- `s'` comes after `s` in some run. -/
def Later : State D W K Op α → State D W K Op α → Prop :=
  Relation.ReflTransGen fun s s' => ∃ ev, sys.step s ev = some s'

end System

/-! ## What an event can do -/

/-- A process that a session waits with: a statement or a commit. -/
def Proc.Waiting : Proc D W K α → Prop
  | .stmt .. => True
  | .commit .. => True
  | _ => False

/-- Settling ends at a result, at a statement, or at a commit. -/
theorem Proc.settle_done_or_waiting (p : Proc D W K α) : ∀ (locks : List K) (writes : List W),
    (∃ a, (p.settle locks writes).1 = .done a) ∨ (p.settle locks writes).1.Waiting := by
  induction p with
  | done a => exact fun _ _ => .inl ⟨a, rfl⟩
  | stmt sql effect next failed => exact fun _ _ => .inr trivial
  | commit next failed => exact fun _ _ => .inr trivial
  | rollback next ih => exact fun _ _ => ih [] []

/-- What is held after settling was held before. -/
theorem Proc.settle_held (p : Proc D W K α) : ∀ (locks : List K) (writes : List W),
    (p.settle locks writes).2 = (locks, writes) ∨ (p.settle locks writes).2 = ([], []) := by
  induction p with
  | done a => exact fun _ _ => .inl rfl
  | stmt sql effect next failed => exact fun _ _ => .inl rfl
  | commit next failed => exact fun _ _ => .inl rfl
  | rollback next ih =>
    intro _ _
    rcases ih [] [] with h | h <;> exact .inr h

namespace State

variable {s : State D W K Op α} {x : Session D W K Op α} {id : ℕ}

/-- A session that is found is one of the sessions, with its identifier. -/
theorem mem_of_find (h : s.find id = some x) : x ∈ s.sessions ∧ x.id = id := by
  refine ⟨List.mem_of_find?_eq_some h, ?_⟩
  simpa using List.find?_some h

/-- The others are the sessions with other identifiers. -/
theorem mem_others : x ∈ s.others id ↔ x ∈ s.sessions ∧ x.id ≠ id := by
  simp [others]

/-- A session that goes on either ends, with an entry in the log, or waits. -/
theorem resume_cases (s : State D W K Op α) (id : ℕ) (op : Op) (db : D) (p : Proc D W K α)
    (locks : List K) (writes : List W) :
    (∃ a, (p.settle locks writes).1 = .done a ∧ s.resume id op db p locks writes =
        { s with db := db, sessions := s.others id, log := s.log ++ [⟨id, op, a⟩] }) ∨
    (∃ x : Session D W K Op α, x.id = id ∧ x.op = op ∧ x.snapshot = none ∧
      p.settle locks writes = (x.proc, x.locks, x.writes) ∧ x.proc.Waiting ∧
      s.resume id op db p locks writes = { s with db := db }.put x) := by
  have h := p.settle_done_or_waiting locks writes
  unfold resume
  rcases hp : p.settle locks writes with ⟨p', locks', writes'⟩
  rw [hp] at h
  cases p' with
  | done a => exact .inl ⟨a, rfl, rfl⟩
  | stmt sql effect next failed =>
    exact .inr ⟨⟨id, op, _, none, _, _⟩, rfl, rfl, rfl, rfl, trivial, rfl⟩
  | commit next failed =>
    exact .inr ⟨⟨id, op, _, none, _, _⟩, rfl, rfl, rfl, rfl, trivial, rfl⟩
  | rollback next => rcases h with ⟨a, h⟩ | h <;> cases h

/-- Freeness of keys, as a statement about the other sessions' locks. -/
theorem free_iff [DecidableEq K] {keys : List K} :
    s.free id keys = true ↔ ∀ y ∈ s.others id, ∀ k ∈ y.locks, k ∉ keys := by
  simp [free]

end State

/-- The event is one of the session `id`, which runs the operation `op`. -/
def State.Runs (s : State D W K Op α) (ev : Event Op) (id : ℕ) (op : Op) : Prop :=
  (ev = .begin op ∧ id = s.fresh) ∨
    (ev.session? = some id ∧ ∃ x ∈ s.sessions, x.id = id ∧ x.op = op)

/-- What session `x` of the state `s` does in an event: where the event leaves the database, the
session's process, and what the session holds. -/
inductive System.Moves [DecidableEq K] (sys : System D W K Op α) (s : State D W K Op α)
    (x : Session D W K Op α) : D → Proc D W K α → List K → List W → Prop where
  | stmt {sql effect next failed snap} (hp : x.proc = .stmt sql effect next failed)
      (hs : x.snapshot = some snap)
      (hfree : s.free x.id (sys.needs (effect snap (sys.view s.db x.writes))) = true) :
      Moves sys s x s.db (next snap (sys.view s.db x.writes))
        (x.locks ++ sys.held (effect snap (sys.view s.db x.writes)))
        (x.writes ++ (effect snap (sys.view s.db x.writes)).writes)
  | commit {next failed} (hp : x.proc = .commit next failed) :
      Moves sys s x (sys.view s.db x.writes) next [] []
  | stmtFails {sql effect next failed} (hp : x.proc = .stmt sql effect next failed) :
      Moves sys s x s.db failed [] []
  | commitFails {next failed} (hp : x.proc = .commit next failed) :
      Moves sys s x s.db failed [] []

/-- Everything that an event can do: begin an operation, take a statement's snapshot, or move a
session. -/
theorem System.step_cases [DecidableEq K] {sys : System D W K Op α} {s s' : State D W K Op α}
    {ev : Event Op} (h : sys.step s ev = some s') :
    (∃ op, ev = .begin op ∧
      s' = { s with fresh := s.fresh + 1 }.resume s.fresh op s.db (sys.program op) [] []) ∨
    (∃ x ∈ s.sessions, ev = .snapshot x.id ∧ x.snapshot = none ∧
      (∃ sql effect next failed, x.proc = .stmt sql effect next failed) ∧
      s' = s.put { x with snapshot := some (sys.view s.db x.writes) }) ∨
    (∃ x ∈ s.sessions, ev.session? = some x.id ∧ ∃ db p locks writes,
      sys.Moves s x db p locks writes ∧ s' = s.resume x.id x.op db p locks writes) := by
  cases ev with
  | begin op => exact .inl ⟨op, rfl, (Option.some.inj h).symm⟩
  | snapshot id =>
    obtain ⟨x, hx, hstep⟩ := Option.bind_eq_some_iff.mp h
    obtain ⟨hmem, rfl⟩ := State.mem_of_find hx
    unfold takeSnapshot at hstep
    split at hstep
    · rename_i hp hn
      exact .inr (.inl ⟨x, hmem, rfl, hn, ⟨_, _, _, _, hp⟩, (Option.some.inj hstep).symm⟩)
    · cases hstep
  | advance id =>
    obtain ⟨x, hx, hstep⟩ := Option.bind_eq_some_iff.mp h
    obtain ⟨hmem, rfl⟩ := State.mem_of_find hx
    refine .inr (.inr ⟨x, hmem, rfl, ?_⟩)
    unfold advance at hstep
    split at hstep
    · rename_i hp hs
      simp only at hstep
      split at hstep
      · rename_i hfree
        exact ⟨_, _, _, _, .stmt hp hs hfree, (Option.some.inj hstep).symm⟩
      · cases hstep
    · rename_i hp
      exact ⟨_, _, _, _, .commit hp, (Option.some.inj hstep).symm⟩
    · cases hstep
  | fault id =>
    obtain ⟨x, hx, hstep⟩ := Option.bind_eq_some_iff.mp h
    obtain ⟨hmem, rfl⟩ := State.mem_of_find hx
    refine .inr (.inr ⟨x, hmem, rfl, ?_⟩)
    unfold State.fail at hstep
    split at hstep
    · rename_i hp
      exact ⟨_, _, _, _, .stmtFails hp, (Option.some.inj hstep).symm⟩
    · rename_i hp
      exact ⟨_, _, _, _, .commitFails hp, (Option.some.inj hstep).symm⟩
    · cases hstep

/-! ## Sessions stay apart -/

/-- Two sessions are different, and hold different keys. -/
def Session.Apart (x y : Session D W K Op α) : Prop :=
  x.id ≠ y.id ∧ ∀ k ∈ x.locks, k ∉ y.locks

instance : Std.Symm (Session.Apart : Session D W K Op α → Session D W K Op α → Prop) where
  symm _ _ h := ⟨h.1.symm, fun k hk hk' => h.2 k hk' hk⟩

/-- A session holds the keys of what it has written. -/
def Session.Covers (S : Store D W K) (x : Session D W K Op α) : Prop :=
  ∀ w ∈ x.writes, ∀ k ∈ S.keys w, k ∈ x.locks

/-- The bookkeeping of a state: the sessions are apart, each covers its writes, and identifiers
are handed out once. -/
structure State.WellFormed (S : Store D W K) (s : State D W K Op α) : Prop where
  apart : s.sessions.Pairwise Session.Apart
  covers : ∀ x ∈ s.sessions, x.Covers S
  sessions_fresh : ∀ x ∈ s.sessions, x.id < s.fresh
  log_fresh : ∀ e ∈ s.log, e.id < s.fresh
  log_sessions : ∀ e ∈ s.log, ∀ x ∈ s.sessions, e.id ≠ x.id
  log_nodup : (s.log.map Entry.id).Nodup

namespace State.WellFormed

variable {S : Store D W K} {s : State D W K Op α} {id : ℕ} {op : Op} {db : D}

/-- A session in a new form keeps the bookkeeping, if its keys are not another session's and cover
its writes. -/
theorem put (h : s.WellFormed S) (x : Session D W K Op α) (hid : x.id < s.fresh)
    (hlog : ∀ e ∈ s.log, e.id ≠ x.id) (hcov : x.Covers S)
    (hfree : ∀ y ∈ s.others x.id, ∀ k ∈ x.locks, k ∉ y.locks) :
    ({ s with db := db }.put x).WellFormed S where
  apart := by
    refine List.pairwise_cons.mpr
      ⟨fun y hy => ⟨?_, hfree y hy⟩, h.apart.sublist List.filter_sublist⟩
    exact (mem_others.mp hy).2.symm
  covers := by
    rintro y (_ | ⟨_, hy⟩)
    · exact hcov
    · exact h.covers y (mem_others.mp hy).1
  sessions_fresh := by
    rintro y (_ | ⟨_, hy⟩)
    · exact hid
    · exact h.sessions_fresh y (mem_others.mp hy).1
  log_fresh := h.log_fresh
  log_sessions := by
    rintro e he y (_ | ⟨_, hy⟩)
    · exact hlog e he
    · exact h.log_sessions e he y (mem_others.mp hy).1
  log_nodup := h.log_nodup

/-- A session that ends keeps the bookkeeping. -/
theorem finish (h : s.WellFormed S) (hid : id < s.fresh) (hlog : ∀ e ∈ s.log, e.id ≠ id) (a : α) :
    State.WellFormed S
      { s with db := db, sessions := s.others id, log := s.log ++ [⟨id, op, a⟩] } where
  apart := h.apart.sublist List.filter_sublist
  covers := fun y hy => h.covers y (mem_others.mp hy).1
  sessions_fresh := fun y hy => h.sessions_fresh y (mem_others.mp hy).1
  log_fresh := by
    intro e he
    rcases List.mem_append.mp he with he | he
    · exact h.log_fresh e he
    · rw [List.mem_singleton.mp he]; exact hid
  log_sessions := by
    intro e he y hy
    obtain ⟨hy, hne⟩ := mem_others.mp hy
    rcases List.mem_append.mp he with he | he
    · exact h.log_sessions e he y hy
    · rw [List.mem_singleton.mp he]; exact hne.symm
  log_nodup := by
    rw [List.map_append, List.nodup_append]
    refine ⟨h.log_nodup, List.nodup_singleton _, ?_⟩
    rintro i hi j hj rfl
    obtain ⟨e, he, rfl⟩ := List.mem_map.mp hi
    exact hlog e he (List.mem_singleton.mp hj)

/-- A session that goes on, or ends, keeps the bookkeeping. -/
theorem resume (h : s.WellFormed S) (hid : id < s.fresh) (hlog : ∀ e ∈ s.log, e.id ≠ id)
    {p : Proc D W K α} {locks : List K} {writes : List W}
    (hcov : ∀ w ∈ writes, ∀ k ∈ S.keys w, k ∈ locks)
    (hfree : ∀ y ∈ s.others id, ∀ k ∈ locks, k ∉ y.locks) :
    (s.resume id op db p locks writes).WellFormed S := by
  rcases s.resume_cases id op db p locks writes with
    ⟨a, -, hr⟩ | ⟨x, rfl, -, -, hsettle, -, hr⟩
  · rw [hr]
    exact h.finish hid hlog a
  · rw [hr]
    have hheld := p.settle_held locks writes
    rw [hsettle] at hheld
    rcases hheld with hheld | hheld <;> obtain ⟨hl, hw⟩ := Prod.mk.inj hheld
    · exact h.put x hid hlog (by rw [Session.Covers, hl, hw]; exact hcov) (by rw [hl]; exact hfree)
    · exact h.put x hid hlog (by simp [Session.Covers, hw]) (by simp [hl])

end State.WellFormed

/-- The keys of the other sessions are not this one's. -/
theorem State.WellFormed.others_apart {S : Store D W K} {s : State D W K Op α}
    (h : s.WellFormed S) {x y : Session D W K Op α} (hx : x ∈ s.sessions)
    (hy : y ∈ s.others x.id) : ∀ k ∈ x.locks, k ∉ y.locks := by
  obtain ⟨hy, hne⟩ := State.mem_others.mp hy
  exact (h.apart.forall hx hy fun he => hne (by rw [he])).2

namespace System

variable [DecidableEq K] {sys : System D W K Op α}

/-- Every event keeps the bookkeeping. -/
theorem step_wellFormed {s s' : State D W K Op α} {ev : Event Op}
    (h : s.WellFormed sys.toStore) (hs : sys.step s ev = some s') :
    s'.WellFormed sys.toStore := by
  rcases step_cases hs with
    ⟨op, -, rfl⟩ | ⟨x, hx, -, -, -, rfl⟩ | ⟨x, hx, -, db, p, locks, writes, hm, rfl⟩
  · have h' : { s with fresh := s.fresh + 1 }.WellFormed sys.toStore :=
      { h with
        sessions_fresh := fun x hx => Nat.lt_succ_of_lt (h.sessions_fresh x hx)
        log_fresh := fun e he => Nat.lt_succ_of_lt (h.log_fresh e he) }
    exact h'.resume (Nat.lt_succ_self _) (fun e he => Nat.ne_of_lt (h.log_fresh e he))
      (fun w hw => absurd hw List.not_mem_nil) (fun y _ k hk => absurd hk List.not_mem_nil)
  · exact h.put _ (h.sessions_fresh x hx) (fun e he => h.log_sessions e he x hx)
      (h.covers x hx) (fun y hy => h.others_apart (x := x) hx hy)
  · refine h.resume (h.sessions_fresh x hx) (fun e he => h.log_sessions e he x hx) ?_ ?_
    · cases hm with
      | stmt hp hs hfree =>
        intro w hw k hk
        rcases List.mem_append.mp hw with hw | hw
        · exact List.mem_append_left _ (h.covers x hx w hw k hk)
        · exact List.mem_append_right _ (sys.mem_held_of_write hw hk)
      | _ => exact fun w hw => absurd hw List.not_mem_nil
    · cases hm with
      | stmt hp hs hfree =>
        intro y hy k hk
        rcases List.mem_append.mp hk with hk | hk
        · exact h.others_apart hx hy k hk
        · exact fun hky => State.free_iff.mp hfree y hy k hky (List.mem_append_right _ hk)
      | _ => exact fun y _ k hk => absurd hk List.not_mem_nil

/-- Every state that a run reaches is well formed. -/
theorem ReachesBy.wellFormed {P : State D W K Op α → Event Op → Prop} {d : D}
    {s : State D W K Op α} (h : sys.ReachesBy P d s) : s.WellFormed sys.toStore := by
  induction h with
  | init =>
    exact ⟨List.Pairwise.nil, by simp, by simp, by simp, by simp, List.nodup_nil⟩
  | step ev _ _ hs ih => exact step_wellFormed ih hs

/-- What comes after a reachable state is reachable. -/
theorem ReachesBy.later {d : D} {s s' : State D W K Op α} (h : sys.Reaches d s)
    (hl : sys.Later s s') : sys.Reaches d s' := by
  induction hl with
  | refl => exact h
  | tail _ hstep ih =>
    obtain ⟨ev, hev⟩ := hstep
    exact .step ev ih trivial hev

/-- A reachable state comes after the first one. -/
theorem ReachesBy.since {P : State D W K Op α → Event Op → Prop} {d : D} {s : State D W K Op α}
    (h : sys.ReachesBy P d s) : sys.Later { db := d } s := by
  induction h with
  | init => exact .refl
  | step ev _ _ hstep ih => exact ih.tail ⟨ev, hstep⟩

/-- The run to `s` from the database `d₀` has passed the database `d`. -/
def Passed (sys : System D W K Op α) (d₀ : D) (s : State D W K Op α) (d : D) : Prop :=
  ∃ s₁, sys.Reaches d₀ s₁ ∧ sys.Later s₁ s ∧ s₁.db = d

/-- In the run to `s` from the database `d₀` an operation `op` has taken a snapshot of the database
`d`. -/
def Reads (sys : System D W K Op α) (d₀ : D) (s : State D W K Op α) (op : Op) (d : D) : Prop :=
  ∃ s₁ s₂, sys.Reaches d₀ s₁ ∧ (∃ x ∈ s₁.sessions, x.op = op ∧
    sys.step s₁ (.snapshot x.id) = some s₂) ∧ sys.Later s₂ s ∧ s₁.db = d

/-- A run passes the states that come before its last one. -/
theorem ReachesBy.byPast {d : D} {s s' : State D W K Op α} (h : sys.Reaches d s)
    (hl : sys.Later s s') :
    sys.ReachesBy (fun s₁ ev => sys.Reaches d s₁ ∧ ∃ s₂, sys.step s₁ ev = some s₂ ∧ sys.Later s₂ s')
      d s := by
  induction h with
  | init => exact .init
  | @step s₁ s₂ ev hs₁ _ hstep ih =>
    have hl₁ : sys.Later s₁ s' := Relation.ReflTransGen.head ⟨ev, hstep⟩ hl
    exact .step ev (ih hl₁) ⟨hs₁, s₂, hstep, hl⟩ hstep

/-- The log only grows. -/
theorem Later.log_extends {s s' : State D W K Op α} (h : sys.Later s s') : s.log <+: s'.log := by
  have hresume : ∀ (t : State D W K Op α) id op db (p : Proc D W K α) locks writes l,
      t.log = l → l <+: (t.resume id op db p locks writes).log := by
    rintro t id op db p locks writes _ rfl
    rcases t.resume_cases id op db p locks writes with ⟨a, -, hr⟩ | ⟨x, -, -, -, -, -, hr⟩
    · rw [hr]
      exact List.prefix_append _ _
    · rw [hr]
      exact List.prefix_refl _
  induction h with
  | refl => exact List.prefix_refl _
  | tail _ hstep ih =>
    obtain ⟨ev, hev⟩ := hstep
    refine ih.trans ?_
    rcases step_cases hev with
      ⟨op, -, rfl⟩ | ⟨x, -, -, -, -, rfl⟩ | ⟨x, -, -, db, p, ls, ws, -, rfl⟩
    · exact hresume _ _ _ _ _ _ _ _ rfl
    · exact List.prefix_refl _
    · exact hresume _ _ _ _ _ _ _ _ rfl

end System

namespace State

variable {S : Store D W K} {s : State D W K Op α} {ev : Event Op} {id id' : ℕ} {op op' : Op}

/-- An event is one of one operation. -/
theorem Runs.unique (hs : s.WellFormed S) (h : s.Runs ev id op) (h' : s.Runs ev id' op') :
    id = id' ∧ op = op' := by
  rcases h with ⟨rfl, rfl⟩ | ⟨hev, x, hx, rfl, rfl⟩
  · rcases h' with ⟨h, rfl⟩ | ⟨hev, -⟩
    · exact ⟨rfl, Event.begin.inj h⟩
    · cases hev
  · rcases h' with ⟨rfl, -⟩ | ⟨hev', y, hy, rfl, rfl⟩
    · cases hev
    · have hid : x.id = y.id := Option.some.inj (hev.symm.trans hev')
      have hxy : x = y := by
        by_contra hne
        exact (hs.apart.forall hx hy hne).1 hid
      rw [hxy]
      exact ⟨rfl, rfl⟩

/-- An operation that has ended has no more events. -/
theorem WellFormed.not_runs (hs : s.WellFormed S) {e : Entry Op α} (he : e ∈ s.log) :
    ¬ s.Runs ev e.id op := by
  rintro (⟨-, hid⟩ | ⟨-, x, hx, hid, -⟩)
  · exact absurd hid (Nat.ne_of_lt (hs.log_fresh e he))
  · exact hs.log_sessions e he x hx hid.symm

end State

end Postgres
