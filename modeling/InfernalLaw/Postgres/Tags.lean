import InfernalLaw.Postgres.Interference

/-!
# What a session has read

Two sessions may run the same operation. In the tagged system an operation carries the identifier of
the session that runs it, so that a contract can tell sessions apart and ask what the one at hand
has read. Every run is one of the tagged system too, and `Contract.Sound.event_since` is what
follows for an event: the contract may assume of the sessions begun from some state on that each
reads in that part of the run.
-/

namespace Postgres

variable {D W K Op α : Type}

/-- The session with its identifier in its operation. -/
def Session.tag (x : Session D W K Op α) : Session D W K (Op × ℕ) α :=
  { id := x.id, op := (x.op, x.id), proc := x.proc, snapshot := x.snapshot, locks := x.locks,
    writes := x.writes }

/-- The entry of a tagged session. -/
def Entry.tag (e : Entry Op α) : Entry (Op × ℕ) α := ⟨e.id, (e.op, e.id), e.result⟩

/-- The state with all sessions tagged. -/
def State.tag (s : State D W K Op α) : State D W K (Op × ℕ) α :=
  { db := s.db, fresh := s.fresh, sessions := s.sessions.map Session.tag,
    log := s.log.map Entry.tag }

/-- The event, with the tag of the session that it begins. -/
def State.tagEvent (s : State D W K Op α) : Event Op → Event (Op × ℕ)
  | .begin op => .begin (op, s.fresh)
  | .snapshot id => .snapshot id
  | .advance id => .advance id
  | .fault id => .fault id

/-- The system in which operations are tagged. -/
abbrev System.tag (sys : System D W K Op α) : System D W K (Op × ℕ) α :=
  { sys.toStore with program := fun op => sys.program op.1 }

/-! ## Runs of the tagged system -/

namespace State

variable {s : State D W K Op α} {x : Session D W K Op α} {id : ℕ}

/-- The other sessions are those of the tagged state. -/
theorem others_tag : s.tag.others id = (s.others id).map Session.tag :=
  List.filter_map

/-- The same session is found. -/
theorem find_tag : s.tag.find id = (s.find id).map Session.tag :=
  List.find?_map

/-- The same session is put. -/
theorem put_tag : (s.put x).tag = s.tag.put x.tag :=
  congrArg (fun l => { s.tag with sessions := x.tag :: l }) others_tag.symm

/-- The same session goes on. -/
theorem resume_tag {op : Op} {db : D} {p : Proc D W K α} {locks : List K} {writes : List W} :
    (s.resume id op db p locks writes).tag = s.tag.resume id (op, id) db p locks writes := by
  unfold resume
  rcases p.settle locks writes with ⟨p', locks', writes'⟩
  cases p' with
  | done a =>
    show State.mk _ _ _ ((s.log ++ [_]).map Entry.tag) = _
    rw [List.map_append, others_tag]
    rfl
  | _ => exact put_tag

/-- The same locks are free. -/
theorem free_tag [DecidableEq K] {keys : List K} : s.tag.free id keys = s.free id keys := by
  rw [free, others_tag, List.all_map]
  rfl

/-- The same session fails. -/
theorem fail_tag :
    s.tag.fail x.tag = (s.fail x).map State.tag := by
  rcases x with ⟨id, op, p, snapshot, locks, writes⟩
  cases p with
  | stmt sql effect next failed => exact congrArg some resume_tag.symm
  | commit next failed => exact congrArg some resume_tag.symm
  | _ => rfl

/-- The same session runs. -/
theorem Runs.tag {ev : Event Op} {op : Op} (h : s.Runs ev id op) :
    s.tag.Runs (s.tagEvent ev) id (op, id) := by
  rcases h with ⟨rfl, rfl⟩ | ⟨hev, x, hx, rfl, rfl⟩
  · exact .inl ⟨rfl, rfl⟩
  · refine .inr ⟨?_, x.tag, List.mem_map_of_mem hx, rfl, rfl⟩
    cases ev with
    | begin op => cases hev
    | _ => exact hev

end State

namespace System

variable {sys : System D W K Op α}

/-- A snapshot is taken in both. -/
theorem takeSnapshot_tag {s : State D W K Op α} {x : Session D W K Op α} :
    sys.tag.takeSnapshot s.tag x.tag = (sys.takeSnapshot s x).map State.tag := by
  rcases x with ⟨id, op, p, snapshot, locks, writes⟩
  cases p with
  | stmt sql effect next failed =>
    cases snapshot with
    | none =>
      exact congrArg some (State.put_tag (x := ⟨id, op, .stmt sql effect next failed,
        some (sys.view s.db writes), locks, writes⟩)).symm
    | some snap => rfl
  | _ => rfl

variable [DecidableEq K]

/-- A statement runs in both. -/
theorem advance_tag {s : State D W K Op α} {x : Session D W K Op α} :
    sys.tag.advance s.tag x.tag = (sys.advance s x).map State.tag := by
  rcases x with ⟨id, op, p, snapshot, locks, writes⟩
  cases p with
  | stmt sql effect next failed =>
    cases snapshot with
    | none => rfl
    | some snap =>
      simp only [advance, Session.tag, State.free_tag, apply_ite (Option.map State.tag),
        Option.map_some, Option.map_none, State.resume_tag]
      rfl
  | commit next failed => exact congrArg some State.resume_tag.symm
  | _ => rfl

/-- An event of the system is one of the tagged system. -/
theorem step_tag {s : State D W K Op α} {ev : Event Op} :
    sys.tag.step s.tag (s.tagEvent ev) = (sys.step s ev).map State.tag := by
  have hfind : ∀ {f : Session D W K Op α → Option (State D W K Op α)}
      {g : Session D W K (Op × ℕ) α → Option (State D W K (Op × ℕ) α)},
      (∀ x, g x.tag = (f x).map State.tag) → ∀ id,
        (s.tag.find id).bind g = ((s.find id).bind f).map State.tag := by
    intro f g h id
    rw [State.find_tag]
    cases s.find id with
    | none => rfl
    | some x => exact h x
  cases ev with
  | begin op => exact congrArg some (State.resume_tag (s := { s with fresh := s.fresh + 1 })).symm
  | snapshot id => exact hfind (fun _ => takeSnapshot_tag) id
  | advance id => exact hfind (fun _ => advance_tag) id
  | fault id => exact hfind (fun _ => State.fail_tag) id

/-- Identifiers are only ever handed out. -/
theorem Later.fresh_le {s s' : State D W K Op α} (h : sys.Later s s') : s.fresh ≤ s'.fresh := by
  have hresume : ∀ (t : State D W K Op α) id op db (p : Proc D W K α) locks writes,
      (t.resume id op db p locks writes).fresh = t.fresh := by
    intro t id op db p locks writes
    rcases t.resume_cases id op db p locks writes with ⟨a, -, hr⟩ | ⟨x, -, -, -, -, -, hr⟩
    · exact hr ▸ rfl
    · exact hr ▸ rfl
  induction h with
  | refl => exact Nat.le_refl _
  | tail _ hstep ih =>
    obtain ⟨ev, hev⟩ := hstep
    refine Nat.le_trans ih ?_
    rcases step_cases hev with
      ⟨op, -, rfl⟩ | ⟨x, -, -, -, -, rfl⟩ | ⟨x, -, -, db, p, ls, ws, -, rfl⟩
    · rw [hresume]
      exact Nat.le_succ _
    · exact Nat.le_refl _
    · exact Nat.le_of_eq (hresume _ _ _ _ _ _ _).symm

/-- A step of a system is one of the tagged system. -/
theorem step_eq_some_tag {s s' : State D W K Op α} {ev : Event Op} (h : sys.step s ev = some s') :
    sys.tag.step s.tag (s.tagEvent ev) = some s'.tag := by
  rw [step_tag, h]
  rfl

/-- What comes later comes later in the tagged system. -/
theorem Later.tag {s s' : State D W K Op α} (h : sys.Later s s') : sys.tag.Later s.tag s'.tag := by
  induction h with
  | refl => exact .refl
  | tail _ hstep ih =>
    obtain ⟨ev, hev⟩ := hstep
    exact ih.tail ⟨_, step_eq_some_tag hev⟩

/-- What is reached is reached in the tagged system. -/
theorem ReachesBy.tag {P : State D W K Op α → Event Op → Prop} {d : D} {s : State D W K Op α}
    (h : sys.ReachesBy P d s) : sys.tag.Reaches d s.tag := by
  induction h with
  | init => exact .init
  | step ev _ _ hstep ih => exact .step _ ih trivial (step_eq_some_tag hstep)

/-- Between two states of the run the session `id` has taken a snapshot of the database `d`. -/
def ReadsSince (sys : System D W K Op α) (s s' : State D W K Op α) (id : ℕ) (d : D) : Prop :=
  ∃ s₁ s₂, sys.Later s s₁ ∧ sys.step s₁ (.snapshot id) = some s₂ ∧ sys.Later s₂ s' ∧ s₁.db = d

end System

/-! ## Contracts of the tagged system -/

namespace Contract

variable {sys : System D W K Op α} {C : Contract sys.tag} {d₀ : D} {s s₁ s' : State D W K Op α}
  {ev : Event Op}

/-- What has to be promised of a statement that takes its snapshot. -/
theorem meets_tag (h : ∀ x ∈ s.sessions, ev = .snapshot x.id →
      ∀ sql, C.assume (x.op, x.id) sql s.db) :
    C.Meets s.tag (s.tagEvent ev) := by
  intro y hy hev sql _ _ _ _
  obtain ⟨x, hx, rfl⟩ := List.mem_map.mp hy
  refine h x hx ?_ sql
  cases ev with
  | snapshot id => exact congrArg Event.snapshot (Event.snapshot.inj hev)
  | _ => cases hev

variable [DecidableEq K]

/-- A sound contract of the tagged system holds all along a run, when of the sessions begun from `s`
on it only assumes that they read what they do. -/
theorem Sound.holds_since (hS : C.Sound)
    (hassume : ∀ op id sql d, (s.fresh ≤ id → sys.ReadsSince s s' id d) → C.assume (op, id) sql d)
    (h₀ : C.inv d₀ []) (hs : sys.Reaches d₀ s) (hl : sys.Later s s₁) (hl' : sys.Later s₁ s') :
    C.Holds s₁.tag := by
  have hstep : ∀ {t t' ev}, C.Holds t.tag → C.Meets t.tag (t.tagEvent ev) →
      sys.step t ev = some t' → C.Holds t'.tag := by
    intro t t' ev ht hmeets hev
    exact (ht.step hS hmeets (System.step_eq_some_tag hev)).1
  -- Nothing is asked of the sessions that have begun before.
  have hbefore : ∀ {t}, sys.ReachesBy (fun t ev => sys.Reaches d₀ t ∧
      ∃ t', sys.step t ev = some t' ∧ sys.Later t' s) d₀ t → C.Holds t.tag := by
    intro t ht
    induction ht with
    | init => exact ⟨h₀, by simp [State.tag],
        (System.ReachesBy.init (P := fun _ _ => True)).wellFormed⟩
    | @step t t' ev _ hpast hev ih =>
      obtain ⟨hreaches, t'', hev', hlater⟩ := hpast
      refine hstep ih (meets_tag fun x hx _ sql => hassume _ _ _ _ fun hle => ?_) hev
      have hfresh : x.id < t.fresh := hreaches.wellFormed.sessions_fresh x hx
      have hmono : t.fresh ≤ s.fresh := System.Later.fresh_le (.head ⟨ev, hev'⟩ hlater)
      omega
  induction hl with
  | refl => exact hbefore (hs.byPast .refl)
  | @tail t t' hl hev ih =>
    obtain ⟨ev, hev⟩ := hev
    refine hstep (ih (.head ⟨ev, hev⟩ hl')) (meets_tag fun x _ hx sql => ?_) hev
    exact hassume _ _ _ _ fun _ => ⟨t, t', hl, hx ▸ hev, hl', rfl⟩

/-- What an event of the session `id` commits, by a contract that only assumes of the sessions begun
from `s` on that they read what they do. -/
theorem Sound.event_since (hS : C.Sound)
    (hassume : ∀ op id sql d, (s.fresh ≤ id → sys.ReadsSince s s' id d) → C.assume (op, id) sql d)
    (h₀ : C.inv d₀ []) (hs : sys.Reaches d₀ s) (hl : sys.Later s s₁)
    (hstep : sys.step s₁ ev = some s') {id : ℕ} {op : Op} (hrun : s₁.Runs ev id op) :
    ∃ ws r, C.guar (op, id) s₁.db ws r ∧ s'.db = sys.view s₁.db ws := by
  have hholds : C.Holds s₁.tag := hS.holds_since hassume h₀ hs hl (.single ⟨ev, hstep⟩)
  have hmeets : C.Meets s₁.tag (s₁.tagEvent ev) := meets_tag fun x _ hx sql =>
    hassume _ _ _ _ fun _ => ⟨s₁, s', hl, hx ▸ hstep, .refl, rfl⟩
  obtain ⟨id', op', ws, r, hrun', hguar, hdb, -⟩ :=
    (hholds.step hS hmeets (System.step_eq_some_tag hstep)).2
  obtain ⟨-, rfl⟩ := hrun.tag.unique hholds.wellFormed hrun'
  exact ⟨ws, r, hguar, hdb⟩

end Contract

end Postgres
