import InfernalLaw.Postgres.Engine

/-!
# Rely and guarantee

A contract says what a system's operations may do to the committed database: `inv` is an invariant
of the database together with the log of the operations that have ended, and `guar` lists what one
event of an operation may commit, with the result if the event ends the operation. From it follows
what a session can rely on: while it holds the keys `locks`, the others only commit writes that the
contract allows and whose keys are not among `locks`.

`Contract.wp` is the weakest precondition of a process under this interference. Before each
statement and commit the database changes by `rely`; a statement also works on a snapshot that may
be older than the state in which it completes. `Contract.Sound` collects the proof obligations of a
contract, one `wp` per operation, and `Contract.Sound.reaches` is the induction over runs, done
once: the invariant holds in every reachable state, and every event commits what the contract
allows.
-/

namespace Postgres

variable {D W K Op α β γ : Type}

/-- What a system's operations promise each other. -/
structure Contract (sys : System D W K Op α) where
  /-- What holds of the committed database and the log between events. -/
  inv : D → List (Entry Op α) → Prop
  /-- What an event of an operation may do at a database: commit the writes, and end the operation
  with a result. -/
  guar : Op → D → List W → Option α → Prop
  /-- What the runs under consideration promise when a statement of an operation takes its
  snapshot. -/
  assume : Op → String → D → Prop := fun _ _ _ => True

namespace Contract

variable {sys : System D W K Op α} (C : Contract sys)

/-- The database of a state that satisfies the invariant. -/
def Good (d : D) : Prop := ∃ log, C.inv d log

/-- One event of the other sessions while a session holds `locks`. -/
def Interferes (locks : List K) (d d' : D) : Prop :=
  C.Good d ∧ C.Good d' ∧ ∃ op ws r, C.guar op d ws r ∧ (∀ w ∈ ws, ∀ k ∈ sys.keys w, k ∉ locks) ∧
    d' = sys.view d ws

/-- What a session can rely on while it holds `locks`. -/
def Rely (locks : List K) : D → D → Prop := Relation.ReflTransGen (C.Interferes locks)

/-- The weakest precondition for `Q` of a process of the operation `op`. The event under way started
at the database `e` and committed `u`; the session holds `locks` and has the pending writes `ws`. -/
def wp (op : Op) : Proc D W K β → (β → D → List W → List K → List W → Prop) →
    D → List W → List K → List W → Prop
  | .done b, Q, e, u, locks, ws => Q b e u locks ws
  | .stmt sql effect next failed, Q, e, u, locks, ws =>
    C.guar op e u none ∧ ∀ d₁, C.Rely locks (sys.view e u) d₁ → C.Good d₁ →
      wp op failed Q d₁ [] [] [] ∧
      (C.assume op sql d₁ → ∀ d₂, C.Rely locks d₁ d₂ → C.Good d₂ →
        wp op (next (sys.view d₁ ws) (sys.view d₂ ws)) Q d₂ []
          (locks ++ sys.held (effect (sys.view d₁ ws) (sys.view d₂ ws)))
          (ws ++ (effect (sys.view d₁ ws) (sys.view d₂ ws)).writes))
  | .commit next failed, Q, e, u, locks, ws =>
    C.guar op e u none ∧ ∀ d₁, C.Rely locks (sys.view e u) d₁ → C.Good d₁ →
      wp op failed Q d₁ [] [] [] ∧ wp op next Q d₁ ws [] []
  | .rollback next, Q, e, u, _, _ => wp op next Q e u [] []

/-- The postcondition of an operation: its last event is allowed by the contract. -/
def Final (op : Op) (a : α) (e : D) (u : List W) (_ : List K) (_ : List W) : Prop :=
  C.guar op e u (some a)

/-- The proof obligations of a contract. -/
structure Sound (C : Contract sys) : Prop where
  /-- An event may leave everything as it is. -/
  stutter : ∀ op d, C.guar op d [] none
  /-- What the contract allows preserves the invariant. -/
  preserves : ∀ id op d log ws r, C.inv d log → C.guar op d ws r →
    C.inv (sys.view d ws) (log ++ (r.map fun a => ⟨id, op, a⟩).toList)
  /-- Every operation keeps to the contract. -/
  program : ∀ op d, C.Good d → C.wp op (sys.program op) (C.Final op) d [] [] []

/-! ## Rules -/

variable {C} {op : Op} {e d d' : D} {u ws : List W} {locks : List K}

/-- With fewer locks there is more interference. -/
theorem Rely.mono {locks' : List K} (h : C.Rely locks d d') (hl : ∀ k ∈ locks', k ∈ locks) :
    C.Rely locks' d d' :=
  Relation.ReflTransGen.mono (fun _ _ ⟨hg, hg', op, ws, r, hguar, hkeys, hd⟩ =>
    ⟨hg, hg', op, ws, r, hguar, fun w hw k hk hk' => hkeys w hw k hk (hl k hk'), hd⟩) _ _ h

/-- Interference twice is interference. -/
theorem Rely.trans {d'' : D} (h : C.Rely locks d d') (h' : C.Rely locks d' d'') :
    C.Rely locks d d'' := Relation.ReflTransGen.trans h h'

/-- A stable fact survives interference. -/
theorem Rely.stable {P : D → Prop} (h : C.Rely locks d d') (hP : sys.Stable locks P) (hd : P d) :
    P d' := by
  induction h with
  | refl => exact hd
  | tail _ hi ih =>
    obtain ⟨-, -, op, ws, r, -, hkeys, rfl⟩ := hi
    exact hP.view ws _ hkeys ih

/-- A fact that every event preserves which the contract allows survives interference. -/
theorem Rely.stable_of_guar {P : D → Prop} (h : C.Rely locks d d')
    (hg : ∀ op d ws r, C.Good d → C.guar op d ws r → P d → P (sys.view d ws)) (hd : P d) :
    P d' := by
  induction h with
  | refl => exact hd
  | tail _ hi ih =>
    obtain ⟨hgood, -, op, ws, r, hguar, -, rfl⟩ := hi
    exact hg _ _ _ _ hgood hguar ih

/-- Weakest preconditions are monotone. -/
theorem wp_mono {p : Proc D W K β} {Q Q' : β → D → List W → List K → List W → Prop}
    (hQ : ∀ b e u locks ws, Q b e u locks ws → Q' b e u locks ws) :
    ∀ {e u locks ws}, C.wp op p Q e u locks ws → C.wp op p Q' e u locks ws := by
  induction p with
  | done b => exact hQ _ _ _ _ _
  | stmt sql effect next failed ihn ihf =>
    intro e u locks ws h
    refine ⟨h.1, fun d₁ hr hg => ⟨ihf (h.2 d₁ hr hg).1, fun ha d₂ hr' hg' => ?_⟩⟩
    exact ihn _ _ ((h.2 d₁ hr hg).2 ha d₂ hr' hg')
  | commit next failed ihn ihf =>
    intro e u locks ws h
    exact ⟨h.1, fun d₁ hr hg => ⟨ihf (h.2 d₁ hr hg).1, ihn (h.2 d₁ hr hg).2⟩⟩
  | rollback next ih =>
    intro e u locks ws h
    exact ih h

/-- The frame rule: a fact that no write can falsify still holds at the end. -/
theorem wp_frame {p : Proc D W K β} {P : D → Prop} (hP : sys.Stable [] P)
    {Q : β → D → List W → List K → List W → Prop} : ∀ {e u locks ws}, P (sys.view e u) →
      C.wp op p Q e u locks ws →
      C.wp op p (fun b e u locks ws => Q b e u locks ws ∧ P (sys.view e u)) e u locks ws := by
  have hrely : ∀ {locks : List K} {d d' : D}, C.Rely locks d d' → P d → P d' :=
    fun hr hd => (hr.mono fun k hk => absurd hk List.not_mem_nil).stable hP hd
  induction p with
  | done b => exact fun hd h => ⟨h, hd⟩
  | stmt sql effect next failed ihn ihf =>
    intro e u locks ws hd h
    refine ⟨h.1, fun d₁ hr hg => ⟨ihf (hrely hr hd) (h.2 d₁ hr hg).1, fun ha d₂ hr' hg' => ?_⟩⟩
    exact ihn _ _ (hrely hr' (hrely hr hd)) ((h.2 d₁ hr hg).2 ha d₂ hr' hg')
  | commit next failed ihn ihf =>
    intro e u locks ws hd h
    refine ⟨h.1, fun d₁ hr hg => ⟨ihf (hrely hr hd) (h.2 d₁ hr hg).1, ?_⟩⟩
    exact ihn (hP.view ws d₁ (fun _ _ _ _ => List.not_mem_nil) (hrely hr hd)) (h.2 d₁ hr hg).2
  | rollback next ih =>
    intro e u locks ws hd h
    exact ih hd h

/-- The rule of sequencing. -/
theorem wp_bind {p : Proc D W K β} {f : β → Proc D W K γ}
    {Q : γ → D → List W → List K → List W → Prop} :
    ∀ {e u locks ws}, C.wp op (p.bind f) Q e u locks ws ↔
      C.wp op p (fun b => C.wp op (f b) Q) e u locks ws := by
  induction p with
  | done b =>
    intro e u locks ws
    exact Iff.rfl
  | stmt sql effect next failed ihn ihf =>
    intro e u locks ws
    simp only [Proc.bind, wp]
    exact and_congr_right fun _ => forall_congr' fun d₁ => forall_congr' fun _ =>
      forall_congr' fun _ => and_congr ihf (forall_congr' fun _ => forall_congr' fun d₂ =>
        forall_congr' fun _ => forall_congr' fun _ => ihn _ _)
  | commit next failed ihn ihf =>
    intro e u locks ws
    simp only [Proc.bind, wp]
    exact and_congr_right fun _ => forall_congr' fun d₁ => forall_congr' fun _ =>
      forall_congr' fun _ => and_congr ihf ihn
  | rollback next ih =>
    intro e u locks ws
    exact ih

/-- Dropping a transaction needs nothing. -/
theorem wp_settle {p : Proc D W K β} {Q : β → D → List W → List K → List W → Prop} :
    ∀ {locks ws}, C.wp op p Q e u locks ws →
      C.wp op (p.settle locks ws).1 Q e u (p.settle locks ws).2.1 (p.settle locks ws).2.2 := by
  induction p with
  | rollback next ih =>
    intro locks ws h
    exact ih h
  | _ => exact id

/-- What a waiting process needs still holds after interference. -/
theorem wp_rely (hS : C.Sound) {p : Proc D W K β} (hp : p.Waiting)
    {Q : β → D → List W → List K → List W → Prop} (h : C.wp op p Q e u locks ws)
    (hr : C.Rely locks (sys.view e u) d') : C.wp op p Q d' [] locks ws := by
  cases p with
  | done b => exact hp.elim
  | stmt sql effect next failed =>
    exact ⟨hS.stutter _ _, fun d₁ hr' hg => h.2 d₁ (hr.trans hr') hg⟩
  | commit next failed =>
    exact ⟨hS.stutter _ _, fun d₁ hr' hg => h.2 d₁ (hr.trans hr') hg⟩
  | rollback next => exact hp.elim

/-- What the event under way has committed is allowed, and a waiting process begins a new one. -/
theorem wp_of_waiting {p : Proc D W K β} (hp : p.Waiting)
    {Q : β → D → List W → List K → List W → Prop} (hg : C.guar op e u none)
    (h : C.wp op p Q (sys.view e u) [] locks ws) : C.wp op p Q e u locks ws := by
  cases p with
  | done b => exact hp.elim
  | stmt sql effect next failed => exact ⟨hg, h.2⟩
  | commit next failed => exact ⟨hg, h.2⟩
  | rollback next => exact hp.elim

/-! ## Soundness -/

/-- Whatever happens, the session will keep to the contract. -/
def SessionSafe (C : Contract sys) (db : D) (x : Session D W K Op α) : Prop :=
  match x.snapshot with
  | none => x.proc.Waiting ∧ C.wp x.op x.proc (C.Final x.op) db [] x.locks x.writes
  | some snap => ∃ sql effect next failed d₁, x.proc = .stmt sql effect next failed ∧
      snap = sys.view d₁ x.writes ∧ C.Rely x.locks d₁ db ∧
      ∀ d₂, C.Rely x.locks d₁ d₂ → C.Good d₂ →
        C.wp x.op failed (C.Final x.op) d₂ [] [] [] ∧
        C.wp x.op (next snap (sys.view d₂ x.writes)) (C.Final x.op) d₂ []
          (x.locks ++ sys.held (effect snap (sys.view d₂ x.writes)))
          (x.writes ++ (effect snap (sys.view d₂ x.writes)).writes)

/-- What holds between events in a run that keeps to the contract. -/
structure Holds [DecidableEq K] (C : Contract sys) (s : State D W K Op α) : Prop where
  inv : C.inv s.db s.log
  safe : ∀ x ∈ s.sessions, C.SessionSafe s.db x
  wellFormed : s.WellFormed sys.toStore

/-- The runs under consideration keep their promise in an event. -/
def Meets (C : Contract sys) (s : State D W K Op α) (ev : Event Op) : Prop :=
  ∀ x ∈ s.sessions, ev = .snapshot x.id → ∀ sql effect next failed,
    x.proc = .stmt sql effect next failed → C.assume x.op sql s.db

/-- The contract allows what an event did. -/
def Allows (C : Contract sys) (s : State D W K Op α) (ev : Event Op) (s' : State D W K Op α) :
    Prop :=
  ∃ id op u r, s.Runs ev id op ∧ C.guar op s.db u r ∧ s'.db = sys.view s.db u ∧
    s'.log = s.log ++ (r.map fun a => ⟨id, op, a⟩).toList

/-- A session stays safe when another session does what the contract allows. -/
theorem SessionSafe.interfere (hS : C.Sound) {x : Session D W K Op α} (h : C.SessionSafe d x)
    (hi : C.Interferes x.locks d d') : C.SessionSafe d' x := by
  have hr : C.Rely x.locks d d' := Relation.ReflTransGen.single hi
  unfold SessionSafe at *
  split at h
  · exact ⟨h.1, wp_rely hS h.1 h.2 hr⟩
  · obtain ⟨sql, effect, next, failed, d₁, hp, hsnap, hr₁, hd₂⟩ := h
    exact ⟨sql, effect, next, failed, d₁, hp, hsnap, hr₁.trans hr, hd₂⟩

/-- A session that moves does what the contract allows, with keys that it holds, and can go on. -/
theorem SessionSafe.move [DecidableEq K] {s : State D W K Op α} {x : Session D W K Op α}
    (h : C.SessionSafe s.db x) (hgood : C.Good s.db) (hcov : x.Covers sys.toStore)
    {db : D} {p : Proc D W K α} {locks : List K} {ws : List W}
    (hm : sys.Moves s x db p locks ws) :
    ∃ u, db = sys.view s.db u ∧ C.wp x.op p (C.Final x.op) s.db u locks ws ∧
      ∀ w ∈ u, ∀ k ∈ sys.keys w, k ∈ x.locks := by
  unfold SessionSafe at h
  -- What is known from the snapshot on is used in the state in which the statement completes.
  cases hm with
  | stmt hp hs hfree =>
    simp only [hs] at h
    obtain ⟨_, _, _, _, d₁, hp', rfl, hr, hd₂⟩ := h
    rw [hp] at hp'
    cases hp'
    exact ⟨[], rfl, (hd₂ s.db hr hgood).2, by simp⟩
  | commit hp =>
    split at h
    · rw [hp] at h
      exact ⟨x.writes, rfl, (h.2.2 _ .refl hgood).2, hcov⟩
    · obtain ⟨_, _, _, _, _, hp', -⟩ := h
      rw [hp] at hp'
      cases hp'
  | stmtFails hp =>
    refine ⟨[], rfl, ?_, by simp⟩
    split at h
    · rw [hp] at h
      exact (h.2.2 _ .refl hgood).1
    · obtain ⟨_, _, _, _, _, hp', -, hr, hd₂⟩ := h
      rw [hp] at hp'
      cases hp'
      exact (hd₂ s.db hr hgood).1
  | commitFails hp =>
    refine ⟨[], rfl, ?_, by simp⟩
    split at h
    · rw [hp] at h
      exact (h.2.2 _ .refl hgood).1
    · obtain ⟨_, _, _, _, _, hp', -⟩ := h
      rw [hp] at hp'
      cases hp'

/-- A session that goes on, or ends, from a process whose weakest precondition holds. -/
theorem Holds.resume [DecidableEq K] (hS : C.Sound) {s : State D W K Op α} (hs : C.Holds s)
    {id : ℕ} {op : Op} {p : Proc D W K α} {locks : List K} {ws u : List W}
    (hwf : (s.resume id op (sys.view s.db u) p locks ws).WellFormed sys.toStore)
    (hw : C.wp op p (C.Final op) s.db u locks ws)
    (hu : ∀ y ∈ s.others id, ∀ w ∈ u, ∀ k ∈ sys.keys w, k ∉ y.locks) :
    C.Holds (s.resume id op (sys.view s.db u) p locks ws) ∧ ∃ r, C.guar op s.db u r ∧
      (s.resume id op (sys.view s.db u) p locks ws).db = sys.view s.db u ∧
      (s.resume id op (sys.view s.db u) p locks ws).log =
        s.log ++ (r.map fun a => ⟨id, op, a⟩).toList := by
  have hsettled := wp_settle hw
  -- What the event commits, and whether it ends the operation.
  obtain ⟨r, hguar, hlog, hdb, hnew⟩ : ∃ r, C.guar op s.db u r ∧
      (s.resume id op (sys.view s.db u) p locks ws).log =
        s.log ++ (r.map fun a => ⟨id, op, a⟩).toList ∧
      (s.resume id op (sys.view s.db u) p locks ws).db = sys.view s.db u ∧
      ∀ y ∈ (s.resume id op (sys.view s.db u) p locks ws).sessions, y ∈ s.others id ∨
        C.SessionSafe (sys.view s.db u) y := by
    rcases s.resume_cases id op (sys.view s.db u) p locks ws with
      ⟨a, hdone, hr⟩ | ⟨x, rfl, rfl, hsnap, hp, hwait, hr⟩
    · rw [hdone] at hsettled
      rw [hr]
      exact ⟨some a, hsettled, rfl, rfl, fun y hy => .inl hy⟩
    · rw [hp] at hsettled
      have hguar : C.guar x.op s.db u none := by
        cases hproc : x.proc <;> rw [hproc] at hsettled hwait
        · exact hwait.elim
        · exact hsettled.1
        · exact hsettled.1
        · exact hwait.elim
      rw [hr]
      refine ⟨none, hguar, by simp [State.put], rfl, fun y hy => ?_⟩
      rcases List.mem_cons.mp hy with rfl | hy
      · refine .inr ?_
        unfold SessionSafe
        rw [hsnap]
        exact ⟨hwait, wp_rely hS hwait hsettled .refl⟩
      · exact .inl hy
  -- The invariant, and the other sessions under this event.
  have hinv := hS.preserves id op s.db s.log u r hs.inv hguar
  refine ⟨⟨by rw [hdb, hlog]; exact hinv, fun y hy => ?_, hwf⟩, r, hguar, hdb, hlog⟩
  rw [hdb]
  rcases hnew y hy with hy | hy
  · exact (hs.safe y (State.mem_others.mp hy).1).interfere hS
      ⟨⟨_, hs.inv⟩, ⟨_, hinv⟩, op, u, r, hguar, hu y hy, rfl⟩
  · exact hy

/-- An event of a run that keeps to the contract. -/
theorem Holds.step [DecidableEq K] (hS : C.Sound) {s s' : State D W K Op α} {ev : Event Op}
    (hs : C.Holds s) (hm : C.Meets s ev) (h : sys.step s ev = some s') :
    C.Holds s' ∧ C.Allows s ev s' := by
  have hwf := System.step_wellFormed hs.wellFormed h
  rcases System.step_cases h with ⟨op, rfl, rfl⟩ |
    ⟨x, hx, rfl, hsnap, ⟨sql, effect, next, failed, hp⟩, rfl⟩ |
    ⟨x, hx, hev, db, p, locks, ws, hmove, rfl⟩
  · have hs₀ : C.Holds { s with fresh := s.fresh + 1 } :=
      ⟨hs.inv, hs.safe, { hs.wellFormed with
        sessions_fresh := fun x hx => Nat.lt_succ_of_lt (hs.wellFormed.sessions_fresh x hx)
        log_fresh := fun e he => Nat.lt_succ_of_lt (hs.wellFormed.log_fresh e he) }⟩
    obtain ⟨h', r, hguar, hdb, hlog⟩ := hs₀.resume hS (u := []) hwf
      (hS.program op s.db ⟨_, hs.inv⟩) (by simp)
    exact ⟨h', s.fresh, op, [], r, .inl ⟨rfl, rfl⟩, hguar, hdb, hlog⟩
  · refine ⟨⟨hs.inv, fun y hy => ?_, hwf⟩, x.id, x.op, [], none, .inr ⟨rfl, x, hx, rfl, rfl⟩,
      hS.stutter _ _, rfl, by simp [State.put]⟩
    rcases List.mem_cons.mp hy with rfl | hy
    · have hsafe := hs.safe x hx
      unfold SessionSafe at hsafe ⊢
      rw [hsnap, hp] at hsafe
      refine ⟨sql, effect, next, failed, s.db, hp, rfl, .refl, fun d₂ hr hg => ?_⟩
      refine ⟨(hsafe.2.2 d₂ hr hg).1, ?_⟩
      exact (hsafe.2.2 s.db .refl ⟨_, hs.inv⟩).2 (hm x hx rfl _ _ _ _ hp) d₂ hr hg
    · exact hs.safe y (State.mem_others.mp hy).1
  · obtain ⟨u, rfl, hw, hkeys⟩ := (hs.safe x hx).move ⟨_, hs.inv⟩ (hs.wellFormed.covers x hx) hmove
    obtain ⟨h', r, hguar, hdb, hlog⟩ := hs.resume hS hwf hw fun y hy w hw k hk hky =>
      hs.wellFormed.others_apart hx hy k (hkeys w hw k hk) hky
    exact ⟨h', x.id, x.op, u, r, .inr ⟨hev, x, hx, rfl, rfl⟩, hguar, hdb, hlog⟩

/-- What a session commits is allowed, whatever the operation has come to then. -/
theorem Holds.guar_of_commit [DecidableEq K] {s : State D W K Op α} (hs : C.Holds s)
    {x : Session D W K Op α} (hx : x ∈ s.sessions) {next failed : Proc D W K α}
    (hp : x.proc = .commit next failed) : ∃ r, C.guar x.op s.db x.writes r := by
  have hguar : ∀ {p : Proc D W K α} {e u locks ws}, C.wp x.op p (C.Final x.op) e u locks ws →
      ∃ r, C.guar x.op e u r := by
    intro p e u locks ws h
    induction p generalizing locks ws with
    | done a => exact ⟨some a, h⟩
    | stmt => exact ⟨none, h.1⟩
    | commit => exact ⟨none, h.1⟩
    | rollback next ih => exact ih h
  have hsafe := hs.safe x hx
  unfold SessionSafe at hsafe
  split at hsafe
  · rw [hp] at hsafe
    exact hguar (hsafe.2.2 s.db .refl ⟨_, hs.inv⟩).2
  · obtain ⟨_, _, _, _, _, hp', -⟩ := hsafe
    rw [hp] at hp'
    cases hp'

/-- The invariant rule: a sound contract holds in every state that a run reaches which keeps its
promise. -/
theorem Sound.reaches [DecidableEq K] (hS : C.Sound) {P : State D W K Op α → Event Op → Prop}
    (hP : ∀ s ev, P s ev → C.Meets s ev) (hd : C.inv d []) {s : State D W K Op α}
    (h : sys.ReachesBy P d s) : C.Holds s := by
  induction h with
  | init => exact ⟨hd, by simp, (System.ReachesBy.init (P := P)).wellFormed⟩
  | step ev _ hp hstep ih => exact (ih.step hS (hP _ _ hp) hstep).1

/-! ## Runs that promise nothing -/

section Unconditional

variable [DecidableEq K] {d₀ : D} {s s' : State D W K Op α}

/-- Every state that is reached keeps the contract. -/
theorem Sound.holds (hS : C.Sound) (hassume : ∀ op sql d, C.assume op sql d) (h₀ : C.inv d₀ [])
    (hs : sys.Reaches d₀ s) : C.Holds s :=
  hS.reaches (fun _ _ _ _ _ _ _ _ _ _ _ => hassume _ _ _) h₀ hs

/-- Every event does what the contract allows. -/
theorem Sound.event (hS : C.Sound) (hassume : ∀ op sql d, C.assume op sql d) (h₀ : C.inv d₀ [])
    (hs : sys.Reaches d₀ s) {ev : Event Op} (hstep : sys.step s ev = some s') : C.Allows s ev s' :=
  ((hS.holds hassume h₀ hs).step hS (fun _ _ _ _ _ _ _ _ => hassume _ _ _) hstep).2

/-- A fact that everything preserves which the contract allows holds from then on. -/
theorem Sound.later (hS : C.Sound) (hassume : ∀ op sql d, C.assume op sql d) (h₀ : C.inv d₀ [])
    {P : D → Prop}
    (hP : ∀ op d log ws r, C.inv d log → C.guar op d ws r → P d → P (sys.view d ws))
    (hs : sys.Reaches d₀ s) (hl : sys.Later s s') (hd : P s.db) : P s'.db := by
  induction hl with
  | refl => exact hd
  | @tail t t' hl hstep ih =>
    obtain ⟨ev, hstep⟩ := hstep
    obtain ⟨-, op, ws, r, -, hguar, hdb, -⟩ := hS.event hassume h₀ (hs.later hl) hstep
    rw [hdb]
    exact hP op _ _ ws r (hS.holds hassume h₀ (hs.later hl)).inv hguar ih

end Unconditional

/-! ## Runs that remember -/

section Past

variable [DecidableEq K] {d₀ : D} {s : State D W K Op α}

/-- In a run every snapshot is taken of a database that the run has passed. A contract may assume
as much, and so carry on what was seen in one. -/
theorem Sound.holds_past (hS : C.Sound)
    (hassume : ∀ op sql d, sys.Passed d₀ s d → C.assume op sql d) (h₀ : C.inv d₀ [])
    (hs : sys.Reaches d₀ s) : C.Holds s :=
  hS.reaches (fun _ _ ⟨hs₁, _, hstep, hl⟩ _ _ _ _ _ _ _ _ =>
    hassume _ _ _ ⟨_, hs₁, .head ⟨_, hstep⟩ hl, rfl⟩) h₀ (hs.byPast .refl)

/-- In a run every snapshot is one that its operation has taken. -/
theorem Sound.holds_reads (hS : C.Sound)
    (hassume : ∀ op sql d, sys.Reads d₀ s op d → C.assume op sql d) (h₀ : C.inv d₀ [])
    (hs : sys.Reaches d₀ s) : C.Holds s := by
  refine hS.reaches (fun s₁ ev ⟨hs₁, s₂, hstep, hl⟩ x hx hev sql _ _ _ _ => ?_) h₀ (hs.byPast .refl)
  subst hev
  exact hassume x.op sql s₁.db ⟨s₁, s₂, hs₁, ⟨x, hx, rfl, hstep⟩, hl, rfl⟩

end Past

end Contract

end Postgres
