import InfernalLaw.Postgres.Serial

/-!
# Operations that take turns

`Proc.exec` is what an operation does alone. Operations that overlap do the same one after the
other, if each of them only reads what the others leave alone until it takes the snapshot of one
statement, its entry, and none takes that snapshot while another one is past its own, unless matters
are settled and the operations only look. `Turns` describes such operations, and `Turns.Sound.holds`
is the induction over runs: what every operation preserves alone holds along every run without
faults in which they take turns.
-/

namespace Postgres

variable {D W K Op α β γ ε Row : Type}

/-! ## Runs of given events -/

/-- The server does not fail. -/
def Event.Faultless : Event Op → Prop
  | .fault _ => False
  | _ => True

/-- A statement takes its snapshot. -/
def Event.isSnapshot : Event Op → Bool
  | .snapshot _ => true
  | _ => false

instance : DecidablePred (Event.Faultless : Event Op → Prop)
  | .begin _ => isTrue trivial
  | .snapshot _ => isTrue trivial
  | .advance _ => isTrue trivial
  | .fault _ => isFalse id

namespace State

variable {s : State D W K Op α}

/-- A running session is one of the sessions, once. -/
theorem length_others {S : Store D W K} (hs : s.WellFormed S) {x : Session D W K Op α}
    (hx : x ∈ s.sessions) :
    (s.others x.id).length + 1 = s.sessions.length := by
  have hnodup : (s.sessions.map Session.id).Nodup :=
    List.pairwise_map.mpr (hs.apart.imp fun h => h.1)
  have hone : s.sessions.countP (fun y => y.id = x.id) = 1 := by
    have hcount := List.count_eq_one_of_mem hnodup (List.mem_map_of_mem hx)
    rw [List.count, List.countP_map] at hcount
    simpa [Function.comp_def, beq_eq_decide] using hcount
  have hsplit := List.length_eq_countP_add_countP (l := s.sessions) fun y => decide (y.id = x.id)
  rw [hsplit, hone, State.others, ← List.countP_eq_length_filter, Nat.add_comm]
  simp

/-- A session that goes on is still running, or has one entry in the log. -/
theorem length_resume (s : State D W K Op α) (id : ℕ) (op : Op) (db : D) (p : Proc D W K α)
    (locks : List K) (ws : List W) : (s.resume id op db p locks ws).fresh = s.fresh ∧
      (s.resume id op db p locks ws).log.length + (s.resume id op db p locks ws).sessions.length =
        s.log.length + ((s.others id).length + 1) := by
  rcases s.resume_cases id op db p locks ws with ⟨a, -, hr⟩ | ⟨x, rfl, -, -, -, -, hr⟩
  · rw [hr]
    refine ⟨rfl, ?_⟩
    simp only [List.length_append, List.length_singleton]
    omega
  · rw [hr]
    exact ⟨rfl, rfl⟩

end State

namespace System

variable [DecidableEq K] {sys : System D W K Op α} {P : State D W K Op α → Event Op → Prop} {d : D}
  {s s' : State D W K Op α}

/-- A run of events which all meet `P`. -/
def runBy (sys : System D W K Op α) (P : State D W K Op α → Event Op → Prop)
    [∀ s ev, Decidable (P s ev)] (s : State D W K Op α) (events : List (Event Op)) :
    Option (State D W K Op α) :=
  events.foldlM (fun s ev => if P s ev then sys.step s ev else none) s

/-- What a run of events comes to is reached. -/
theorem ReachesBy.runBy [∀ s ev, Decidable (P s ev)] {events : List (Event Op)}
    (h : sys.ReachesBy P d s) (hrun : sys.runBy P s events = some s') : sys.ReachesBy P d s' := by
  induction events generalizing s with
  | nil => exact Option.some.inj hrun ▸ h
  | cons ev events ih =>
    rw [System.runBy, List.foldlM_cons] at hrun
    obtain ⟨s₁, hstep, hrest⟩ := Option.bind_eq_some_iff.mp hrun
    split at hstep
    · rename_i hev
      exact ih (.step ev h hev hstep) hrest
    · cases hstep

/-- Every operation that has begun is running or has ended. -/
theorem ReachesBy.length (h : sys.ReachesBy P d s) :
    s.log.length + s.sessions.length = s.fresh := by
  induction h with
  | init => rfl
  | @step s s' ev hs _ hstep ih =>
    have hwf := hs.wellFormed
    rcases step_cases hstep with
      ⟨op, -, rfl⟩ | ⟨x, hx, -, -, -, rfl⟩ | ⟨x, hx, -, db, p, locks, ws, -, rfl⟩
    · obtain ⟨hfresh, hlength⟩ :=
        State.length_resume { s with fresh := s.fresh + 1 } s.fresh op s.db (sys.program op) [] []
      -- No session has the new identifier.
      have hothers : State.others { s with fresh := s.fresh + 1 } s.fresh = s.sessions :=
        List.filter_eq_self.mpr fun y hy => by simpa using Nat.ne_of_lt (hwf.sessions_fresh y hy)
      rw [hothers] at hlength
      rw [hfresh, hlength]
      change s.log.length + (s.sessions.length + 1) = s.fresh + 1
      omega
    · have hothers := State.length_others hwf hx
      change s.log.length + ((s.others x.id).length + 1) = s.fresh
      omega
    · obtain ⟨hfresh, hlength⟩ := State.length_resume s x.id x.op db p locks ws
      rw [hfresh, hlength, State.length_others hwf hx]
      exact ih

end System

/-! ## Processes -/

/-- The statement that a process waits with. -/
def Proc.statement? : Proc D W K β → Option String
  | .stmt sql .. => some sql
  | _ => none

/-- Without faults a process only runs statements that `name` allows, and only writes what `mine`
allows. -/
def Proc.Only (name : String → Prop) (mine : W → Prop) : Proc D W K β → Prop
  | .done _ => True
  | .stmt sql effect next _ => name sql ∧ ∀ snap cur,
      (∀ w ∈ (effect snap cur).writes, mine w) ∧ (next snap cur).Only name mine
  | .commit next _ => next.Only name mine
  | .rollback next => next.Only name mine

/-- A process that alone writes nothing to the database `d`. -/
def Proc.Looks (d : D) : Proc D W K β → Prop
  | .done _ => True
  | .stmt _ effect next _ => (effect d d).writes = [] ∧ (next d d).Looks d
  | .commit next _ => next.Looks d
  | .rollback next => next.Looks d

/-- A process that only looks ends with the database that it saw. -/
theorem Proc.Looks.exec (S : Store D W K) {p : Proc D W K β} {d : D} (h : p.Looks d) :
    (p.exec S d []).db = d := by
  induction p with
  | done b => rfl
  | stmt sql effect next failed ihn _ =>
    rw [Proc.exec, Store.view_nil, h.1]
    exact ihn d d h.2
  | commit next failed ihn _ => exact ihn h
  | rollback next ih => exact ih h

/-- A sequence only looks if both parts do, the second one with what the first one has found. -/
theorem Proc.Looks.bind (S : Store D W K) {p : Proc D W K β} {f : β → Proc D W K γ} {d : D}
    (hp : p.Looks d) (hf : (f (p.exec S d []).result).Looks d) : (p.bind f).Looks d := by
  induction p with
  | done b => exact hf
  | stmt sql effect next failed ihn _ =>
    rw [Proc.exec, Store.view_nil, hp.1] at hf
    exact ⟨hp.1, ihn d d hp.2 hf⟩
  | commit next failed ihn _ => exact ihn hp hf
  | rollback next ih => exact ih hp hf

/-- A transaction whose statements only look. -/
theorem Proc.Looks.transaction (S : Store D W K) {body : ExceptT ε (Proc D W K) β} {d : D}
    (h : body.run.Looks d) : (Proc.transaction body).Looks d := by
  refine h.bind S ?_
  cases (body.run.exec S d []).result <;> trivial

/-- A statement of a client function that only looks, and the rest of it. -/
theorem Proc.Looks.orFail_bind (S : Store D W K) {error : DbError → ε}
    {p : Proc D W K (Except DbError β)} {f : β → ExceptT ε (Proc D W K) γ} {d : D} (hp : p.Looks d)
    (hf : ∀ b, (p.exec S d []).result = .ok b → (f b).run.Looks d) :
    (Proc.orFail error p >>= f).run.Looks d := by
  rw [Proc.orFail_bind_run]
  refine hp.bind S ?_
  cases h : (p.exec S d []).result with
  | ok b => exact hf b h
  | error e => trivial

/-- Dropping a transaction leaves a process that only looks. -/
theorem Proc.Looks.settle {p : Proc D W K β} {d : D} : p.Looks d → ∀ (locks : List K) (ws : List W),
    (p.settle locks ws).1.Looks d := by
  induction p with
  | rollback next ih => exact fun h _ _ => ih h [] []
  | _ => exact fun h _ _ => h

/-- Dropping a transaction changes nothing of what a process does alone. -/
theorem Proc.exec_settle (S : Store D W K) (p : Proc D W K α) : ∀ (d : D) (locks : List K)
    (ws : List W), (p.settle locks ws).1.exec S d (p.settle locks ws).2.2 = p.exec S d ws := by
  induction p with
  | rollback next ih => exact fun d _ _ => ih d [] []
  | _ => exact fun _ _ _ => rfl

/-- Dropping a transaction leaves no more to do. -/
theorem Proc.Only.settle {name : String → Prop} {mine : W → Prop} {p : Proc D W K α} :
    p.Only name mine → ∀ (locks : List K) (ws : List W), (p.settle locks ws).1.Only name mine := by
  induction p with
  | rollback next ih => exact fun h _ _ => ih h [] []
  | _ => exact fun h _ _ => h

/-- Identifiers are handed out once. -/
theorem State.WellFormed.eq_of_id {S : Store D W K} {s : State D W K Op α}
    {x y : Session D W K Op α} (h : s.WellFormed S) (hx : x ∈ s.sessions) (hy : y ∈ s.sessions)
    (hid : x.id = y.id) : x = y := by
  by_contra hne
  exact (h.apart.forall hx hy hne).1 hid

/-- The others of a session in a new form are those that it had. -/
theorem State.mem_others_put {s : State D W K Op α} {x y : Session D W K Op α} {id : ℕ}
    (hy : y ∈ (s.put x).others id) (hid : x.id = id) : y ∈ s.others id := by
  obtain ⟨hmem, hne⟩ := mem_others.mp hy
  rcases List.mem_cons.mp hmem with rfl | hmem
  · exact absurd hid hne
  · exact hid ▸ hmem

/-- A transaction begins with its first statement. -/
theorem Proc.transaction_orFail_bind {error : DbError → ε} {p : Proc D W K (Except DbError β)}
    {f : β → ExceptT ε (Proc D W K) γ} : Proc.transaction (Proc.orFail error p >>= f) =
      p.bind fun r => Proc.transaction (Proc.ensure (r.mapError error) >>= f) := by
  refine (Proc.bind_assoc _ _ _).trans ?_
  refine (Proc.bind_assoc _ _ _).trans (congrArg p.bind (funext fun r => ?_))
  cases r <;> rfl

/-- Operations that take turns. -/
structure Turns (sys : System D W K Op α) where
  /-- What holds of the committed database and the log between the turns. -/
  inv : D → List (Entry Op α) → Prop
  /-- What holds of the committed database at any time. -/
  good : D → Prop
  /-- What the operations write. -/
  mine : W → Prop
  /-- Matters are settled, so that the operations only look. -/
  settled : List (Entry Op α) → Prop
  /-- The statements before the entry. -/
  opening : List String
  entry : String

namespace Turns

variable {sys : System D W K Op α} (T : Turns sys)

/-- A session that has not taken the snapshot of the entry. -/
def Outside (x : Session D W K Op α) : Prop :=
  ∃ sql, x.proc.statement? = some sql ∧ (sql ∈ T.opening ∨ sql = T.entry ∧ x.snapshot = none)

/-- The runs in which the operations take turns: the server does not fail, and until matters are
settled the snapshot of the entry is taken while all other sessions are outside. -/
def OneInside (s : State D W K Op α) (ev : Event Op) : Prop :=
  ev.Faultless ∧ ∀ x ∈ s.sessions, ev = .snapshot x.id →
    x.proc.statement? = some T.entry → T.settled s.log ∨ ∀ y ∈ s.others x.id, T.Outside y

instance (x : Session D W K Op α) : Decidable (T.Outside x) :=
  decidable_of_iff (∃ sql ∈ x.proc.statement?.toList,
    sql ∈ T.opening ∨ sql = T.entry ∧ x.snapshot.isNone) (by simp [Outside])

instance [DecidablePred T.settled] (s : State D W K Op α) (ev : Event Op) :
    Decidable (T.OneInside s ev) :=
  decidable_of_iff (ev.Faultless ∧ ∀ x ∈ s.sessions, ev.session? = some x.id ∧ ev.isSnapshot →
    x.proc.statement? = some T.entry → T.settled s.log ∨ ∀ y ∈ s.others x.id, T.Outside y) (by
      cases ev <;> simp [OneInside, Event.session?, Event.isSnapshot])

/-- What runs after the entry. -/
def Rest (p : Proc D W K β) : Prop := p.Only (fun sql => sql ∉ T.opening ∧ sql ≠ T.entry) T.mine

/-- A process that only looks at what the others leave alone, until the entry. -/
def Opens : Proc D W K β → Prop
  | .stmt sql effect next _ =>
    (sql = T.entry ∧ ∀ snap cur,
      (∀ w ∈ (effect snap cur).writes, T.mine w) ∧ T.Rest (next snap cur)) ∨
    (sql ∈ T.opening ∧ ∀ snap cur d, T.good snap → T.good cur → T.good d →
      effect snap cur = {} ∧ next snap cur = next d d ∧ Opens (next d d))
  | _ => False

/-- What operations that take turns must meet. -/
structure Sound : Prop where
  entry : T.entry ∉ T.opening
  good_apply : ∀ d w, T.good d → T.mine w → T.good (sys.apply d w)
  opens : ∀ op, T.Opens (sys.program op)
  settled_append : ∀ log e, T.settled log → T.settled (log ++ [e])
  looks : ∀ op d log, T.good d → T.inv d log → T.settled log → (sys.program op).Looks d
  /-- An operation that runs alone preserves the invariant. -/
  alone : ∀ id op d log, T.good d → T.inv d log →
    T.inv ((sys.program op).exec sys.toStore d []).db
      (log ++ [⟨id, op, ((sys.program op).exec sys.toStore d []).result⟩])

/-! ## The sessions of a run -/

/-- A session before its turn: it has done nothing, and will do what its operation does alone. -/
structure Early (x : Session D W K Op α) : Prop where
  outside : T.Outside x
  opens : T.Opens x.proc
  writes : x.writes = []
  snapshot : ∀ snap, x.snapshot = some snap → T.good snap
  alone : ∀ d, T.good d → x.proc.exec sys.toStore d [] = (sys.program x.op).exec sys.toStore d []
  looks : ∀ d, T.good d → (sys.program x.op).Looks d → x.proc.Looks d

/-- A session that only looks at the database `d`, and keeps the invariant when it ends. -/
structure Looking (d : D) (x : Session D W K Op α) : Prop where
  writes : x.writes = []
  snapshot : ∀ snap, x.snapshot = some snap → snap = d
  looks : x.proc.Looks d
  ends : ∀ log, T.settled log → T.inv d log →
    T.inv d (log ++ [⟨x.id, x.op, (x.proc.exec sys.toStore d []).result⟩])

/-- The session whose turn it is: it sees the current database, and the invariant holds when it
ends. -/
structure Inside (s : State D W K Op α) (x : Session D W K Op α) : Prop where
  rest : T.Rest x.proc ∨ ∃ effect next failed, x.proc = .stmt T.entry effect next failed ∧
    x.snapshot ≠ none ∧ ∀ snap cur,
      (∀ w ∈ (effect snap cur).writes, T.mine w) ∧ T.Rest (next snap cur)
  writes : ∀ w ∈ x.writes, T.mine w
  snapshot : ∀ snap, x.snapshot = some snap → snap = sys.view s.db x.writes
  ends : T.inv (x.proc.exec sys.toStore s.db x.writes).db
    (s.log ++ [⟨x.id, x.op, (x.proc.exec sys.toStore s.db x.writes).result⟩])

/-- What holds along a run in which the operations take turns. -/
structure Holds (s : State D W K Op α) : Prop where
  good : T.good s.db
  log : ∃ d, T.inv d s.log
  turns : (T.inv s.db s.log ∧ ∀ x ∈ s.sessions, T.Early x ∨ T.settled s.log ∧ T.Looking s.db x) ∨
    ¬ T.settled s.log ∧ ∃ x ∈ s.sessions, T.Inside s x ∧ ∀ y ∈ s.others x.id, T.Early y

variable {T} {s s' : State D W K Op α} {x y : Session D W K Op α} {d : D} {ws : List W}

/-- The turn's own writes keep what is good. -/
theorem Sound.good_view (hT : T.Sound) (hd : T.good d) (hws : ∀ w ∈ ws, T.mine w) :
    T.good (sys.view d ws) := by
  induction ws generalizing d with
  | nil => exact hd
  | cons w ws ih =>
    rw [Store.view_cons]
    exact ih (hT.good_apply d w hd (hws w List.mem_cons_self)) fun w' hw' =>
      hws w' (List.mem_cons_of_mem w hw')

/-- The session whose turn it is is not outside. -/
theorem Inside.not_outside (hT : T.Sound) (h : T.Inside s x) : ¬ T.Outside x := by
  rintro ⟨sql, hsql, hout⟩
  rcases h.rest with hrest | ⟨effect, next, failed, hp, hsnap, -⟩
  · cases hp : x.proc with
    | stmt name effect next failed =>
      rw [hp] at hrest hsql
      obtain rfl : name = sql := Option.some.inj hsql
      rcases hout with hmem | ⟨rfl, -⟩
      · exact hrest.1.1 hmem
      · exact hrest.1.2 rfl
    | _ => rw [hp] at hsql; cases hsql
  · rw [hp] at hsql
    obtain rfl : T.entry = sql := Option.some.inj hsql
    rcases hout with hmem | ⟨-, hnone⟩
    · exact hT.entry hmem
    · exact hsnap hnone

/-- A session before its turn waits with a statement. -/
theorem Opens.waiting {p : Proc D W K β} (h : T.Opens p) :
    ∃ sql effect next failed, p = .stmt sql effect next failed := by
  cases p with
  | stmt sql effect next failed => exact ⟨sql, effect, next, failed, rfl⟩
  | _ => exact h.elim

/-- A session that has just come to a process before its turn. -/
theorem Early.of_opens {id : ℕ} {op : Op} {p : Proc D W K α} {locks : List K} (hp : T.Opens p)
    (halone : ∀ d, T.good d → p.exec sys.toStore d [] = (sys.program op).exec sys.toStore d [])
    (hlooks : ∀ d, T.good d → (sys.program op).Looks d → p.Looks d) :
    T.Early ⟨id, op, p, none, locks, []⟩ where
  outside := by
    obtain ⟨sql, effect, next, failed, rfl⟩ := hp.waiting
    refine ⟨sql, rfl, ?_⟩
    rcases hp with ⟨hsql, -⟩ | ⟨hmem, -⟩
    · exact .inr ⟨hsql, rfl⟩
    · exact .inl hmem
  opens := hp
  writes := rfl
  snapshot _ h := by cases h
  alone := halone
  looks := hlooks

/-- A session that goes on with a process before its turn waits with it. -/
theorem resume_of_opens {id : ℕ} {op : Op} {p : Proc D W K α} {locks : List K} (hp : T.Opens p) :
    s.resume id op d p locks ws = { s with db := d }.put ⟨id, op, p, none, locks, ws⟩ := by
  obtain ⟨sql, effect, next, failed, rfl⟩ := hp.waiting
  rfl

/-- Once matters are settled, a session before its turn only looks. -/
theorem Early.looking (hT : T.Sound) (hx : T.Early x) (hgood : T.good d) {log : List (Entry Op α)}
    (hinv : T.inv d log) (hsettled : T.settled log)
    (hsnap : ∀ snap, x.snapshot = some snap → snap = d) :
    T.Looking d x where
  writes := hx.writes
  snapshot := hsnap
  looks := hx.looks d hgood (hT.looks x.op d log hgood hinv hsettled)
  ends log' hsettled' hinv' := by
    have hends := hT.alone x.id x.op d log' hgood hinv'
    rw [← hx.alone d hgood,
      (hx.looks d hgood (hT.looks x.op d log hgood hinv hsettled)).exec] at hends
    exact hends

/-- A query before the entry, whose answer the others leave alone. -/
theorem Opens.query {sql : String} {read : D → γ} {f : Except DbError γ → Proc D W K β}
    (hsql : sql ∈ T.opening) (hread : ∀ d d', T.good d → T.good d' → read d = read d')
    (hf : ∀ d, T.good d → T.Opens (f (.ok (read d)))) : T.Opens ((Proc.query sql read).bind f) :=
  .inr ⟨hsql, fun snap _ d hsnap _ hd =>
    ⟨rfl, congrArg (fun b => f (.ok b)) (hread snap d hsnap hd), hf d hd⟩⟩

/-- The entry, when it is a locking query. -/
theorem Opens.selectForUpdate {sql : String} {select : D → Option Row} {key : Row → K}
    {current : D → Row → Option Row} {f : Except DbError (Option Row) → Proc D W K β}
    (hsql : sql = T.entry) (hf : ∀ r, T.Rest (f r)) :
    T.Opens ((Proc.selectForUpdate sql select key current).bind f) :=
  .inl ⟨hsql, fun _ _ => ⟨fun _ hw => absurd hw List.not_mem_nil, hf _⟩⟩

/-! ## Runs -/

namespace Holds

/-- The session whose turn it is goes on, or ends. -/
theorem resume {id : ℕ} {op : Op} {p : Proc D W K α} {locks : List K} (h : T.Holds s)
    (hsettled : ¬ T.settled s.log) (hgood : T.good d) (hrest : T.Rest p) (hws : ∀ w ∈ ws, T.mine w)
    (hends : T.inv (p.exec sys.toStore d ws).db
      (s.log ++ [⟨id, op, (p.exec sys.toStore d ws).result⟩]))
    (hearly : ∀ y ∈ s.others id, T.Early y) : T.Holds (s.resume id op d p locks ws) := by
  have hsettle := p.exec_settle sys.toStore d locks ws
  rcases s.resume_cases id op d p locks ws with ⟨a, hdone, hr⟩ | ⟨x, rfl, rfl, hsnap, hp, -, hr⟩
  · -- The operation ends, and its answer is what the invariant holds of.
    rw [hdone, Proc.exec_done] at hsettle
    rw [← hsettle] at hends
    rw [hr]
    exact ⟨hgood, ⟨d, hends⟩, .inl ⟨hends, fun y hy => .inl (hearly y hy)⟩⟩
  · have hrest' := Proc.Only.settle hrest locks ws
    have hheld := p.settle_held locks ws
    rw [hp] at hsettle hrest' hheld
    rw [hr]
    refine ⟨hgood, h.log, .inr ⟨hsettled, x, List.mem_cons_self,
      ⟨.inl hrest', fun w hw => ?_, fun snap h => ?_,
      hsettle ▸ hends⟩, fun y hy => hearly y (State.mem_others_put hy rfl)⟩⟩
    · rcases hheld with hheld | hheld
      · obtain ⟨-, hwrites⟩ := Prod.mk.inj hheld
        exact hws w (hwrites ▸ hw)
      · obtain ⟨-, hwrites⟩ := Prod.mk.inj hheld
        rw [hwrites] at hw
        exact absurd hw List.not_mem_nil
    · rw [hsnap] at h
      cases h

/-- A session that only looks goes on, or ends. -/
theorem resume_looking (hT : T.Sound) {id : ℕ} {op : Op} {p : Proc D W K α} {locks : List K}
    (h : T.Holds s) (hsettled : T.settled s.log) (hlooks : p.Looks s.db)
    (hends : ∀ log, T.settled log → T.inv s.db log →
      T.inv s.db (log ++ [⟨id, op, (p.exec sys.toStore s.db []).result⟩])) :
    T.Holds (s.resume id op s.db p locks []) := by
  rcases h.turns with ⟨hinv, hall⟩ | ⟨hnot, -⟩
  · have hsettle := p.exec_settle sys.toStore s.db locks []
    rcases s.resume_cases id op s.db p locks [] with
      ⟨a, hdone, hr⟩ | ⟨x, rfl, rfl, hsnap, hp, -, hr⟩
    · rw [hdone, Proc.exec_done] at hsettle
      rw [← hsettle] at hends
      have hlog := hends s.log hsettled hinv
      rw [hr]
      refine ⟨h.good, ⟨s.db, hlog⟩, .inl ⟨hlog, fun y hy => ?_⟩⟩
      exact (hall y (State.mem_others.mp hy).1).imp_right fun ⟨_, hy⟩ =>
        ⟨hT.settled_append _ _ hsettled, hy⟩
    · have hlooks' := hlooks.settle locks []
      have hheld := p.settle_held locks []
      rw [hp] at hsettle hlooks' hheld
      have hwrites : x.writes = [] := by
        rcases hheld with hheld | hheld <;> exact (Prod.mk.inj hheld).2
      rw [hr]
      refine ⟨h.good, h.log, .inl ⟨hinv, fun y hy => ?_⟩⟩
      rcases List.mem_cons.mp hy with rfl | hy
      · refine .inr ⟨hsettled, hwrites, fun snap hs => ?_, hlooks', ?_⟩
        · rw [hsnap] at hs
          cases hs
        · rw [← hsettle, hwrites] at hends
          exact hends
      · exact hall y (State.mem_others.mp hy).1
  · exact absurd hsettled hnot

/-- A session in a new form that only looks. -/
theorem put_looking (h : T.Holds s) (hsettled : T.settled s.log) (hx : T.Looking s.db x) :
    T.Holds (s.put x) := by
  refine ⟨h.good, h.log, ?_⟩
  rcases h.turns with ⟨hinv, hall⟩ | ⟨hnot, -⟩
  · refine .inl ⟨hinv, fun y hy => ?_⟩
    rcases List.mem_cons.mp hy with rfl | hy
    · exact .inr ⟨hsettled, hx⟩
    · exact hall y (State.mem_others.mp hy).1
  · exact absurd hsettled hnot

/-- A session in a new form that is still before its turn. -/
theorem put_early {fresh : ℕ} (h : T.Holds s) (hx : T.Early x)
    (hne : ∀ z ∈ s.sessions, T.Inside s z → z.id ≠ x.id) :
    T.Holds ({ s with fresh := fresh }.put x) := by
  have hput : ∀ y ∈ ({ s with fresh := fresh }.put x).sessions, y = x ∨ y ∈ s.others x.id :=
    fun y hy => List.mem_cons.mp hy
  refine ⟨h.good, h.log, ?_⟩
  rcases h.turns with ⟨hinv, hall⟩ | ⟨hnot, z, hz, hin, hearly⟩
  · refine .inl ⟨hinv, fun y hy => ?_⟩
    rcases hput y hy with rfl | hy
    · exact .inl hx
    · exact hall y (State.mem_others.mp hy).1
  · refine .inr ⟨hnot, z, List.mem_cons_of_mem _ (State.mem_others.mpr ⟨hz, hne z hz hin⟩),
      ⟨hin.rest, hin.writes, hin.snapshot, hin.ends⟩, fun y hy => ?_⟩
    obtain ⟨hy, hyz⟩ := State.mem_others.mp hy
    rcases hput y hy with rfl | hy
    · exact hx
    · exact hearly y (State.mem_others.mpr ⟨(State.mem_others.mp hy).1, hyz⟩)

/-- Until matters are settled, a session that is outside is before its turn. -/
theorem early_of_outside (hT : T.Sound) (h : T.Holds s) (hsettled : ¬ T.settled s.log)
    (hwf : s.WellFormed sys.toStore) (hx : x ∈ s.sessions) (hout : T.Outside x) : T.Early x := by
  rcases h.turns with ⟨-, hall⟩ | ⟨-, z, hz, hin, hearly⟩
  · exact (hall x hx).resolve_right fun h => hsettled h.1
  · refine hearly x (State.mem_others.mpr ⟨hx, fun hid => ?_⟩)
    obtain rfl := hwf.eq_of_id hx hz hid
    exact hin.not_outside hT hout

/-- A session is before its turn, or only looks, or it is its turn. -/
theorem phases (h : T.Holds s) (hwf : s.WellFormed sys.toStore) (hx : x ∈ s.sessions) :
    T.Early x ∨ (T.settled s.log ∧ T.Looking s.db x) ∨
      (¬ T.settled s.log ∧ T.Inside s x ∧ ∀ y ∈ s.others x.id, T.Early y) := by
  rcases h.turns with ⟨-, hall⟩ | ⟨hnot, z, hz, hin, hearly⟩
  · exact (hall x hx).imp_right .inl
  · by_cases hid : x.id = z.id
    · obtain rfl := hwf.eq_of_id hx hz hid
      exact .inr (.inr ⟨hnot, hin, hearly⟩)
    · exact .inl (hearly x (State.mem_others.mpr ⟨hx, hid⟩))

/-- A session takes a snapshot: its turn may begin. -/
theorem takeSnapshot (hT : T.Sound) (h : T.Holds s) (hwf : s.WellFormed sys.toStore)
    (hx : x ∈ s.sessions)
    (hone : x.proc.statement? = some T.entry → T.settled s.log ∨ ∀ y ∈ s.others x.id, T.Outside y)
    (htake : sys.takeSnapshot s x = some s') : T.Holds s' := by
  unfold System.takeSnapshot at htake
  split at htake
  · rename_i sql effect next failed hp hnone
    obtain rfl := Option.some.inj htake
    rcases h.phases hwf hx with hearly | ⟨hsettled, hlook⟩ | ⟨hnot, hin, hothers⟩
    · have hopens := hearly.opens
      have hwrites := hearly.writes
      rw [hp] at hopens
      rcases hopens with ⟨rfl, hrest⟩ | ⟨hopening, -⟩
      · by_cases hsettled : T.settled s.log
        · have hinv : T.inv s.db s.log := by
            rcases h.turns with ⟨hinv, -⟩ | ⟨hnot, -⟩
            · exact hinv
            · exact absurd hsettled hnot
          have hlook := hearly.looking hT h.good hinv hsettled fun snap hsnap => by
            rw [hnone] at hsnap
            cases hsnap
          refine h.put_looking hsettled ⟨hwrites, fun snap hsnap => ?_, hlook.looks, hlook.ends⟩
          obtain rfl := Option.some.inj hsnap
          rw [hwrites, Store.view_nil]
        · -- The turn of `x` begins: the others are outside, so the invariant holds now.
          have hout := (hone (by rw [hp]; rfl)).resolve_left hsettled
          have hearlies : ∀ y ∈ s.others x.id, T.Early y := fun y hy =>
            h.early_of_outside hT hsettled hwf (State.mem_others.mp hy).1 (hout y hy)
          have hinv : T.inv s.db s.log := by
            rcases h.turns with ⟨hinv, -⟩ | ⟨-, z, hz, hin, -⟩
            · exact hinv
            · refine absurd ?_ (hin.not_outside hT)
              by_cases hid : z.id = x.id
              · rw [hwf.eq_of_id hz hx hid]
                exact hearly.outside
              · exact hout z (State.mem_others.mpr ⟨hz, hid⟩)
          refine ⟨h.good, h.log, .inr ⟨hsettled, _, List.mem_cons_self,
            ⟨.inr ⟨effect, next, failed, hp, by simp, hrest⟩, by simp [hwrites], fun snap hsnap =>
              (Option.some.inj hsnap).symm, ?_⟩,
            fun y hy => hearlies y (State.mem_others_put hy rfl)⟩⟩
          have hends := hT.alone x.id x.op s.db s.log h.good hinv
          rw [← hearly.alone s.db h.good, ← hwrites] at hends
          exact hends
      · refine h.put_early ⟨⟨sql, by rw [hp]; rfl, .inl hopening⟩, hearly.opens, hwrites,
          fun snap hsnap => ?_, hearly.alone, hearly.looks⟩ fun z hz hin (hid : z.id = x.id) => ?_
        · obtain rfl := Option.some.inj hsnap
          rw [hwrites]
          exact h.good
        · rw [hwf.eq_of_id hz hx hid] at hin
          exact hin.not_outside hT hearly.outside
    · refine h.put_looking hsettled ⟨hlook.writes, fun snap hsnap => ?_, hlook.looks, hlook.ends⟩
      obtain rfl := Option.some.inj hsnap
      rw [hlook.writes, Store.view_nil]
    · -- It is the turn of `x`, whose snapshot is the current database.
      refine ⟨h.good, h.log, .inr ⟨hnot, _, List.mem_cons_self, ⟨?_, hin.writes, fun snap hsnap =>
        (Option.some.inj hsnap).symm, hin.ends⟩, fun y hy =>
          hothers y (State.mem_others_put hy rfl)⟩⟩
      exact hin.rest.imp_right fun ⟨effect, next, failed, hp, _, hrest⟩ =>
        ⟨effect, next, failed, hp, by simp, hrest⟩
  · cases htake

/-- A session completes a statement, or commits. -/
theorem advance [DecidableEq K] (hT : T.Sound) (h : T.Holds s) (hwf : s.WellFormed sys.toStore)
    (hx : x ∈ s.sessions) (hadvance : sys.advance s x = some s') : T.Holds s' := by
  unfold System.advance at hadvance
  split at hadvance
  · rename_i sql effect next failed snap hp hsnap
    dsimp only at hadvance
    split at hadvance
    · obtain rfl := Option.some.inj hadvance
      rcases h.phases hwf hx with hearly | ⟨hsettled, hlook⟩ | ⟨hnot, hin, hothers⟩
      · have hopens := hearly.opens
        have halone := hearly.alone
        have hlooks := hearly.looks
        rw [hp] at hopens halone hlooks
        rcases hopens with ⟨rfl, -⟩ | ⟨-, hsees⟩
        · -- A session that has the snapshot of the entry is not outside.
          obtain ⟨sql, hsql, hout⟩ := hearly.outside
          rw [hp] at hsql
          obtain rfl := Option.some.inj hsql
          rw [hsnap] at hout
          rcases hout with hmem | ⟨-, hnone⟩
          · exact absurd hmem hT.entry
          · cases hnone
        · have hcur : T.good (sys.view s.db x.writes) := by
            rw [hearly.writes]
            exact h.good
          obtain ⟨heffect, hnext, hopens⟩ :=
            hsees snap _ s.db (hearly.snapshot snap hsnap) hcur h.good
          rw [heffect, hnext, hearly.writes, List.append_nil, Turns.resume_of_opens hopens]
          refine h.put_early (Early.of_opens hopens (fun d hd => ?_) fun d hd hprogram => ?_)
            fun z hz hin (hid : z.id = x.id) => ?_
          · -- What it sees now it sees in any good database.
            rw [← halone d hd, (hsees s.db s.db d h.good h.good hd).2.1, Proc.exec, Store.view_nil,
              (hsees d d d hd hd hd).1]
            rfl
          · rw [(hsees s.db s.db d h.good h.good hd).2.1]
            exact (hlooks d hd hprogram).2
          · rw [hwf.eq_of_id hz hx hid] at hin
            exact hin.not_outside hT hearly.outside
      · have hlooks := hlook.looks
        have hends := hlook.ends
        obtain rfl := hlook.snapshot snap hsnap
        rw [hp] at hlooks hends
        rw [hlook.writes, Store.view_nil, hlooks.1]
        refine h.resume_looking hT hsettled hlooks.2 fun log hlog hinv => ?_
        have hend := hends log hlog hinv
        rw [Proc.exec, Store.view_nil, hlooks.1] at hend
        exact hend
      · have hends := hin.ends
        rw [hp] at hends
        obtain rfl := hin.snapshot snap hsnap
        have hwrites : (∀ w ∈ (effect (sys.view s.db x.writes) (sys.view s.db x.writes)).writes,
            T.mine w) ∧ T.Rest (next (sys.view s.db x.writes) (sys.view s.db x.writes)) := by
          rcases hin.rest with hrest | ⟨_, _, _, hp', -, hrest⟩
          · rw [hp] at hrest
            exact hrest.2 _ _
          · rw [hp] at hp'
            obtain ⟨-, rfl, rfl, -⟩ := Proc.stmt.inj hp'
            exact hrest _ _
        refine h.resume hnot h.good hwrites.2 (fun w hw => ?_) hends hothers
        rcases List.mem_append.mp hw with hw | hw
        · exact hin.writes w hw
        · exact hwrites.1 w hw
    · cases hadvance
  · rename_i next failed hp
    obtain rfl := Option.some.inj hadvance
    rcases h.phases hwf hx with hearly | ⟨hsettled, hlook⟩ | ⟨hnot, hin, hothers⟩
    · obtain ⟨_, _, _, _, hp'⟩ := hearly.opens.waiting
      rw [hp] at hp'
      cases hp'
    · have hlooks := hlook.looks
      have hends := hlook.ends
      rw [hp] at hlooks hends
      rw [hlook.writes, Store.view_nil]
      exact h.resume_looking hT hsettled hlooks hends
    · have hrest : T.Rest next := by
        rcases hin.rest with hrest | ⟨_, _, _, hp', -⟩
        · rw [hp] at hrest
          exact hrest
        · rw [hp] at hp'
          cases hp'
      have hends := hin.ends
      rw [hp] at hends
      exact h.resume hnot (hT.good_view h.good hin.writes) hrest (by simp) hends hothers
  · cases hadvance

/-- Every event of a run in which the operations take turns. -/
theorem step [DecidableEq K] (hT : T.Sound) (h : T.Holds s) (hwf : s.WellFormed sys.toStore)
    {ev : Event Op} (hone : T.OneInside s ev) (hs : sys.step s ev = some s') : T.Holds s' := by
  cases ev with
  | begin op =>
    obtain rfl := Option.some.inj hs
    rw [Turns.resume_of_opens (hT.opens op)]
    exact put_early h (Early.of_opens (hT.opens op) (fun d _ => rfl) fun d _ hd => hd) fun z hz _ =>
      Nat.ne_of_lt (hwf.sessions_fresh z hz)
  | snapshot id =>
    obtain ⟨x, hfind, htake⟩ := Option.bind_eq_some_iff.mp hs
    obtain ⟨hx, rfl⟩ := State.mem_of_find hfind
    exact h.takeSnapshot hT hwf hx (hone.2 x hx rfl) htake
  | advance id =>
    obtain ⟨x, hfind, hadvance⟩ := Option.bind_eq_some_iff.mp hs
    obtain ⟨hx, rfl⟩ := State.mem_of_find hfind
    exact h.advance hT hwf hx hadvance
  | fault id => exact hone.1.elim

end Holds

/-- Along every run in which the operations take turns, they do what they do alone. -/
theorem Sound.holds [DecidableEq K] (hT : T.Sound) (hgood : T.good d) (hinv : T.inv d [])
    (h : sys.ReachesBy T.OneInside d s) : T.Holds s := by
  induction h with
  | init => exact ⟨hgood, ⟨d, hinv⟩, .inl ⟨hinv, fun x hx => absurd hx List.not_mem_nil⟩⟩
  | step ev hs hone hstep ih => exact ih.step hT hs.wellFormed hone hstep

end Turns

/-! ## Steps without faults -/

namespace Proc

/-- What a statement of a function continues with when it succeeds. -/
theorem autocommit_orFail_next {sql sql' : String} {effect effect' : D → D → Effect W K}
    {result : D → D → Except DbError β} {f : β → ExceptT DbError (Proc D W K) α}
    {next' : D → D → Proc D W K (Except DbError α)} {failed' : Proc D W K (Except DbError α)}
    (h : autocommit (orFail id (statement sql effect result) >>= f).run =
      .stmt sql' effect' next' failed') :
    sql' = sql ∧ effect' = effect ∧
      ∀ snap cur b, result snap cur = .ok b → next' snap cur = autocommit (f b).run := by
  obtain ⟨rfl, rfl, rfl, -⟩ := Proc.stmt.inj h
  refine ⟨rfl, rfl, fun snap cur b hresult => ?_⟩
  beta_reduce
  rw [hresult]
  rfl

end Proc

/-- A session that goes on with a process that waits. -/
theorem State.resume_of_waiting {s : State D W K Op α} {id : ℕ} {op : Op} {d : D}
    {p : Proc D W K α} {locks : List K} {ws : List W} (hp : p.Waiting) :
    s.resume id op d p locks ws = { s with db := d }.put ⟨id, op, p, none, locks, ws⟩ := by
  cases p with
  | done a => exact hp.elim
  | rollback next => exact hp.elim
  | _ => rfl

/-- What a session does when the server does not fail. -/
theorem System.step_cases_of_faultless [DecidableEq K] {sys : System D W K Op α}
    {s s' : State D W K Op α} {ev : Event Op} (h : sys.step s ev = some s') (hev : ev.Faultless) :
    (∃ op, s' = { s with fresh := s.fresh + 1 }.resume s.fresh op s.db (sys.program op) [] []) ∨
    (∃ x ∈ s.sessions, ev = .snapshot x.id ∧ x.snapshot = none ∧
      (∃ sql effect next failed, x.proc = .stmt sql effect next failed) ∧
      s' = s.put { x with snapshot := some (sys.view s.db x.writes) }) ∨
    (∃ x ∈ s.sessions, ∃ sql effect next failed snap, x.proc = .stmt sql effect next failed ∧
      x.snapshot = some snap ∧
      s' = s.resume x.id x.op s.db (next snap (sys.view s.db x.writes))
        (x.locks ++ sys.held (effect snap (sys.view s.db x.writes)))
        (x.writes ++ (effect snap (sys.view s.db x.writes)).writes)) ∨
    (∃ x ∈ s.sessions, ∃ next failed, x.proc = .commit next failed ∧
      s' = s.resume x.id x.op (sys.view s.db x.writes) next [] []) := by
  cases ev with
  | begin op => exact .inl ⟨op, (Option.some.inj h).symm⟩
  | snapshot id =>
    obtain ⟨x, hfind, htake⟩ := Option.bind_eq_some_iff.mp h
    obtain ⟨hx, rfl⟩ := State.mem_of_find hfind
    unfold System.takeSnapshot at htake
    split at htake
    · rename_i hp hnone
      exact .inr (.inl ⟨x, hx, rfl, hnone, ⟨_, _, _, _, hp⟩, (Option.some.inj htake).symm⟩)
    · cases htake
  | advance id =>
    obtain ⟨x, hfind, hadvance⟩ := Option.bind_eq_some_iff.mp h
    obtain ⟨hx, rfl⟩ := State.mem_of_find hfind
    unfold System.advance at hadvance
    split at hadvance
    · rename_i hp hsnap
      dsimp only at hadvance
      split at hadvance
      · exact .inr (.inr (.inl ⟨x, hx, _, _, _, _, _, hp, hsnap, (Option.some.inj hadvance).symm⟩))
      · cases hadvance
    · rename_i hp
      exact .inr (.inr (.inr ⟨x, hx, _, _, hp, (Option.some.inj hadvance).symm⟩))
    · cases hadvance
  | fault id => exact hev.elim

/-! ## Rules for what a process may still do -/

namespace Proc.Only

open Proc

variable {name : String → Prop} {mine : W → Prop}

/-- A process sends only what its parts send. -/
theorem bind {p : Proc D W K β} {f : β → Proc D W K γ} (hp : p.Only name mine)
    (hf : ∀ b, (f b).Only name mine) : (p.bind f).Only name mine := by
  induction p with
  | done b => exact hf b
  | stmt sql effect next failed ihn _ =>
    exact ⟨hp.1, fun snap cur => ⟨(hp.2 snap cur).1, ihn _ _ (hp.2 snap cur).2⟩⟩
  | commit next failed ihn _ => exact ihn hp
  | rollback next ih => exact ih hp

/-- A statement sends its text and writes what its effect does. -/
theorem statement {sql : String} {effect : D → D → Effect W K} {result : D → D → Except DbError β}
    (hsql : name sql) (hwrites : ∀ snap cur, ∀ w ∈ (effect snap cur).writes, mine w) :
    (Proc.statement sql effect result).Only name mine := ⟨hsql, fun snap cur =>
      ⟨hwrites snap cur, trivial⟩⟩

/-- An `INSERT` sends its text and writes its row. -/
theorem insert {S : Store D W K} {sql : String} {waits : D → List K}
    {check : D → Except DbError Unit} {w : W} (hsql : name sql) (hw : mine w) :
    (Proc.insert S sql waits check w).Only name mine := by
  refine statement hsql fun snap cur w' hw' => ?_
  cases hcheck : check cur with
  | ok _ =>
    rw [hcheck] at hw'
    exact List.mem_singleton.mp hw' ▸ hw
  | error e =>
    rw [hcheck] at hw'
    exact absurd hw' List.not_mem_nil

/-- An `UPDATE` sends its text and writes the new version of a row. -/
theorem update {sql : String} {select : D → Option Row} {key : Row → K}
    {recheck : D → Row → Option Row} {change : D → Row → Except DbError Row} {write : Row → W}
    (hsql : name sql) (hw : ∀ new, mine (write new)) :
    (Proc.update sql select key recheck change write).Only name mine := by
  refine statement hsql fun snap cur w hw' => ?_
  split at hw'
  · exact absurd hw' List.not_mem_nil
  split at hw'
  · exact absurd hw' List.not_mem_nil
  split at hw'
  · exact List.mem_singleton.mp hw' ▸ hw _
  · exact absurd hw' List.not_mem_nil

/-- A transaction sends what its body does. -/
theorem transaction {body : ExceptT ε (Proc D W K) β} (h : body.run.Only name mine) :
    (Proc.transaction body).Only name mine := bind h fun _ => trivial

/-- The same of `bind`, with errors. -/
theorem run_bind {m : ExceptT ε (Proc D W K) β} {f : β → ExceptT ε (Proc D W K) γ}
    (hm : m.run.Only name mine) (hf : ∀ b, (f b).run.Only name mine) :
    (m >>= f).run.Only name mine := by
  refine bind hm fun r => ?_
  cases r with
  | ok b => exact hf b
  | error e => trivial

/-- An error that is passed on sends nothing more. -/
theorem orFail {error : DbError → ε} {p : Proc D W K (Except DbError β)} (hp : p.Only name mine) :
    (Proc.orFail error p).run.Only name mine := bind hp fun _ => trivial

end Proc.Only

end Postgres
