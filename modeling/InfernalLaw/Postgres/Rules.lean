import InfernalLaw.Postgres.Interference
import InfernalLaw.Postgres.Table

/-!
# Rules for statements

The rules of `Contract.wp` for the statements of `Process.lean`, and for client functions that stop
at the first error. In each rule `hg` lets the event that led to the statement end there, `herr`
covers an error of the server at any later time, and `hok` is the statement itself: it is given the
database `d₁` of the snapshot and the database `d₂` of the completion, both reached under
interference. The rules with a prime tell the errors apart: `hfail` is a failure of the server, and
`hrefused` is the verdict of a constraint, on the database that it is about.
-/

namespace Postgres.Contract

variable {D W K Op α β γ ε R : Type} {sys : System D W K Op α} {C : Contract sys}
  {op : Op} {e : D} {u ws : List W} {locks : List K} {sql : String}

/-- What may hold when a process of the contract's system has come to a result. -/
abbrev Post (_ : Contract sys) (β : Type) : Type := β → D → List W → List K → List W → Prop

/-- The rule of a statement, where a failure of the server is told from other errors. -/
theorem wp_statement' {effect : D → D → Effect W K} {result : D → D → Except DbError β}
    {Q : C.Post (Except DbError β)} (hg : C.guar op e u none)
    (hfail : ∀ d, C.Good d → Q (.error .unavailable) d [] [] [])
    (hok : ∀ d₁ d₂, C.Rely locks (sys.view e u) d₁ → C.Good d₁ → C.assume op sql d₁ →
      C.Rely locks d₁ d₂ → C.Good d₂ → Q (result (sys.view d₁ ws) (sys.view d₂ ws)) d₂ []
        (locks ++ sys.held (effect (sys.view d₁ ws) (sys.view d₂ ws)))
        (ws ++ (effect (sys.view d₁ ws) (sys.view d₂ ws)).writes)) :
    C.wp op (Proc.statement sql effect result) Q e u locks ws :=
  ⟨hg, fun d₁ hr hg₁ => ⟨hfail d₁ hg₁, fun ha d₂ hr' hg₂ => hok d₁ d₂ hr hg₁ ha hr' hg₂⟩⟩

/-- The rule of a statement. -/
theorem wp_statement {effect : D → D → Effect W K} {result : D → D → Except DbError β}
    {Q : C.Post (Except DbError β)} (hg : C.guar op e u none)
    (herr : ∀ d er locks ws, C.Good d → Q (.error er) d [] locks ws)
    (hok : ∀ d₁ d₂, C.Rely locks (sys.view e u) d₁ → C.Good d₁ → C.assume op sql d₁ →
      C.Rely locks d₁ d₂ → C.Good d₂ → Q (result (sys.view d₁ ws) (sys.view d₂ ws)) d₂ []
        (locks ++ sys.held (effect (sys.view d₁ ws) (sys.view d₂ ws)))
        (ws ++ (effect (sys.view d₁ ws) (sys.view d₂ ws)).writes)) :
    C.wp op (Proc.statement sql effect result) Q e u locks ws :=
  wp_statement' hg (fun d => herr d _ _ _) hok

/-- The rule of a plain `SELECT`, which only a failure of the server can keep from its answer. -/
theorem wp_query' {read : D → β} {Q : C.Post (Except DbError β)} (hg : C.guar op e u none)
    (hfail : ∀ d, C.Good d → Q (.error .unavailable) d [] [] [])
    (hok : ∀ d₁ d₂, C.Rely locks (sys.view e u) d₁ → C.Good d₁ → C.assume op sql d₁ →
      C.Rely locks d₁ d₂ → C.Good d₂ → Q (.ok (read (sys.view d₁ ws))) d₂ [] locks ws) :
    C.wp op (Proc.query sql read) Q e u locks ws := by
  refine wp_statement' hg hfail fun d₁ d₂ hr hg₁ ha hr' hg₂ => ?_
  simpa using hok d₁ d₂ hr hg₁ ha hr' hg₂

/-- The rule of a plain `SELECT`. -/
theorem wp_query {read : D → β} {Q : C.Post (Except DbError β)} (hg : C.guar op e u none)
    (herr : ∀ d er locks ws, C.Good d → Q (.error er) d [] locks ws)
    (hok : ∀ d₁ d₂, C.Rely locks (sys.view e u) d₁ → C.Good d₁ → C.assume op sql d₁ →
      C.Rely locks d₁ d₂ → C.Good d₂ → Q (.ok (read (sys.view d₁ ws))) d₂ [] locks ws) :
    C.wp op (Proc.query sql read) Q e u locks ws :=
  wp_query' hg (fun d => herr d _ _ _) hok

/-- The rule of `SELECT ... FOR UPDATE`: the row that the snapshot chose is locked from then on. -/
theorem wp_selectForUpdate {select : D → Option R} {key : R → K} {current : D → R → Option R}
    {Q : C.Post (Except DbError (Option R))} (hg : C.guar op e u none)
    (herr : ∀ d er locks ws, C.Good d → Q (.error er) d [] locks ws)
    (hok : ∀ d₁ d₂, C.Rely locks (sys.view e u) d₁ → C.Good d₁ → C.Rely locks d₁ d₂ →
      C.Good d₂ → Q (.ok ((select (sys.view d₁ ws)).bind (current (sys.view d₂ ws)))) d₂ []
        (locks ++ ((select (sys.view d₁ ws)).map key).toList) ws) :
    C.wp op (Proc.selectForUpdate sql select key current) Q e u locks ws := by
  refine wp_statement hg herr fun d₁ d₂ hr hg₁ _ hr' hg₂ => ?_
  simpa [Store.held] using hok d₁ d₂ hr hg₁ hr' hg₂

/-- The rule of `INSERT`: the constraints hold in the current state, and the row's keys are held
from then on, or a constraint refuses the row. -/
theorem wp_insert' {waits : D → List K} {check : D → Except DbError Unit} {w : W}
    {Q : C.Post (Except DbError Unit)} (hg : C.guar op e u none)
    (hfail : ∀ d, C.Good d → Q (.error .unavailable) d [] [] [])
    (hrefused : ∀ d₂ er, C.Rely locks (sys.view e u) d₂ → C.Good d₂ →
      check (sys.view d₂ ws) = .error er → Q (.error er) d₂ [] locks ws)
    (hok : ∀ d₂, C.Rely locks (sys.view e u) d₂ → C.Good d₂ →
      check (sys.view d₂ ws) = .ok () → Q (.ok ()) d₂ [] (locks ++ sys.keys w) (ws ++ [w])) :
    C.wp op (Proc.insert sys.toStore sql waits check w) Q e u locks ws := by
  refine wp_statement' hg hfail fun d₁ d₂ hr hg₁ _ hr' hg₂ => ?_
  rcases hc : check (sys.view d₂ ws) with er | _
  · simpa [Store.held] using hrefused d₂ er (hr.trans hr') hg₂ hc
  · simpa [Store.held] using hok d₂ (hr.trans hr') hg₂ hc

/-- The rule of `INSERT`: the constraints hold in the current state, and the row's keys are held
from then on. -/
theorem wp_insert {waits : D → List K} {check : D → Except DbError Unit} {w : W}
    {Q : C.Post (Except DbError Unit)} (hg : C.guar op e u none)
    (herr : ∀ d er locks ws, C.Good d → Q (.error er) d [] locks ws)
    (hok : ∀ d₂, C.Rely locks (sys.view e u) d₂ → C.Good d₂ →
      check (sys.view d₂ ws) = .ok () → Q (.ok ()) d₂ [] (locks ++ sys.keys w) (ws ++ [w])) :
    C.wp op (Proc.insert sys.toStore sql waits check w) Q e u locks ws :=
  wp_insert' hg (fun d => herr d _ _ _) (fun d _ _ hg _ => herr d _ _ _ hg) hok

/-- The rule of `INSERT ... ON CONFLICT DO NOTHING`. The `CHECK` constraints refuse a row whatever
is there, and the others refuse one that is in no conflict. -/
theorem wp_insertOrNothing' {valid : Except DbError Unit} {conflict : D → Bool}
    {check : D → Except DbError Unit} {w : W} {Q : C.Post (Except DbError ℕ)}
    (hg : C.guar op e u none)
    (hfail : ∀ d, C.Good d → Q (.error .unavailable) d [] [] [])
    (hinvalid : ∀ d₂ er locks' ws', C.Rely locks (sys.view e u) d₂ → C.Good d₂ →
      valid = .error er → Q (.error er) d₂ [] locks' ws')
    (hrefused : ∀ d₂ er, C.Rely locks (sys.view e u) d₂ → C.Good d₂ →
      conflict (sys.view d₂ ws) = false → check (sys.view d₂ ws) = .error er →
      Q (.error er) d₂ [] locks ws)
    (hnothing : ∀ d₂, C.Rely locks (sys.view e u) d₂ → C.Good d₂ → valid = .ok () →
      conflict (sys.view d₂ ws) = true → Q (.ok 0) d₂ [] locks ws)
    (hok : ∀ d₂, C.Rely locks (sys.view e u) d₂ → C.Good d₂ → valid = .ok () →
      conflict (sys.view d₂ ws) = false → check (sys.view d₂ ws) = .ok () →
      Q (.ok 1) d₂ [] (locks ++ sys.keys w) (ws ++ [w])) :
    C.wp op (Proc.insertOrNothing sys.toStore sql valid conflict check w) Q e u locks ws := by
  refine wp_statement' hg hfail fun d₁ d₂ hr hg₁ _ hr' hg₂ => ?_
  rcases valid with er | _
  · exact hinvalid d₂ er _ _ (hr.trans hr') hg₂ rfl
  rcases hc : conflict (sys.view d₂ ws)
  · rcases hk : check (sys.view d₂ ws) with er | _
    · simpa [Store.held, Except.bind, Except.map, hk] using
        hrefused d₂ er (hr.trans hr') hg₂ hc hk
    · simpa [Store.held, Except.bind, Except.map, hk] using hok d₂ (hr.trans hr') hg₂ rfl hc hk
  · simpa [Store.held, Except.bind] using hnothing d₂ (hr.trans hr') hg₂ rfl hc

/-- The rule of `INSERT ... ON CONFLICT DO NOTHING`. -/
theorem wp_insertOrNothing {valid : Except DbError Unit} {conflict : D → Bool}
    {check : D → Except DbError Unit} {w : W} {Q : C.Post (Except DbError ℕ)}
    (hg : C.guar op e u none)
    (herr : ∀ d er locks ws, C.Good d → Q (.error er) d [] locks ws)
    (hnothing : ∀ d₂, C.Rely locks (sys.view e u) d₂ → C.Good d₂ → valid = .ok () →
      conflict (sys.view d₂ ws) = true → Q (.ok 0) d₂ [] locks ws)
    (hok : ∀ d₂, C.Rely locks (sys.view e u) d₂ → C.Good d₂ → valid = .ok () →
      conflict (sys.view d₂ ws) = false → check (sys.view d₂ ws) = .ok () →
      Q (.ok 1) d₂ [] (locks ++ sys.keys w) (ws ++ [w])) :
    C.wp op (Proc.insertOrNothing sys.toStore sql valid conflict check w) Q e u locks ws :=
  wp_insertOrNothing' hg (fun d => herr d _ _ _) (fun d _ _ _ _ hg _ => herr d _ _ _ hg)
    (fun d _ _ hg _ _ => herr d _ _ _ hg) hnothing hok

/-- The rule of `UPDATE`: the current version satisfies the `WHERE` clause, and the new version's
keys are held from then on. -/
theorem wp_update {select : D → Option R} {key : R → K} {recheck : D → R → Option R}
    {change : D → R → Except DbError R} {write : R → W} {Q : C.Post (Except DbError (Option R))}
    (hg : C.guar op e u none)
    (herr : ∀ d er locks ws, C.Good d → Q (.error er) d [] locks ws)
    (hnone : ∀ d₁ d₂, C.Rely locks (sys.view e u) d₁ → C.Good d₁ → C.Rely locks d₁ d₂ →
      C.Good d₂ → (select (sys.view d₁ ws)).bind (recheck (sys.view d₂ ws)) = none →
      Q (.ok none) d₂ [] locks ws)
    (hok : ∀ d₁ d₂ r old new, C.Rely locks (sys.view e u) d₁ → C.Good d₁ → C.Rely locks d₁ d₂ →
      C.Good d₂ → select (sys.view d₁ ws) = some r → recheck (sys.view d₂ ws) r = some old →
      change (sys.view d₂ ws) old = .ok new →
      Q (.ok (some new)) d₂ [] (locks ++ sys.keys (write new)) (ws ++ [write new])) :
    C.wp op (Proc.update sql select key recheck change write) Q e u locks ws := by
  refine wp_statement hg herr fun d₁ d₂ hr hg₁ _ hr' hg₂ => ?_
  have hnone := hnone d₁ d₂ hr hg₁ hr' hg₂
  rcases hs : select (sys.view d₁ ws) with _ | r
  · simpa [hs] using hnone
  rcases ho : recheck (sys.view d₂ ws) r with _ | old
  · simpa [hs, ho, Store.held] using hnone
  rcases hn : change (sys.view d₂ ws) old with er | new
  · simpa [hs, ho, hn, Store.held, Except.map] using herr _ _ _ _ hg₂
  · simpa [hs, ho, hn, Store.held, Except.map] using hok d₁ d₂ r old new hr hg₁ hr' hg₂ hs ho hn

/-- The rule of a query that must answer one row. -/
theorem wp_one {p : Proc D W K (Except DbError (Option β))} {Q : C.Post (Except DbError β)} :
    C.wp op (Proc.one p) Q e u locks ws ↔
      C.wp op p (fun r => Q (r.bind fun b => b.elim (.error .unexpectedRowCount) .ok)) e
      u locks ws :=
  wp_bind

/-- The rule of `COMMIT`, which only a failure of the server can keep from its end. -/
theorem wp_commitNow' {Q : C.Post (Except DbError Unit)} (hg : C.guar op e u none)
    (hfail : ∀ d, C.Good d → Q (.error .unavailable) d [] [] [])
    (hok : ∀ d, C.Rely locks (sys.view e u) d → C.Good d → Q (.ok ()) d ws [] []) :
    C.wp op Proc.commitNow Q e u locks ws :=
  ⟨hg, fun d hr hg => ⟨hfail _ hg, hok d hr hg⟩⟩

/-- The rule of `COMMIT`. -/
theorem wp_commitNow {Q : C.Post (Except DbError Unit)} (hg : C.guar op e u none)
    (herr : ∀ d er locks ws, C.Good d → Q (.error er) d [] locks ws)
    (hok : ∀ d, C.Rely locks (sys.view e u) d → C.Good d → Q (.ok ()) d ws [] []) :
    C.wp op Proc.commitNow Q e u locks ws :=
  wp_commitNow' hg (fun d => herr d _ _ _) hok

/-- The rule of a statement that is a transaction of its own. -/
theorem wp_autocommit {p : Proc D W K (Except DbError β)} {Q : C.Post (Except DbError β)} :
    C.wp op (Proc.autocommit p) Q e u locks ws ↔
      C.wp op p (fun r e u locks ws =>
        match r with
        | .ok b => C.guar op e u none ∧ ∀ d, C.Rely locks (sys.view e u) d → C.Good d →
            Q (.error .unavailable) d [] [] [] ∧ Q (.ok b) d ws [] []
        | .error er => Q (.error er) e u [] []) e u locks ws := by
  refine wp_bind.trans (Eq.to_iff (congrArg (fun Q => C.wp op p Q e u locks ws) ?_))
  funext r e u locks ws
  cases r <;> rfl

/-- The rule of a client function that opens a transaction. -/
theorem wp_transaction {body : ExceptT ε (Proc D W K) β} {Q : C.Post (Except ε β)} :
    C.wp op (Proc.transaction body) Q e u locks ws ↔
      C.wp op body.run (fun r e u _ _ => Q r e u [] []) e u locks ws := wp_bind

/-- The rule of sequencing for client functions. -/
theorem wp_run_bind {m : ExceptT ε (Proc D W K) β} {f : β → ExceptT ε (Proc D W K) γ}
    {Q : C.Post (Except ε γ)} :
    C.wp op (m >>= f).run Q e u locks ws ↔
      C.wp op m.run (fun r e u locks ws =>
        match r with
        | .ok b => C.wp op (f b).run Q e u locks ws
        | .error er => Q (.error er) e u locks ws) e u locks ws := by
  refine wp_bind.trans (Eq.to_iff (congrArg (fun Q => C.wp op m.run Q e u locks ws) ?_))
  funext r e u locks ws
  cases r <;> rfl

/-- The rule of a statement of a client function, followed by the rest of it. -/
theorem wp_orFail_bind {error : DbError → ε} {p : Proc D W K (Except DbError β)}
    {f : β → ExceptT ε (Proc D W K) γ} {Q : C.Post (Except ε γ)} :
    C.wp op (Proc.orFail error p >>= f).run Q e u locks ws ↔
      C.wp op p (fun r e u locks ws =>
        match r with
        | .ok b => C.wp op (f b).run Q e u locks ws
        | .error er => Q (.error (error er)) e u locks ws) e u locks ws := by
  rw [Proc.orFail_bind_run]
  refine wp_bind.trans (Eq.to_iff (congrArg (fun Q => C.wp op p Q e u locks ws) ?_))
  funext r e u locks ws
  cases r <;> rfl

/-- The rule of a client function whose errors become those of its caller. -/
theorem wp_run_adapt {ε' : Type} {error : ε → ε'} {m : ExceptT ε (Proc D W K) β}
    {Q : C.Post (Except ε' β)} :
    C.wp op (m.adapt error).run Q e u locks ws ↔
      C.wp op m.run (fun r => Q (r.mapError error)) e u locks ws := wp_bind

/-- The rule of a client function's own computation, followed by the rest of it. -/
theorem wp_ensure_bind {r : Except ε β} {f : β → ExceptT ε (Proc D W K) γ}
    {Q : C.Post (Except ε γ)} :
    C.wp op (Proc.ensure r >>= f).run Q e u locks ws ↔
      match r with
      | .ok b => C.wp op (f b).run Q e u locks ws
      | .error er => Q (.error er) e u locks ws := by
  cases r <;> rfl

/-- What an earlier statement has met in an append-only table a later one finds: the row was
committed, and stays. -/
theorem Rely.exists_find {get : D → List R} {write : R → W}
    (h : sys.toStore.AppendOnly get write) {d d' : D} {p : R → Bool} (hany : (get d).any p = true)
    (hr : C.Rely locks d d') : ∃ r, (get d').find? p = some r ∧ r ∈ get d' ∧ p r = true := by
  obtain ⟨row, hmem, hrow⟩ := List.any_eq_true.mp hany
  have hmem' : row ∈ get d' := hr.stable (h.stable_mem row) hmem
  obtain ⟨found, hfind⟩ := Option.isSome_iff_exists.mp (List.find?_isSome.mpr ⟨row, hmem', hrow⟩)
  exact ⟨found, hfind, List.mem_of_find?_eq_some hfind, List.find?_some hfind⟩

end Postgres.Contract
