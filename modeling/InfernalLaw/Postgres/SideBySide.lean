import InfernalLaw.Postgres.Serial

/-!
# Two runs side by side

What a process answers depends only on what its statements see. `Proc.Respects S R` says that no
statement tells two databases apart that `R` relates, and that its writes keep them related. It is
proved statement by statement, and two runs of the process alone then answer the same.
-/

namespace Postgres

variable {D W K β γ ε κ Row : Type} {S : Store D W K} {R : D → D → Prop}

namespace Proc

/-- On databases that `R` relates the process does the same, and they stay related. -/
def Respects (S : Store D W K) (R : D → D → Prop) : Proc D W K β → Prop
  | .done _ => True
  | .stmt _ effect next _ => ∀ d d', R d d' →
      (effect d d).writes = (effect d' d').writes ∧
      R (S.view d (effect d d).writes) (S.view d' (effect d d).writes) ∧
      next d d = next d' d' ∧ (next d d).Respects S R
  | .commit next _ => next.Respects S R
  | .rollback next => next.Respects S R

namespace Respects

/-- Two runs from related databases, with the same pending writes, end with the same answer in
related databases. -/
theorem exec {p : Proc D W K β} (hp : p.Respects S R) : ∀ {d d' : D} (ws : List W), R d d' →
    R (S.view d ws) (S.view d' ws) →
      (p.exec S d ws).result = (p.exec S d' ws).result ∧
      (p.exec S d ws).pending = (p.exec S d' ws).pending ∧
      R (p.exec S d ws).db (p.exec S d' ws).db ∧
      R (S.view (p.exec S d ws).db (p.exec S d ws).pending)
        (S.view (p.exec S d' ws).db (p.exec S d ws).pending) := by
  induction p with
  | done b => exact fun _ hd hview => ⟨rfl, rfl, hd, hview⟩
  | stmt sql effect next failed ihn _ =>
    intro d d' ws hd hview
    obtain ⟨hwrites, hkeep, hnext, hrest⟩ := hp _ _ hview
    -- Both runs go on with the same process and the same pending writes.
    unfold Proc.exec
    rw [← hwrites, ← hnext]
    refine ihn _ _ hrest _ hd ?_
    rw [Store.view_append, Store.view_append]
    exact hkeep
  | commit next failed ihn _ => exact fun _ _ hview => ihn hp _ hview hview
  | rollback next ih => exact fun _ hd _ => ih hp _ hd hd

/-- A process that has ended respects every relation. -/
theorem done {b : β} : (Proc.done b : Proc D W K β).Respects S R := trivial

/-- A process respects what its parts respect. -/
theorem bind {p : Proc D W K β} {f : β → Proc D W K γ} (hp : p.Respects S R)
    (hf : ∀ b, (f b).Respects S R) : (p.bind f).Respects S R := by
  induction p with
  | done b => exact hf b
  | stmt sql effect next failed ihn _ =>
    intro d d' hd
    obtain ⟨hwrites, hkeep, hnext, hrest⟩ := hp d d' hd
    exact ⟨hwrites, hkeep, congrArg (fun p => p.bind f) hnext, ihn d d hrest⟩
  | commit next failed ihn _ => exact ihn hp
  | rollback next ih => exact ih hp

/-- A statement does, whose writes and result are the same on either side and keep the relation. -/
theorem statement {sql : String} {effect : D → D → Effect W K} {result : D → D → Except DbError β}
    (hwrites : ∀ d d', R d d' → (effect d d).writes = (effect d' d').writes)
    (hkeep : ∀ d d', R d d' →
      R (S.view d (effect d d).writes) (S.view d' (effect d d).writes))
    (hresult : ∀ d d', R d d' → result d d = result d' d') :
    (Proc.statement sql effect result).Respects S R := fun d d' hd =>
  ⟨hwrites d d' hd, hkeep d d' hd, congrArg Proc.done (hresult d d' hd), done⟩

/-- An `INSERT` does, that is let through on both sides or on neither. -/
theorem insert {sql : String} {waits : D → List K} {check : D → Except DbError Unit} {w : W}
    (hcheck : ∀ d d', R d d' → check d = check d')
    (hkeep : ∀ d d', R d d' → check d = .ok () → R (S.apply d w) (S.apply d' w)) :
    (Proc.insert S sql waits check w).Respects S R := by
  refine statement (fun d d' hd => ?_) (fun d d' hd => ?_) hcheck
  · rw [hcheck d d' hd]
    cases check d' <;> rfl
  · cases hok : check d with
    | ok _ => exact hkeep d d' hd hok
    | error e => exact hd

/-- An `UPDATE` of one row is a statement that writes the new version of the row it finds. -/
theorem update_eq_statement (sql : String) (select : D → Option Row) (key : Row → K)
    (recheck : D → Row → Option Row) (change : D → Row → Except DbError Row) (write : Row → W) :
    ∃ (effect : D → D → Effect W K) (result : D → D → Except DbError (Option Row)),
      Proc.update sql select key recheck change write = Proc.statement sql effect result ∧
      ∀ d, (effect d d).writes = ((select d).bind (recheck d)).elim [] (fun old =>
          (change d old).toOption.toList.map write) ∧
        result d d = ((select d).bind (recheck d)).elim (.ok none) fun old =>
        (change d old).map some := by
  refine ⟨_, _, rfl, fun d => ⟨?_, ?_⟩⟩
  · cases select d with
    | none => rfl
    | some r =>
      dsimp only [Option.bind_some]
      cases recheck d r with
      | none => rfl
      | some old =>
        dsimp only [Option.elim_some]
        cases change d old <;> rfl
  · cases (select d).bind (recheck d) <;> rfl

/-- An `UPDATE` does, that finds and changes the same row on either side. -/
theorem update {sql : String} {select : D → Option Row} {key : Row → K}
    {recheck : D → Row → Option Row} {change : D → Row → Except DbError Row} {write : Row → W}
    (hfind : ∀ d d', R d d' → (select d).bind (recheck d) = (select d').bind (recheck d'))
    (hchange : ∀ d d' old, R d d' → (select d).bind (recheck d) = some old →
      change d old = change d' old)
    (hkeep : ∀ d d' old new, R d d' → (select d).bind (recheck d) = some old →
      change d old = .ok new → R (S.apply d (write new)) (S.apply d' (write new))) :
    (Proc.update sql select key recheck change write).Respects S R := by
  obtain ⟨effect, result, hupdate, hd⟩ := update_eq_statement sql select key recheck change write
  rw [hupdate]
  refine statement (fun d d' h => ?_) (fun d d' h => ?_) fun d d' h => ?_
  · rw [(hd d).1, (hd d').1, ← hfind d d' h]
    cases hold : (select d).bind (recheck d) with
    | none => rfl
    | some old => rw [Option.elim_some, Option.elim_some, hchange d d' old h hold]
  · rw [(hd d).1]
    cases hold : (select d).bind (recheck d) with
    | none => exact h
    | some old =>
      rw [Option.elim_some]
      cases hnew : change d old with
      | ok new => exact hkeep d d' old new h hold hnew
      | error e => exact h
  · rw [(hd d).2, (hd d').2, ← hfind d d' h]
    cases hold : (select d).bind (recheck d) with
    | none => rfl
    | some old => rw [Option.elim_some, Option.elim_some, hchange d d' old h hold]

/-- A `COMMIT` does. -/
theorem commitNow : (Proc.commitNow : Proc D W K _).Respects S R := trivial

/-- To check a result reads nothing. -/
theorem ensure {r : Except ε β} :
    (Proc.ensure r : ExceptT ε (Proc D W K) β).run.Respects S R := done

/-- A result reads nothing. -/
theorem run_pure {b : β} : (pure b : ExceptT ε (Proc D W K) β).run.Respects S R := done

/-- Nor does an error. -/
theorem run_throw {e : ε} : (throw e : ExceptT ε (Proc D W K) β).run.Respects S R := done

/-- An error that is passed on reads nothing more. -/
theorem orFail {error : DbError → ε} {p : Proc D W K (Except DbError β)} (hp : p.Respects S R) :
    (Proc.orFail error p).run.Respects S R := bind hp fun _ => done

/-- The same of `bind`, with errors. -/
theorem run_bind {m : ExceptT ε (Proc D W K) β} {f : β → ExceptT ε (Proc D W K) γ}
    (hm : m.run.Respects S R) (hf : ∀ b, (f b).run.Respects S R) : (m >>= f).run.Respects S R := by
  refine bind hm fun r => ?_
  cases r with
  | ok b => exact hf b
  | error e => exact done

/-- After a check that passes, what follows may use what it has found. -/
theorem ensure_bind {r : Except ε β} {f : β → ExceptT ε (Proc D W K) γ}
    (h : ∀ b, r = .ok b → (f b).run.Respects S R) : (Proc.ensure r >>= f).run.Respects S R := by
  cases r with
  | ok b => exact h b rfl
  | error e => exact done

end Respects

end Proc

/-! ## Tables that agree -/

/-- The tables have the same rows among those that are `own`, and a key that both have is that of
the same row: they differ only in which of the other rows they have. -/
structure AgreeOn (own : Row → Bool) (key : Row → κ) (rows rows' : List Row) : Prop where
  own_eq : rows.filter own = rows'.filter own
  same : ∀ r ∈ rows, ∀ r' ∈ rows', key r = key r' → r = r'

namespace AgreeOn

variable {own : Row → Bool} {key : Row → κ} {rows rows' : List Row}

/-- To agree on the own rows is symmetric. -/
theorem symm (h : AgreeOn own key rows rows') : AgreeOn own key rows' rows :=
  ⟨h.own_eq.symm, fun r hr r' hr' hkey => (h.same r' hr' r hr hkey.symm).symm⟩

/-- A row of one's own is in both tables. -/
theorem mem (h : AgreeOn own key rows rows') {r : Row} (hr : r ∈ rows) (hown : own r = true) :
    r ∈ rows' := by
  have hmem : r ∈ rows.filter own := List.mem_filter.mpr ⟨hr, hown⟩
  rw [h.own_eq] at hmem
  exact (List.mem_filter.mp hmem).1

/-- What is only found among one's own rows is found in both tables. -/
theorem find_eq (h : AgreeOn own key rows rows') {p : Row → Bool}
    (hp : ∀ r, p r = true → own r = true) :
    rows.find? p = rows'.find? p := by
  have hfind : ∀ l : List Row, l.find? p = (l.filter own).find? p := by
    intro l
    rw [List.find?_filter]
    congr 1
    funext r
    cases hr : p r with
    | false => simp
    | true => simp [hp r hr]
  rw [hfind rows, hfind rows', h.own_eq]

variable [DecidableEq κ]

/-- A row that is found under a key is one's own in both tables, or in none. -/
theorem find_own (h : AgreeOn own key rows rows') {k : κ} {r : Row}
    (hr : rows.find? (fun r => key r = k) = some r) (hown : own r = true) :
    rows'.find? (fun r => key r = k) = some r := by
  have hmem := h.mem (List.mem_of_find?_eq_some hr) hown
  have hkey : key r = k := by simpa using List.find?_some hr
  cases hr' : rows'.find? (fun r => key r = k) with
  | none => exact absurd (decide_eq_true hkey) (List.find?_eq_none.mp hr' r hmem)
  | some r' =>
    have hkey' : key r' = k := by simpa using List.find?_some hr'
    rw [h.same r (List.mem_of_find?_eq_some hr) r' (List.mem_of_find?_eq_some hr')
      (hkey.trans hkey'.symm)]

/-- What is found under a key among one's own rows is the same. -/
theorem filter_find (h : AgreeOn own key rows rows') {k : κ} :
    (rows.find? fun r => key r = k).filter own = (rows'.find? fun r => key r = k).filter own := by
  ext r
  rw [Option.filter_eq_some_iff, Option.filter_eq_some_iff]
  exact ⟨fun ⟨hr, hown⟩ => ⟨h.find_own hr hown, hown⟩, fun ⟨hr, hown⟩ =>
    ⟨h.symm.find_own hr hown, hown⟩⟩

end AgreeOn

end Postgres
