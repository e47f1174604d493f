import InfernalLaw.Postgres.Answers
import InfernalLaw.Postgres.Serial
import InfernalLaw.Postgres.Writes

/-!
# What a process leaves as it is

`Proc.Writes` by cases on what a statement sees: the rest of a process is only asked about the
answers that a database with `I` can give. A process that runs alone and whose writes keep `I`
leaves a database with `I`.
-/

namespace Postgres.Proc

/-- Client functions in sequence. -/
theorem run_bind_assoc {D W K ε β γ δ : Type} {m : ExceptT ε (Proc D W K) β}
    {f : β → ExceptT ε (Proc D W K) γ} {g : γ → ExceptT ε (Proc D W K) δ} :
    m >>= f >>= g = m >>= fun b => f b >>= g := by
  refine (Proc.bind_assoc m.run _ _).trans (congrArg (Proc.bind m.run) (funext fun r => ?_))
  cases r <;> rfl

/-- A part whose answer does not matter, when errors do not either. -/
theorem Ends.run_bind_any {D W K ε β γ : Type} {m : ExceptT ε (Proc D W K) β}
    {f : β → ExceptT ε (Proc D W K) γ} {after : Except ε γ → Prop} (herr : ∀ e, after (.error e))
    (hok : ∀ b, (f b).run.Ends after) : (m >>= f).run.Ends after := by
  refine Ends.run_bind ((Ends.trivially m.run).mono fun r _ => ?_)
  cases r with
  | ok b => exact hok b
  | error e => exact herr e

namespace Writes

variable {D W K α β γ ε R : Type} {I : D → Prop} {P : W → Prop}

/-- A process that runs alone leaves what its writes keep. -/
theorem exec {S : Store D W K} (hkeep : ∀ d w, I d → P w → I (S.apply d w)) {p : Proc D W K β} :
    ∀ {d : D} {ws : List W}, p.Writes I P → I d → (∀ w ∈ ws, P w) → I (p.exec S d ws).db := by
  induction p with
  | done b => exact fun _ hd _ => hd
  | stmt sql effect next failed ihn _ =>
    intro d ws hp hd hws
    -- The statement sees the writes pending before it, and these keep `I`.
    have hsees : I (S.view d ws) := Store.view_of_writes hkeep hd hws
    obtain ⟨hwrites, hnext⟩ := hp.2 _ _ hsees hsees
    refine ihn _ _ hnext hd fun w hw => ?_
    exact (List.mem_append.mp hw).elim (hws w) (hwrites w)
  | commit next failed ihn _ =>
    intro d ws hp hd hws
    exact ihn hp.2 (Store.view_of_writes hkeep hd hws) fun _ h => absurd h List.not_mem_nil
  | rollback next ih =>
    intro d ws hp hd _
    exact ih hp hd fun _ h => absurd h List.not_mem_nil

/-- The rest of the process is asked about the results that the first part may come to. -/
theorem bind_of_ends {p : Proc D W K β} {f : β → Proc D W K γ} {after : β → Prop}
    (hp : p.Writes I P) (hends : p.Ends after) (hf : ∀ b, after b → (f b).Writes I P) :
    (p.bind f).Writes I P := by
  induction p with
  | done b => exact hf b hends
  | stmt sql effect next failed ihn ihf =>
    exact ⟨ihf hp.1 hends.1, fun snap cur hs hc =>
      ⟨(hp.2 snap cur hs hc).1, ihn snap cur (hp.2 snap cur hs hc).2 (hends.2 snap cur)⟩⟩
  | commit next failed ihn ihf => exact ⟨ihf hp.1 hends.1, ihn hp.2 hends.2⟩
  | rollback next ih => exact ih hp hends

/-- The rest of a client function after a computation of its own. -/
theorem ensure_bind {r : Except ε β} {f : β → ExceptT ε (Proc D W K) γ}
    (h : ∀ b, r = .ok b → (f b).run.Writes I P) : (Proc.ensure r >>= f).run.Writes I P := by
  cases r with
  | ok b => exact h b rfl
  | error e => exact trivial

/-- The rest of a client function after a statement of it. -/
theorem orFail_bind {error : DbError → ε} {p : Proc D W K (Except DbError β)}
    {f : β → ExceptT ε (Proc D W K) γ}
    (h : (p.bind fun r =>
      match r with
      | .ok b => (f b).run
      | .error e => .done (.error (error e))).Writes I P) :
    (Proc.orFail error p >>= f).run.Writes I P := by
  rw [Proc.orFail_bind_run]
  exact h

/-- After a `SELECT ... FOR UPDATE`, what follows may use that the row was found and found again. -/
theorem selectForUpdate_bind {sql : String} {select : D → Option R} {key : R → K}
    {current : D → R → Option R} {f : Except DbError (Option R) → Proc D W K γ}
    (herr : ∀ e, (f (.error e)).Writes I P)
    (hok : ∀ d d', I d → I d' → (f (.ok ((select d).bind (current d')))).Writes I P) :
    ((Proc.selectForUpdate sql select key current).bind f).Writes I P :=
  ⟨herr _, fun snap cur hs hc => ⟨fun _ h => absurd h List.not_mem_nil, hok snap cur hs hc⟩⟩

/-- An `UPDATE`, by the row that its snapshot chooses. -/
theorem update_of_select {sql : String} {select : D → Option R} {key : R → K}
    {recheck : D → R → Option R} {change : D → R → Except DbError R} {write : R → W}
    (h : ∀ d d' r old new, I d → I d' → select d = some r → recheck d' r = some old →
      change d' old = .ok new → P (write new)) :
    (Proc.update sql select key recheck change write).Writes I P := by
  refine statement fun snap cur hs hc w hw => ?_
  rcases hsel : select snap with _ | r
  · simp [hsel] at hw
  rcases ho : recheck cur r with _ | old
  · simp [hsel, ho] at hw
  rcases hn : change cur old with e | new
  · simp [hsel, ho, hn] at hw
  · simp only [hsel, ho, hn, List.mem_singleton] at hw
    rw [hw]
    exact h snap cur r old new hs hc hsel ho hn

/-- What follows a `SELECT` is asked about what a database with `I` answers. -/
theorem read_bind {sql : String} {result : D → Except DbError β}
    {f : Except DbError β → Proc D W K γ} (herr : ∀ e, (f (.error e)).Writes I P)
    (hok : ∀ d, I d → (f (result d)).Writes I P) :
    ((Proc.statement sql (fun _ _ => {}) fun d _ => result d).bind f).Writes I P :=
  ⟨herr _, fun snap _ hs _ => ⟨fun _ h => absurd h List.not_mem_nil, hok snap hs⟩⟩

/-- After a statement by itself that only reads, what follows may use what it has read. -/
theorem autocommit_read_bind {sql : String} {result : D → Except DbError β}
    {f : Except DbError β → Proc D W K γ} (herr : ∀ e, (f (.error e)).Writes I P)
    (hok : ∀ d b, I d → result d = .ok b → (f (.ok b)).Writes I P) :
    ((Proc.autocommit (Proc.statement sql (fun _ _ => {}) fun d _ => result d)).bind f).Writes I
      P := by
  rw [Proc.autocommit, Proc.bind_assoc]
  refine read_bind (fun e => herr e) fun d hd => ?_
  cases hresult : result d with
  | error e => exact herr e
  | ok b => exact ⟨herr _, hok d b hd hresult⟩

/-- So it may after a `SELECT` by itself. -/
theorem autocommit_query_bind {sql : String} {read : D → β} {f : Except DbError β → Proc D W K γ}
    (herr : ∀ e, (f (.error e)).Writes I P) (hok : ∀ d, I d → (f (.ok (read d))).Writes I P) :
    ((Proc.autocommit (Proc.query sql read)).bind f).Writes I P :=
  autocommit_read_bind herr fun d _ hd hb => Except.ok.inj hb ▸ hok d hd

/-- What writes only one kind of rows writes only any wider kind. -/
theorem mono {P' : W → Prop} (h : ∀ w, P w → P' w) {p : Proc D W K β} (hp : p.Writes I P) :
    p.Writes I P' := by
  induction p with
  | done b => trivial
  | stmt sql effect next failed ihn ihf =>
    exact ⟨ihf hp.1, fun snap cur hs hc =>
      ⟨fun w hw => h w ((hp.2 snap cur hs hc).1 w hw), ihn snap cur (hp.2 snap cur hs hc).2⟩⟩
  | commit next failed ihn ihf => exact ⟨ihf hp.1, ihn hp.2⟩
  | rollback next ih => exact ih hp

end Writes

end Postgres.Proc

/-! ## Events -/

namespace Postgres.System

variable {D W K Op α β : Type} [DecidableEq K] {sys : System D W K Op α} {d₀ : D}
  {s s' : State D W K Op α}

/-- The contract of operations of which each may write what `P` says of it. -/
def writing (sys : System D W K Op α) (P : Op → W → Prop) : Contract sys where
  inv _ _ := True
  guar op _ ws _ := ∀ w ∈ ws, P op w

/-- What the programs write is all that is committed in a run. -/
theorem commits_of_writes {P : Op → W → Prop}
    (hp : ∀ op, (sys.program op).Writes (fun _ => True) (P op)) (hs : sys.Reaches d₀ s)
    {ev : Event Op} (hstep : sys.step s ev = some s') :
    ∃ id op ws, s.Runs ev id op ∧ (∀ w ∈ ws, P op w) ∧ s'.db = sys.view s.db ws := by
  have hnil : ∀ op, ∀ w ∈ ([] : List W), P op w := fun _ w hw => absurd hw List.not_mem_nil
  have hS : (sys.writing P).Sound :=
    { stutter := fun op _ => hnil op
      preserves := fun _ _ _ _ _ _ _ _ => trivial
      program := fun op d hd => Contract.wp_of_writes (fun _ _ => trivial) (fun _ _ _ _ => trivial)
        (fun _ _ _ h => h) (fun _ _ _ _ _ _ h => h) (hp op) hd (hnil op) (hnil op) }
  obtain ⟨id, op, ws, r, hruns, hws, hdb, -⟩ := hS.event (fun _ _ _ => trivial) trivial hs hstep
  exact ⟨id, op, ws, hruns, hws, hdb⟩

/-- What changes between two states of a run changes in one of the events between them. -/
theorem Later.exists_change {f : D → β} (hl : sys.Later s s') (h : f s'.db ≠ f s.db) :
    ∃ s₁ ev s₂, sys.Later s s₁ ∧ sys.step s₁ ev = some s₂ ∧ sys.Later s₂ s' ∧
      f s₂.db ≠ f s₁.db := by
  obtain ⟨s₁, s₂, hl₁, ⟨ev, hstep⟩, hl₂, hne⟩ := exists_changing_step hl (f := fun s => f s.db) h
  exact ⟨s₁, ev, s₂, hl₁, hstep, hl₂, hne⟩

end Postgres.System
