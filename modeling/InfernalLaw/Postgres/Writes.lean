import InfernalLaw.Postgres.Rules

/-!
# What a process may write

For an invariant of single rows it is enough to know what a process may write at all, whatever the
other sessions do in between: `Proc.Writes I P` says that every write satisfies `P` as long as the
databases that the process sees satisfy `I`. It is proved statement by statement, and gives the
weakest precondition in any contract that allows the writes.
-/

namespace Postgres

variable {D W K Op α β γ ε R : Type}

namespace Proc

/-- Every write of the process satisfies `P`, when what it sees of the database satisfies `I`. -/
def Writes (I : D → Prop) (P : W → Prop) : Proc D W K β → Prop
  | .done _ => True
  | .stmt _ effect next failed => failed.Writes I P ∧ ∀ snap cur, I snap → I cur →
      (∀ w ∈ (effect snap cur).writes, P w) ∧ (next snap cur).Writes I P
  | .commit next failed => failed.Writes I P ∧ next.Writes I P
  | .rollback next => next.Writes I P

namespace Writes

variable {I : D → Prop} {P : W → Prop}

/-- A process that has ended writes nothing. -/
theorem done {b : β} : (Proc.done b : Proc D W K β).Writes I P := trivial

/-- A process writes what its parts write. -/
theorem bind {p : Proc D W K β} {f : β → Proc D W K γ} (hp : p.Writes I P)
    (hf : ∀ b, (f b).Writes I P) : (p.bind f).Writes I P := by
  induction p with
  | done b => exact hf b
  | stmt sql effect next failed ihn ihf =>
    exact ⟨ihf hp.1, fun snap cur hs hc =>
      ⟨(hp.2 snap cur hs hc).1, ihn snap cur (hp.2 snap cur hs hc).2⟩⟩
  | commit next failed ihn ihf => exact ⟨ihf hp.1, ihn hp.2⟩
  | rollback next ih => exact ih hp

/-- A statement writes what its effect on some state does. -/
theorem statement {sql : String} {effect : D → D → Effect W K} {result : D → D → Except DbError β}
    (h : ∀ snap cur, I snap → I cur → ∀ w ∈ (effect snap cur).writes, P w) :
    (Proc.statement sql effect result).Writes I P :=
  ⟨trivial, fun snap cur hs hc => ⟨h snap cur hs hc, trivial⟩⟩

/-- A `SELECT` writes nothing. -/
theorem query {sql : String} {read : D → β} :
    (Proc.query sql read : Proc D W K _).Writes I P :=
  statement fun _ _ _ _ => by simp

/-- Nor does a `SELECT ... FOR UPDATE`. -/
theorem selectForUpdate {sql : String} {select : D → Option R} {key : R → K}
    {current : D → R → Option R} :
    (Proc.selectForUpdate sql select key current : Proc D W K _).Writes I P :=
  statement fun _ _ _ _ => by simp

/-- An `INSERT` writes its row, where the constraints let it. -/
theorem insert {S : Store D W K} {sql : String} {waits : D → List K}
    {check : D → Except DbError Unit} {w : W} (h : ∀ d, I d → check d = .ok () → P w) :
    (Proc.insert S sql waits check w).Writes I P := by
  refine statement fun snap cur hs hc w' hw' => ?_
  cases hcheck : check cur with
  | ok _ =>
    rw [hcheck] at hw'
    rw [List.mem_singleton.mp hw']
    exact h cur hc hcheck
  | error e =>
    rw [hcheck] at hw'
    cases hw'

/-- An `INSERT ... ON CONFLICT DO NOTHING` writes its row, where there is no conflict either. -/
theorem insertOrNothing {S : Store D W K} {sql : String} {valid : Except DbError Unit}
    {conflict : D → Bool} {check : D → Except DbError Unit} {w : W}
    (h : ∀ d, I d → valid = .ok () → conflict d = false → check d = .ok () → P w) :
    (Proc.insertOrNothing S sql valid conflict check w).Writes I P := by
  refine statement fun snap cur hs hc w' hw' => ?_
  cases hconflict : conflict cur with
  | true => simp [hconflict] at hw'
  | false =>
    rcases hv : valid with e | _
    · simp [hconflict, hv, Except.bind] at hw'
    · rcases hk : check cur with e | _
      · simp [hconflict, hv, hk, Except.bind] at hw'
      · simp only [hconflict, hv, hk, Except.bind, Bool.false_eq_true, if_false,
          List.mem_singleton] at hw'
        rw [hw']
        exact h cur hc hv hconflict hk

/-- An `UPDATE` writes the changed version of a row that it finds again. -/
theorem update {sql : String} {select : D → Option R} {key : R → K} {recheck : D → R → Option R}
    {change : D → R → Except DbError R} {write : R → W}
    (h : ∀ d r old new, I d → recheck d r = some old → change d old = .ok new → P (write new)) :
    (Proc.update sql select key recheck change write).Writes I P := by
  refine statement fun snap cur hs hc w hw => ?_
  rcases hsel : select snap with _ | r
  · simp [hsel] at hw
  rcases ho : recheck cur r with _ | old
  · simp [hsel, ho] at hw
  rcases hn : change cur old with e | new
  · simp [hsel, ho, hn] at hw
  · simp only [hsel, ho, hn, List.mem_singleton] at hw
    rw [hw]
    exact h cur r old new hc ho hn

/-- To take the only row writes nothing more. -/
theorem one {p : Proc D W K (Except DbError (Option β))} (hp : p.Writes I P) :
    (Proc.one p).Writes I P := hp.bind fun _ => done

/-- A `COMMIT` writes nothing more. -/
theorem commitNow : (Proc.commitNow : Proc D W K _).Writes I P := ⟨done, done⟩

/-- A statement by itself writes what it does in a transaction. -/
theorem autocommit {p : Proc D W K (Except DbError β)} (hp : p.Writes I P) :
    (Proc.autocommit p).Writes I P := by
  refine hp.bind fun r => ?_
  cases r <;> simp [Writes]

/-- A transaction writes what its body does. -/
theorem transaction {body : ExceptT ε (Proc D W K) β} (h : body.run.Writes I P) :
    (Proc.transaction body).Writes I P := Writes.bind h fun _ => trivial

/-- To check a result writes nothing. -/
theorem ensure {r : Except ε β} : (Proc.ensure r : ExceptT ε (Proc D W K) β).run.Writes I P := done

/-- Nor does a result. -/
theorem run_pure {b : β} : (pure b : ExceptT ε (Proc D W K) β).run.Writes I P := done

/-- Nor does an error. -/
theorem run_throw {e : ε} : (throw e : ExceptT ε (Proc D W K) β).run.Writes I P := done

/-- An error that is passed on writes nothing more. -/
theorem orFail {error : DbError → ε} {p : Proc D W K (Except DbError β)} (hp : p.Writes I P) :
    (Proc.orFail error p).run.Writes I P := hp.bind fun _ => done

/-- The same of `bind`, with errors. -/
theorem run_bind {m : ExceptT ε (Proc D W K) β} {f : β → ExceptT ε (Proc D W K) γ}
    (hm : m.run.Writes I P) (hf : ∀ b, (f b).run.Writes I P) : (m >>= f).run.Writes I P := by
  refine hm.bind fun r => ?_
  cases r with
  | ok b => exact hf b
  | error e => exact done

end Writes

end Proc

/-- Writes that keep `I` keep it of what a transaction sees. -/
theorem Store.view_of_writes {S : Store D W K} {I : D → Prop} {P : W → Prop}
    (hkeep : ∀ d w, I d → P w → I (S.apply d w)) {ws : List W} {d : D} (hd : I d)
    (hws : ∀ w ∈ ws, P w) : I (S.view d ws) := by
  induction ws generalizing d with
  | nil => exact hd
  | cons w ws ih =>
    exact ih (hkeep d w hd (hws w List.mem_cons_self))
      fun w' hw' => hws w' (List.mem_cons_of_mem _ hw')

namespace Contract

variable {sys : System D W K Op α} {C : Contract sys} {op : Op} {I : D → Prop} {P : W → Prop}

/-- A process whose writes the contract allows, one by one. -/
theorem wp_of_writes (hI : ∀ d, C.Good d → I d) (hkeep : ∀ d w, I d → P w → I (sys.apply d w))
    (hguar : ∀ d u, C.Good d → (∀ w ∈ u, P w) → C.guar op d u none) {p : Proc D W K β}
    {Q : C.Post β} (hQ : ∀ b d u locks ws, C.Good d → (∀ w ∈ u, P w) → Q b d u locks ws)
    (hp : p.Writes I P) : ∀ {e u locks ws}, C.Good e → (∀ w ∈ u, P w) → (∀ w ∈ ws, P w) →
      C.wp op p Q e u locks ws := by
  induction p with
  | done b => exact fun he hu _ => hQ _ _ _ _ _ he hu
  | stmt sql effect next failed ihn ihf =>
    intro e u locks ws he hu hws
    refine ⟨hguar e u he hu, fun d₁ _ hg₁ => ⟨ihf hp.1 hg₁ (by simp) (by simp), ?_⟩⟩
    intro _ d₂ _ hg₂
    obtain ⟨heff, hnext⟩ := hp.2 _ _ (Store.view_of_writes hkeep (hI d₁ hg₁) hws)
      (Store.view_of_writes hkeep (hI d₂ hg₂) hws)
    refine ihn _ _ hnext hg₂ (by simp) fun w hw => ?_
    rcases List.mem_append.mp hw with hw | hw
    · exact hws w hw
    · exact heff w hw
  | commit next failed ihn ihf =>
    intro e u locks ws he hu hws
    exact ⟨hguar e u he hu, fun d₁ _ hg₁ =>
      ⟨ihf hp.1 hg₁ (by simp) (by simp), ihn hp.2 hg₁ hws (by simp)⟩⟩
  | rollback next ih =>
    intro e u locks ws he hu _
    exact ih hp he hu (by simp)

/-- A process whose writes the contract allows where a fact holds, once nothing can undo the
fact. -/
theorem wp_of_writes_stable (hI : sys.Stable [] I)
    (hguar : ∀ d u, I d → (∀ w ∈ u, P w) → C.guar op d u none) {p : Proc D W K β} {Q : C.Post β}
    (hQ : ∀ b d u locks ws, C.guar op d u none → Q b d u locks ws)
    (hp : p.Writes (fun _ => True) P) : ∀ {e u locks ws}, C.guar op e u none → I (sys.view e u) →
      (∀ w ∈ ws, P w) → C.wp op p Q e u locks ws := by
  have hrely : ∀ {locks : List K} {d d' : D}, C.Rely locks d d' → I d → I d' :=
    fun hr hd => (hr.mono fun k hk => absurd hk List.not_mem_nil).stable hI hd
  have hnil : ∀ w ∈ ([] : List W), P w := fun w hw => absurd hw List.not_mem_nil
  induction p with
  | done b =>
    intro e u locks ws hg _ _
    exact hQ b e u locks ws hg
  | stmt sql effect next failed ihn ihf =>
    intro e u locks ws hg hd hws
    refine ⟨hg, fun d₁ hr _ => ⟨?_, fun _ d₂ hr' _ => ?_⟩⟩
    · exact ihf hp.1 (hguar d₁ [] (hrely hr hd) hnil) (hrely hr hd) hnil
    · have hd₂ := hrely hr' (hrely hr hd)
      obtain ⟨heff, hnext⟩ := hp.2 (sys.view d₁ ws) (sys.view d₂ ws) trivial trivial
      refine ihn _ _ hnext (hguar d₂ [] hd₂ hnil) hd₂ fun w hw => ?_
      exact (List.mem_append.mp hw).elim (hws w) (heff w)
  | commit next failed ihn ihf =>
    intro e u locks ws hg hd hws
    refine ⟨hg, fun d₁ hr _ => ⟨?_, ?_⟩⟩
    · exact ihf hp.1 (hguar d₁ [] (hrely hr hd) hnil) (hrely hr hd) hnil
    · have hd₁ := hI.view ws d₁ (fun _ _ _ _ => List.not_mem_nil) (hrely hr hd)
      exact ihn hp.2 (hguar d₁ ws (hrely hr hd) hws) hd₁ hnil
  | rollback next ih =>
    intro e u locks ws hg hd _
    exact ih hp hg hd hnil

end Contract

end Postgres
