import InfernalLaw.Postgres.Leaves

/-!
# What the writes of a process obey

What a constraint asks of a write depends on the database that the statement finds, with the writes
that are pending. `Proc.Obeys S I P` says that every write `w` of the process satisfies `P d w`,
where `d` is the database that it is added to, as long as the databases that the process sees
satisfy `I`. It is proved statement by statement, once for each function, and weakened to what a
caller needs.
-/

namespace Postgres

variable {D W K α β γ ε R : Type}

/-! ## Writes one after another -/

/-- Each of the writes satisfies `P` of the database with those before it. -/
def Store.Chain (S : Store D W K) (P : D → W → Prop) : D → List W → Prop
  | _, [] => True
  | d, w :: ws => P d w ∧ S.Chain P (S.apply d w) ws

section Chain

variable {S : Store D W K} {P P' : D → W → Prop} {d : D} {w : W} {ws ws' : List W}

/-- No writes form a chain. -/
@[simp] theorem Store.chain_nil : S.Chain P d [] := trivial

/-- The first write of a chain is let through, and the rest are by what it leaves. -/
@[simp] theorem Store.chain_cons : S.Chain P d (w :: ws) ↔ P d w ∧ S.Chain P (S.apply d w) ws :=
  Iff.rfl

/-- A chain goes on from what its first part leaves. -/
theorem Store.chain_append :
    S.Chain P d (ws ++ ws') ↔ S.Chain P d ws ∧ S.Chain P (S.view d ws) ws' := by
  induction ws generalizing d with
  | nil => simp
  | cons w ws ih => simp [ih, and_assoc]

/-- What holds of the database is kept by the writes. -/
theorem Store.Chain.view {I : D → Prop} (hkeep : ∀ d w, I d → P d w → I (S.apply d w))
    (h : S.Chain P d ws) (hd : I d) : I (S.view d ws) := by
  induction ws generalizing d with
  | nil => exact hd
  | cons w ws ih => exact ih h.2 (hkeep d w hd h.1)

/-- A chain for what is asked for is one for anything weaker. -/
theorem Store.Chain.mono (hP : ∀ d w, P d w → P' d w) (h : S.Chain P d ws) : S.Chain P' d ws := by
  induction ws generalizing d with
  | nil => trivial
  | cons w ws ih => exact ⟨hP d w h.1, ih h.2⟩

/-- What the writes satisfy where `I` holds, which they keep. -/
theorem Store.Chain.keeping {I : D → Prop} (hkeep : ∀ d w, I d → P' d w → I (S.apply d w))
    (hP : ∀ d w, I d → P d w → P' d w) (hd : I d) (h : S.Chain P d ws) : S.Chain P' d ws := by
  induction ws generalizing d with
  | nil => trivial
  | cons w ws ih =>
    have hw := hP d w hd h.1
    exact ⟨hw, ih (hkeep d w hd hw) h.2⟩

/-- What `P` says of a write whatever the database. -/
theorem Store.Chain.forall {Q : W → Prop} (hQ : ∀ d w, P d w → Q w) (h : S.Chain P d ws) :
    ∀ w ∈ ws, Q w := by
  induction ws generalizing d with
  | nil => exact fun _ hw => absurd hw List.not_mem_nil
  | cons w ws ih => exact List.forall_mem_cons.mpr ⟨hQ d w h.1, ih h.2⟩

end Chain

namespace Proc

/-- Every write of the process satisfies `P` of the database that it is added to, when what the
process sees of the database satisfies `I`. -/
def Obeys (S : Store D W K) (I : D → Prop) (P : D → W → Prop) : Proc D W K β → Prop
  | .done _ => True
  | .stmt _ effect next failed => failed.Obeys S I P ∧ ∀ snap cur, I snap → I cur →
      S.Chain P cur (effect snap cur).writes ∧ (next snap cur).Obeys S I P
  | .commit next failed => failed.Obeys S I P ∧ next.Obeys S I P
  | .rollback next => next.Obeys S I P

namespace Obeys

variable {S : Store D W K} {I I' : D → Prop} {P P' : D → W → Prop}

/-- A process that has ended writes nothing. -/
theorem done {b : β} : (Proc.done b : Proc D W K β).Obeys S I P := trivial

/-- The law may be weakened, where more is known of the database. -/
theorem mono (hI : ∀ d, I' d → I d) (hP : ∀ d w, P d w → P' d w) {p : Proc D W K β}
    (hp : p.Obeys S I P) : p.Obeys S I' P' := by
  induction p with
  | done b => trivial
  | stmt sql effect next failed ihn ihf =>
    refine ⟨ihf hp.1, fun snap cur hs hc => ?_⟩
    obtain ⟨hwrites, hnext⟩ := hp.2 snap cur (hI snap hs) (hI cur hc)
    exact ⟨hwrites.mono hP, ihn snap cur hnext⟩
  | commit next failed ihn ihf => exact ⟨ihf hp.1, ihn hp.2⟩
  | rollback next ih => exact ih hp

/-- A law may be replaced by one that holds where `I` does, if `I` is kept by what obeys the
latter. -/
theorem keeping (hkeep : ∀ d w, I d → P' d w → I (S.apply d w)) (hP : ∀ d w, I d → P d w → P' d w)
    {p : Proc D W K β} (hp : p.Obeys S I P) : p.Obeys S I P' := by
  induction p with
  | done b => trivial
  | stmt sql effect next failed ihn ihf =>
    refine ⟨ihf hp.1, fun snap cur hs hc => ?_⟩
    obtain ⟨hwrites, hnext⟩ := hp.2 snap cur hs hc
    exact ⟨hwrites.keeping hkeep hP hc, ihn snap cur hnext⟩
  | commit next failed ihn ihf => exact ⟨ihf hp.1, ihn hp.2⟩
  | rollback next ih => exact ih hp

/-- What a process obeys whatever the database, it may write. -/
theorem writes {Q : W → Prop} (hQ : ∀ d w, P d w → Q w) {p : Proc D W K β} (hp : p.Obeys S I P) :
    p.Writes I Q := by
  induction p with
  | done b => trivial
  | stmt sql effect next failed ihn ihf =>
    refine ⟨ihf hp.1, fun snap cur hs hc => ?_⟩
    obtain ⟨hwrites, hnext⟩ := hp.2 snap cur hs hc
    exact ⟨hwrites.forall hQ, ihn snap cur hnext⟩
  | commit next failed ihn ihf => exact ⟨ihf hp.1, ihn hp.2⟩
  | rollback next ih => exact ih hp

/-- A process obeys what its parts obey. -/
theorem bind {p : Proc D W K β} {f : β → Proc D W K γ} (hp : p.Obeys S I P)
    (hf : ∀ b, (f b).Obeys S I P) : (p.bind f).Obeys S I P := by
  induction p with
  | done b => exact hf b
  | stmt sql effect next failed ihn ihf =>
    exact ⟨ihf hp.1, fun snap cur hs hc =>
      ⟨(hp.2 snap cur hs hc).1, ihn snap cur (hp.2 snap cur hs hc).2⟩⟩
  | commit next failed ihn ihf => exact ⟨ihf hp.1, ihn hp.2⟩
  | rollback next ih => exact ih hp

/-- The rest of the process is asked about the results that the first part may come to. -/
theorem bind_of_ends {p : Proc D W K β} {f : β → Proc D W K γ} {after : β → Prop}
    (hp : p.Obeys S I P) (hends : p.Ends after) (hf : ∀ b, after b → (f b).Obeys S I P) :
    (p.bind f).Obeys S I P := by
  induction p with
  | done b => exact hf b hends
  | stmt sql effect next failed ihn ihf =>
    exact ⟨ihf hp.1 hends.1, fun snap cur hs hc =>
      ⟨(hp.2 snap cur hs hc).1, ihn snap cur (hp.2 snap cur hs hc).2 (hends.2 snap cur)⟩⟩
  | commit next failed ihn ihf => exact ⟨ihf hp.1 hends.1, ihn hp.2 hends.2⟩
  | rollback next ih => exact ih hp hends

/-! ## Statements -/

/-- A statement obeys what its writes do. -/
theorem statement {sql : String} {effect : D → D → Effect W K} {result : D → D → Except DbError β}
    (h : ∀ snap cur, I snap → I cur → S.Chain P cur (effect snap cur).writes) :
    (Proc.statement sql effect result).Obeys S I P :=
  ⟨trivial, fun snap cur hs hc => ⟨h snap cur hs hc, trivial⟩⟩

/-- A `SELECT` writes nothing. -/
theorem query {sql : String} {read : D → β} : (Proc.query sql read : Proc D W K _).Obeys S I P :=
  statement fun _ _ _ _ => trivial

/-- Nor does a `SELECT ... FOR UPDATE`. -/
theorem selectForUpdate {sql : String} {select : D → Option R} {key : R → K}
    {current : D → R → Option R} :
    (Proc.selectForUpdate sql select key current : Proc D W K _).Obeys S I P :=
  statement fun _ _ _ _ => trivial

/-- An `INSERT` writes its row where the constraints let it. -/
theorem insert {sql : String} {waits : D → List K} {check : D → Except DbError Unit} {w : W}
    (h : ∀ d, I d → check d = .ok () → P d w) :
    (Proc.insert S sql waits check w).Obeys S I P := by
  refine statement fun snap cur hs hc => ?_
  cases hcheck : check cur with
  | ok _ => exact ⟨h cur hc hcheck, trivial⟩
  | error e => trivial

/-- An `INSERT ... ON CONFLICT DO NOTHING` writes its row where there is no conflict either. -/
theorem insertOrNothing {sql : String} {valid : Except DbError Unit} {conflict : D → Bool}
    {check : D → Except DbError Unit} {w : W}
    (h : ∀ d, I d → valid = .ok () → conflict d = false → check d = .ok () → P d w) :
    (Proc.insertOrNothing S sql valid conflict check w).Obeys S I P := by
  refine statement fun snap cur hs hc => ?_
  cases hconflict : conflict cur with
  | true => simp
  | false =>
    rcases hv : valid with e | _
    · simp [Except.bind]
    · rcases hk : check cur with e | _
      · simp [Except.bind]
      · simpa [Except.bind, hk] using h cur hc hv hconflict hk

/-- An `UPDATE` writes the changed version of a row that it finds again. -/
theorem update {sql : String} {select : D → Option R} {key : R → K} {recheck : D → R → Option R}
    {change : D → R → Except DbError R} {write : R → W}
    (h : ∀ d r old new, I d → recheck d r = some old → change d old = .ok new → P d (write new)) :
    (Proc.update sql select key recheck change write).Obeys S I P := by
  refine statement fun snap cur hs hc => ?_
  rcases hsel : select snap with _ | r
  · simp
  rcases ho : recheck cur r with _ | old
  · simp [ho]
  rcases hn : change cur old with e | new
  · simp [ho, hn]
  · simpa [ho, hn] using h cur r old new hc ho hn

/-- An `INSERT ... ON CONFLICT DO UPDATE` writes a new row or changes the one that is there. -/
theorem upsert {sql : String} {find : D → Option R} {change : D → R → Except DbError (Option R)}
    {check : D → Except DbError Unit} {new : W} {write : R → W}
    (hinsert : ∀ d, I d → find d = none → check d = .ok () → P d new)
    (hupdate : ∀ d old r, I d → find d = some old → change d old = .ok (some r) → P d (write r)) :
    (Proc.upsert S sql find change check new write).Obeys S I P := by
  refine statement fun snap cur hs hc => ?_
  unfold upsertOutcome
  rcases hf : find cur with _ | old
  · rcases hk : check cur with e | _
    · trivial
    · exact ⟨hinsert cur hc hf hk, trivial⟩
  rcases hn : change cur old with e | _ | r
  · simp [Except.map, hn]
  · simp [Except.map, hn]
  · simpa [Except.map, hn] using hupdate cur old r hc hf hn

/-- An `UPDATE` of several rows obeys what the chain of its writes does. -/
theorem updateAll {sql : String} {select : D → List R} {recheck : D → R → Option R}
    {change : R → R} {write : R → W}
    (h : ∀ d d', I d → I d' → S.Chain P d'
      (((select d).filterMap (recheck d')).map fun r => write (change r))) :
    (Proc.updateAll sql select recheck change write : Proc D W K _).Obeys S I P :=
  statement fun snap cur hs hc => h snap cur hs hc

/-- To take the only row writes nothing more. -/
theorem one {p : Proc D W K (Except DbError (Option β))} (hp : p.Obeys S I P) :
    (Proc.one p).Obeys S I P := hp.bind fun _ => done

/-- A `COMMIT` writes nothing more. -/
theorem commitNow : (Proc.commitNow : Proc D W K _).Obeys S I P := ⟨done, done⟩

/-- A statement by itself obeys what it does in a transaction. -/
theorem autocommit {p : Proc D W K (Except DbError β)} (hp : p.Obeys S I P) :
    (Proc.autocommit p).Obeys S I P := by
  refine hp.bind fun r => ?_
  cases r <;> simp [Obeys]

/-! ## Client functions -/

/-- A transaction obeys what its body does. -/
theorem transaction {body : ExceptT ε (Proc D W K) β} (h : body.run.Obeys S I P) :
    (Proc.transaction body).Obeys S I P := Obeys.bind h fun _ => trivial

/-- To check a result writes nothing. -/
theorem ensure {r : Except ε β} : (Proc.ensure r : ExceptT ε (Proc D W K) β).run.Obeys S I P := done

/-- Nor does a result. -/
theorem run_pure {b : β} : (pure b : ExceptT ε (Proc D W K) β).run.Obeys S I P := done

/-- Nor does an error. -/
theorem run_throw {e : ε} : (throw e : ExceptT ε (Proc D W K) β).run.Obeys S I P := done

/-- An error that is passed on writes nothing more. -/
theorem orFail {error : DbError → ε} {p : Proc D W K (Except DbError β)} (hp : p.Obeys S I P) :
    (Proc.orFail error p).run.Obeys S I P := hp.bind fun _ => done

/-- The same of `bind`, with errors. -/
theorem run_bind {m : ExceptT ε (Proc D W K) β} {f : β → ExceptT ε (Proc D W K) γ}
    (hm : m.run.Obeys S I P) (hf : ∀ b, (f b).run.Obeys S I P) : (m >>= f).run.Obeys S I P := by
  refine hm.bind fun r => ?_
  cases r with
  | ok b => exact hf b
  | error e => exact done

/-- To rename the errors changes no write. -/
theorem run_adapt {ε' : Type} {f : ε → ε'} {m : ExceptT ε (Proc D W K) β} (hm : m.run.Obeys S I P) :
    (m.adapt f).run.Obeys S I P := hm.bind fun _ => done

/-- Each branch may use the condition it is taken under. -/
theorem run_ite {c : Prop} [Decidable c] {m m' : ExceptT ε (Proc D W K) β}
    (hm : c → m.run.Obeys S I P) (hm' : ¬ c → m'.run.Obeys S I P) :
    (if c then m else m').run.Obeys S I P := by
  split
  · exact hm ‹_›
  · exact hm' ‹_›

/-- The rest of a client function after a computation of its own. -/
theorem ensure_bind {r : Except ε β} {f : β → ExceptT ε (Proc D W K) γ}
    (h : ∀ b, r = .ok b → (f b).run.Obeys S I P) : (Proc.ensure r >>= f).run.Obeys S I P := by
  cases r with
  | ok b => exact h b rfl
  | error e => exact trivial

/-- The rest of a client function after a statement of it. -/
theorem orFail_bind {error : DbError → ε} {p : Proc D W K (Except DbError β)}
    {f : β → ExceptT ε (Proc D W K) γ}
    (h : (p.bind fun r =>
      match r with
      | .ok b => (f b).run
      | .error e => .done (.error (error e))).Obeys S I P) :
    (Proc.orFail error p >>= f).run.Obeys S I P := by
  rw [Proc.orFail_bind_run]
  exact h

end Obeys

end Proc

end Postgres
