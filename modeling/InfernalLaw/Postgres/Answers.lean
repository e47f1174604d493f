import InfernalLaw.Postgres.Receipts
import InfernalLaw.Postgres.Serial

/-!
# What a process may answer

`Proc.Ends` says what all answers of a process satisfy, whatever it reads and whichever of its
statements fail. It is proved statement by statement.
-/

namespace Postgres

variable {D W K Op α β γ ε R : Type}

/-! ## Verdicts -/

/-- None of the errors that the computation may report is one of the `bad` ones. -/
def Avoids (bad : DbError → Prop) (r : Except DbError β) : Prop := ∀ e, r = .error e → ¬ bad e

namespace Avoids

variable {bad : DbError → Prop}

/-- A result is not the error. -/
theorem ok {b : β} : Avoids bad (.ok b : Except DbError β) := fun _ h => by cases h

/-- A constraint reports its error when it does not hold. -/
theorem require {p : Prop} [Decidable p] {e : DbError} (h : ¬ p → ¬ bad e) :
    Avoids bad (require p e) := by
  intro e' he
  unfold Postgres.require at he
  split at he
  · cases he
  · rename_i hp
    rw [← Except.error.inj he]
    exact h hp

/-- A check avoids the error that its parts avoid. -/
theorem bind {r : Except DbError β} {f : β → Except DbError γ} (hr : Avoids bad r)
    (hf : ∀ b, r = .ok b → Avoids bad (f b)) : Avoids bad (r >>= f) := by
  intro e he
  rcases bind_eq_error.mp he with he | ⟨b, hb, he⟩
  · exact hr e he
  · exact hf b hb e he

/-- What a client makes of an error is none of the bad ones either. -/
theorem mapError {error : DbError → ε} (herror : Function.Injective error) {r : Except DbError β}
    (h : Avoids bad r) : ∀ e, r.mapError error = .error (error e) → ¬ bad e := by
  intro e he
  obtain ⟨e', hr, heq⟩ := mapError_eq_error.mp he
  rw [← herror heq]
  exact h e' hr

end Avoids

/-- What holds of the errors of its elements holds of the error of a list. -/
theorem error_of_mapM {f : β → Except ε γ} {P : ε → Prop} (h : ∀ b e, f b = .error e → P e)
    {l : List β} {e : ε} (he : l.mapM f = .error e) : P e := by
  induction l with
  | nil => cases he
  | cons b l ih =>
    rw [List.mapM_cons] at he
    rcases bind_eq_error.mp he with he | ⟨c, -, he⟩
    · exact h b e he
    · rcases bind_eq_error.mp he with he | ⟨cs, -, he⟩
      · exact ih he
      · cases he

namespace Proc.Ends

/-! ## The rules of the statements -/

section Statements

variable {after : Except DbError β → Prop}

/-- A statement ends with a lost connection or with one of its results. -/
theorem statement {sql : String} {effect : D → D → Effect W K} {result : D → D → Except DbError β}
    (hfail : after (.error .unavailable)) (h : ∀ snap cur, after (result snap cur)) :
    (Proc.statement sql effect result).Ends after := ⟨hfail, h⟩

/-- A `SELECT` ends with a lost connection or with what it reads. -/
theorem query {sql : String} {read : D → β} (hfail : after (.error .unavailable))
    (h : ∀ d, after (.ok (read d))) : (Proc.query sql read : Proc D W K _).Ends after :=
  statement hfail fun snap _ => h snap

/-- An `UPDATE` ends with a lost connection, without a row, or with one that it has found again. -/
theorem update {sql : String} {select : D → Option R} {key : R → K} {recheck : D → R → Option R}
    {change : D → R → Except DbError R} {write : R → W} {after : Except DbError (Option R) → Prop}
    (hfail : after (.error .unavailable)) (hnone : after (.ok none))
    (h : ∀ d r old, recheck d r = some old → after ((change d old).map some)) :
    (Proc.update sql select key recheck change write).Ends after := by
  refine statement hfail fun snap cur => ?_
  cases hs : select snap with
  | none => exact hnone
  | some r =>
    cases ho : recheck cur r with
    | none => simpa [ho] using hnone
    | some old => simpa [ho] using h cur r old ho

/-- An `INSERT` answers with the verdict of the constraints. -/
theorem insert {S : Store D W K} {sql : String} {waits : D → List K}
    {check : D → Except DbError Unit} {w : W} {after : Except DbError Unit → Prop}
    (hfail : after (.error .unavailable)) (h : ∀ d, after (check d)) :
    (Proc.insert S sql waits check w).Ends after := statement hfail fun _ cur => h cur

/-- An `INSERT ... ON CONFLICT DO NOTHING` ends with a lost connection or with what its checks and
the conflict come to. -/
theorem insertOrNothing {S : Store D W K} {sql : String} {valid : Except DbError Unit}
    {conflict : D → Bool} {check : D → Except DbError Unit} {w : W}
    {after : Except DbError ℕ → Prop} (hfail : after (.error .unavailable))
    (h : ∀ d, after (valid.bind fun _ => if conflict d then .ok 0 else (check d).map fun _ => 1)) :
    (Proc.insertOrNothing S sql valid conflict check w).Ends after := statement hfail fun _ cur =>
    h cur

/-- A `COMMIT` ends well or with a lost connection. -/
theorem commitNow {after : Except DbError Unit → Prop} (hfail : after (.error .unavailable))
    (h : after (.ok ())) : (Proc.commitNow : Proc D W K _).Ends after := ⟨hfail, h⟩

/-- A statement by itself ends as it does in a transaction. -/
theorem autocommit {p : Proc D W K (Except DbError β)} (hfail : after (.error .unavailable))
    (hp : p.Ends after) : (Proc.autocommit p).Ends after := by
  refine .bind (hp.mono (fun r hr => ?_))
  cases r with
  | ok b => exact ⟨hfail, hr⟩
  | error e => exact hr

end Statements

/-! ## Client functions -/

section Functions

variable {after : Except ε γ → Prop}

/-- An error that is passed on has its new name. -/
theorem orFail {error : DbError → ε} {p : Proc D W K (Except DbError γ)}
    (hp : p.Ends fun r => after (r.mapError error)) :
    (Proc.orFail error p).run.Ends after := .bind hp

/-- A transaction ends as its body does. -/
theorem transaction {body : ExceptT ε (Proc D W K) γ} (hp : body.run.Ends after) :
    (Proc.transaction body).Ends after := .bind hp

/-- After a result comes what follows it, and an error is the end. -/
theorem run_bind {m : ExceptT ε (Proc D W K) β} {f : β → ExceptT ε (Proc D W K) γ}
    (hm : m.run.Ends fun r =>
      match r with
      | .ok b => (f b).run.Ends after
      | .error e => after (.error e)) : (m >>= f).run.Ends after := by
  refine .bind (hm.mono fun r hr => ?_)
  cases r <;> exact hr

/-- A statement of a client function, followed by the rest of it. -/
theorem orFail_bind {error : DbError → ε} {p : Proc D W K (Except DbError β)}
    {f : β → ExceptT ε (Proc D W K) γ} (hp : p.Ends fun r =>
      match r with
      | .ok b => (f b).run.Ends after
      | .error e => after (.error (error e))) : (Proc.orFail error p >>= f).run.Ends after := by
  refine run_bind (orFail (hp.mono fun r hr => ?_))
  cases r <;> exact hr

/-- After a check comes what follows its result, and its error is the end. -/
theorem ensure_bind {r : Except ε β} {f : β → ExceptT ε (Proc D W K) γ}
    (herr : ∀ e, r = .error e → after (.error e)) (hok : ∀ b, r = .ok b → (f b).run.Ends after) :
    (Proc.ensure r >>= f).run.Ends after := by
  cases r with
  | error e => exact herr e rfl
  | ok b => exact hok b rfl

end Functions

/-- What a process answers alone is one of its answers. -/
theorem exec {S : Store D W K} {after : α → Prop} {p : Proc D W K α} (h : p.Ends after) (d : D)
    (ws : List W) : after (p.exec S d ws).result := by
  induction p generalizing d ws with
  | done a => exact h
  | stmt sql effect next failed ihn ihf => exact ihn _ _ (h.2 _ _) _ _
  | commit next failed ihn ihf => exact ihn h.2 _ _
  | rollback next ih => exact ih h _ _

end Proc.Ends

end Postgres
