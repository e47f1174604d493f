import InfernalLaw.Postgres.Interference

/-!
# Runs with their history

What a run may do next can depend on what it has passed. `Recalls` is a run together with the
moments that it has passed, in order, and a condition on its events is told those before the event.
A contract for such a run may assume of a snapshot that the condition was met when it was taken.
-/

namespace Postgres

variable {D W K Op α : Type} [DecidableEq K]

/-- A moment of a run: the state, and the event that happens in it. -/
abbrev Moment (D W K Op α : Type) : Type := State D W K Op α × Event Op

namespace System

variable (sys : System D W K Op α)

/-- A run from the database `d` whose events all meet `P`, with the moments of its events. -/
inductive Recalls (P : List (Moment D W K Op α) → Moment D W K Op α → Prop) (d : D) :
    List (Moment D W K Op α) → State D W K Op α → Prop where
  | init : Recalls P d [] { db := d }
  | step {past : List (Moment D W K Op α)} {s s' : State D W K Op α} (ev : Event Op) :
      Recalls P d past s → P past (s, ev) → sys.step s ev = some s' →
        Recalls P d (past ++ [(s, ev)]) s'

variable {sys} {P : List (Moment D W K Op α) → Moment D W K Op α → Prop} {d : D}
  {past : List (Moment D W K Op α)} {s : State D W K Op α}

/-- In a run with the history `all` every event is about a beginning of it. -/
theorem Recalls.reachesBy (h : sys.Recalls P d past s) {all : List (Moment D W K Op α)}
    (hall : past <+: all) :
    sys.ReachesBy (fun s₁ ev => ∃ before, before ++ [(s₁, ev)] <+: all ∧
      P before (s₁, ev)) d s := by
  induction h with
  | init => exact .init
  | @step past s s' ev _ hp hstep ih =>
    have hpast : past <+: all := (List.prefix_append past [(s, ev)]).trans hall
    exact .step ev (ih hpast) ⟨past, hall, hp⟩ hstep

/-- A run through databases that satisfy `J`, where that is enough for the condition. -/
theorem ReachesBy.recalls {J : D → Prop}
    (hP : ∀ past m, (∀ m' ∈ past, J m'.1.db) → J m.1.db → P past m)
    (h : sys.ReachesBy (fun s _ => J s.db) d s) :
    ∃ past, (∀ m ∈ past, J m.1.db) ∧ sys.Recalls P d past s := by
  induction h with
  | init => exact ⟨[], fun _ h => absurd h List.not_mem_nil, .init⟩
  | @step s _ ev _ hJ hstep ih =>
    obtain ⟨past, hpast, hrecalls⟩ := ih
    refine ⟨_, fun m hm => ?_, hrecalls.step ev (hP _ (s, ev) hpast hJ) hstep⟩
    rcases List.mem_append.mp hm with hm | hm
    · exact hpast m hm
    · exact List.mem_singleton.mp hm ▸ hJ

end System

/-- The invariant rule for a run with its history. -/
theorem Contract.Sound.recalls {sys : System D W K Op α} {C : Contract sys} (hS : C.Sound)
    {P : List (Moment D W K Op α) → Moment D W K Op α → Prop} {d : D}
    {past : List (Moment D W K Op α)} {s : State D W K Op α}
    (hP : ∀ before s₁ ev, before ++ [(s₁, ev)] <+: past → P before (s₁, ev) → C.Meets s₁ ev)
    (h₀ : C.inv d []) (hs : sys.Recalls P d past s) : C.Holds s :=
  hS.reaches (fun s₁ ev ⟨before, hbefore, hp⟩ => hP before s₁ ev hbefore hp) h₀
    (hs.reachesBy (List.prefix_refl past))

end Postgres
