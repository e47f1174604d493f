import InfernalLaw.Postgres.Obeys

/-!
# Constraints under interference

A constraint is checked when a statement completes, and must hold when its transaction commits, with
what others have committed in between. It does if writes with different keys leave each other's
verdict alone and commute, in what the database amounts to, since a transaction holds the keys of
its writes. `Discipline` states this much of a database, and `Discipline.sound` is the argument:
processes whose writes are permitted one by one keep the invariant together, however they overlap.
-/

namespace Postgres

variable {D W K Op α β A : Type}

/-- What a database amounts to, how writes act on it, and which of them its constraints permit. -/
structure Discipline (S : Store D W K) (A : Type) where
  abs : D → A
  act : A → W → A
  abs_apply : ∀ d w, abs (S.apply d w) = act (abs d) w
  inv : A → Prop
  permits : A → W → Prop
  preserves : ∀ a w, inv a → permits a w → inv (act a w)
  /-- A write is still permitted once another one is there. -/
  permits_act : ∀ a w w', inv a → permits a w → permits a w' →
    (∀ k ∈ S.keys w, k ∉ S.keys w') → permits (act a w') w
  /-- The order of two writes does not matter. -/
  act_comm : ∀ a w w', inv a → permits a w → permits a w' →
    (∀ k ∈ S.keys w, k ∉ S.keys w') → act (act a w) w' = act (act a w') w

namespace Discipline

section Store

variable {S : Store D W K} (L : Discipline S A)

/-- The invariant of a database. -/
def Keeps (d : D) : Prop := L.inv (L.abs d)

/-- The constraints permit the write to a database. -/
def Permits (d : D) (w : W) : Prop := L.permits (L.abs d) w

variable {L} {d d' : D} {u w : W} {us ws : List W}

/-- A permitted write keeps the law. -/
theorem Keeps.apply (hd : L.Keeps d) (hw : L.Permits d w) : L.Keeps (S.apply d w) := by
  unfold Keeps
  rw [L.abs_apply]
  exact L.preserves _ _ hd hw

/-- So does a chain of them. -/
theorem Keeps.view (hd : L.Keeps d) (hws : S.Chain L.Permits d ws) : L.Keeps (S.view d ws) :=
  hws.view (fun _ _ => Keeps.apply) hd

/-- What is permitted depends on what the database amounts to. -/
theorem chain_congr (h : L.abs d = L.abs d') (hws : S.Chain L.Permits d ws) :
    S.Chain L.Permits d' ws := by
  induction ws generalizing d d' with
  | nil => trivial
  | cons w ws ih =>
    refine ⟨?_, ih ?_ hws.2⟩
    · unfold Permits
      rw [← h]
      exact hws.1
    · rw [L.abs_apply, L.abs_apply, h]

/-- Pending writes are still permitted once another transaction has committed a write with keys of
its own. -/
theorem chain_apply (hd : L.Keeps d) (hu : L.Permits d u) (hws : S.Chain L.Permits d ws)
    (hkeys : ∀ w ∈ ws, ∀ k ∈ S.keys w, k ∉ S.keys u) : S.Chain L.Permits (S.apply d u) ws := by
  induction ws generalizing d with
  | nil => trivial
  | cons w ws ih =>
    obtain ⟨hapart, hkeys⟩ := List.forall_mem_cons.mp hkeys
    have hapart' : ∀ k ∈ S.keys u, k ∉ S.keys w := fun k hku hkw => hapart k hkw hku
    obtain ⟨hw, hws⟩ := hws
    constructor
    · unfold Permits
      rw [L.abs_apply]
      exact L.permits_act _ _ _ hd hw hu hapart
    · have hu' : L.Permits (S.apply d w) u := by
        unfold Permits
        rw [L.abs_apply]
        exact L.permits_act _ _ _ hd hu hw hapart'
      refine chain_congr ?_ (ih (hd.apply hw) hu' hws hkeys)
      rw [L.abs_apply, L.abs_apply, L.abs_apply, L.abs_apply]
      exact L.act_comm _ _ _ hd hw hu hapart

/-- Pending writes are still permitted once other transactions have committed writes with keys of
their own. -/
theorem chain_view (hd : L.Keeps d) (hus : S.Chain L.Permits d us) (hws : S.Chain L.Permits d ws)
    (hkeys : ∀ w ∈ ws, ∀ k ∈ S.keys w, ∀ u ∈ us, k ∉ S.keys u) :
    S.Chain L.Permits (S.view d us) ws := by
  induction us generalizing d with
  | nil => exact hws
  | cons u us ih =>
    have hws' := chain_apply hd hus.1 hws fun w hw k hk => hkeys w hw k hk u List.mem_cons_self
    exact ih (hd.apply hus.1) hus.2 hws' fun w hw k hk u hu =>
      hkeys w hw k hk u (List.mem_cons_of_mem _ hu)

end Store

/-! ## Systems -/

variable {sys : System D W K Op α} (L : Discipline sys.toStore A)

/-- The invariant holds, and what is committed is permitted. -/
def contract : Contract sys where
  inv d _ := L.Keeps d
  guar _ d ws _ := sys.Chain L.Permits d ws

variable {L} {op : Op} {d d' : D} {locks : List K} {ws : List W}

/-- Pending writes are still permitted after interference. -/
theorem chain_rely (h : L.contract.Rely locks d d') (hws : sys.Chain L.Permits d ws)
    (hlocks : ∀ w ∈ ws, ∀ k ∈ sys.keys w, k ∈ locks) : sys.Chain L.Permits d' ws := by
  induction h with
  | refl => exact hws
  | tail _ hi ih =>
    obtain ⟨⟨_, hgood⟩, -, op, us, r, hus, hkeys, rfl⟩ := hi
    exact chain_view hgood hus ih fun w hw k hk u hu hku => hkeys u hu k hku (hlocks w hw k hk)

/-- A process whose writes are permitted one by one commits what is permitted. -/
theorem wp_of_obeys {Q : L.contract.Post β}
    (hQ : ∀ b e u locks ws, sys.Chain L.Permits e u → Q b e u locks ws) {p : Proc D W K β}
    (hp : p.Obeys sys.toStore L.Keeps L.Permits) : ∀ {e : D} {u ws : List W} {locks : List K},
      sys.Chain L.Permits e u → sys.Chain L.Permits (sys.view e u) ws →
      (∀ w ∈ ws, ∀ k ∈ sys.keys w, k ∈ locks) → L.contract.wp op p Q e u locks ws := by
  induction p with
  | done b => exact fun hu _ _ => hQ b _ _ _ _ hu
  | stmt sql effect next failed ihn ihf =>
    intro e u ws locks hu hws hlocks
    refine ⟨hu, fun d₁ hr ⟨_, hd₁⟩ => ⟨ihf hp.1 trivial trivial (by simp), ?_⟩⟩
    intro _ d₂ hr' ⟨_, hd₂⟩
    -- The statement sees the pending writes, which are permitted in both databases.
    have hws₁ := chain_rely hr hws hlocks
    have hws₂ := chain_rely hr' hws₁ hlocks
    obtain ⟨heffect, hnext⟩ := hp.2 _ _ (Keeps.view hd₁ hws₁) (Keeps.view hd₂ hws₂)
    refine ihn _ _ hnext trivial (Store.chain_append.mpr ⟨hws₂, heffect⟩) fun w hw k hk => ?_
    rcases List.mem_append.mp hw with hw | hw
    · exact List.mem_append_left _ (hlocks w hw k hk)
    · exact List.mem_append_right _ (sys.mem_held_of_write hw hk)
  | commit next failed ihn ihf =>
    intro e u ws locks hu hws hlocks
    exact ⟨hu, fun d₁ hr _ => ⟨ihf hp.1 trivial trivial (by simp),
      ihn hp.2 (chain_rely hr hws hlocks) trivial (by simp)⟩⟩
  | rollback next ih =>
    intro e u ws locks hu _ _
    exact ih hp hu trivial (by simp)

/-- Operations whose writes are permitted one by one keep the invariant together. -/
theorem sound (hp : ∀ op, (sys.program op).Obeys sys.toStore L.Keeps L.Permits) :
    L.contract.Sound where
  stutter _ _ := trivial
  preserves _ _ _ _ _ _ hinv hguar := Keeps.view hinv hguar
  program op d _ := wp_of_obeys (fun _ _ _ _ _ h => h) (hp op) trivial trivial (by simp)

section Runs

variable [DecidableEq K] (hp : ∀ op, (sys.program op).Obeys sys.toStore L.Keeps L.Permits)
  {d₀ : D} (h₀ : L.Keeps d₀) {s s' : State D W K Op α}

include hp h₀

/-- The invariant holds in every reachable state. -/
theorem keeps_of_reaches (hs : sys.Reaches d₀ s) : L.Keeps s.db :=
  ((sound hp).holds (fun _ _ _ => trivial) h₀ hs).inv

/-- Every event commits writes that the constraints permit. -/
theorem permits_of_step (hs : sys.Reaches d₀ s) {ev : Event Op} (hstep : sys.step s ev = some s') :
    ∃ ws, sys.Chain L.Permits s.db ws ∧ s'.db = sys.view s.db ws := by
  obtain ⟨-, op, ws, r, -, hguar, hdb, -⟩ := (sound hp).event (fun _ _ _ => trivial) h₀ hs hstep
  exact ⟨ws, hguar, hdb⟩

/-- What permitted writes lead from one database to the next holds between the states of a run. -/
theorem later (R : D → D → Prop) (hrefl : ∀ d, R d d)
    (hR : ∀ d d' w, L.Keeps d' → R d d' → L.Permits d' w → R d (sys.apply d' w))
    (hs : sys.Reaches d₀ s) (hl : sys.Later s s') : R s.db s'.db := by
  induction hl with
  | refl => exact hrefl _
  | @tail t t' hl hstep ih =>
    obtain ⟨ev, hstep⟩ := hstep
    obtain ⟨ws, hws, hdb⟩ := permits_of_step hp h₀ (hs.later hl) hstep
    rw [hdb]
    have hview : L.Keeps (sys.view t.db ws) ∧ R s.db (sys.view t.db ws) :=
      hws.view (I := fun d => L.Keeps d ∧ R s.db d)
        (fun d w h hw => ⟨h.1.apply hw, hR _ _ _ h.1 h.2 hw⟩)
        ⟨keeps_of_reaches hp h₀ (hs.later hl), ih⟩
    exact hview.2

end Runs

end Discipline

/-! ## Two contracts at once -/

namespace Contract

variable {sys : System D W K Op α} {C C₁ C₂ : Contract sys} {op : Op} {d d' : D} {locks : List K}

/-- The contract asks for what two others ask for, and promises what they rest on. -/
structure Joins (C C₁ C₂ : Contract sys) : Prop where
  good : ∀ d, C.Good d → C₁.Good d ∧ C₂.Good d
  guar : ∀ op d ws r, C.guar op d ws r ↔ C₁.guar op d ws r ∧ C₂.guar op d ws r
  assume : ∀ op sql d, C.assume op sql d → C₁.assume op sql d ∧ C₂.assume op sql d

/-- There is less interference than under either contract. -/
theorem Joins.rely (h : C.Joins C₁ C₂) (hr : C.Rely locks d d') :
    C₁.Rely locks d d' ∧ C₂.Rely locks d d' := by
  induction hr with
  | refl => exact ⟨.refl, .refl⟩
  | tail _ hi ih =>
    obtain ⟨hgood, hgood', op, ws, r, hguar, hkeys, hd⟩ := hi
    obtain ⟨hguar₁, hguar₂⟩ := (h.guar op _ ws r).mp hguar
    exact ⟨ih.1.tail ⟨(h.good _ hgood).1, (h.good _ hgood').1, op, ws, r, hguar₁, hkeys, hd⟩,
      ih.2.tail ⟨(h.good _ hgood).2, (h.good _ hgood').2, op, ws, r, hguar₂, hkeys, hd⟩⟩

end Contract

end Postgres
