import InfernalLaw.Infrastructure.Background
import InfernalLaw.Http.NameChecks
import InfernalLaw.Infrastructure.RequestRepository
import InfernalLaw.Tenure.FirstWins

/-!
# Request acceptance in every run

Any number of calls of `accept`, run concurrently with each other and with anything that leaves
`accepted_requests` and its audit alone. The calls that commit are, in the order of their commits, a
history in which the first call under a source's name for a request stores it, and decides about all
the others. The tables are a function of that history, and so is what the next call is answered, if
the server does not fail it.
-/

namespace InfernalLaw.Requests

open Postgres (Contract DbError Entry Event State Store)
open Tenure (FirstWins Ruling judge)

/-! ## The operations -/

/-- The tables of the acceptance. -/
def tables : List TableName := [.acceptedRequests, .acceptanceAudit]

/-- What runs. A call carries the time at which its transaction begins. -/
inductive Op where
  | accept (request : Request) (fingerprint : RequestFingerprint) (now : ℤ)
  /-- Another component's transaction. -/
  | other (writes : List Write) (h : ∀ w ∈ writes, w.table ∉ tables)

/-- What an operation answers; another component's transaction answers nothing. -/
abbrev Result : Type := Option (Except RequestError RequestAcceptance)

/-- What the operations do. -/
def program : Op → Sql Result
  | .accept request fingerprint now =>
    (PostgresRequestRepository.accept request fingerprint now).bind fun a => .done (some a)
  | .other writes _ => (background writes).bind fun _ => .done none

/-- The sessions of the kernels that share the database. -/
abbrev system : Postgres.System Db Write Key Op Result := kernelSystem program

/-! ## The history of the calls -/

/-- The outcome that the audit records for an answer. Other errors are not committed. -/
def outcome? : Except RequestError RequestAcceptance → Option AcceptanceOutcome
  | .ok (.accepted _) => some .accepted
  | .ok (.safeRetry _) => some .safeRetry
  | .error (.requestIdConflict _) => some .requestConflictRejected
  | .error _ => none

/-- A call that was committed. -/
structure Call where
  id : ℕ
  request : Request
  fingerprint : RequestFingerprint
  now : ℤ
  outcome : AcceptanceOutcome
  answer : Except RequestError RequestAcceptance

/-- The call of an entry in the log. -/
def call? (e : Entry Op Result) : Option Call :=
  match e.op, e.result with
  | .accept request fingerprint now, some answer =>
    (outcome? answer).map fun o => ⟨e.id, request, fingerprint, now, o, answer⟩
  | _, _ => none

/-- A call has the identifier of its entry. -/
theorem call?_id {e : Entry Op Result} {c : Call} (h : call? e = some c) : c.id = e.id := by
  unfold call? at h
  split at h
  · obtain ⟨o, -, rfl⟩ := Option.map_eq_some_iff.mp h
    rfl
  · cases h

/-- The calls of a log that were committed, in the order of their commits. -/
def calls (log : List (Entry Op Result)) : List Call := log.filterMap call?

namespace Call

/-- The source's name for the request. -/
def key (c : Call) : ActorId × RequestId := c.request.key

/-- Two calls submit the same request with the same fingerprint. -/
def sameContent (c c' : Call) : Bool := c.request = c'.request ∧ c.fingerprint = c'.fingerprint

/-- What became of the call. -/
def ruling (c : Call) : Ruling :=
  match c.outcome with
  | .accepted => .first
  | .safeRetry => .repeated
  | .requestConflictRejected => .refused

/-- A call is the first exactly when it is accepted. -/
theorem ruling_eq_first {c : Call} : c.ruling = .first ↔ c.outcome = .accepted := by
  cases h : c.outcome <;> simp [ruling, h]

/-- The row that the call stores if it is accepted. -/
def row (c : Call) : AcceptedRequestRow := c.request.row c.fingerprint c.now

/-- The call's answer fits its outcome, when the table is `rows`. -/
def Answered (rows : List AcceptedRequestRow) (c : Call) : Prop :=
  match c.outcome with
  | .accepted => ∃ stored : AcceptedRequest, stored.row = c.row ∧ c.answer = .ok (.accepted stored)
  | .safeRetry => ∃ stored : AcceptedRequest, stored.row ∈ rows ∧ stored.request = c.request ∧
      c.answer = .ok (.safeRetry stored)
  | .requestConflictRejected => c.answer = .error (.requestIdConflict c.request.id)

/-- An answer still fits when the table has grown. -/
theorem Answered.mono {rows rows' : List AcceptedRequestRow} {c : Call} (h : c.Answered rows)
    (hsub : ∀ r ∈ rows, r ∈ rows') : c.Answered rows' := by
  unfold Answered at h ⊢
  split at h
  · exact h
  · obtain ⟨stored, hmem, h⟩ := h
    exact ⟨stored, hsub _ hmem, h⟩
  · exact h

end Call

/-- The calls that stored their requests. -/
def inserting (l : List Call) : List Call := l.filter fun c => c.outcome = .accepted

/-- The inserting calls are those that are accepted. -/
theorem mem_inserting {l : List Call} {c : Call} :
    c ∈ inserting l ↔ c ∈ l ∧ c.outcome = .accepted := by
  simp [inserting]

/-! ## The invariant -/

/-- The committed calls are a history, and the tables are what they have written. -/
structure Inv (d : Db) (l : List Call) : Prop where
  rows : d.acceptedRequests = (inserting l).map Call.row
  audit : d.acceptanceAudit = l.map fun c => c.request.auditRow c.fingerprint c.outcome
  history : FirstWins Call.key Call.sameContent Call.ruling l
  answers : ∀ c ∈ l, c.Answered d.acceptedRequests

namespace Inv

variable {d : Db} {l : List Call} {c : Call}

/-- One more committed call, with the ruling that its name calls for. -/
theorem snoc (h : Inv d l) (hruling : c.ruling = judge Call.key Call.sameContent l c)
    {ws : List Write}
      (hws : ws = (if c.outcome = .accepted then [.acceptedRequests c.row] else []) ++
      [.acceptanceAudit (c.request.auditRow c.fingerprint c.outcome)])
    (hanswer : c.Answered (d.acceptedRequests ++ if c.outcome = .accepted then [c.row] else [])) :
    Inv (store.view d ws) (l ++ [c]) := by
  have hins : inserting (l ++ [c]) = inserting l ++ if c.outcome = .accepted then [c] else [] := by
    by_cases hc : c.outcome = .accepted <;> simp [inserting, hc]
  have hwrites : (store.view d ws).acceptedRequests = d.acceptedRequests ++
        (if c.outcome = .accepted then [c.row] else []) ∧
      (store.view d ws).acceptanceAudit = d.acceptanceAudit ++
        [c.request.auditRow c.fingerprint c.outcome] := by
    subst hws
    by_cases hc : c.outcome = .accepted <;> simp [hc, Db.apply]
  refine ⟨?_, ?_, h.history.snoc hruling, ?_⟩
  · rw [hwrites.1, hins, h.rows]
    split <;> simp
  · rw [hwrites.2, h.audit]
    simp
  · rw [hwrites.1]
    intro c' hc'
    rcases List.mem_append.mp hc' with hc' | hc'
    · exact (h.answers c' hc').mono fun r hr => List.mem_append_left _ hr
    · rw [List.mem_singleton.mp hc']
      exact hanswer

/-- The row of a name is the row of the call that stored it. -/
theorem exists_inserting (h : Inv d l) {stored : AcceptedRequest}
    (hmem : stored.row ∈ d.acceptedRequests) : ∃ c ∈ l, c.outcome = .accepted ∧
      c.request = stored.request ∧ c.fingerprint = stored.fingerprint ∧ c.row = stored.row := by
  rw [h.rows] at hmem
  obtain ⟨c, hc, hrow⟩ := List.mem_map.mp hmem
  obtain ⟨hc, haccepted⟩ := mem_inserting.mp hc
  -- The call's answer carries the record that its row reads as.
  have hanswer := h.answers c hc
  simp only [Call.Answered, haccepted] at hanswer
  obtain ⟨stored', hrow', -⟩ := hanswer
  obtain rfl := AcceptedRequest.row_injective (hrow'.trans hrow)
  obtain ⟨hrequest, hfingerprint⟩ := Request.row_injective hrow
  exact ⟨c, hc, haccepted, hrequest, hfingerprint, hrow⟩

/-- What `accept` commits is one more call of the history. -/
theorem accepts (h : Inv d l) (id : ℕ) {request : Request} {fingerprint : RequestFingerprint}
    {now : ℤ} {answer : Except RequestError RequestAcceptance} {ws : List Write}
    (ha : Accepts request fingerprint now d answer ws) : ∃ o, outcome? answer = some o ∧
      Inv (store.view d ws) (l ++ [⟨id, request, fingerprint, now, o, answer⟩]) := by
  cases ha with
  | @accepted stored hfree _ hstored =>
    let c : Call := ⟨id, request, fingerprint, now, .accepted, .ok (.accepted stored)⟩
    have hruling : c.ruling = judge Call.key Call.sameContent l c := by
      refine (Tenure.judge_eq_first.mpr fun c₀ hc₀ hkey => ?_).symm
      obtain ⟨c₁, hc₁, hfirst, hkey'⟩ := h.history.exists_first hc₀
      refine hfree c₁.row ?_ (hkey'.trans hkey)
      rw [h.rows]
      exact List.mem_map_of_mem (mem_inserting.mpr ⟨hc₁, Call.ruling_eq_first.mp hfirst⟩)
    exact ⟨.accepted, rfl, h.snoc hruling (by rw [hstored]; rfl) ⟨stored, hstored, rfl⟩⟩
  | @conflict stored hmem hkey hne =>
    obtain ⟨c₀, hc₀, haccepted, hrequest, hfingerprint, -⟩ := h.exists_inserting hmem
    let c : Call := ⟨id, request, fingerprint, now, .requestConflictRejected,
      .error (.requestIdConflict request.id)⟩
    have hruling : c.ruling = judge Call.key Call.sameContent l c := by
      have hkey' : c₀.key = c.key := (congrArg Request.key hrequest).trans hkey
      rw [h.history.judge_eq hc₀ (Call.ruling_eq_first.mpr haccepted) hkey', if_neg]
      · rfl
      · simpa [Call.sameContent, hrequest, hfingerprint, imp_iff_not_or] using hne
    exact ⟨.requestConflictRejected, rfl, h.snoc hruling rfl rfl⟩
  | @safeRetry stored hmem hrequest' hfingerprint' =>
    obtain ⟨c₀, hc₀, haccepted, hrequest, hfingerprint, -⟩ := h.exists_inserting hmem
    let c : Call := ⟨id, request, fingerprint, now, .safeRetry, .ok (.safeRetry stored)⟩
    have hruling : c.ruling = judge Call.key Call.sameContent l c := by
      have hkey' : c₀.key = c.key := congrArg Request.key (hrequest.trans hrequest')
      rw [h.history.judge_eq hc₀ (Call.ruling_eq_first.mpr haccepted) hkey', if_pos]
      · rfl
      · simp [Call.sameContent, hrequest, hfingerprint, hrequest', hfingerprint', c]
    exact ⟨.safeRetry, rfl, h.snoc hruling rfl ⟨stored, by simpa using hmem, hrequest', rfl⟩⟩

end Inv

/-! ## The contract -/

/-- A call that commits nothing has met a failure of the server, or is one that is refused. -/
def Excused (d : Db) (op : Op) (a : Result) : Prop :=
  ∀ request fingerprint now, op = .accept request fingerprint now → ∃ e, a = some (.error e) ∧
    (e = .ofDatabase .unavailable ∨ Refuses request fingerprint now d e)

/-- An event leaves the tables alone and ends no call that commits, or commits a call. -/
def contract : Contract system where
  inv d log := Inv d (calls log)
  guar op d ws r :=
    ((∀ w ∈ ws, w.table ∉ tables) ∧
      ∀ a, r = some a → (∀ id, call? ⟨id, op, a⟩ = none) ∧ Excused d op a) ∨
    ∃ request fingerprint now answer, op = .accept request fingerprint now ∧
      r = some (some answer) ∧ Accepts request fingerprint now d answer ws

/-- Writes to other tables keep the history. -/
theorem Inv.other {d : Db} {l : List Call} (h : Inv d l) {ws : List Write}
    (hws : ∀ w ∈ ws, w.table ∉ tables) : Inv (store.view d ws) l := by
  have htables : ∀ w ∈ ws, w.table ≠ .acceptedRequests ∧ w.table ≠ .acceptanceAudit :=
    fun w hw => by simpa [tables] using hws w hw
  have hrows : (store.view d ws).acceptedRequests = d.acceptedRequests := by
    refine appendOnly_acceptedRequests.view_other ?_
    rintro w hw row rfl
    exact (htables _ hw).1 rfl
  have haudit : (store.view d ws).acceptanceAudit = d.acceptanceAudit := by
    refine appendOnly_acceptanceAudit.view_other ?_
    rintro w hw row rfl
    exact (htables _ hw).2 rfl
  exact ⟨hrows.trans h.rows, haudit.trans h.audit, h.history, hrows ▸ h.answers⟩

/-- Every operation keeps to the contract. -/
theorem contract_sound : contract.Sound where
  stutter op d := .inl (by simp)
  preserves id op d log ws r hinv hguar := by
    rcases hguar with ⟨hws, hnone⟩ | ⟨request, fingerprint, now, answer, rfl, rfl, ha⟩
    · have hlog : calls (log ++ (r.map fun a => ⟨id, op, a⟩).toList) = calls log := by
        cases r with
        | none => simp
        | some a => simp [calls, (hnone a rfl).1]
      exact (congrArg (Inv _) hlog).mpr (hinv.other hws)
    · obtain ⟨o, ho, hinv'⟩ := hinv.accepts id ha
      have hlog : calls (log ++ [⟨id, .accept request fingerprint now, some answer⟩]) =
          calls log ++ [⟨id, request, fingerprint, now, o, answer⟩] := by
        simp [calls, call?, ho]
      exact (congrArg (Inv _) hlog).mpr hinv'
  program op e hgood := by
    have hquiet : ∀ op d, contract.guar op d [] none := fun _ _ => .inl (by simp)
    cases op with
    | accept request fingerprint now =>
      -- An error of the server, or one with which the call is refused.
      have hexcused : ∀ d e, (∀ id, e ≠ .requestIdConflict id) →
          (e = .ofDatabase .unavailable ∨ Refuses request fingerprint now d e) →
          contract.guar (.accept request fingerprint now) d [] (some (some (.error e))) := by
        intro d e hne he
        refine .inl ⟨by simp, fun a ha => ?_⟩
        obtain rfl := Option.some.inj ha
        refine ⟨fun id => ?_, fun request' fingerprint' now' hop => ⟨e, rfl, ?_⟩⟩
        · cases e <;> simp_all [call?, outcome?]
        · obtain ⟨rfl, rfl, rfl⟩ := Op.accept.inj hop
          exact he
      refine Contract.wp_bind.mpr (PostgresRequestRepository.wp_accept (hquiet _)
        (fun d _ => hexcused d _ (fun id => by simp [RequestError.ofDatabase]) (.inl rfl))
        (fun d e _ he => hexcused d e he.ne_requestIdConflict (.inr he)) ?_)
      exact fun d answer ws _ ha => .inr ⟨request, fingerprint, now, answer, rfl, rfl, ha⟩
    | other writes hwrites =>
      refine Contract.wp_bind.mpr (wp_background (hquiet _) (fun d _ => ?_) fun d _ => ?_)
      · exact .inl (by simp [call?, Excused])
      · exact .inl ⟨hwrites, by simp [call?, Excused]⟩

/-! ## What holds in every run -/

/-- The calls converge: one of them stores the request of a name, and the others find it. -/
structure Convergence (d : Db) (l : List Call) : Prop where
  one_row : (d.acceptedRequests.map AcceptedRequestRow.key).Nodup
  rows : d.acceptedRequests = (inserting l).map Call.row
  /-- The first call under a name is the one that is accepted. -/
  accepted_iff : ∀ past c rest, l = past ++ c :: rest →
    (c.outcome = .accepted ↔ ∀ c' ∈ past, c'.key ≠ c.key)
  /-- The accepted call answers the request that was submitted, as it is stored and read back. -/
  accepted : ∀ c ∈ l, c.outcome = .accepted → ∃ stored : AcceptedRequest,
    c.answer = .ok (.accepted stored) ∧ stored.request = c.request ∧
    stored.fingerprint = c.fingerprint ∧ c.row ∈ d.acceptedRequests ∧
    acceptedRequestFromRow c.row = .ok stored
  /-- An equal call answers the same record. -/
  safeRetry : ∀ c ∈ l, ∀ c' ∈ l, c'.key = c.key → c.outcome = .accepted → c' ≠ c →
    c'.request = c.request → c'.fingerprint = c.fingerprint → ∃ stored,
      c.answer = .ok (.accepted stored) ∧ c'.answer = .ok (.safeRetry stored)
  /-- A call with other content is refused. -/
  conflict : ∀ c ∈ l, ∀ c' ∈ l, c'.key = c.key → c.outcome = .accepted →
    (c'.request ≠ c.request ∨ c'.fingerprint ≠ c.fingerprint) →
      c'.answer = .error (.requestIdConflict c'.request.id)
  audit : d.acceptanceAudit = l.map fun c => c.request.auditRow c.fingerprint c.outcome

namespace Inv

variable {d : Db} {l : List Call} {c c' : Call}

/-- Two accepted calls under one name are the same call. -/
theorem accepted_once (h : Inv d l) (hc : c ∈ l) (hc' : c' ∈ l) (ha : c.outcome = .accepted)
    (ha' : c'.outcome = .accepted) (hkey : c.key = c'.key) : c = c' :=
  h.history.unique hc hc' (Call.ruling_eq_first.mpr ha) (Call.ruling_eq_first.mpr ha') hkey

/-- What the accepted call of a name decides about the others. -/
theorem outcome_eq (h : Inv d l) (hc : c ∈ l) (hc' : c' ∈ l) (ha : c.outcome = .accepted)
    (hkey : c'.key = c.key) : c' = c ∨
      c'.outcome = if c.request = c'.request ∧ c.fingerprint = c'.fingerprint then .safeRetry
        else .requestConflictRejected := by
  refine (h.history.eq_or_ruling_eq hc hc' (Call.ruling_eq_first.mpr ha) hkey.symm).imp_right ?_
  intro hruling
  by_cases hsame : c.request = c'.request ∧ c.fingerprint = c'.fingerprint <;>
    cases ho : c'.outcome <;> simp_all [Call.ruling, Call.sameContent]

/-- The invariant gives the convergence of the calls. -/
theorem convergence (h : Inv d l) : Convergence d l where
  one_row := by
    have hholders : inserting l = l.filter fun c => c.ruling = .first :=
      List.filter_congr fun c _ => by simp [Call.ruling_eq_first]
    rw [h.rows, List.map_map, hholders]
    exact h.history.nodup_first
  rows := h.rows
  accepted_iff past c rest hl := by
    rw [← Call.ruling_eq_first, h.history past c rest hl, Tenure.judge_eq_first]
  accepted c hc ha := by
    have hanswer := h.answers c hc
    simp only [Call.Answered, ha] at hanswer
    obtain ⟨stored, hrow, hanswer⟩ := hanswer
    obtain ⟨hrequest, hfingerprint⟩ := Request.row_injective hrow
    refine ⟨stored, hanswer, hrequest, hfingerprint, ?_, acceptedRequestFromRow_eq_ok.mpr hrow.symm⟩
    rw [h.rows]
    exact List.mem_map_of_mem (mem_inserting.mpr ⟨hc, ha⟩)
  safeRetry c hc c' hc' hkey ha hne hrequest hfingerprint := by
    rcases h.outcome_eq hc hc' ha hkey with heq | ho
    · exact absurd heq hne
    rw [if_pos ⟨hrequest.symm, hfingerprint.symm⟩] at ho
    have hanswer := h.answers c' hc'
    simp only [Call.Answered, ho] at hanswer
    obtain ⟨stored, hmem, hstored, hanswer'⟩ := hanswer
    -- The stored row is the accepted call's.
    obtain ⟨c₀, hc₀, ha₀, hrequest₀, -, hrow₀⟩ := h.exists_inserting hmem
    obtain rfl := h.accepted_once hc₀ hc ha₀ ha
      (congrArg Request.key (hrequest₀.trans (hstored.trans hrequest)))
    have hanswer := h.answers c₀ hc
    simp only [Call.Answered, ha] at hanswer
    obtain ⟨stored', hrow', hanswer⟩ := hanswer
    obtain rfl := AcceptedRequest.row_injective (hrow'.trans hrow₀)
    exact ⟨stored', hanswer, hanswer'⟩
  conflict c hc c' hc' hkey ha hne := by
    rcases h.outcome_eq hc hc' ha hkey with rfl | ho
    · simp at hne
    rw [if_neg (by rw [eq_comm, eq_comm (a := c.fingerprint), not_and_or]; exact hne)] at ho
    have hanswer := h.answers c' hc'
    simpa only [Call.Answered, ho] using hanswer
  audit := h.audit

end Inv

/-! ## The answers -/

/-- What a call must be answered, at the database `d` and after the calls `l`. -/
structure Answers (d : Db) (l : List Call) (request : Request) (fingerprint : RequestFingerprint)
    (now : ℤ) (answer : Except RequestError RequestAcceptance) : Prop where
  /-- Under a name that has been taken with this content: the record of the accepted call. -/
  safeRetry : ∀ c ∈ l, c.outcome = .accepted → c.request = request → c.fingerprint = fingerprint →
    ∃ stored, c.answer = .ok (.accepted stored) ∧ answer = .ok (.safeRetry stored)
  /-- Under a name that has been taken with other content: a conflict. -/
  conflict : ∀ c ∈ l, c.outcome = .accepted → c.key = request.key →
    (c.request ≠ request ∨ c.fingerprint ≠ fingerprint) →
      answer = .error (.requestIdConflict request.id)
  /-- Under a new name: the request is stored. -/
  accepted : (∀ c ∈ l, c.key ≠ request.key) → d.Resolves request → ∃ stored : AcceptedRequest,
    stored.row = request.row fingerprint now ∧ answer = .ok (.accepted stored)
  /-- Unless its source or its schema versions are not there. -/
  unknown : (∀ c ∈ l, c.key ≠ request.key) → ¬ d.Resolves request →
    answer = .error (if request.sourceService ∈ d.identities then .unknownSchemaVersion
      else .unknownSource request.sourceService)

/-- PostgreSQL takes the row of a request whose scope it can store. -/
theorem check_row {request : Request} (hscope : '\x00' ∉ request.scope.text)
    (fingerprint : RequestFingerprint) (now : ℤ) :
    (request.row fingerprint now).check = .ok () := by
  have haction : checkDottedName 3 2 request.action.text :=
    checkPattern_dotted.mp (dottedName_iff_checkPattern.mp
      (isValidDottedName_iff.mp request.action.valid))
  unfold AcceptedRequestRow.check
  refine Postgres.check_bind_eq_ok.mpr ⟨checkText_eq_ok.mpr hscope, ?_⟩
  exact Postgres.require_bind_eq_ok.mpr ⟨haction, Postgres.require_eq_ok.mpr request.scope.check⟩

namespace Inv

variable {d : Db} {l : List Call} {request : Request} {fingerprint : RequestFingerprint} {now : ℤ}

/-- A name is taken when a call under it was accepted. -/
theorem unaccepted_iff (h : Inv d l) :
    d.Unaccepted request ↔ ∀ c ∈ l, c.key ≠ request.key := by
  constructor
  · intro hfree c hc hkey
    obtain ⟨c₀, hc₀, hfirst, hkey₀⟩ := h.history.exists_first hc
    refine hfree c₀.row ?_ (hkey₀.trans hkey)
    rw [h.rows]
    exact List.mem_map_of_mem (mem_inserting.mpr ⟨hc₀, Call.ruling_eq_first.mp hfirst⟩)
  · intro hnone row hrow hkey
    rw [h.rows] at hrow
    obtain ⟨c, hc, rfl⟩ := List.mem_map.mp hrow
    exact hnone c (mem_inserting.mp hc).1 hkey

/-- Every row that is stored can be read. -/
theorem exists_stored (h : Inv d l) {row : AcceptedRequestRow} (hrow : row ∈ d.acceptedRequests) :
    ∃ stored : AcceptedRequest, stored.row = row := by
  rw [h.rows] at hrow
  obtain ⟨c, hc, rfl⟩ := List.mem_map.mp hrow
  obtain ⟨hc, haccepted⟩ := mem_inserting.mp hc
  have hanswer := h.answers c hc
  simp only [Call.Answered, haccepted] at hanswer
  exact hanswer.imp fun _ h => h.1

/-- What finds the tables of a history is answered as the history says. -/
theorem answers_of_accepts (h : Inv d l) {answer : Except RequestError RequestAcceptance}
    {ws : List Write} (ha : Accepts request fingerprint now d answer ws) :
    Answers d l request fingerprint now answer := by
  cases ha with
  | @accepted stored hfree hresolves hstored =>
    have hnone := h.unaccepted_iff.mp hfree
    refine ⟨fun c hc _ hrequest => ?_, fun c hc _ hkey => absurd hkey (hnone c hc),
      fun _ _ => ⟨stored, hstored, rfl⟩, fun _ hnot => absurd hresolves hnot⟩
    exact absurd (congrArg Request.key hrequest) (hnone c hc)
  | @conflict stored hmem hkey hne =>
    obtain ⟨c₀, hc₀, haccepted, hrequest, hfingerprint, -⟩ := h.exists_inserting hmem
    have hkey₀ : c₀.key = request.key := (congrArg Request.key hrequest).trans hkey
    refine ⟨fun c hc haccepted' hrequest' hfingerprint' => ?_, fun _ _ _ _ _ => rfl,
      fun hnone => absurd hkey₀ (hnone c₀ hc₀), fun hnone => absurd hkey₀ (hnone c₀ hc₀)⟩
    obtain rfl := h.accepted_once hc hc₀ haccepted' haccepted
      ((congrArg Request.key hrequest').trans hkey₀.symm)
    rw [← hrequest, ← hfingerprint] at hne
    exact absurd hne (by simp [hrequest', hfingerprint'])
  | @safeRetry stored hmem hrequest hfingerprint =>
    obtain ⟨c₀, hc₀, haccepted, hrequest₀, hfingerprint₀, hrow₀⟩ := h.exists_inserting hmem
    have hkey₀ : c₀.key = request.key := congrArg Request.key (hrequest₀.trans hrequest)
    refine ⟨fun c hc haccepted' hrequest' _ => ?_, fun c hc haccepted' hkey hne => ?_,
      fun hnone => absurd hkey₀ (hnone c₀ hc₀), fun hnone => absurd hkey₀ (hnone c₀ hc₀)⟩
    · obtain rfl := h.accepted_once hc hc₀ haccepted' haccepted
        ((congrArg Request.key hrequest').trans hkey₀.symm)
      have hanswer := h.answers c hc
      simp only [Call.Answered, haccepted] at hanswer
      obtain ⟨stored', hrow', hanswer⟩ := hanswer
      obtain rfl := AcceptedRequest.row_injective (hrow'.trans hrow₀)
      exact ⟨stored', hanswer, rfl⟩
    · obtain rfl := h.accepted_once hc hc₀ haccepted' haccepted (hkey.trans hkey₀.symm)
      rw [hrequest₀, hfingerprint₀] at hne
      exact absurd hne (by simp [hrequest, hfingerprint])

/-- A call that is refused in time, and whose scope can be stored, misses its source or its schema
versions. -/
theorem answers_of_refuses (h : Inv d l) (hscope : '\x00' ∉ request.scope.text) (hnow : 0 ≤ now)
    {e : RequestError} (he : Refuses request fingerprint now d e) :
    Answers d l request fingerprint now (.error e) := by
  cases he with
  | invalid hcheck =>
    rw [check_row hscope] at hcheck
    cases hcheck
  | @unresolved e hfree hnot he =>
    have hnone := h.unaccepted_iff.mp hfree
    refine ⟨fun c hc _ hrequest => ?_, fun c hc _ hkey => absurd hkey (hnone c hc),
      fun _ hresolves => absurd hresolves hnot, fun _ _ => congrArg _ he⟩
    exact absurd (congrArg Request.key hrequest) (hnone c hc)
  | untimely hpast => exact absurd hpast (not_lt.mpr hnow)
  | unreadable hmem _ hnot =>
    obtain ⟨stored, hstored⟩ := h.exists_stored hmem
    exact absurd hstored (hnot stored)

end Inv

/-- The invariant holds in every run from empty tables. -/
theorem holds {d₀ : Db} (hr : d₀.acceptedRequests = []) (ha : d₀.acceptanceAudit = [])
    {s : State Db Write Key Op Result} (hs : system.Reaches d₀ s) : contract.Holds s := by
  refine contract_sound.reaches (fun _ _ _ => ?_) ⟨hr, ha, .nil, by simp [calls]⟩ hs
  exact fun _ _ _ _ _ _ _ _ => trivial

/-- A stored request stays, and it is the only one under its name. -/
theorem later_row {d₀ : Db} (hr : d₀.acceptedRequests = []) (ha : d₀.acceptanceAudit = [])
    {s s' : State Db Write Key Op Result} (hs : system.Reaches d₀ s) (hl : system.Later s s')
    {row : AcceptedRequestRow} (hrow : row ∈ s.db.acceptedRequests) :
    row ∈ s'.db.acceptedRequests ∧
      ∀ row' ∈ s'.db.acceptedRequests, row'.key = row.key → row' = row := by
  have hinv := (holds hr ha hs).inv
  have hinv' := (holds hr ha (hs.later hl)).inv
  obtain ⟨rest, hlog⟩ := hl.log_extends
  have hmem : row ∈ s'.db.acceptedRequests := by
    rw [hinv'.rows, ← hlog, calls, List.filterMap_append, inserting, List.filter_append,
      List.map_append]
    exact List.mem_append_left _ (hinv.rows ▸ hrow)
  exact ⟨hmem, fun row' hrow' hkey =>
    List.inj_on_of_nodup_map hinv'.convergence.one_row hrow' hmem hkey⟩

/-- A call that the server does not fail, and whose scope can be stored, is answered as the calls
before it say. -/
theorem returned_answers {d₀ : Db} (hr : d₀.acceptedRequests = []) (ha : d₀.acceptanceAudit = [])
    {s s' : State Db Write Key Op Result} {id : ℕ} {request : Request}
    {fingerprint : RequestFingerprint} {now : ℤ} {answer : Except RequestError RequestAcceptance}
    (h : system.Returns d₀ s s' ⟨id, .accept request fingerprint now, some answer⟩) (hnow : 0 ≤ now)
    (hscope : '\x00' ∉ request.scope.text) :
    Answers s.db (calls s.log) request fingerprint now answer := by
  have h₀ : contract.inv d₀ [] := ⟨hr, ha, .nil, by simp [calls]⟩
  have hinv := (holds hr ha h.reaches.reaches).inv
  obtain ⟨ws, hguar, -⟩ := h.guar contract_sound (fun _ _ _ => trivial) h₀
  rcases hguar with ⟨-, hexcused⟩ | ⟨request', fingerprint', now', answer', hop, hresult, haccepts⟩
  · obtain ⟨e, he, hwhy⟩ := (hexcused _ rfl).2 request fingerprint now rfl
    obtain rfl := Option.some.inj he
    refine hinv.answers_of_refuses hscope hnow (hwhy.resolve_left ?_)
    -- A call that is not failed does not report a failure.
    have hdelivers := h.delivers (P := fun op a => (∃ request fingerprint now,
      op = .accept request fingerprint now) → a ≠ some (.error (.ofDatabase .unavailable)))
      fun op => ?_
    · rintro rfl
      exact hdelivers ⟨_, _, _, rfl⟩ rfl
    · cases op with
      | accept request fingerprint now =>
        refine .bind (PostgresRequestRepository.accept_delivers.mono fun a ha => ?_)
        exact fun _ heq => ha (Option.some.inj heq)
      | other writes hwrites =>
        refine .of_ends ((Postgres.Proc.Ends.trivially _).mono fun a _ => ?_)
        rintro ⟨_, _, _, hop⟩
        cases hop
  · obtain ⟨rfl, rfl, rfl⟩ := Op.accept.inj hop
    obtain rfl := Option.some.inj (Option.some.inj hresult)
    exact hinv.answers_of_accepts haccepts

/-- Request acceptance, in every state `s` of every run from empty tables. -/
theorem accept_converges {d₀ : Db} (hr : d₀.acceptedRequests = []) (ha : d₀.acceptanceAudit = [])
    {s : State Db Write Key Op Result} (hs : system.Reaches d₀ s) :
    Convergence s.db (calls s.log) ∧ ((calls s.log).map Call.id).Nodup ∧
    -- A stored request never changes.
    (∀ s', system.Later s s' → ∀ row ∈ s.db.acceptedRequests, row ∈ s'.db.acceptedRequests ∧
      ∀ row' ∈ s'.db.acceptedRequests, row'.key = row.key → row' = row) ∧
    -- Every call that the server does not fail is answered by the calls before it.
    ∀ s' id request fingerprint now answer,
      system.Returns d₀ s s' ⟨id, .accept request fingerprint now, some answer⟩ → 0 ≤ now →
      '\x00' ∉ request.scope.text → Answers s.db (calls s.log) request fingerprint now answer := by
  refine ⟨(holds hr ha hs).inv.convergence, ?_, fun s' hl row => later_row hr ha hs hl,
    fun s' id request fingerprint now answer h => returned_answers hr ha h⟩
  have hlog := List.pairwise_map.mp (holds hr ha hs).wellFormed.log_nodup
  refine List.pairwise_map.mpr (hlog.filterMap _ fun e e' hne c hc c' hc' => ?_)
  rw [call?_id hc, call?_id hc']
  exact hne

/-- A database with one service and the two reserved schema versions. -/
def oneSource : Db where
  identityRows := [⟨⟨1⟩, .service, ['a'], .active⟩]
  schemaVersions :=
    [⟨⟨1⟩, .artifact, "kernel.no-artifact".toList, 1, ⟨0⟩, .fill 0, none, 0, .active⟩,
      ⟨⟨2⟩, .permissionPolicy, "kernel.no-artifact-permission-policy".toList, 1, ⟨0⟩, .fill 0,
        none, 0, .active⟩]

/-- The scope of its first requests. -/
def exampleScope : Scope := ⟨['a'], by decide⟩

/-- A request of that service. -/
def submission (scope : Scope) : Request where
  id := ⟨5⟩
  sourceService := ⟨1⟩
  action := ⟨"billing.submit".toList, by decide⟩
  scope := scope
  schemaVersions := noArtifactSchemaVersions

/-- A request that is submitted, submitted again, and submitted with another scope, and in the last
call the server does not fail. -/
theorem accept_converges_retry : ∃ s, system.Reaches oneSource s ∧
    s.db.acceptanceAudit.map AcceptanceAuditRow.outcome =
      [.accepted, .safeRetry, .requestConflictRejected] ∧
    Convergence s.db (calls s.log) ∧
    ∃ s₁ s₂ id answer, system.Later s₂ s ∧ system.Returns oneSource s₁ s₂
        ⟨id, .accept (submission ⟨['b'], by decide⟩) ⟨.fill 6⟩ 30, some answer⟩ ∧
      answer = .error (.requestIdConflict ⟨5⟩) ∧
      Answers s₁.db (calls s₁.log) (submission ⟨['b'], by decide⟩) ⟨.fill 6⟩ 30 answer := by
  let op (scope : Scope) (now : ℤ) : Op := .accept (submission scope) ⟨.fill 6⟩ now
  obtain ⟨s₁, hs₁, hidle₁, hdb₁, -⟩ := Postgres.System.exec_reaches
    (.init : system.Reaches oneSource { db := oneSource }) rfl (op exampleScope 10)
  obtain ⟨s₂, hs₂, hidle₂, hdb₂, -⟩ := Postgres.System.exec_reaches hs₁ hidle₁
    (op exampleScope 20)
  obtain ⟨s₃, s₄, s₅, hl₃, -, hreturns, hl₅, -, hdb₅⟩ := Postgres.System.exec_returns hs₂ hidle₂
    (op ⟨['b'], by decide⟩ 30)
  have hs₃ := hs₂.later hl₃
  have hs₅ := hreturns.reaches_after.reaches.later hl₅
  have hresult : ((system.program (op ⟨['b'], by decide⟩ 30)).exec system.toStore s₂.db []).result =
      some (.error (.requestIdConflict ⟨5⟩)) := by
    rw [hdb₂, hdb₁]
    decide
  rw [hresult] at hreturns
  obtain ⟨-, -, -, hanswers⟩ := accept_converges rfl rfl hs₃
  refine ⟨s₅, hs₅, ?_, (accept_converges rfl rfl hs₅).1, s₃, s₄, _, _, hl₅, hreturns, rfl,
    hanswers _ _ _ _ _ _ hreturns (by decide) (by decide)⟩
  rw [hdb₅, hdb₂, hdb₁]
  decide

/-- The same request with schema versions that are not stored. -/
def unresolvedSubmission : Request :=
  { submission exampleScope with schemaVersions := ⟨⟨7⟩, ⟨8⟩⟩ }

/-- A call that the server does not fail, and whose schema versions differ from those of the call
that is accepted under the same name, does not answer a conflict: it came before that one, and its
schema versions are not stored. -/
theorem unresolved_call_no_conflict : ∃ s₁ s₂ s id, system.Returns oneSource s₁ s₂
      ⟨id, .accept unresolvedSubmission ⟨.fill 6⟩ 10, some (.error .unknownSchemaVersion)⟩ ∧
    system.Later s₂ s ∧ ∃ c ∈ calls s.log, c.outcome = .accepted ∧
      c.key = unresolvedSubmission.key ∧
      c.request.schemaVersions ≠ unresolvedSubmission.schemaVersions := by
  obtain ⟨s₁, s₂, s₃, -, -, hreturns, hl₃, hidle₃, hdb₃⟩ := Postgres.System.exec_returns
    (.init : system.Reaches oneSource { db := oneSource }) rfl
    (.accept unresolvedSubmission ⟨.fill 6⟩ 10)
  -- The second call runs alone, after the first one.
  obtain ⟨s₄, s₅, -, hl₄, -, haccepted, -⟩ := Postgres.System.exec_returns
    (hreturns.reaches_after.reaches.later hl₃) hidle₃
    (.accept (submission exampleScope) ⟨.fill 6⟩ 20)
  have hfirst : ((system.program (.accept unresolvedSubmission ⟨.fill 6⟩ 10)).exec system.toStore
      oneSource []).result = some (.error .unknownSchemaVersion) := by decide
  have hsecond : ((system.program (.accept (submission exampleScope) ⟨.fill 6⟩ 20)).exec
      system.toStore s₃.db []).result = some (.ok (.accepted
        ⟨submission exampleScope, ⟨.fill 6⟩, 20, by decide⟩)) := by
    rw [hdb₃]
    decide
  rw [hfirst] at hreturns
  rw [hsecond] at haccepted
  have hversions : (submission exampleScope).schemaVersions ≠
      unresolvedSubmission.schemaVersions := by decide
  have hcall : (⟨s₃.fresh, submission exampleScope, ⟨.fill 6⟩, 20, .accepted,
      .ok (.accepted ⟨submission exampleScope, ⟨.fill 6⟩, 20, by decide⟩)⟩ : Call) ∈
        calls s₅.log := by
    rw [calls, haccepted.log, List.filterMap_append]
    exact List.mem_append_right _ (List.mem_singleton_self _)
  exact ⟨s₁, s₂, s₅, _, hreturns, (hl₃.trans hl₄).trans haccepted.later, _, hcall, rfl, rfl,
    hversions⟩

end InfernalLaw.Requests
