import InfernalLaw.Http.RequestRoutes
import InfernalLaw.Kernel.NameGrammars

/-!
# Names and the columns that they are written to

The `CHECK` constraints of the migrations on actions, schema names and event types, with their
patterns, against the constructors of the kernel. Whatever is an action is an event type too, so a
request can always be routed by its action.
-/

namespace InfernalLaw

open Languages (eq_append_flatten)

/-! ## The constraints -/

/-- `lower`, by what it does to text of ASCII. The patterns allow no other text. -/
def Str.lower (s : Str) : Str := s.map Char.toLower

/-- The `CHECK` of a column of names: `char_length` between `low` and 200, equal to its `lower`
form, and `~` the pattern. -/
def checkPattern (low : ℕ) (pattern : RegularExpression Char) (value : Str) : Prop :=
  low ≤ value.length ∧ value.length ≤ 200 ∧ value = value.lower ∧ value ∈ pattern.matches'

instance (low : ℕ) (pattern : RegularExpression Char) (value : Str) :
    Decidable (checkPattern low pattern value) :=
  inferInstanceAs (Decidable (_ ∧ _ ∧ _ ∧ _))

section

variable {s : Str}

/-- The characters of a name are its dots and the letters of its segments. -/
theorem mem_nameLetters_of_mem (h : ∀ segment ∈ s.splitOn '.', isValidSegment segment = true)
    {c : Char} (hc : c ∈ s) : c ∈ '.' :: nameLetters := by
  rcases Str.mem_splitOn '.' hc with rfl | ⟨segment, hsegment, hmem⟩
  · exact List.mem_cons_self
  · refine List.mem_cons_of_mem _ (mem_nameLetters.mpr ?_)
    have hvalid := h segment hsegment
    cases segment with
    | nil => cases hmem
    | cons d segment =>
      simp only [isValidSegment, Bool.and_eq_true, List.all_eq_true] at hvalid
      rcases List.mem_cons.mp hmem with rfl | hmem
      · simp [hvalid.1]
      · exact hvalid.2 c hmem

/-- A name has one byte for each character. -/
theorem len_of_segments (h : ∀ segment ∈ s.splitOn '.', isValidSegment segment = true) :
    s.len = s.length := by
  have hascii : ('.' :: nameLetters).all fun c => c.val.toNat < 0x80 := by decide
  exact Str.len_of_ascii fun c hc =>
    of_decide_eq_true (List.all_eq_true.mp hascii c (mem_nameLetters_of_mem h hc))

/-- A name equals its `lower` form. -/
theorem lower_of_segments (h : ∀ segment ∈ s.splitOn '.', isValidSegment segment = true) :
    s = s.lower := by
  have hlower : ('.' :: nameLetters).all fun c => c = c.toLower := by decide
  refine (List.map_id s).symm.trans (List.map_congr_left fun c hc => ?_)
  exact of_decide_eq_true (List.all_eq_true.mp hlower c (mem_nameLetters_of_mem h hc))

/-- A name has a character in each segment. -/
theorem length_pos_of_segments (h : ∀ segment ∈ s.splitOn '.', isValidSegment segment = true) :
    1 ≤ s.length := by
  cases s with
  | nil => exact absurd (h [] (by simp)) (by decide)
  | cons c cs => exact Nat.succ_le_succ (Nat.zero_le _)

/-- With two segments, it has a dot between them. -/
theorem three_le_length_of_segments (hcount : 2 ≤ (s.splitOn '.').length)
    (h : ∀ segment ∈ s.splitOn '.', isValidSegment segment = true) : 3 ≤ s.length := by
  have hpos : ∀ segment ∈ s.splitOn '.', 0 < segment.length := by
    intro segment hsegment
    cases segment with
    | nil => exact absurd (h [] hsegment) (by decide)
    | cons c cs => exact Nat.succ_pos _
  rcases hsplit : s.splitOn '.' with _ | ⟨first, _ | ⟨second, rest⟩⟩
  · simp [hsplit] at hcount
  · simp [hsplit] at hcount
  · rw [hsplit] at hpos
    have hfirst := hpos first List.mem_cons_self
    have hsecond := hpos second (List.mem_cons_of_mem _ List.mem_cons_self)
    have hlength := congrArg List.length (eq_append_flatten hsplit)
    simp only [List.map_cons, List.flatten_cons, List.cons_append, List.length_append,
      List.length_cons] at hlength
    omega

/-- The constraint of an action, and of a schema name, is the one that the tables are modelled
with. -/
theorem checkPattern_dotted : checkPattern 3 dottedNamePattern s ↔ checkDottedName 3 2 s := by
  rw [checkPattern, checkDottedName, mem_dottedNamePattern]
  constructor
  · rintro ⟨hlow, hhigh, -, hcount, hsegments⟩
    exact ⟨hlow, hhigh, hcount, hsegments⟩
  · rintro ⟨hlow, hhigh, hcount, hsegments⟩
    exact ⟨hlow, hhigh, lower_of_segments hsegments, hcount, hsegments⟩

/-- So is that of an event type. -/
theorem checkPattern_event : checkPattern 1 eventTypePattern s ↔ checkDottedName 1 1 s := by
  rw [checkPattern, checkDottedName, mem_eventTypePattern]
  constructor
  · rintro ⟨hlow, hhigh, -, hsegments⟩
    exact ⟨hlow, hhigh, List.length_pos_of_ne_nil (List.splitOn_ne_nil '.' s), hsegments⟩
  · rintro ⟨hlow, hhigh, -, hsegments⟩
    exact ⟨hlow, hhigh, lower_of_segments hsegments, hsegments⟩

/-- What passes the check of the bytes and the pattern passes the constraint. -/
theorem dottedName_iff_checkPattern :
    s.len ≤ 200 ∧ s ∈ dottedNamePattern.matches' ↔ checkPattern 3 dottedNamePattern s := by
  rw [checkPattern_dotted, checkDottedName, mem_dottedNamePattern]
  constructor
  · rintro ⟨hlen, hcount, hsegments⟩
    rw [len_of_segments hsegments] at hlen
    exact ⟨three_le_length_of_segments hcount hsegments, hlen, hcount, hsegments⟩
  · rintro ⟨-, hhigh, hcount, hsegments⟩
    exact ⟨by rw [len_of_segments hsegments]; exact hhigh, hcount, hsegments⟩

/-! ## The constructors -/

/-- The recogniser of actions and of schema names is the pattern, with its bound on the bytes. -/
theorem isValidDottedName_iff : isValidDottedName 200 s = true ↔
    s.len ≤ 200 ∧ s ∈ dottedNamePattern.matches' := by
  rw [mem_dottedNamePattern]
  simp only [isValidDottedName, Bool.and_eq_true, decide_eq_true_eq]
  constructor
  · rintro ⟨⟨-, hlen⟩, hsegments⟩
    refine ⟨hlen, ?_⟩
    split at hsegments
    · rename_i first second rest hsplit
      rw [hsplit]
      simp only [Bool.and_eq_true, List.all_eq_true, and_assoc] at hsegments
      exact ⟨by simp, List.forall_mem_cons.mpr ⟨hsegments.1,
        List.forall_mem_cons.mpr hsegments.2⟩⟩
    · cases hsegments
  · rintro ⟨hlen, hcount, hsegments⟩
    have hpos := three_le_length_of_segments hcount hsegments
    refine ⟨⟨by cases s with
      | nil => cases hpos
      | cons c cs => rfl, hlen⟩, ?_⟩
    rcases hsplit : s.splitOn '.' with _ | ⟨first, _ | ⟨second, rest⟩⟩
    · simp [hsplit] at hcount
    · simp [hsplit] at hcount
    · rw [hsplit] at hsegments
      obtain ⟨hfirst, hrest⟩ := List.forall_mem_cons.mp hsegments
      obtain ⟨hsecond, hothers⟩ := List.forall_mem_cons.mp hrest
      simp only [Bool.and_eq_true, List.all_eq_true, and_assoc]
      exact ⟨hfirst, hsecond, hothers⟩

/-- The recogniser of event types is the pattern, with its bounds on the characters. -/
theorem isValidEventType_iff : isValidEventType s = true ↔
    1 ≤ s.length ∧ s.length ≤ 200 ∧ s ∈ eventTypePattern.matches' := by
  rw [mem_eventTypePattern]
  simp only [isValidEventType, Bool.and_eq_true, decide_eq_true_eq, List.all_eq_true]
  constructor
  · rintro ⟨⟨-, hhigh⟩, hsegments⟩
    exact ⟨length_pos_of_segments hsegments, hhigh, hsegments⟩
  · rintro ⟨hlow, hhigh, hsegments⟩
    refine ⟨⟨?_, hhigh⟩, hsegments⟩
    cases s with
    | nil => cases hlow
    | cons c cs => rfl

end

/-- The names that the constructors accept are those of the patterns, and those of the columns. An
action is an event type with the same text, and routing a request converts it without an error. -/
theorem names_match_grammars :
    (∀ s : Str,
      ((ActionName.new s).isSome = true ↔ s.len ≤ 200 ∧ s ∈ dottedNamePattern.matches') ∧
      ((SchemaName.new s).isSome = true ↔ s.len ≤ 200 ∧ s ∈ dottedNamePattern.matches') ∧
      (s.len ≤ 200 ∧ s ∈ dottedNamePattern.matches' ↔ checkPattern 3 dottedNamePattern s) ∧
      isValidSegmentByBytes s = isValidSegment s ∧
      ((EventType.new s).isSome = true ↔
        1 ≤ s.trim.length ∧ s.trim.length ≤ 200 ∧ s.trim ∈ eventTypePattern.matches') ∧
      ((EventType.new s).isSome = true ↔ checkPattern 1 eventTypePattern s.trim) ∧
      ∀ eventType, EventType.new s = some eventType → eventType.text = s.trim) ∧
    ∀ action : ActionName, EventType.new action.text = some action.eventType ∧
      action.eventType.text = action.text ∧
      ∀ routeIds sourceService requestId now,
        SubscriptionRouter.materializeRoutes routeIds sourceService requestId action now =
          (do
            let matching ← ExceptT.mk
              ((SubscriptionService.findActiveByEventType action.eventType).bind
              fun r => .done (r.mapError fun e => .repository e.failure))
            SubscriptionRouter.materializeEach routeIds sourceService requestId now 0
              (matching.filter fun subscription => subscription.deliveryMode = .inclusive)) := by
  -- An event type is trimmed before it is checked; the other names are not.
  have hevent : ∀ s : Str, (EventType.new s).isSome = true ↔ isValidEventType s.trim = true := by
    intro s
    unfold EventType.new
    split
    · rename_i h
      simp [h]
    · rename_i h
      simp [h]
  refine ⟨fun s => ⟨?_, ?_, dottedName_iff_checkPattern, isValidSegmentByBytes_eq s, ?_, ?_, ?_⟩,
    fun action => ⟨EventType.new_action action, rfl,
      fun routeIds sourceService requestId now => ?_⟩⟩
  · unfold ActionName.new
    rw [← isValidDottedName_iff]
    split
    · rename_i h
      exact iff_of_true rfl h
    · rename_i h
      exact iff_of_false (by simp) h
  · unfold SchemaName.new
    rw [← isValidDottedName_iff]
    split
    · rename_i h
      exact iff_of_true rfl h
    · rename_i h
      exact iff_of_false (by simp) h
  · rw [hevent, isValidEventType_iff]
  · rw [hevent, isValidEventType_iff, checkPattern, mem_eventTypePattern]
    constructor
    · rintro ⟨hlow, hhigh, hsegments⟩
      exact ⟨hlow, hhigh, lower_of_segments hsegments, hsegments⟩
    · rintro ⟨hlow, hhigh, -, hsegments⟩
      exact ⟨hlow, hhigh, hsegments⟩
  · intro eventType h
    unfold EventType.new at h
    split at h
    · rw [← Option.some.inj h]
    · cases h
  · unfold SubscriptionRouter.materializeRoutes
    rw [EventType.new_action]
    rfl

end InfernalLaw
