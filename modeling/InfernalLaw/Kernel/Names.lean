import Mathlib.Data.List.DropRight
import InfernalLaw.Kernel.Basic

/-!
# Validated text

The dotted names of the kernel, and the other bounded texts. Each type carries the check that its
constructor makes, so a value that fails it cannot be built. Actions and schema names have at least
two segments and at most 200 bytes; event types have at least one segment and at most 200
characters, and are trimmed first.
-/

namespace InfernalLaw

/-- `str`. -/
abbrev Str := List Char

instance Str.lawfulBEq : LawfulBEq (List Char) := inferInstance

namespace Str

/-- `str::len`, the length of the UTF-8 encoding. -/
def len (s : Str) : ℕ := (s.map Char.utf8Size).sum

/-- `char::is_whitespace`, the Unicode property `White_Space`. -/
def isWhitespace (c : Char) : Bool :=
  (9 ≤ c.val && c.val ≤ 13) || c.val == 0x20 || c.val == 0x85 || c.val == 0xA0 || c.val == 0x1680 ||
    (0x2000 ≤ c.val && c.val ≤ 0x200A) || c.val == 0x2028 || c.val == 0x2029 || c.val == 0x202F ||
    c.val == 0x205F || c.val == 0x3000

/-- `str::as_bytes`. -/
def asBytes (s : Str) : List UInt8 := s.flatMap String.utf8EncodeChar

/-- `str::trim`. -/
def trim (s : Str) : Str := (s.dropWhile isWhitespace).rdropWhile isWhitespace

/-- A character has at least one byte. -/
theorem length_le_len (s : Str) : s.length ≤ s.len := by
  induction s with
  | nil => simp
  | cons c s ih =>
    have hc : 0 < c.utf8Size := Char.utf8Size_pos c
    simp only [len, List.map_cons, List.sum_cons, List.length_cons] at ih ⊢
    omega

/-- A character of ASCII has one byte. -/
theorem len_of_ascii {s : Str} (h : ∀ c ∈ s, c.val.toNat < 0x80) : s.len = s.length := by
  induction s with
  | nil => rfl
  | cons c s ih =>
    have hc : c.utf8Size = 1 := by
      have := h c List.mem_cons_self
      rw [Char.utf8Size, if_pos]
      rw [UInt32.le_iff_toNat_le]
      change c.val.toNat ≤ 127
      omega
    have hs := ih fun c' hc' => h c' (List.mem_cons_of_mem _ hc')
    simp only [len, List.map_cons, List.sum_cons, List.length_cons] at hs ⊢
    omega

/-- Text without whitespace is its own trimmed form. -/
theorem trim_eq_self {s : Str} (h : ∀ c ∈ s, isWhitespace c = false) : s.trim = s := by
  have hd : ∀ t : Str, (∀ c ∈ t, isWhitespace c = false) → t.dropWhile isWhitespace = t := by
    intro t ht
    cases t with
    | nil => rfl
    | cons c t => rw [List.dropWhile_cons_of_neg (by simp [ht c])]
  unfold trim List.rdropWhile
  rw [hd s h, hd _ fun c hc => h c (List.mem_reverse.mp hc), List.reverse_reverse]

/-- A part at the front of a text begins as the text does. -/
theorem dropWhile_of_append {p : Char → Bool} {s front rest : Str} (h : front ++ rest = s)
    (hs : ∀ hpos : 0 < s.length, ¬ p (s.get ⟨0, hpos⟩) = true) : front.dropWhile p = front := by
  refine List.dropWhile_eq_self_iff.mpr fun hpos => ?_
  subst h
  have hfirst := hs (by rw [List.length_append]; omega)
  rwa [List.get_eq_getElem, List.getElem_append_left hpos] at hfirst

/-- Text without certain characters at its ends stays as it is when they are removed. -/
theorem strip_strip (p : Char → Bool) (s : Str) :
    (((s.dropWhile p).rdropWhile p).dropWhile p).rdropWhile p = (s.dropWhile p).rdropWhile p := by
  obtain ⟨rest, hrest⟩ := List.rdropWhile_prefix p (s.dropWhile p)
  rw [dropWhile_of_append hrest fun hpos => List.dropWhile_get_zero_not p s hpos,
    List.rdropWhile_idempotent p]

/-- Trimmed text stays as it is. -/
theorem trim_trim (s : Str) : s.trim.trim = s.trim := strip_strip isWhitespace s

/-- A character of a text is the separator, or is in one of the segments. -/
theorem mem_splitOn {c : Char} {s : Str} (sep : Char) (h : c ∈ s) :
    c = sep ∨ ∃ seg ∈ s.splitOn sep, c ∈ seg := by
  rw [← (List.intercalate_splitOn sep : _ = s)] at h
  generalize s.splitOn sep = segs at h
  unfold List.intercalate at h
  induction segs with
  | nil => simp at h
  | cons seg segs ih =>
    cases segs with
    | nil => exact .inr ⟨seg, by simp, by simpa using h⟩
    | cons seg' segs =>
      simp only [List.intersperse_cons_cons, List.flatten_cons, List.mem_append,
        List.mem_singleton] at h
      rcases h with h | h | h
      · exact .inr ⟨seg, by simp, h⟩
      · exact .inl h
      · rcases ih h with h | ⟨seg'', hseg, h⟩
        · exact .inl h
        · exact .inr ⟨seg'', by simp [hseg], h⟩

end Str

/-! ## Dotted names -/

/-- A segment of a dotted name: a lower-case letter, then lower-case letters, digits, `_` and
`-`. -/
def isValidSegment : Str → Bool
  | [] => false
  | c :: cs => c.isLower && cs.all fun c => c.isLower || c.isDigit || c == '_' || c == '-'

/-- The check of actions and schema names: at least two segments, and a bound on the bytes. -/
def isValidDottedName (maxLength : ℕ) (value : Str) : Bool :=
  !value.isEmpty && decide (value.len ≤ maxLength) &&
    match value.splitOn '.' with
    | namespaceSegment :: first :: rest =>
      isValidSegment namespaceSegment && isValidSegment first && rest.all isValidSegment
    | _ => false

/-- The longest name of an action. -/
def maxActionNameLength : ℕ := 200

/-- `is_valid_action_name`. -/
def isValidActionName : Str → Bool := isValidDottedName maxActionNameLength

/-- The longest name of a schema. -/
def maxSchemaNameLength : ℕ := 200

/-- `is_valid_schema_name`. -/
def isValidSchemaName : Str → Bool := isValidDottedName maxSchemaNameLength

/-- The longest event type. -/
def maxEventTypeLength : ℕ := 200

/-- What `EventType::new` checks of the trimmed text. -/
def isValidEventType (value : Str) : Bool :=
  !value.isEmpty && decide (value.length ≤ maxEventTypeLength) &&
    (value.splitOn '.').all isValidSegment

/-- A service-defined action in canonical dotted form. -/
structure ActionName where
  text : Str
  valid : isValidActionName text = true
  deriving DecidableEq

/-- A schema name, owned by the service that published its first version. -/
structure SchemaName where
  text : Str
  valid : isValidSchemaName text = true
  deriving DecidableEq

/-- An event type that a service subscribes to. -/
structure EventType where
  text : Str
  valid : isValidEventType text = true
  deriving DecidableEq

/-- `ActionName::new`, without the error that its callers replace. -/
def ActionName.new (value : Str) : Option ActionName :=
  if h : isValidActionName value = true then some ⟨value, h⟩ else none

/-- `SchemaName::new`. -/
def SchemaName.new (value : Str) : Option SchemaName :=
  if h : isValidSchemaName value = true then some ⟨value, h⟩ else none

/-- `EventType::new`. -/
def EventType.new (value : Str) : Option EventType :=
  if h : isValidEventType value.trim = true then some ⟨value.trim, h⟩ else none

/-- A stored action is read back as it was. -/
@[simp] theorem ActionName.new_text (a : ActionName) : ActionName.new a.text = some a := by
  simp [ActionName.new, a.valid]

/-- Only the text of an action reads as it. -/
theorem ActionName.new_eq_some {value : Str} {a : ActionName} :
    ActionName.new value = some a ↔ a.text = value := by
  refine ⟨fun h => ?_, fun h => by rw [← h, new_text]⟩
  unfold ActionName.new at h
  split at h
  · rw [← Option.some.inj h]
  · cases h

/-- The characters of a segment are printable ASCII. -/
theorem range_of_mem_segment {seg : Str} (h : isValidSegment seg = true) {c : Char} (hc : c ∈ seg) :
    0x20 < c.val.toNat ∧ c.val.toNat < 0x80 := by
  have hlower : ∀ c : Char, c.isLower = true → 0x20 < c.val.toNat ∧ c.val.toNat < 0x80 := by
    intro c hc
    change (decide (97 ≤ c.val) && decide (c.val ≤ 122)) = true at hc
    simp only [Bool.and_eq_true, decide_eq_true_eq] at hc
    have h₁ : 97 ≤ c.val.toNat := hc.1
    have h₂ : c.val.toNat ≤ 122 := hc.2
    omega
  have hdigit : ∀ c : Char, c.isDigit = true → 0x20 < c.val.toNat ∧ c.val.toNat < 0x80 := by
    intro c hc
    simp only [Char.isDigit, Bool.and_eq_true, decide_eq_true_eq] at hc
    have h₁ : 48 ≤ c.val.toNat := hc.1
    have h₂ : c.val.toNat ≤ 57 := hc.2
    omega
  cases seg with
  | nil => cases hc
  | cons d seg =>
    simp only [isValidSegment, Bool.and_eq_true, List.all_eq_true, Bool.or_eq_true,
      beq_iff_eq] at h
    rcases List.mem_cons.mp hc with rfl | hc
    · exact hlower _ h.1
    · rcases h.2 c hc with ((hl | hd) | rfl) | rfl
      · exact hlower _ hl
      · exact hdigit _ hd
      · decide
      · decide

/-- The characters of a segment are no whitespace. -/
theorem isWhitespace_of_mem_segment {seg : Str} (h : isValidSegment seg = true) {c : Char}
    (hc : c ∈ seg) : Str.isWhitespace c = false := by
  -- Every character of a segment is above the space, and below the other white space.
  have hrange := range_of_mem_segment h hc
  simp only [Str.isWhitespace, Bool.or_eq_false_iff, Bool.and_eq_false_iff, beq_eq_false_iff_ne,
    decide_eq_false_iff_not, UInt32.le_iff_toNat_le, ne_eq, ← UInt32.toNat_inj]
  simp only [UInt32.reduceToNat]
  omega

/-- A valid event type is its own trimmed form. -/
theorem trim_of_isValidEventType {value : Str} (h : isValidEventType value = true) :
    value.trim = value := by
  simp only [isValidEventType, Bool.and_eq_true, List.all_eq_true] at h
  refine Str.trim_eq_self fun c hc => ?_
  rcases Str.mem_splitOn '.' hc with rfl | ⟨seg, hseg, hc⟩
  · decide
  · exact isWhitespace_of_mem_segment (h.2 seg hseg) hc

/-- A stored event type is read back as it was. -/
@[simp] theorem EventType.new_text (e : EventType) : EventType.new e.text = some e := by
  simp [EventType.new, trim_of_isValidEventType e.valid, e.valid]

/-- Every action is an event type. -/
theorem isValidEventType_of_action {value : Str} (h : isValidActionName value = true) :
    isValidEventType value = true := by
  simp only [isValidActionName, isValidDottedName, Bool.and_eq_true, decide_eq_true_eq] at h
  obtain ⟨⟨hne, hlen⟩, hsegs⟩ := h
  simp only [isValidEventType, Bool.and_eq_true, decide_eq_true_eq]
  refine ⟨⟨hne, le_trans value.length_le_len hlen⟩, ?_⟩
  split at hsegs
  · rename_i hsplit
    rw [hsplit]
    simpa [and_assoc] using hsegs
  · cases hsegs

/-- The event type that a request's action matches. -/
def ActionName.eventType (a : ActionName) : EventType :=
  ⟨a.text, isValidEventType_of_action a.valid⟩

/-- An action converts to the event type with the same text. -/
@[simp] theorem EventType.new_action (a : ActionName) : EventType.new a.text = some a.eventType :=
  EventType.new_text a.eventType

/-! ## Scopes and versions -/

/-- The longest scope. -/
def maxScopeLength : ℕ := 200

/-- What `Scope::new` checks. -/
def isValidScope (value : Str) : Bool :=
  !value.isEmpty && decide (value.len ≤ maxScopeLength) && value.trim == value

/-- A declared artifact or scope identifier, or the wildcard that matches any scope. -/
structure Scope where
  text : Str
  valid : isValidScope text = true
  deriving DecidableEq

/-- `Scope::new`. -/
def Scope.new (value : Str) : Option Scope :=
  if h : isValidScope value = true then some ⟨value, h⟩ else none

/-- `Scope::wildcard`. -/
def Scope.wildcard : Scope := ⟨['*'], by decide⟩

/-- `Scope::matches`. -/
def Scope.matchesScope (s requested : Scope) : Bool := s.text == ['*'] || s.text == requested.text

/-- A stored scope is read back as it was. -/
@[simp] theorem Scope.new_text (s : Scope) : Scope.new s.text = some s := by
  simp [Scope.new, s.valid]

/-- Only the text of a scope reads as it. -/
theorem Scope.new_eq_some {value : Str} {s : Scope} :
    Scope.new value = some s ↔ s.text = value := by
  refine ⟨fun h => ?_, fun h => by rw [← h, new_text]⟩
  unfold Scope.new at h
  split at h
  · rw [← Option.some.inj h]
  · cases h

/-- The longest version of a policy bundle. -/
def maxPolicyBundleVersionLength : ℕ := 200

/-- The policy bundle that an evaluator reports. -/
structure PolicyBundleVersion where
  text : Str
  valid : (!text.isEmpty && decide (text.len ≤ maxPolicyBundleVersionLength)) = true
  deriving DecidableEq

/-- `PolicyBundleVersion::new`. -/
def PolicyBundleVersion.new (value : Str) : Option PolicyBundleVersion :=
  if h : (!value.isEmpty && decide (value.len ≤ maxPolicyBundleVersionLength)) = true then
    some ⟨value, h⟩
  else none

end InfernalLaw
