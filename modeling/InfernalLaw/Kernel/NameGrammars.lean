import Mathlib.Tactic.IntervalCases
import InfernalLaw.Kernel.Names
import InfernalLaw.Languages.Separated

/-!
# The grammars of names

The patterns of the migrations, as regular expressions, and the recognisers of the kernel, which
split a name at its dots. `is_valid_action_segment` and `is_valid_schema_segment` read a segment by
its bytes, `valid_event_segment` by its characters; they decide the same.
-/

namespace InfernalLaw

open Languages (mem_oneOf_mul_star mem_separated mem_separated_two oneOf)
open RegularExpression (char)

/-! ## Patterns -/

/-- `a-z`. -/
def lowerLetters : List Char := "abcdefghijklmnopqrstuvwxyz".toList

/-- `a-z0-9_-`. -/
def nameLetters : List Char := lowerLetters ++ "0123456789_-".toList

/-- `[a-z][a-z0-9_-]*`. -/
def segmentPattern : RegularExpression Char := oneOf lowerLetters * (oneOf nameLetters).star

/-- `^[a-z][a-z0-9_-]*(\.[a-z][a-z0-9_-]*)+$`. -/
def dottedNamePattern : RegularExpression Char :=
  segmentPattern * (char '.' * segmentPattern * (char '.' * segmentPattern).star)

/-- `^[a-z][a-z0-9_-]*(\.[a-z][a-z0-9_-]*)*$`. -/
def eventTypePattern : RegularExpression Char :=
  segmentPattern * (char '.' * segmentPattern).star

/-- They are the small letters. -/
theorem mem_lowerLetters {c : Char} : c ∈ lowerLetters ↔ c.isLower = true := by
  constructor
  · intro h
    have hall : lowerLetters.all fun c => c.isLower := by decide
    exact List.all_eq_true.mp hall c h
  · intro h
    change (decide (97 ≤ c.val) && decide (c.val ≤ 122)) = true at h
    simp only [Bool.and_eq_true, decide_eq_true_eq] at h
    have hlow : 97 ≤ c.toNat := h.1
    have hhigh : c.toNat ≤ 122 := h.2
    rw [← Char.ofNat_toNat c]
    generalize c.toNat = n at hlow hhigh
    interval_cases n <;> decide

/-- They are the letters that a segment may go on with. -/
theorem mem_nameLetters {c : Char} : c ∈ nameLetters ↔
    (c.isLower || c.isDigit || c == '_' || c == '-') = true := by
  have hdigits : c ∈ "0123456789_-".toList ↔ (c.isDigit || c == '_' || c == '-') = true := by
    constructor
    · intro h
      have hall : "0123456789_-".toList.all fun c => c.isDigit || c == '_' || c == '-' := by decide
      exact List.all_eq_true.mp hall c h
    · intro h
      simp only [Bool.or_eq_true, beq_iff_eq] at h
      rcases h with (h | rfl) | rfl
      · simp only [Char.isDigit, Bool.and_eq_true, decide_eq_true_eq] at h
        have hlow : 48 ≤ c.toNat := h.1
        have hhigh : c.toNat ≤ 57 := h.2
        rw [← Char.ofNat_toNat c]
        generalize c.toNat = n at hlow hhigh
        interval_cases n <;> decide
      · decide
      · decide
  rw [nameLetters, List.mem_append, mem_lowerLetters, hdigits]
  simp only [Bool.or_eq_true, or_assoc]

/-- The pattern of a segment is what the recognisers check of one. -/
theorem mem_segmentPattern {s : Str} :
    s ∈ segmentPattern.matches' ↔ isValidSegment s = true := by
  rw [segmentPattern, mem_oneOf_mul_star]
  constructor
  · rintro ⟨c, hc, cs, rfl, hcs⟩
    simp only [isValidSegment, Bool.and_eq_true, List.all_eq_true]
    exact ⟨mem_lowerLetters.mp hc, fun c' hc' => mem_nameLetters.mp (hcs c' hc')⟩
  · intro h
    cases s with
    | nil => cases h
    | cons c cs =>
      simp only [isValidSegment, Bool.and_eq_true, List.all_eq_true] at h
      exact ⟨c, mem_lowerLetters.mpr h.1, cs, rfl, fun c' hc' => mem_nameLetters.mpr (h.2 c' hc')⟩

/-- No segment has a dot. -/
theorem dot_not_mem_segment : ∀ s ∈ segmentPattern.matches', '.' ∉ s := by
  intro s hs hdot
  obtain ⟨c, hc, cs, rfl, hcs⟩ := mem_oneOf_mul_star.mp hs
  rcases List.mem_cons.mp hdot with rfl | hdot
  · exact absurd (mem_lowerLetters.mp hc) (by decide)
  · exact absurd (mem_nameLetters.mp (hcs _ hdot)) (by decide)

/-- The pattern's texts are those of two segments or more, all valid. -/
theorem mem_dottedNamePattern {s : Str} : s ∈ dottedNamePattern.matches' ↔
    2 ≤ (s.splitOn '.').length ∧ ∀ segment ∈ s.splitOn '.', isValidSegment segment = true := by
  rw [dottedNamePattern, mem_separated_two dot_not_mem_segment]
  simp only [mem_segmentPattern]

/-- The pattern's texts are those of one segment or more, all valid. -/
theorem mem_eventTypePattern {s : Str} : s ∈ eventTypePattern.matches' ↔
    ∀ segment ∈ s.splitOn '.', isValidSegment segment = true := by
  rw [eventTypePattern, mem_separated dot_not_mem_segment]
  simp only [mem_segmentPattern]

/-! ## Segments by their bytes -/

/-- `is_valid_action_segment`, and `is_valid_schema_segment`. -/
def isValidSegmentByBytes (segment : Str) : Bool :=
  match segment.asBytes with
  | [] => false
  | b :: bytes => decide (0x61 ≤ b ∧ b ≤ 0x7a) && bytes.all fun b =>
      decide (0x61 ≤ b ∧ b ≤ 0x7a) || decide (0x30 ≤ b ∧ b ≤ 0x39) || b == 0x5f || b == 0x2d

/-- A character of ASCII is one byte, and any other one has no byte of ASCII. -/
theorem utf8EncodeChar_cases (c : Char) :
    (c.toNat < 0x80 ∧ String.utf8EncodeChar c = [UInt8.ofNat c.toNat]) ∨
      (0x80 ≤ c.toNat ∧ ∃ b bytes, String.utf8EncodeChar c = b :: bytes ∧
        ∀ b' ∈ b :: bytes, 0x80 ≤ b'.toNat) := by
  have hval : c.val.toNat = c.toNat := rfl
  by_cases h : c.val.toNat ≤ 0x7f
  · left
    refine ⟨by omega, ?_⟩
    unfold String.utf8EncodeChar
    rw [if_pos h, hval]
  · right
    refine ⟨by omega, ?_⟩
    unfold String.utf8EncodeChar
    rw [if_neg h]
    split
    · refine ⟨_, _, rfl, ?_⟩
      simp only [List.mem_cons, List.not_mem_nil, or_false, forall_eq_or_imp, forall_eq,
        UInt8.toNat_ofNat']
      omega
    · split
      · refine ⟨_, _, rfl, ?_⟩
        simp only [List.mem_cons, List.not_mem_nil, or_false, forall_eq_or_imp, forall_eq,
          UInt8.toNat_ofNat']
        omega
      · refine ⟨_, _, rfl, ?_⟩
        simp only [List.mem_cons, List.not_mem_nil, or_false, forall_eq_or_imp, forall_eq,
          UInt8.toNat_ofNat']
        omega

/-- A check of every byte, by the characters. -/
theorem all_asBytes {p : UInt8 → Bool} {q : Char → Bool}
    (h : ∀ c, (String.utf8EncodeChar c).all p = q c) (s : Str) : s.asBytes.all p = s.all q := by
  induction s with
  | nil => rfl
  | cons c s ih => rw [Str.asBytes, List.flatMap_cons, List.all_append, h, List.all_cons, ← ih]; rfl

/-- The letters of a segment are the same by their byte. -/
theorem all_nameByte (c : Char) : ((String.utf8EncodeChar c).all fun b =>
      decide (0x61 ≤ b ∧ b ≤ 0x7a) || decide (0x30 ≤ b ∧ b ≤ 0x39) || b == 0x5f || b == 0x2d) =
    (c.isLower || c.isDigit || c == '_' || c == '-') := by
  rw [Bool.eq_iff_iff, ← mem_nameLetters]
  rcases utf8EncodeChar_cases c with ⟨hlt, hencode⟩ | ⟨hge, b, bytes, hencode, hbytes⟩
  · rw [hencode, ← Char.ofNat_toNat c]
    generalize c.toNat = n at hlt
    interval_cases n <;> decide
  · rw [hencode]
    refine iff_of_false (fun hall => ?_) fun hmem => ?_
    · have hb := List.all_eq_true.mp hall b List.mem_cons_self
      have hbound := hbytes b List.mem_cons_self
      simp only [Bool.or_eq_true, decide_eq_true_eq, beq_iff_eq, UInt8.le_iff_toNat_le,
        ← UInt8.toNat_inj, UInt8.reduceToNat] at hb
      omega
    · have hascii : nameLetters.all fun c => c.toNat < 0x80 := by decide
      have := of_decide_eq_true (List.all_eq_true.mp hascii c hmem)
      omega

/-- The first letter of a segment is the same by its byte. -/
theorem lowerByte {c : Char} {b : UInt8} {bytes : List UInt8}
    (hencode : String.utf8EncodeChar c = b :: bytes) :
    decide (0x61 ≤ b ∧ b ≤ 0x7a) = c.isLower := by
  rw [Bool.eq_iff_iff, ← mem_lowerLetters, decide_eq_true_eq, UInt8.le_iff_toNat_le,
    UInt8.le_iff_toNat_le]
  rcases utf8EncodeChar_cases c with ⟨hlt, hascii⟩ | ⟨hge, b', bytes', hother, hbytes⟩
  · obtain ⟨rfl, -⟩ := List.cons.inj (hascii.symm.trans hencode)
    rw [← Char.ofNat_toNat c]
    generalize c.toNat = n at hlt
    interval_cases n <;> decide
  · obtain ⟨rfl, -⟩ := List.cons.inj (hother.symm.trans hencode)
    have hbound := hbytes b' List.mem_cons_self
    refine iff_of_false (fun h => ?_) fun hmem => ?_
    · have hle : b'.toNat ≤ 0x7a := h.2
      omega
    · have hascii : lowerLetters.all fun c => c.toNat < 0x80 := by decide
      have := of_decide_eq_true (List.all_eq_true.mp hascii c hmem)
      omega

/-- A segment is recognised by its bytes as it is by its characters. -/
theorem isValidSegmentByBytes_eq (segment : Str) :
    isValidSegmentByBytes segment = isValidSegment segment := by
  cases segment with
  | nil => rfl
  | cons c cs =>
    obtain ⟨b, bytes, hencode⟩ := List.exists_cons_of_ne_nil (String.utf8EncodeChar_ne_nil (c := c))
    have hbytes : Str.asBytes (c :: cs) = b :: (bytes ++ Str.asBytes cs) := by
      rw [Str.asBytes, List.flatMap_cons, hencode]
      rfl
    -- A lower-case letter has one byte, so the bytes that are left are those of the other letters.
    have hsingle : c.isLower = true → bytes = [] := by
      intro hlower
      have hmem := mem_lowerLetters.mpr hlower
      have hascii : lowerLetters.all fun c => String.utf8EncodeChar c = [UInt8.ofNat c.toNat] := by
        decide
      rw [of_decide_eq_true (List.all_eq_true.mp hascii c hmem)] at hencode
      exact (List.cons.inj hencode).2.symm
    unfold isValidSegmentByBytes isValidSegment
    rw [hbytes]
    dsimp only
    rw [lowerByte hencode]
    cases hlower : c.isLower with
    | false => rfl
    | true => rw [hsingle hlower, List.nil_append, all_asBytes all_nameByte]

end InfernalLaw
