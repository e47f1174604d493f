import InfernalLaw.Http.Arrival
import InfernalLaw.Http.Headers

/-!
# The text of a header

What `read_request` makes of a header that is written as the protocol has it: a request line, and
lines of a name, a colon and a value.
-/

namespace InfernalLaw

/-! ## Bytes -/

namespace Str

/-- Text is read back from its encoding. -/
theorem fromUtf8_asBytes (s : Str) : fromUtf8 (asBytes s) = some s := by
  have hencode : (asBytes s).toByteArray = s.utf8Encode := by
    simp [asBytes, List.utf8Encode]
  rw [fromUtf8, hencode, List.utf8Decode?_utf8Encode]
  rfl

/-- Text of ASCII has one byte for each character. -/
theorem asBytes_of_ascii {s : Str} (h : ∀ c ∈ s, c.val.toNat < 0x80) :
    asBytes s = s.map fun c => c.val.toUInt8 := by
  induction s with
  | nil => rfl
  | cons c s ih =>
    have hc : c.utf8Size = 1 := by
      have := h c List.mem_cons_self
      rw [Char.utf8Size, if_pos]
      rw [UInt32.le_iff_toNat_le]
      change c.val.toNat ≤ 127
      omega
    rw [asBytes, List.flatMap_cons, String.utf8EncodeChar_eq_singleton hc, List.map_cons,
      ← ih fun c' hc' => h c' (List.mem_cons_of_mem _ hc')]
    rfl

/-- The encoding of a text is that of its parts. -/
theorem asBytes_append (s t : Str) : asBytes (s ++ t) = asBytes s ++ asBytes t :=
  List.flatMap_append

end Str

/-! ## Lines -/

/-- Lines, each after a line break. -/
def crLfLines (lines : List Str) : Str := lines.flatMap fun line => '\r' :: '\n' :: line

namespace Str

/-- Text without a carriage return is one line. -/
theorem splitCrLf_append {s : Str} (h : '\r' ∉ s) (t : Str) :
    splitCrLf (s ++ '\r' :: '\n' :: t) = s :: splitCrLf t := by
  induction s with
  | nil => rfl
  | cons c s ih =>
    rw [List.mem_cons, not_or] at h
    rw [List.cons_append, splitCrLf, ih h.2]
    · rfl
    · rintro s' rfl
      exact absurd rfl h.1

/-- A text without a carriage return is one line. -/
theorem splitCrLf_of_not_mem {s : Str} (h : '\r' ∉ s) : splitCrLf s = [s] := by
  induction s with
  | nil => rfl
  | cons c s ih =>
    rw [List.mem_cons, not_or] at h
    rw [splitCrLf, ih h.2]
    · rfl
    · rintro s' rfl
      exact absurd rfl h.1

/-- Lines are split where they were put together. -/
theorem splitCrLf_crLfLines {line : Str} {lines : List Str} (hline : '\r' ∉ line)
    (hlines : ∀ line ∈ lines, '\r' ∉ line) : splitCrLf (line ++ crLfLines lines) =
      line :: lines := by
  induction lines generalizing line with
  | nil =>
    rw [crLfLines, List.flatMap_nil, List.append_nil]
    exact splitCrLf_of_not_mem hline
  | cons next lines ih =>
    rw [List.forall_mem_cons] at hlines
    rw [crLfLines, List.flatMap_cons, List.cons_append, List.cons_append, splitCrLf_append hline]
    exact congrArg (line :: ·) (ih hlines.1 hlines.2)

end Str

/-! ## The end of the header -/

/-- The end is not in what has no carriage return. -/
theorem findHeaderEnd_append {bytes : List UInt8} (h : 13 ∉ bytes) (rest : List UInt8) :
    findHeaderEnd (bytes ++ rest) = (findHeaderEnd rest).map (· + bytes.length) := by
  induction bytes with
  | nil => simp
  | cons b bytes ih =>
    rw [List.mem_cons, not_or] at h
    rw [List.cons_append, findHeaderEnd, if_neg, ih h.2, Option.map_map]
    · rfl
    · intro hfirst
      exact h.1 (List.cons.inj hfirst).1.symm

/-- The end is not where a line follows. -/
theorem findHeaderEnd_crLf {b : UInt8} (h : b ≠ 13) (rest : List UInt8) :
    findHeaderEnd (13 :: 10 :: b :: rest) = (findHeaderEnd (b :: rest)).map (· + 2) := by
  rw [findHeaderEnd, if_neg, findHeaderEnd, if_neg, Option.map_map]
  · rfl
  · intro hfirst
    exact absurd (List.cons.inj hfirst).1 (by decide)
  · intro hfirst
    exact h (List.cons.inj (List.cons.inj (List.cons.inj hfirst).2).2).1

/-- A line of a header: text of ASCII without a carriage return. -/
def Str.PlainLine (line : Str) : Prop := ∀ c ∈ line, c ≠ '\r' ∧ c.val.toNat < 0x80

namespace Str.PlainLine

variable {line : Str} (h : line.PlainLine)

include h

/-- A line of small characters is sent as one byte for each. -/
theorem asBytes_eq : line.asBytes = line.map fun c => c.val.toUInt8 :=
  asBytes_of_ascii fun c hc => (h c hc).2

/-- There is no carriage return in it. -/
theorem not_mem : '\r' ∉ line := fun hmem => (h _ hmem).1 rfl

/-- No byte of the line is a carriage return. -/
theorem byte_ne {c : Char} (hc : c ∈ line) : c.val.toUInt8 ≠ 13 := by
  obtain ⟨hne, hlt⟩ := h c hc
  intro heq
  refine hne (Char.ext (UInt32.toNat_inj.mp ?_))
  have hnat := congrArg UInt8.toNat heq
  rw [UInt32.toNat_toUInt8, Nat.mod_eq_of_lt (by omega)] at hnat
  rw [hnat]
  decide

/-- Nor is there among the bytes that are sent. -/
theorem not_mem_asBytes : 13 ∉ line.asBytes := by
  rw [h.asBytes_eq]
  intro hmem
  obtain ⟨c, hc, heq⟩ := List.mem_map.mp hmem
  exact h.byte_ne hc heq

end Str.PlainLine

/-- The header ends after its last line. -/
theorem findHeaderEnd_lines {line : Str} {lines : List Str} (hline : line.PlainLine)
    (hlines : ∀ line ∈ lines, line ≠ [] ∧ line.PlainLine) (rest : List UInt8) :
    findHeaderEnd ((line ++ crLfLines lines).asBytes ++ headerTerminator ++ rest) =
      some (line ++ crLfLines lines).length := by
  have hlen : line.asBytes.length = line.length := by rw [hline.asBytes_eq, List.length_map]
  induction lines generalizing line with
  | nil =>
    rw [crLfLines, List.flatMap_nil, List.append_nil, List.append_assoc,
      findHeaderEnd_append hline.not_mem_asBytes, hlen]
    have hfirst : findHeaderEnd (headerTerminator ++ rest) = some 0 := if_pos rfl
    rw [hfirst, Option.map_some, Nat.zero_add]
  | cons next lines ih =>
    rw [List.forall_mem_cons] at hlines
    obtain ⟨⟨hne, hnext⟩, hlines⟩ := hlines
    have hih := ih hnext hlines (by rw [hnext.asBytes_eq, List.length_map])
    obtain ⟨c, next', rfl⟩ := List.exists_cons_of_ne_nil hne
    let more : Str := next' ++ crLfLines lines
    -- The next line is not empty, so the line break before it is not the end of the header.
    have hbytes : Str.asBytes (c :: more) = c.val.toUInt8 :: more.asBytes := by
      have hc : Str.asBytes [c] = [c.val.toUInt8] := Str.PlainLine.asBytes_eq fun c' hc' =>
        List.mem_singleton.mp hc' ▸ hnext c List.mem_cons_self
      rw [← List.singleton_append, Str.asBytes_append, hc]
      rfl
    have htext : line ++ crLfLines ((c :: next') :: lines) = line ++ ['\r', '\n'] ++
        (c :: more) := by
      simp [crLfLines, more]
    have hall : (line ++ crLfLines ((c :: next') :: lines)).asBytes ++ headerTerminator ++ rest =
        line.asBytes ++ 13 :: 10 :: c.val.toUInt8 ::
        (more.asBytes ++ headerTerminator ++ rest) := by
      rw [htext, Str.asBytes_append, Str.asBytes_append, hbytes,
        show Str.asBytes ['\r', '\n'] = [13, 10] from rfl]
      simp
    change findHeaderEnd (Str.asBytes (c :: more) ++ headerTerminator ++ rest) = _ at hih
    rw [hbytes] at hih
    rw [hall, findHeaderEnd_append hline.not_mem_asBytes,
      findHeaderEnd_crLf (hnext.byte_ne List.mem_cons_self), ← List.cons_append, ← List.cons_append,
      hih, htext, hlen]
    simp only [Option.map_some, List.length_append, List.length_cons, Option.some.injEq, more,
      List.length_nil]
    omega

/-! ## A whole header -/

/-- A header as the protocol has it. -/
def headerText (method path : Str) (lines : List (Str × Str)) : Str :=
  (method ++ ' ' :: (path ++ ' ' :: "HTTP/1.1".toList)) ++
    crLfLines (lines.map fun line => line.1 ++ ':' :: line.2)

/-- The parts of a request line. -/
theorem splitWhitespace_requestLine {method path version : Str}
    (hmethod : method ≠ [] ∧ ∀ c ∈ method, Str.isWhitespace c = false)
    (hpath : path ≠ [] ∧ ∀ c ∈ path, Str.isWhitespace c = false)
    (hversion : version ≠ [] ∧ ∀ c ∈ version, Str.isWhitespace c = false) :
    (method ++ ' ' :: (path ++ ' ' :: version)).splitWhitespace = [method, path, version] := by
  have hspace : Str.isWhitespace ' ' = true := by decide
  rw [Str.splitWhitespace, List.splitOnP_append_cons_of_forall_mem hmethod.2 ' ' hspace,
    List.splitOnP_append_cons_of_forall_mem hpath.2 ' ' hspace,
    List.splitOnP_eq_singleton hversion.2]
  simp [hmethod.1, hpath.1, hversion.1]

/-- A line is cut at its first colon. -/
theorem splitOnce_colon {name value : Str} (h : ':' ∉ name) :
    Str.splitOnce [':'] (name ++ ':' :: value) = some (name, value) :=
  Str.splitOnce_append h

/-- A header name has no colon. -/
theorem colon_not_mem {name : Str} (h : validHeaderName name = true) : ':' ∉ name := by
  intro hmem
  rw [validHeaderName, Bool.and_eq_true, List.all_eq_true] at h
  have := h.2 _ hmem
  revert this
  decide

/-- Lines of a name and a value are set one after the other. -/
theorem foldlM_line {lines : List (Str × Str)}
    (hnames : ∀ line ∈ lines, validHeaderName line.1 = true) (h : ParsedHeaders) :
    (lines.map fun line => line.1 ++ ':' :: line.2).foldlM ParsedHeaders.line h =
      lines.foldlM (fun h line => h.set line.1 line.2.trim) h := by
  induction lines generalizing h with
  | nil => rfl
  | cons line lines ih =>
    rw [List.forall_mem_cons] at hnames
    rw [List.map_cons, List.foldlM_cons, List.foldlM_cons, ParsedHeaders.line,
      splitOnce_colon (colon_not_mem hnames.1)]
    simp only [hnames.1, if_true]
    exact congrArg _ (funext fun h' => ih hnames.2 h')

/-- Visible characters of ASCII. -/
def isVisible (c : Char) : Bool := '!' ≤ c && c ≤ '~'

/-- A header as the protocol has it: the method in upper case, the path of visible characters, and
lines with valid names and values of visible characters and spaces. -/
structure WellWritten (method path : Str) (lines : List (Str × Str)) : Prop where
  method : method ≠ [] ∧ ∀ c ∈ method, c.isUpper = true
  path : path.head? = some '/' ∧ ∀ c ∈ path, isVisible c = true
  lines : ∀ line ∈ lines, validHeaderName line.1 = true ∧ ∀ c ∈ line.2, c = ' ' ∨ isVisible c = true

/-- The characters are checked one after the other. -/
theorem wellWritten_iff {method path : Str} {lines : List (Str × Str)} :
    WellWritten method path lines ↔ (method ≠ [] ∧ method.all Char.isUpper = true) ∧
      (path.head? = some '/' ∧ path.all isVisible = true) ∧ ∀ line ∈ lines,
        validHeaderName line.1 = true ∧ (line.2.all fun c => c == ' ' || isVisible c) = true := by
  simp only [List.all_eq_true, Bool.or_eq_true, beq_iff_eq]
  exact ⟨fun h => ⟨h.method, h.path, h.lines⟩, fun h => ⟨h.1, h.2.1, h.2.2⟩⟩

instance {method path : Str} {lines : List (Str × Str)} :
    Decidable (WellWritten method path lines) :=
  decidable_of_iff _ wellWritten_iff.symm

/-- A visible character is one of ASCII, and neither whitespace nor a carriage return. -/
theorem isVisible_iff {c : Char} :
    isVisible c = true ↔ 0x21 ≤ c.val.toNat ∧ c.val.toNat ≤ 0x7E := by
  rw [isVisible, Bool.and_eq_true, decide_eq_true_eq, decide_eq_true_eq]
  rfl

/-- A visible character is no white space. -/
theorem isWhitespace_of_visible {c : Char} (h : isVisible c = true) :
    Str.isWhitespace c = false := by
  rw [isVisible_iff] at h
  rw [Bool.eq_false_iff]
  intro hwhite
  simp only [Str.isWhitespace, Bool.or_eq_true, Bool.and_eq_true, decide_eq_true_eq, beq_iff_eq,
    UInt32.le_iff_toNat_le, ← UInt32.toNat_inj, UInt32.reduceToNat] at hwhite
  omega

/-- A visible character is no carriage return, and one byte. -/
theorem plain_of_visible {c : Char} (h : isVisible c = true) : c ≠ '\r' ∧ c.val.toNat < 0x80 := by
  rw [isVisible_iff] at h
  refine ⟨?_, by omega⟩
  rintro rfl
  exact absurd h.1 (by decide)

/-- Letters and digits are visible. -/
theorem isVisible_of_alphanum {c : Char} (h : c.isAlphanum = true) : isVisible c = true := by
  rw [isVisible_iff]
  change ((decide (65 ≤ c.val ∧ c.val ≤ 90) || (decide (97 ≤ c.val) && decide (c.val ≤ 122))) ||
    (decide (48 ≤ c.val) && decide (c.val ≤ 57))) = true at h
  simp only [Bool.or_eq_true, Bool.and_eq_true, decide_eq_true_eq, UInt32.le_iff_toNat_le] at h
  change ((65 ≤ _ ∧ _ ≤ 90) ∨ 97 ≤ _ ∧ _ ≤ 122) ∨ 48 ≤ _ ∧ _ ≤ 57 at h
  omega

/-- A capital letter is visible. -/
theorem isVisible_of_upper {c : Char} (h : c.isUpper = true) : isVisible c = true :=
  isVisible_of_alphanum (Bool.or_eq_true_iff.mpr (.inl (Bool.or_eq_true_iff.mpr (.inl h))))

/-- A character of a header's name is visible. -/
theorem isVisible_of_headerNameChar {c : Char} (h : isHeaderNameChar c = true) :
    isVisible c = true := by
  rw [isHeaderNameChar, Bool.or_eq_true, decide_eq_true_eq] at h
  rcases h with h | h
  · exact isVisible_of_alphanum h
  · have hall : ∀ c ∈ ['!', '#', '$', '%', '&', '\x27', '*', '+', '-', '.', '^', '_', '\x60', '|',
        '~'], isVisible c = true := List.all_eq_true.mp (by decide)
    exact hall c h

/-- The characters of the version are visible. -/
theorem isVisible_version : ∀ c ∈ "HTTP/1.1".toList, isVisible c = true :=
  List.all_eq_true.mp (by decide +kernel)

namespace WellWritten

variable {method path : Str} {lines : List (Str × Str)} (h : WellWritten method path lines)

include h

/-- The characters of the method are visible. -/
theorem method_visible : ∀ c ∈ method, isVisible c = true := fun c hc =>
  isVisible_of_upper (h.method.2 c hc)

/-- The path is not empty. -/
theorem path_ne : path ≠ [] := by
  rintro rfl
  cases h.path.1

/-- The request line is one line. -/
theorem plain_requestLine :
    (method ++ ' ' :: (path ++ ' ' :: "HTTP/1.1".toList) : Str).PlainLine := by
  intro c hc
  simp only [List.mem_append, List.mem_cons] at hc
  rcases hc with hc | rfl | hc | rfl | hc
  · exact plain_of_visible (h.method_visible c hc)
  · decide
  · exact plain_of_visible (h.path.2 c hc)
  · decide
  · exact plain_of_visible (isVisible_version c hc)

/-- So is each of the others. -/
theorem plain_lines : ∀ line ∈ lines.map fun line => line.1 ++ ':' :: line.2,
    line ≠ [] ∧ Str.PlainLine line := by
  intro text htext
  obtain ⟨line, hline, rfl⟩ := List.mem_map.mp htext
  obtain ⟨hname, hvalue⟩ := h.lines line hline
  rw [validHeaderName, Bool.and_eq_true, List.all_eq_true] at hname
  refine ⟨by simp, fun c hc => ?_⟩
  simp only [List.mem_append, List.mem_cons] at hc
  rcases hc with hc | rfl | hc
  · exact plain_of_visible (isVisible_of_headerNameChar (hname.2 c hc))
  · decide
  · rcases hvalue c hc with rfl | hc
    · decide
    · exact plain_of_visible hc

/-- The header ends after its text. -/
theorem findHeaderEnd_eq (rest : List UInt8) :
    findHeaderEnd ((headerText method path lines).asBytes ++ headerTerminator ++ rest) =
      some (headerText method path lines).length :=
  findHeaderEnd_lines h.plain_requestLine h.plain_lines rest

/-- The text has one byte for each character. -/
theorem length_asBytes :
    (headerText method path lines).asBytes.length = (headerText method path lines).length := by
  rw [Str.asBytes_of_ascii, List.length_map]
  intro c hc
  rcases List.mem_append.mp hc with hc | hc
  · exact (h.plain_requestLine c hc).2
  · obtain ⟨line, hline, hc⟩ := List.mem_flatMap.mp hc
    rw [List.mem_cons, List.mem_cons] at hc
    rcases hc with rfl | rfl | hc
    · decide
    · decide
    · exact ((h.plain_lines line hline).2 c hc).2

/-- What `read_request` takes from the header. -/
theorem parseHead_eq : parseHead (headerText method path lines).asBytes = do
    let headers ← ParsedHeaders.setAll lines
    let contentLength := headers.contentLength.getD 0
    if method = "POST".toList ∧ path = "/v1/enrollments".toList ∧ contentLength = 0 then
      .error .malformed
    else if maxEnrollmentBodyBytes < contentLength then .error .payloadTooLarge
    else return ⟨method, path, headers, contentLength⟩ := by
  have hlines : (headerText method path lines).splitCrLf =
      (method ++ ' ' :: (path ++ ' ' :: "HTTP/1.1".toList)) ::
        lines.map fun line => line.1 ++ ':' :: line.2 :=
    Str.splitCrLf_crLfLines h.plain_requestLine.not_mem fun line hline =>
      (h.plain_lines line hline).2.not_mem
  have hparts : (method ++ ' ' :: (path ++ ' ' :: "HTTP/1.1".toList) : Str).splitWhitespace =
      [method, path, "HTTP/1.1".toList] := by
    refine splitWhitespace_requestLine ⟨h.method.1, fun c hc => ?_⟩ ⟨h.path_ne, fun c hc => ?_⟩ ?_
    · exact isWhitespace_of_visible (h.method_visible c hc)
    · exact isWhitespace_of_visible (h.path.2 c hc)
    · exact ⟨by decide +kernel, fun c hc => isWhitespace_of_visible (isVisible_version c hc)⟩
  have hslash : path.startsWith ['/'] = true := by
    obtain ⟨rest, rfl⟩ := List.head?_eq_some_iff.mp h.path.1
    exact Option.isSome_of_eq_some (Str.stripPrefix_eq_some.mpr rfl)
  rw [parseHead, Str.fromUtf8_asBytes]
  dsimp only
  rw [hlines]
  dsimp only
  rw [hparts]
  simp only [hslash]
  rw [if_neg (by simp), foldlM_line fun line hline => (h.lines line hline).1]
  rfl

/-- What the stream means that has such a header. -/
theorem requestAt_eq (rest : List UInt8) :
    requestAt ((headerText method path lines).asBytes ++ headerTerminator ++ rest)
        (headerText method path lines).length = do
      let headers ← ParsedHeaders.setAll lines
      let contentLength := headers.contentLength.getD 0
      if method = "POST".toList ∧ path = "/v1/enrollments".toList ∧ contentLength = 0 then
        .error .malformed
      else if maxEnrollmentBodyBytes < contentLength then .error .payloadTooLarge
      else if rest.length < contentLength then .error .malformed
      else
        return ParsedHead.request ⟨method, path, headers, contentLength⟩
          (rest.take contentLength) := by
  have htake : ((headerText method path lines).asBytes ++ headerTerminator ++ rest).take
      (headerText method path lines).length = (headerText method path lines).asBytes := by
    rw [List.append_assoc, ← h.length_asBytes, List.take_left]
  have hdrop : ((headerText method path lines).asBytes ++ headerTerminator ++ rest).drop
      ((headerText method path lines).length + 4) = rest := by
    refine List.drop_left' ?_
    rw [List.length_append, h.length_asBytes]
    rfl
  have hlength : ((headerText method path lines).asBytes ++ headerTerminator ++ rest).length =
      (headerText method path lines).length + 4 + rest.length := by
    rw [List.length_append, List.length_append, h.length_asBytes]
    rfl
  -- The head and the body are apart where the header ends; the checks are the same on both sides.
  rw [requestAt, htake, hdrop, hlength, h.parseHead_eq]
  cases ParsedHeaders.setAll lines with
  | error e => rfl
  | ok headers =>
    simp only [bind, Except.bind, pure, Except.pure]
    by_cases henrollment : method = "POST".toList ∧ path = "/v1/enrollments".toList ∧
        headers.contentLength.getD 0 = 0
    · rw [if_pos henrollment, if_pos henrollment]
    rw [if_neg henrollment, if_neg henrollment]
    by_cases hlarge : maxEnrollmentBodyBytes < headers.contentLength.getD 0
    · rw [if_pos hlarge, if_pos hlarge]
    · rw [if_neg hlarge, if_neg hlarge]
      simp only [Nat.add_lt_add_iff_left]

end WellWritten

end InfernalLaw
