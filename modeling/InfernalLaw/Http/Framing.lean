import InfernalLaw.Http.HeaderText

/-!
# The framing of what is read

When a stream that `read_request` accepts is framed as HTTP/1.1 has it. The loop trims values of all
whitespace of Unicode, looks at no character inside them, and parses the length of the body as Rust
does, so it accepts more than the grammar.
-/

namespace InfernalLaw

open Reading (Schedule)

/-! ## What is accepted -/

/-- The header of a stream: where it ends, its request line, and its other lines. -/
def headerOf (stream : List UInt8) : Option (ℕ × Str × List Str) := do
  let p ← findHeaderEnd stream
  let header ← Str.fromUtf8 (stream.take p)
  match header.splitCrLf with
  | [] => none
  | requestLine :: lines => some (p, requestLine, lines)

/-- The lines as names and values. -/
def fieldsOf (lines : List Str) : List (Str × Str) := lines.filterMap (Str.splitOnce [':'])

/-- The lines for a header. -/
def fieldsNamed (name : Str) (lines : List Str) : List (Str × Str) :=
  (fieldsOf lines).filter fun field => field.1.Names name

/-- Lines that are set are lines of a valid name and a value. -/
theorem foldlM_line_eq_ok {lines : List Str} {h h' : ParsedHeaders}
    (hset : lines.foldlM ParsedHeaders.line h = .ok h') :
    (∀ line ∈ lines, ∃ name value, Str.splitOnce [':'] line = some (name, value) ∧
      validHeaderName name = true) ∧
    (fieldsOf lines).foldlM (fun h line => h.set line.1 line.2.trim) h = .ok h' := by
  induction lines generalizing h with
  | nil => exact ⟨by simp, hset⟩
  | cons line lines ih =>
    rw [List.foldlM_cons] at hset
    cases hline : h.line line with
    | error e =>
      rw [hline] at hset
      cases hset
    | ok h₁ =>
      rw [hline] at hset
      obtain ⟨hnames, hrest⟩ := ih hset
      rw [ParsedHeaders.line] at hline
      split at hline
      · cases hline
      rename_i name value hsplit
      split at hline
      · rename_i hname
        refine ⟨List.forall_mem_cons.mpr ⟨⟨name, value, hsplit, hname⟩, hnames⟩, ?_⟩
        rw [fieldsOf, List.filterMap_cons_some hsplit, List.foldlM_cons, hline]
        exact hrest
      · cases hline

/-- What holds of a stream that is accepted. -/
structure Accepted (stream : List UInt8) (r : ParsedRequest) (p : ℕ) (requestLine : Str)
    (lines : List Str) : Prop where
  header : headerOf stream = some (p, requestLine, lines)
  request : requestLine.splitWhitespace = [r.method, r.path, "HTTP/1.1".toList]
  names : ∀ line ∈ lines, ∃ name value, Str.splitOnce [':'] line = some (name, value) ∧
    validHeaderName name = true
  fields : ParsedHeaders.Acceptable (fieldsOf lines)
  body : ∃ n, r.body = (stream.drop (p + 4)).take n ∧ r.body.length = n ∧
    ∃ headers : ParsedHeaders, headers.Holds (fieldsOf lines) ∧ headers.contentLength.getD 0 = n

/-- What a header must be for `read_request` to take a request from it. -/
theorem parseHead_eq_ok {bytes : List UInt8} {head : ParsedHead} (h : parseHead bytes = .ok head) :
    ∃ header requestLine lines, Str.fromUtf8 bytes = some header ∧
      header.splitCrLf = requestLine :: lines ∧
      requestLine.splitWhitespace = [head.method, head.path, "HTTP/1.1".toList] ∧
      lines.foldlM ParsedHeaders.line {} = .ok head.headers ∧
      head.contentLength = head.headers.contentLength.getD 0 := by
  unfold parseHead at h
  split at h
  · cases h
  -- What is not refused is text, has a request line of three words, and lines that are accepted.
  rename_i header hheader
  split at h
  · cases h
  rename_i requestLine lines hlines
  split at h
  · rename_i method path version hparts
    split at h
    · cases h
    rename_i hversion
    rw [not_or, ne_eq, not_not] at hversion
    cases hset : lines.foldlM ParsedHeaders.line {} with
    | error e =>
      rw [hset] at h
      cases h
    | ok headers =>
      rw [hset] at h
      simp only [bind, Except.bind, pure, Except.pure] at h
      split at h
      · cases h
      split at h
      · cases h
      obtain rfl := Except.ok.inj h
      rw [hversion.1] at hparts
      exact ⟨header, requestLine, lines, hheader, hlines, hparts, hset, rfl⟩
  · cases h

/-- What holds of a request that is read. -/
theorem accepted_of_readRequest {s : Schedule} {stream : List UInt8} {r : ParsedRequest}
    (h : readRequest s stream = .ok r) : ∃ p requestLine lines,
      Accepted stream r p requestLine lines := by
  obtain ⟨p, hend, hp⟩ : ∃ p, findHeaderEnd stream = some p ∧ p ≤ maxHeaderBytes := by
    by_contra hnone
    push Not at hnone
    rw [readRequest_malformed hnone] at h
    cases h
  -- Whatever the schedule, the request is the one at the end of the header.
  have hat : requestAt stream p = .ok r := by
    rcases readRequest_cases (s := s) hend hp with hread | hread
    · rw [← hread, h]
    · rw [hread] at h
      cases h
  rw [requestAt] at hat
  cases hhead : parseHead (stream.take p) with
  | error e =>
    rw [hhead] at hat
    cases hat
  | ok head =>
    rw [hhead] at hat
    simp only [bind, Except.bind, pure, Except.pure] at hat
    split at hat
    · cases hat
    rename_i hlen
    obtain rfl := Except.ok.inj hat
    obtain ⟨header, requestLine, lines, hheader, hlines, hparts, hset, hlength⟩ :=
      parseHead_eq_ok hhead
    obtain ⟨hnames, hfields⟩ := foldlM_line_eq_ok hset
    obtain ⟨hacceptable, hholds⟩ := ParsedHeaders.of_setAll hfields
    refine ⟨p, requestLine, lines, ?_, hparts, hnames, hacceptable, head.contentLength, rfl, ?_,
      head.headers, hholds, hlength.symm⟩
    · rw [headerOf, hend]
      simp only [bind, Option.bind, hheader, hlines]
    · change ((stream.drop (p + 4)).take head.contentLength).length = head.contentLength
      rw [List.length_take, List.length_drop]
      omega

/-! ## Well-formed framing -/

/-- Optional whitespace, as HTTP has it. -/
def isOws (c : Char) : Bool := c = ' ' || c = '\t'

/-- A value without the optional whitespace around it. -/
def trimOws (value : Str) : Str := (value.dropWhile isOws).rdropWhile isOws

/-- The tokens of a line, which spaces and tabs separate. -/
def tokens (line : Str) : List Str := (line.splitOnP isOws).filter fun part => part ≠ []

/-- The request is framed as HTTP/1.1 has it: in the stream whose header ends at `p`, and consists
of this request line and these lines. -/
structure WellFramed (stream : List UInt8) (r : ParsedRequest) (p : ℕ) (requestLine : Str)
    (lines : List Str) : Prop where
  request : tokens requestLine = [r.method, r.path, "HTTP/1.1".toList]
  fields : ∀ line ∈ lines, ∃ name value, line = name ++ ':' :: value ∧ validHeaderName name = true ∧
    ∀ c ∈ value, c ≠ '\r' ∧ c ≠ '\n' ∧ c ≠ Char.ofNat 0
  contentLength : (fieldsNamed contentLengthName lines).length ≤ 1 ∧
    ∀ field ∈ fieldsNamed contentLengthName lines,
      trimOws field.2 ≠ [] ∧ ∀ c ∈ trimOws field.2, c.isDigit = true
  transferEncoding : fieldsNamed transferEncodingName lines = []
  body : r.body = (stream.drop (p + 4)).take r.body.length ∧
    match fieldsNamed contentLengthName lines with
    | [] => r.body.length = 0
    | field :: _ => (trimOws field.2).parseUsize = some r.body.length

/-- These lines are no wider than the grammar: there is no whitespace but spaces and tabs in the
request line, no line break or NUL in a value, and in the length of the body no plus sign and no
whitespace but spaces and tabs. -/
structure Strict (requestLine : Str) (lines : List Str) : Prop where
  request : ∀ c ∈ requestLine, Str.isWhitespace c = true → isOws c = true
  values : ∀ field ∈ fieldsOf lines, ∀ c ∈ field.2, c ≠ '\r' ∧ c ≠ '\n' ∧ c ≠ Char.ofNat 0
  contentLength : ∀ field ∈ fieldsNamed contentLengthName lines, ∀ c ∈ field.2,
    c ≠ '+' ∧ (Str.isWhitespace c = true → isOws c = true)

/-- A number is written in digits, with a plus sign at most before them. -/
theorem parseUsize_ne_none {value : Str} (h : value.parseUsize ≠ none) (hplus : '+' ∉ value) :
    value ≠ [] ∧ ∀ c ∈ value, c.isDigit = true := by
  have hstrip : Str.stripPrefix value ['+'] = none := by
    rw [Option.eq_none_iff_forall_ne_some]
    intro rest hrest
    rw [Str.stripPrefix_eq_some.mp hrest] at hplus
    exact hplus List.mem_cons_self
  rw [Str.parseUsize, hstrip] at h
  simp only [Option.getD_none] at h
  split at h
  · rename_i hdigits
    exact ⟨hdigits.1, List.all_eq_true.mp hdigits.2⟩
  · exact absurd rfl h

/-- The parts of a line are what does not separate them. -/
theorem flatten_splitOnP {p : Char → Bool} {s : Str} :
    (s.splitOnP p).flatten = s.filter fun c => !p c := by
  induction s with
  | nil => rfl
  | cons c s ih =>
    rw [List.splitOnP_cons_eq_if_modifyHead]
    cases hc : p c with
    | true => simp [hc, ih]
    | false =>
      obtain ⟨part, parts, hparts⟩ := List.exists_cons_of_ne_nil (List.splitOnP_ne_nil p s)
      rw [hparts] at ih
      simp [hc, hparts, ← ih]

/-- Where the same characters separate, the parts are the same. -/
theorem splitOnP_congr {p q : Char → Bool} {s : Str} (h : ∀ c ∈ s, p c = q c) :
    s.splitOnP p = s.splitOnP q := by
  induction s with
  | nil => rfl
  | cons c s ih =>
    rw [List.forall_mem_cons] at h
    rw [List.splitOnP_cons_eq_if_modifyHead, List.splitOnP_cons_eq_if_modifyHead, h.1, ih h.2]

/-- The first characters that are dropped. -/
theorem dropWhile_congr {p q : Char → Bool} {s : Str} (h : ∀ c ∈ s, p c = q c) :
    s.dropWhile p = s.dropWhile q := by
  induction s with
  | nil => rfl
  | cons c s ih =>
    rw [List.forall_mem_cons] at h
    rw [List.dropWhile_cons, List.dropWhile_cons, h.1, ih h.2]

/-- Optional whitespace is whitespace. -/
theorem isWhitespace_eq_isOws {s : Str} (h : ∀ c ∈ s, Str.isWhitespace c = true → isOws c = true) :
    ∀ c ∈ s, Str.isWhitespace c = isOws c := by
  intro c hc
  rw [Bool.eq_iff_iff]
  refine ⟨h c hc, fun hows => ?_⟩
  rw [isOws, Bool.or_eq_true, decide_eq_true_eq, decide_eq_true_eq] at hows
  rcases hows with rfl | rfl <;> decide

/-- The tokens are the words that the loop finds if and only if all whitespace is spaces and
tabs. -/
theorem tokens_eq_splitWhitespace_iff {line : Str} : tokens line = line.splitWhitespace ↔
    ∀ c ∈ line, Str.isWhitespace c = true → isOws c = true := by
  constructor
  · intro h c hc hwhite
    by_contra hows
    -- The character is in a token, but in no word.
    have hflat : (tokens line).flatten = line.splitWhitespace.flatten := congrArg List.flatten h
    rw [tokens, Str.splitWhitespace, List.flatten_filter_ne_nil, List.flatten_filter_ne_nil,
      flatten_splitOnP, flatten_splitOnP] at hflat
    have hmem : c ∈ line.filter fun c => !isOws c := List.mem_filter.mpr ⟨hc, by simpa using hows⟩
    rw [hflat] at hmem
    simp [hwhite] at hmem
  · intro h
    rw [tokens, Str.splitWhitespace, splitOnP_congr (isWhitespace_eq_isOws h)]

/-- Where all whitespace is optional whitespace, both are trimmed in the same way. -/
theorem trim_eq_trimOws {value : Str} (h : ∀ c ∈ value, Str.isWhitespace c = true →
      isOws c = true) :
    value.trim = trimOws value := by
  have hiff := isWhitespace_eq_isOws h
  rw [Str.trim, trimOws, dropWhile_congr hiff, List.rdropWhile, List.rdropWhile,
    dropWhile_congr fun c hc => hiff c ((List.dropWhile_sublist _).mem (List.mem_reverse.mp hc))]

/-- A character of a value is optional whitespace, or is left when that is trimmed. -/
theorem mem_trimOws {value : Str} {c : Char} (h : c ∈ value) (hows : isOws c = false) :
    c ∈ trimOws value := by
  have hdrop : ∀ s : Str, c ∈ s → c ∈ s.dropWhile isOws := by
    intro s hc
    rw [← List.takeWhile_append_dropWhile (p := isOws) (l := s), List.mem_append] at hc
    rcases hc with hc | hc
    · have := List.mem_takeWhile_imp hc
      rw [hows] at this
      cases this
    · exact hc
  rw [trimOws, List.rdropWhile, List.mem_reverse]
  exact hdrop _ (List.mem_reverse.mpr (hdrop _ h))

/-- What is left of a value is in the value. -/
theorem mem_of_mem_trimOws {value : Str} {c : Char} (h : c ∈ trimOws value) : c ∈ value := by
  rw [trimOws, List.rdropWhile, List.mem_reverse] at h
  exact (List.dropWhile_sublist _).mem (List.mem_reverse.mp ((List.dropWhile_sublist _).mem h))

/-- A digit is neither a plus sign nor whitespace. -/
theorem of_isDigit {c : Char} (h : c.isDigit = true) : c ≠ '+' ∧ Str.isWhitespace c = false := by
  refine ⟨?_, isWhitespace_of_visible (isVisible_of_alphanum (Bool.or_eq_true_iff.mpr (.inr h)))⟩
  rintro rfl
  revert h
  decide

/-- The fields are the lines, cut at their first colons. -/
theorem mem_fieldsOf {lines : List Str} {field : Str × Str} :
    field ∈ fieldsOf lines ↔ ∃ line ∈ lines, Str.splitOnce [':'] line = some field :=
  List.mem_filterMap

/-- What is accepted is well framed if and only if its header is strict. -/
theorem readRequest_wellFramed_iff {s : Schedule} {stream : List UInt8} {r : ParsedRequest}
    (h : readRequest s stream = .ok r) :
    ∃ p requestLine lines, headerOf stream = some (p, requestLine, lines) ∧
      (WellFramed stream r p requestLine lines ↔ Strict requestLine lines) := by
  obtain ⟨p, requestLine, lines, haccepted⟩ := accepted_of_readRequest h
  refine ⟨p, requestLine, lines, haccepted.header, fun hframed => ⟨?_, ?_, ?_⟩, fun hstrict => ?_⟩
  · -- What is well framed has no character that the grammar has not.
    exact tokens_eq_splitWhitespace_iff.mp (hframed.request.trans haccepted.request.symm)
  · intro field hfield
    obtain ⟨line, hline, hsplit⟩ := mem_fieldsOf.mp hfield
    obtain ⟨name, value, rfl, hname, hvalue⟩ := hframed.fields line hline
    rw [splitOnce_colon (colon_not_mem hname)] at hsplit
    obtain rfl := Option.some.inj hsplit
    exact hvalue
  · intro field hfield c hc
    obtain ⟨-, hdigits⟩ := hframed.contentLength.2 field hfield
    by_cases hows : isOws c = true
    · refine ⟨?_, fun _ => hows⟩
      rintro rfl
      revert hows
      decide
    · obtain ⟨hplus, hwhite⟩ := of_isDigit (hdigits c (mem_trimOws hc (by simpa using hows)))
      exact ⟨hplus, fun h => absurd h (by simp [hwhite])⟩
  · -- The other way round, the code's wider notions come to those of the grammar.
    have htrim : ∀ field ∈ fieldsNamed contentLengthName lines, field.2.trim = trimOws field.2 :=
      fun field hfield => trim_eq_trimOws fun c hc => (hstrict.contentLength field hfield c hc).2
    have hvalues : ∀ name, ParsedHeaders.valuesOf name (fieldsOf lines) =
        (fieldsNamed name lines).map fun field => field.2.trim := fun _ => rfl
    obtain ⟨n, hbody, hlength, headers, hholds, hannounced⟩ := haccepted.body
    have hrequest := (tokens_eq_splitWhitespace_iff.mpr hstrict.request).trans haccepted.request
    refine ⟨hrequest, fun line hline => ?_, ⟨?_, fun field hfield => ?_⟩, ?_, ?_, ?_⟩
    · obtain ⟨name, value, hsplit, hname⟩ := haccepted.names line hline
      refine ⟨name, value, ?_, hname, hstrict.values _ (mem_fieldsOf.mpr ⟨line, hline, hsplit⟩)⟩
      rw [Str.splitOnce_eq_some hsplit, List.append_assoc]
      rfl
    · have hone := haccepted.fields.contentLength.1
      rwa [hvalues, List.length_map] at hone
    · have hparse := haccepted.fields.contentLength.2 field.2.trim (by
        rw [hvalues]
        exact List.mem_map_of_mem hfield)
      rw [htrim field hfield] at hparse
      refine parseUsize_ne_none hparse fun hplus => ?_
      exact (hstrict.contentLength field hfield _ (mem_of_mem_trimOws hplus)).1 rfl
    · have hnone := haccepted.fields.encoding
      rwa [hvalues, List.map_eq_nil_iff] at hnone
    · rw [hlength]
      exact hbody
    · rw [hholds.contentLength, hvalues] at hannounced
      cases hnamed : fieldsNamed contentLengthName lines with
      | nil =>
        rw [hnamed] at hannounced
        exact hlength.trans hannounced.symm
      | cons field fields =>
        have hfield : field ∈ fieldsNamed contentLengthName lines := hnamed ▸ List.mem_cons_self
        have hparse := haccepted.fields.contentLength.2 field.2.trim (by
          rw [hvalues]
          exact List.mem_map_of_mem hfield)
        obtain ⟨m, hm⟩ := Option.ne_none_iff_exists'.mp hparse
        rw [hnamed, List.map_cons, List.head?_cons, Option.bind_some, hm] at hannounced
        change (trimOws field.2).parseUsize = some r.body.length
        rw [← htrim field hfield, hm, hlength, ← hannounced]
        rfl

/-- A stream that is the text of a header and its end, when the header announces no body. -/
theorem readRequest_text {text requestLine : Str} {lines : List Str} {p : ℕ}
    (hend : findHeaderEnd (text.asBytes ++ headerTerminator) = some p) (hp : p + 3 ≤ maxHeaderBytes)
    (htake : (text.asBytes ++ headerTerminator).take p = text.asBytes)
    (hlines : text.splitCrLf = requestLine :: lines)
    (hlength : (parseHead text.asBytes).map ParsedHead.contentLength = .ok 0) (s : Schedule) :
    (∃ r, readRequest s (text.asBytes ++ headerTerminator) = .ok r) ∧
      headerOf (text.asBytes ++ headerTerminator) = some (p, requestLine, lines) := by
  have hlen := le_length_of_findHeaderEnd hend
  constructor
  · rw [readRequest_eq hend hp, requestAt, htake]
    cases hhead : parseHead text.asBytes with
    | error e =>
      rw [hhead] at hlength
      cases hlength
    | ok head =>
      rw [hhead] at hlength
      have hzero : head.contentLength = 0 := Except.ok.inj hlength
      simp only [bind, Except.bind, pure, Except.pure, hzero]
      rw [if_neg (by omega)]
      exact ⟨_, rfl⟩
  · rw [headerOf, hend]
    simp only [bind, Option.bind, htake, Str.fromUtf8_asBytes, hlines]

/-- A header with a line. -/
def hostText : Str := "GET / HTTP/1.1\r\nHost: a".toList

/-- The request with this header is well framed. -/
theorem readRequest_wellFramed_host : ∃ (r : ParsedRequest) (p : ℕ) (requestLine : Str)
    (lines : List Str), readRequest fullReads (hostText.asBytes ++ headerTerminator) = .ok r ∧
      WellFramed (hostText.asBytes ++ headerTerminator) r p requestLine lines := by
  have hlength : (parseHead hostText.asBytes).map ParsedHead.contentLength = .ok 0 := by
    rw [parseHead, Str.fromUtf8_asBytes]
    decide +kernel
  have hlines : hostText.splitCrLf = "GET / HTTP/1.1".toList :: ["Host: a".toList] := by
    decide +kernel
  have hfields : fieldsOf ["Host: a".toList] = [("Host".toList, [' ', 'a'])] := by decide +kernel
  have hnamed : fieldsNamed contentLengthName ["Host: a".toList] = [] := by decide +kernel
  obtain ⟨⟨r, hr⟩, hheader⟩ := readRequest_text (p := 23) (by decide +kernel) (by decide)
    (by decide +kernel) hlines hlength fullReads
  obtain ⟨p, requestLine, lines, hheader', hiff⟩ := readRequest_wellFramed_iff hr
  rw [hheader] at hheader'
  obtain ⟨-, hparts⟩ := Prod.mk.inj (Option.some.inj hheader')
  obtain ⟨rfl, rfl⟩ := Prod.mk.inj hparts
  have hspaces : "GET / HTTP/1.1".toList.filter Str.isWhitespace = [' ', ' '] := by decide
  refine ⟨r, p, _, _, hr, hiff.mpr ⟨fun c hc hspace => ?_, ?_, ?_⟩⟩
  · have hmem := List.mem_filter.mpr ⟨hc, hspace⟩
    rw [hspaces] at hmem
    rcases List.mem_pair.mp hmem with rfl | rfl <;> rfl
  · rw [hfields]
    intro field hfield
    rw [List.mem_singleton.mp hfield]
    intro c hc
    rcases List.mem_pair.mp hc with rfl | rfl <;> decide
  · rw [hnamed]
    exact fun _ hfield => absurd hfield List.not_mem_nil

/-- A header with a line feed in a value. -/
def lineFeedText : Str := "GET / HTTP/1.1\r\na: b\nc".toList

/-- It is accepted. -/
theorem readRequest_accepts_lineFeed : ¬ ∀ (s : Schedule) (stream : List UInt8) (r : ParsedRequest),
    readRequest s stream = .ok r → ∃ p requestLine lines,
      headerOf stream = some (p, requestLine, lines) ∧ WellFramed stream r p requestLine lines := by
  intro h
  have hlength : (parseHead lineFeedText.asBytes).map ParsedHead.contentLength = .ok 0 := by
    rw [parseHead, Str.fromUtf8_asBytes]
    decide +kernel
  have hlines : lineFeedText.splitCrLf =
      "GET / HTTP/1.1".toList :: [['a', ':', ' ', 'b', '\n', 'c']] := by decide +kernel
  obtain ⟨⟨r, hr⟩, hheader⟩ := readRequest_text (p := 22) (by decide +kernel) (by decide)
    (by decide +kernel) hlines hlength fullReads
  obtain ⟨p, requestLine, lines, hheader', hframed⟩ := h _ _ _ hr
  rw [hheader] at hheader'
  obtain ⟨-, hparts⟩ := Prod.mk.inj (Option.some.inj hheader')
  obtain ⟨-, rfl⟩ := Prod.mk.inj hparts
  obtain ⟨name, value, hline, hname, hvalue⟩ := hframed.fields _ List.mem_cons_self
  have hsplit : Str.splitOnce [':'] (name ++ ':' :: value) = some (name, value) :=
    splitOnce_colon (colon_not_mem hname)
  rw [← hline, show Str.splitOnce [':'] ['a', ':', ' ', 'b', '\n', 'c'] =
    some (['a'], [' ', 'b', '\n', 'c']) by decide +kernel] at hsplit
  obtain ⟨-, rfl⟩ := Prod.mk.inj (Option.some.inj hsplit)
  exact (hvalue '\n' (by decide)).2.1 rfl

end InfernalLaw
