import InfernalLaw.Http.HeaderText

/-!
# The requests that are read

When what `read_request` reads depends on how the stream arrives, and what it reads in a stream
whose header is written as the protocol has it.
-/

namespace InfernalLaw

open Reading (Schedule)

/-! ## Arrival -/

/-- What is read depends on how it arrives if and only if the header ends right at the bound, and
what it says, and the body that follows it, are not malformed. -/
theorem readRequest_arrival_iff (stream : List UInt8) :
    (∀ s s' : Schedule, readRequest s stream = readRequest s' stream) ↔
      ∀ p, findHeaderEnd stream = some p → maxHeaderBytes < p + 3 → p ≤ maxHeaderBytes →
        requestAt stream p = .error .malformed := by
  constructor
  · -- Of the two schedules here, one reads the end of the header at once and the other byte by
    -- byte.
    intro hall p h hlate hp
    rw [← readRequest_fullReads h hlate hp, ← readRequest_oneAt h hlate]
    exact hall _ _
  · intro hbound s s'
    cases h : findHeaderEnd stream with
    | none =>
      -- The header does not end, and every schedule comes to the bound.
      have hnone : ∀ p, findHeaderEnd stream = some p → maxHeaderBytes < p := by
        rw [h]
        exact fun _ => nofun
      rw [readRequest_malformed hnone, readRequest_malformed hnone]
    | some p =>
      rcases Nat.lt_or_ge maxHeaderBytes p with hlt | hp
      · -- It ends too late for every schedule.
        have hlate : ∀ q, findHeaderEnd stream = some q → maxHeaderBytes < q := by
          intro q hq
          rw [h] at hq
          exact Option.some.inj hq ▸ hlt
        rw [readRequest_malformed hlate, readRequest_malformed hlate]
      rcases Nat.lt_or_ge maxHeaderBytes (p + 3) with hlate | hearly
      · -- It ends at the bound: whether it is found depends on the schedule, but the request is
        -- malformed.
        have hmalformed : ∀ s : Schedule, readRequest s stream = .error .malformed := by
          intro s
          rcases readRequest_cases (s := s) h hp with hread | hread
          · rw [hread]
            exact hbound p h hlate hp
          · exact hread
        rw [hmalformed, hmalformed]
      · rw [readRequest_eq h hearly, readRequest_eq h hearly]

/-- A header that ends two bytes before the bound. -/
def lateHeader : Str := headerText "GET".toList ['/'] [(['a'], List.replicate 8172 'a')]

/-- The request of the example is well written. -/
theorem wellWritten_late : WellWritten "GET".toList ['/'] [(['a'], List.replicate 8172 'a')] := by
  refine ⟨⟨by decide +kernel, List.all_eq_true.mp (by decide +kernel)⟩,
    ⟨by decide, List.all_eq_true.mp (by decide)⟩, fun line hline => ?_⟩
  rw [List.mem_singleton.mp hline]
  refine ⟨by decide, fun c hc => .inr ?_⟩
  rw [List.eq_of_mem_replicate hc]
  decide

/-- Its header ends two bytes before the limit. -/
theorem length_lateHeader : lateHeader.length = 8190 := by
  have hversion : "HTTP/1.1".toList.length = 8 := by decide +kernel
  have hmethod : "GET".toList.length = 3 := by decide +kernel
  simp only [lateHeader, headerText, crLfLines, List.map_cons, List.map_nil, List.flatMap_cons,
    List.flatMap_nil, List.length_append, List.length_cons, List.length_nil, List.length_replicate,
    hversion, hmethod]

/-- The request with this header is read in full reads, and refused if the third read gives one
byte. -/
theorem readRequest_late_depends : ¬ ∀ (stream : List UInt8) (s s' : Schedule),
    readRequest s stream = readRequest s' stream := by
  intro h
  have hend := wellWritten_late.findHeaderEnd_eq []
  have hat := wellWritten_late.requestAt_eq []
  rw [show headerText "GET".toList ['/'] [(['a'], List.replicate 8172 'a')] = lateHeader from rfl,
    length_lateHeader] at hend hat
  have hset : ParsedHeaders.setAll [(['a'], List.replicate 8172 'a')] = .ok {} := by
    have hother : ∀ k : TextHeader, ¬ Str.Names ['a'] k.name := by
      intro k
      cases k <;> decide +kernel
    rw [ParsedHeaders.setAll, List.foldlM_cons,
      ParsedHeaders.set_other (by decide +kernel) (by decide +kernel) hother]
    rfl
  rw [hset] at hat
  have hfull := readRequest_fullReads hend (by decide) (by decide)
  have hone := readRequest_oneAt hend (by decide)
  rw [h _ fullReads (oneAt maxHeaderBytes), hone, hat] at hfull
  cases hfull

/-! ## Well-written headers -/

/-- The headers that are recognised. -/
def recognisedHeaders : List Str :=
  [contentLengthName, TextHeader.contentType.name, TextHeader.authority.name,
    TextHeader.contentDigest.name, TextHeader.serviceId.name, TextHeader.instanceId.name,
    TextHeader.requestId.name, TextHeader.signatureInput.name, TextHeader.signature.name]

open ParsedHeaders (valuesOf)

/-- The length of the body that the lines announce. -/
def announcedLength (lines : List (Str × Str)) : Option ℕ :=
  match valuesOf contentLengthName lines with
  | [] => some 0
  | value :: _ => value.parseUsize

/-- What a request with these lines, and these bytes after its header, must fulfil to be read. -/
structure Readable (method path : Str) (lines : List (Str × Str)) (rest : List UInt8) : Prop where
  recognised : ∀ name ∈ recognisedHeaders,
    (valuesOf name lines).length ≤ 1 ∧ [] ∉ valuesOf name lines
  encoding : valuesOf transferEncodingName lines = []
  length : ∃ n, announcedLength lines = some n ∧ n ≤ maxEnrollmentBodyBytes ∧
    (method = "POST".toList ∧ path = "/v1/enrollments".toList → n ≠ 0) ∧ n ≤ rest.length

/-- The recognised headers are that with the length of the body and those that are kept as text. -/
theorem mem_recognised {name : Str} :
    name ∈ recognisedHeaders ↔ name = contentLengthName ∨ ∃ k : TextHeader, name = k.name := by
  constructor
  · intro h
    simp only [recognisedHeaders, List.mem_cons, List.not_mem_nil, or_false] at h
    rcases h with h | h | h | h | h | h | h | h | h
    · exact .inl h
    all_goals exact .inr ⟨_, h⟩
  · rintro (rfl | ⟨k, rfl⟩)
    · exact List.mem_cons_self
    · cases k <;> simp [recognisedHeaders]

/-- The lines are acceptable if no recognised header occurs twice or is empty, and the length of the
body is a number. -/
theorem acceptable_iff {lines : List (Str × Str)} : ParsedHeaders.Acceptable lines ↔
    (∀ name ∈ recognisedHeaders, (valuesOf name lines).length ≤ 1 ∧ [] ∉ valuesOf name lines) ∧
      valuesOf transferEncodingName lines = [] ∧ announcedLength lines ≠ none := by
  constructor
  · intro h
    refine ⟨fun name hname => ?_, h.encoding, ?_⟩
    · rcases mem_recognised.mp hname with rfl | ⟨k, rfl⟩
      · exact ⟨h.contentLength.1, fun hnil => h.contentLength.2 [] hnil rfl⟩
      · exact h.text k
    · have hvalues := h.contentLength.2
      rw [announcedLength]
      cases hlines : valuesOf contentLengthName lines with
      | nil => simp
      | cons value values => exact hvalues value (hlines ▸ List.mem_cons_self)
  · rintro ⟨hrecognised, hencoding, hlength⟩
    refine ⟨fun k => hrecognised _ (mem_recognised.mpr (.inr ⟨k, rfl⟩)), ⟨?_, ?_⟩, hencoding⟩
    · exact (hrecognised _ (mem_recognised.mpr (.inl rfl))).1
    · have hone := (hrecognised _ (mem_recognised.mpr (.inl rfl))).1
      rw [announcedLength] at hlength
      intro value hvalue
      -- The length is announced at most once, so the first value is all of them.
      match hlines : valuesOf contentLengthName lines with
      | [] =>
        rw [hlines] at hvalue
        exact absurd hvalue List.not_mem_nil
      | [value'] =>
        rw [hlines] at hvalue hlength
        rw [List.mem_singleton.mp hvalue]
        exact hlength
      | _ :: _ :: _ =>
        rw [hlines] at hone
        simp at hone

/-- What the loop has come to for the length of the body is what the lines announce. -/
theorem announcedLength_eq {lines : List (Str × Str)} {h : ParsedHeaders}
    (hlines : ParsedHeaders.Acceptable lines) (hholds : h.Holds lines) :
    announcedLength lines = some (h.contentLength.getD 0) := by
  have hvalues := hlines.contentLength.2
  rw [hholds.contentLength, announcedLength]
  cases hlines : valuesOf contentLengthName lines with
  | nil => rfl
  | cons value values =>
    obtain ⟨n, hn⟩ := Option.ne_none_iff_exists'.mp (hvalues value (hlines ▸ List.mem_cons_self))
    simp [hn]

/-- A header that occurs once at most has the value of its line. -/
theorem head?_eq_some_iff {values : List Str} (h : values.length ≤ 1) {value : Str} :
    values.head? = some value ↔ values = [value] := by
  match values with
  | [] => simp
  | [value'] => simp
  | _ :: _ :: _ => simp at h

/-- Nothing is read from a request that is refused. -/
theorem refused_spec {e : RequestReadError} {P : Prop} {Q : ParsedRequest → Prop} (h : ¬ P) :
    ((∃ r, (.error e : Except _ ParsedRequest) = .ok r) ↔ P) ∧
      ∀ r, (.error e : Except _ ParsedRequest) = .ok r → Q r := by
  refine ⟨⟨?_, fun hp => absurd hp h⟩, ?_⟩
  · rintro ⟨r, hr⟩
    cases hr
  · intro r hr
    cases hr

/-- What a well-written request is read as, however it arrives. -/
theorem readRequest_wellWritten {method path : Str} {lines : List (Str × Str)}
    (h : WellWritten method path lines)
    (hlen : (headerText method path lines).length ≤ maxHeaderBytes - 3) (rest : List UInt8)
    (s : Schedule) :
    ((∃ r, readRequest s ((headerText method path lines).asBytes ++ headerTerminator ++ rest) =
      .ok r) ↔ Readable method path lines rest) ∧
    ∀ r, readRequest s ((headerText method path lines).asBytes ++ headerTerminator ++ rest) =
      .ok r → r.method = method ∧ r.path = path ∧
      (∀ (k : TextHeader) (value : Str), k.ofRequest r = some value ↔
        valuesOf k.name lines = [value]) ∧
      ∃ n, announcedLength lines = some n ∧ r.body = rest.take n := by
  have hearly : (headerText method path lines).length + 3 ≤ maxHeaderBytes := by
    rw [maxHeaderBytes] at hlen ⊢
    omega
  rw [readRequest_eq (h.findHeaderEnd_eq rest) hearly, h.requestAt_eq rest]
  cases hset : ParsedHeaders.setAll lines with
  | error e =>
    -- The lines are refused: they would be acceptable if the request was readable.
    refine refused_spec fun hreadable => ?_
    obtain ⟨n, hn, -⟩ := hreadable.length
    obtain ⟨headers, hok⟩ := (acceptable_iff.mpr ⟨hreadable.recognised, hreadable.encoding,
      by rw [hn]; exact Option.some_ne_none n⟩).exists_setAll
    rw [hset] at hok
    cases hok
  | ok headers =>
    -- The lines are accepted. Each check that follows is a part of what it takes to be readable.
    obtain ⟨hlines, hholds⟩ := ParsedHeaders.of_setAll hset
    obtain ⟨hrecognised, hencoding, -⟩ := acceptable_iff.mp hlines
    have hannounced := announcedLength_eq hlines hholds
    simp only [bind, Except.bind, pure, Except.pure]
    split
    · rename_i henrollment
      refine refused_spec fun hreadable => ?_
      obtain ⟨n, hn, -, hzero, -⟩ := hreadable.length
      obtain rfl := Option.some.inj (hannounced.symm.trans hn)
      exact absurd henrollment.2.2 (hzero ⟨henrollment.1, henrollment.2.1⟩)
    rename_i henrollment
    split
    · rename_i hlarge
      refine refused_spec fun hreadable => ?_
      obtain ⟨n, hn, hle, -⟩ := hreadable.length
      obtain rfl := Option.some.inj (hannounced.symm.trans hn)
      exact absurd hlarge (Nat.not_lt.mpr hle)
    rename_i hlarge
    split
    · rename_i hshort
      refine refused_spec fun hreadable => ?_
      obtain ⟨n, hn, -, -, hle⟩ := hreadable.length
      obtain rfl := Option.some.inj (hannounced.symm.trans hn)
      exact absurd hshort (Nat.not_lt.mpr hle)
    rename_i hthere
    refine ⟨⟨fun _ => ⟨hrecognised, hencoding, _, hannounced, Nat.not_lt.mp hlarge, ?_,
      Nat.not_lt.mp hthere⟩, fun _ => ⟨_, rfl⟩⟩, fun r hr => ?_⟩
    · exact fun hpost hzero => henrollment ⟨hpost.1, hpost.2, hzero⟩
    · obtain rfl := Except.ok.inj hr
      refine ⟨rfl, rfl, fun k value => ?_, _, hannounced, rfl⟩
      rw [TextHeader.ofRequest_request, hholds.text]
      exact head?_eq_some_iff (hlines.text k).1

/-- A request with a host, and bytes of the next one after it. -/
theorem readRequest_wellWritten_host : ∃ r, readRequest fullReads
    ((headerText "GET".toList ['/'] [("HOST".toList, " a".toList)]).asBytes ++ headerTerminator ++
      [71]) = .ok r ∧ r.authority = some ['a'] ∧ r.body = [] := by
  have hwritten : WellWritten "GET".toList ['/'] [("HOST".toList, " a".toList)] := by
    decide +kernel
  obtain ⟨hiff, hread⟩ := readRequest_wellWritten hwritten (by decide +kernel) [71] fullReads
  obtain ⟨r, hr⟩ := hiff.mpr ⟨by decide +kernel, by decide +kernel, 0, by decide +kernel,
    by decide, by decide +kernel, by decide⟩
  obtain ⟨-, -, htext, n, hn, hbody⟩ := hread r hr
  refine ⟨r, hr, (htext .authority ['a']).mpr (by decide +kernel), ?_⟩
  obtain rfl := Option.some.inj (hn.symm.trans (by decide +kernel : _ = some 0))
  exact hbody

end InfernalLaw
