import InfernalLaw.Http.ReadRequest

/-!
# The headers of a request

What the loop over the header lines accepts, and what it comes to. The names that it compares with
are in lower case and differ, so a line is for one of them at most.
-/

namespace InfernalLaw

/-- The headers that `read_request` keeps as text. -/
inductive TextHeader where
  | authority
  | contentType
  | contentDigest
  | serviceId
  | instanceId
  | requestId
  | signatureInput
  | signature
  deriving DecidableEq

namespace TextHeader

/-- The name of the header on the wire. -/
def name : TextHeader → Str
  | authority => "host".toList
  | contentType => "content-type".toList
  | contentDigest => "content-digest".toList
  | serviceId => "infernal-service-id".toList
  | instanceId => "infernal-instance-id".toList
  | requestId => "infernal-request-id".toList
  | signatureInput => "signature-input".toList
  | signature => "signature".toList

/-- What has been set for the header. -/
def get : TextHeader → ParsedHeaders → Option Str
  | authority => ParsedHeaders.authority
  | contentType => ParsedHeaders.contentType
  | contentDigest => ParsedHeaders.contentDigest
  | serviceId => ParsedHeaders.serviceId
  | instanceId => ParsedHeaders.instanceId
  | requestId => ParsedHeaders.requestId
  | signatureInput => ParsedHeaders.signatureInput
  | signature => ParsedHeaders.signature

/-- The headers with a value for this one. -/
def put (value : Str) : TextHeader → ParsedHeaders → ParsedHeaders
  | authority, h => { h with authority := some value }
  | contentType, h => { h with contentType := some value }
  | contentDigest, h => { h with contentDigest := some value }
  | serviceId, h => { h with serviceId := some value }
  | instanceId, h => { h with instanceId := some value }
  | requestId, h => { h with requestId := some value }
  | signatureInput, h => { h with signatureInput := some value }
  | signature, h => { h with signature := some value }

/-- The header that is set has the value, and the others stay. -/
theorem get_put (k k' : TextHeader) (value : Str) (h : ParsedHeaders) :
    k'.get (put value k h) = if k = k' then some value else k'.get h := by
  cases k <;> cases k' <;> rfl

/-- A text header leaves the length as it is. -/
@[simp] theorem contentLength_put (k : TextHeader) (value : Str) (h : ParsedHeaders) :
    (put value k h).contentLength = h.contentLength := by
  cases k <;> rfl

/-- The value in the request is the one that has been set. -/
def ofRequest : TextHeader → ParsedRequest → Option Str
  | authority => ParsedRequest.authority
  | contentType => ParsedRequest.contentType
  | contentDigest => ParsedRequest.contentDigest
  | serviceId => ParsedRequest.serviceId
  | instanceId => ParsedRequest.instanceId
  | requestId => ParsedRequest.requestId
  | signatureInput => ParsedRequest.signatureInput
  | signature => ParsedRequest.signature

/-- The request has the header that its head has. -/
theorem ofRequest_request (k : TextHeader) (head : ParsedHead) (body : List UInt8) :
    k.ofRequest (head.request body) = k.get head.headers := by
  cases k <;> rfl

end TextHeader

/-- The name of the header with the length of the body. -/
def contentLengthName : Str := "content-length".toList

/-- The name of the header that is refused. -/
def transferEncodingName : Str := "transfer-encoding".toList

/-- The names of the headers are in lower case. -/
theorem TextHeader.map_toLower_name (k : TextHeader) : k.name.map Char.toLower = k.name := by
  cases k <;> decide +kernel

/-- They differ. -/
theorem TextHeader.name_inj {k k' : TextHeader} : k.name = k'.name ↔ k = k' := by
  refine ⟨fun h => ?_, fun h => congrArg name h⟩
  revert h
  cases k <;> cases k' <;> decide +kernel

/-- The length of the body and the transfer encoding have other names. -/
theorem TextHeader.name_ne (k : TextHeader) :
    k.name ≠ contentLengthName ∧ k.name ≠ transferEncodingName := by
  cases k <;> decide +kernel

/-- They are in lower case, too, and differ. -/
theorem map_toLower_names : contentLengthName.map Char.toLower = contentLengthName ∧
    transferEncodingName.map Char.toLower = transferEncodingName ∧
    contentLengthName ≠ transferEncodingName := by decide +kernel

/-! ## One line -/

/-- The name stands for the header, in any case. -/
def Str.Names (name text : Str) : Prop := name.map Char.toLower = text

instance (name text : Str) : Decidable (name.Names text) := inferInstanceAs (Decidable (_ = _))

/-- A name is compared in lower case. -/
theorem Str.eqIgnoreAsciiCase_eq {name text : Str} (h : text.map Char.toLower = text) :
    name.eqIgnoreAsciiCase text = decide (name.Names text) := by
  rw [eqIgnoreAsciiCase, h]
  rfl

namespace ParsedHeaders

variable {h h' : ParsedHeaders} {name value : Str}

/-- The comparisons that the loop makes for a line. -/
theorem set_eq : h.set name value =
    if name.Names contentLengthName then
      if h.contentLength.isSome then .error .malformed
      else do
        let contentLength ← value.parseUsize.elim (.error .malformed) .ok
        return { h with contentLength := some contentLength }
    else if name.Names TextHeader.contentType.name then
      return { h with contentType := ← setHeader h.contentType value }
    else if name.Names TextHeader.authority.name then
      return { h with authority := ← setHeader h.authority value }
    else if name.Names TextHeader.contentDigest.name then
      return { h with contentDigest := ← setHeader h.contentDigest value }
    else if name.Names TextHeader.serviceId.name then
      return { h with serviceId := ← setHeader h.serviceId value }
    else if name.Names TextHeader.instanceId.name then
      return { h with instanceId := ← setHeader h.instanceId value }
    else if name.Names TextHeader.requestId.name then
      return { h with requestId := ← setHeader h.requestId value }
    else if name.Names TextHeader.signatureInput.name then
      return { h with signatureInput := ← setHeader h.signatureInput value }
    else if name.Names TextHeader.signature.name then
      return { h with signature := ← setHeader h.signature value }
    else if name.Names transferEncodingName then .error .malformed
    else return h := by
  -- The names of the source are in lower case, so the comparison without case is one with the name
  -- in lower case.
  have hcompare : ∀ k : TextHeader, name.eqIgnoreAsciiCase k.name = decide (name.Names k.name) :=
    fun k => Str.eqIgnoreAsciiCase_eq k.map_toLower_name
  have hlength : name.eqIgnoreAsciiCase "content-length".toList =
      decide (name.Names contentLengthName) := Str.eqIgnoreAsciiCase_eq map_toLower_names.1
  have hencoding : name.eqIgnoreAsciiCase "transfer-encoding".toList =
      decide (name.Names transferEncodingName) := Str.eqIgnoreAsciiCase_eq map_toLower_names.2.1
  have hcontentType : name.eqIgnoreAsciiCase "content-type".toList = _ := hcompare .contentType
  have hauthority : name.eqIgnoreAsciiCase "host".toList = _ := hcompare .authority
  have hcontentDigest : name.eqIgnoreAsciiCase "content-digest".toList = _ :=
    hcompare .contentDigest
  have hserviceId : name.eqIgnoreAsciiCase "infernal-service-id".toList = _ := hcompare .serviceId
  have hinstanceId : name.eqIgnoreAsciiCase "infernal-instance-id".toList = _ :=
    hcompare .instanceId
  have hrequestId : name.eqIgnoreAsciiCase "infernal-request-id".toList = _ := hcompare .requestId
  have hsignatureInput : name.eqIgnoreAsciiCase "signature-input".toList = _ :=
    hcompare .signatureInput
  have hsignature : name.eqIgnoreAsciiCase "signature".toList = _ := hcompare .signature
  rw [set, hlength, hauthority, hcontentType, hcontentDigest, hserviceId, hinstanceId, hrequestId,
    hsignatureInput, hsignature, hencoding]
  simp only [decide_eq_true_eq]

/-- A name stands for one header only. -/
theorem names_iff {k k' : TextHeader} (hname : name.Names k.name) :
    name.Names k'.name ↔ k' = k := by
  rw [Str.Names, show name.map Char.toLower = k.name from hname, TextHeader.name_inj, eq_comm]

/-- What follows on `set_header`. -/
theorem setHeader_bind {β : Type} (target : Option Str)
    (f : Option Str → Except RequestReadError β) :
    (setHeader target value >>= f) =
      if target.isSome ∨ value = [] then .error .malformed else f (some value) := by
  unfold setHeader
  split <;> rfl

/-- What is set for one of the headers that are kept as text. -/
theorem set_text {k : TextHeader} (hname : name.Names k.name) : h.set name value =
    if (k.get h).isSome ∨ value = [] then .error .malformed else .ok (k.put value h) := by
  have hlength : ¬ name.Names contentLengthName := fun heq =>
    k.name_ne.1 (hname.symm.trans heq)
  rw [set_eq, if_neg hlength]
  simp only [names_iff hname]
  cases k <;>
    simp only [reduceCtorEq, if_false, if_true, setHeader_bind, TextHeader.get, TextHeader.put] <;>
    rfl

/-- What is set for the length of the body. -/
theorem set_contentLength (hname : name.Names contentLengthName) : h.set name value =
    if h.contentLength.isSome then .error .malformed
    else value.parseUsize.elim (.error .malformed) fun n =>
      .ok { h with contentLength := some n } := by
  rw [set_eq, if_pos hname]
  split
  · rfl
  · cases value.parseUsize <;> rfl

/-- A transfer encoding is refused. -/
theorem set_transferEncoding (hname : name.Names transferEncodingName) :
    h.set name value = .error .malformed := by
  have hlength : ¬ name.Names contentLengthName := fun heq =>
    map_toLower_names.2.2 (heq.symm.trans hname)
  have htext : ∀ k : TextHeader, ¬ name.Names k.name :=
    fun k heq => k.name_ne.2 (heq.symm.trans hname)
  rw [set_eq, if_neg hlength]
  simp only [htext, if_false, if_pos hname]

/-- Any other header is ignored. -/
theorem set_other (hlength : ¬ name.Names contentLengthName)
    (hencoding : ¬ name.Names transferEncodingName)
    (htext : ∀ k : TextHeader, ¬ name.Names k.name) :
    h.set name value = .ok h := by
  rw [set_eq, if_neg hlength]
  simp only [htext, if_false, if_neg hencoding]
  rfl

/-- What a line must be to be accepted after the others. -/
structure Settable (h : ParsedHeaders) (name value : Str) : Prop where
  text : ∀ k : TextHeader, name.Names k.name → k.get h = none ∧ value ≠ []
  contentLength : name.Names contentLengthName → h.contentLength = none ∧ value.parseUsize ≠ none
  encoding : ¬ name.Names transferEncodingName

/-- What an accepted line changes. -/
structure Sets (h : ParsedHeaders) (name value : Str) (h' : ParsedHeaders) : Prop where
  text : ∀ k : TextHeader, k.get h' = if name.Names k.name then some value else k.get h
  contentLength : h'.contentLength =
    if name.Names contentLengthName then value.parseUsize else h.contentLength

/-- An acceptable line is accepted. -/
theorem Settable.exists_set (hs : h.Settable name value) : ∃ h', h.set name value = .ok h' := by
  by_cases hlength : name.Names contentLengthName
  · obtain ⟨hnone, hparse⟩ := hs.contentLength hlength
    obtain ⟨n, hn⟩ := Option.ne_none_iff_exists'.mp hparse
    rw [set_contentLength hlength, hnone, hn]
    exact ⟨_, rfl⟩
  by_cases htext : ∃ k : TextHeader, name.Names k.name
  · obtain ⟨k, hk⟩ := htext
    obtain ⟨hnone, hvalue⟩ := hs.text k hk
    rw [set_text hk, hnone, if_neg (by simp [hvalue])]
    exact ⟨_, rfl⟩
  · push Not at htext
    exact ⟨h, set_other hlength hs.encoding htext⟩

/-- What holds of a line that is accepted, and what it changes. -/
theorem of_set (hset : h.set name value = .ok h') :
    h.Settable name value ∧ h.Sets name value h' := by
  -- A name is the length's, the encoding's, a text header's or another one, and never two of these.
  by_cases hlength : name.Names contentLengthName
  · have htext : ∀ k : TextHeader, ¬ name.Names k.name := fun k heq =>
      k.name_ne.1 (heq.symm.trans hlength)
    have hencoding : ¬ name.Names transferEncodingName := fun heq =>
      map_toLower_names.2.2 (hlength.symm.trans heq)
    rw [set_contentLength hlength] at hset
    split at hset
    · cases hset
    rename_i hnone
    cases hparse : value.parseUsize with
    | none =>
      rw [hparse] at hset
      cases hset
    | some n =>
      rw [hparse] at hset
      obtain rfl := Except.ok.inj hset
      refine ⟨⟨fun k hk => absurd hk (htext k), fun _ => ⟨by simpa using hnone, by simp [hparse]⟩,
        hencoding⟩, fun k => ?_, ?_⟩
      · rw [if_neg (htext k)]
        cases k <;> rfl
      · rw [if_pos hlength, hparse]
  by_cases hencoding : name.Names transferEncodingName
  · rw [set_transferEncoding hencoding] at hset
    cases hset
  by_cases htext : ∃ k : TextHeader, name.Names k.name
  · obtain ⟨k, hk⟩ := htext
    rw [set_text hk] at hset
    split at hset
    · cases hset
    rename_i hcond
    obtain rfl := Except.ok.inj hset
    rw [not_or] at hcond
    refine ⟨⟨fun k' hk' => ?_, fun hname => absurd hname hlength, hencoding⟩, fun k' => ?_, ?_⟩
    · rw [(names_iff hk).mp hk']
      exact ⟨by simpa using hcond.1, hcond.2⟩
    · rw [TextHeader.get_put]
      simp only [names_iff hk, eq_comm]
    · rw [TextHeader.contentLength_put, if_neg hlength]
  · push Not at htext
    rw [set_other hlength hencoding htext] at hset
    obtain rfl := Except.ok.inj hset
    refine ⟨⟨fun k hk => absurd hk (htext k), fun hname => absurd hname hlength, hencoding⟩,
      fun k => ?_, ?_⟩
    · rw [if_neg (htext k)]
    · rw [if_neg hlength]

/-! ## All lines -/

/-- What the lines do, each as a name and a value. -/
def setAll (lines : List (Str × Str)) : Except RequestReadError ParsedHeaders :=
  lines.foldlM (fun h line => h.set line.1 line.2.trim) {}

/-- The values that the lines have for a header. -/
def valuesOf (text : Str) (lines : List (Str × Str)) : List Str :=
  (lines.filter fun line => line.1.Names text).map fun line => line.2.trim

/-- The values with one line more. -/
theorem valuesOf_snoc (text : Str) (lines : List (Str × Str)) (line : Str × Str) :
    valuesOf text (lines ++ [line]) =
      valuesOf text lines ++ if line.1.Names text then [line.2.trim] else [] := by
  rw [valuesOf, List.filter_append, List.map_append, List.filter_singleton]
  by_cases h : line.1.Names text
  · simp [valuesOf, h]
  · simp [valuesOf, h]

/-- The lines that are accepted: each header that is kept occurs once at most, not empty, and there
is no transfer encoding. -/
structure Acceptable (lines : List (Str × Str)) : Prop where
  text : ∀ k : TextHeader, (valuesOf k.name lines).length ≤ 1 ∧ [] ∉ valuesOf k.name lines
  contentLength : (valuesOf contentLengthName lines).length ≤ 1 ∧
    ∀ value ∈ valuesOf contentLengthName lines, value.parseUsize ≠ none
  encoding : valuesOf transferEncodingName lines = []

/-- The headers are what the lines say. -/
structure Holds (h : ParsedHeaders) (lines : List (Str × Str)) : Prop where
  text : ∀ k : TextHeader, k.get h = (valuesOf k.name lines).head?
  contentLength : h.contentLength = (valuesOf contentLengthName lines).head?.bind Str.parseUsize

/-- A list without a first element is empty. -/
theorem nil_of_head? {values : List Str} (h : values.head? = none) : values = [] := by
  cases values with
  | nil => rfl
  | cons => cases h

variable {lines : List (Str × Str)} {line : Str × Str}

/-- Nothing has been set for a header if and only if no line is for it. -/
theorem Holds.get_eq_none (hholds : h.Holds lines) (k : TextHeader) :
    k.get h = none ↔ valuesOf k.name lines = [] := by
  rw [hholds.text]
  exact ⟨nil_of_head?, fun hnil => by rw [hnil]; rfl⟩

/-- So with the length of the body. -/
theorem Holds.contentLength_eq_none (hlines : Acceptable lines) (hholds : h.Holds lines) :
    h.contentLength = none ↔ valuesOf contentLengthName lines = [] := by
  rw [hholds.contentLength]
  constructor
  · intro hnone
    refine nil_of_head? ?_
    by_contra hne
    obtain ⟨value, hvalue⟩ := Option.ne_none_iff_exists'.mp hne
    rw [hvalue, Option.bind_some] at hnone
    exact hlines.contentLength.2 value (List.mem_of_head? hvalue) hnone
  · intro hnil
    rw [hnil]
    rfl

/-- One line more is accepted if and only if it can be set. -/
theorem Acceptable.snoc_iff (hlines : Acceptable lines) (hholds : h.Holds lines) :
    Acceptable (lines ++ [line]) ↔ h.Settable line.1 line.2.trim := by
  constructor
  · intro hall
    refine ⟨fun k hk => ?_, fun hlength => ?_, fun hencoding => ?_⟩
    · -- A header that was set before would now be there twice.
      have htext := hall.text k
      rw [valuesOf_snoc, if_pos hk] at htext
      rw [hholds.get_eq_none]
      refine ⟨List.eq_nil_of_length_eq_zero ?_, fun hnil => htext.2 (by simp [hnil])⟩
      have := htext.1
      rw [List.length_append, List.length_singleton] at this
      omega
    · have hvalues := hall.contentLength
      rw [valuesOf_snoc, if_pos hlength] at hvalues
      rw [hholds.contentLength_eq_none hlines]
      refine ⟨List.eq_nil_of_length_eq_zero ?_, hvalues.2 _ (by simp)⟩
      have := hvalues.1
      rw [List.length_append, List.length_singleton] at this
      omega
    · have hnil := hall.encoding
      rw [valuesOf_snoc, if_pos hencoding] at hnil
      simp at hnil
  · intro hsettable
    refine ⟨fun k => ?_, ?_, ?_⟩
    · -- Only the header that the line names has one value more.
      rw [valuesOf_snoc]
      by_cases hk : line.1.Names k.name
      · obtain ⟨hnone, hvalue⟩ := hsettable.text k hk
        rw [if_pos hk, (hholds.get_eq_none k).mp hnone, List.nil_append, List.mem_singleton]
        exact ⟨Nat.le_refl _, Ne.symm hvalue⟩
      · rw [if_neg hk, List.append_nil]
        exact hlines.text k
    · rw [valuesOf_snoc]
      by_cases hlength : line.1.Names contentLengthName
      · obtain ⟨hnone, hparse⟩ := hsettable.contentLength hlength
        rw [if_pos hlength, (hholds.contentLength_eq_none hlines).mp hnone, List.nil_append]
        exact ⟨Nat.le_refl _, fun value hvalue => List.mem_singleton.mp hvalue ▸ hparse⟩
      · rw [if_neg hlength, List.append_nil]
        exact hlines.contentLength
    · rw [valuesOf_snoc, if_neg hsettable.encoding, List.append_nil]
      exact hlines.encoding

/-- The headers with one line more. -/
theorem Holds.snoc (hlines : Acceptable lines) (hholds : h.Holds lines)
    (hsettable : h.Settable line.1 line.2.trim) (hsets : h.Sets line.1 line.2.trim h') :
    h'.Holds (lines ++ [line]) := by
  constructor
  · intro k
    rw [hsets.text, valuesOf_snoc]
    by_cases hk : line.1.Names k.name
    · rw [if_pos hk, if_pos hk, (hholds.get_eq_none k).mp (hsettable.text k hk).1]
      rfl
    · rw [if_neg hk, if_neg hk, List.append_nil, hholds.text]
  · rw [hsets.contentLength, valuesOf_snoc]
    by_cases hlength : line.1.Names contentLengthName
    · have hnil := (hholds.contentLength_eq_none hlines).mp (hsettable.contentLength hlength).1
      rw [if_pos hlength, if_pos hlength, hnil]
      rfl
    · rw [if_neg hlength, if_neg hlength, List.append_nil, hholds.contentLength]

/-- The lines are taken one after the other. -/
theorem setAll_snoc :
    setAll (lines ++ [line]) = setAll lines >>= fun h => h.set line.1 line.2.trim := by
  rw [setAll, setAll, List.foldlM_append]
  simp

/-- Lines that the loop gets through are acceptable, and the headers are what they say. -/
theorem of_setAll (hset : setAll lines = .ok h) : Acceptable lines ∧ h.Holds lines := by
  induction lines using List.reverseRecOn generalizing h with
  | nil =>
    obtain rfl := Except.ok.inj hset
    exact ⟨⟨fun _ => ⟨Nat.zero_le _, List.not_mem_nil⟩, ⟨Nat.zero_le _, by simp [valuesOf]⟩, rfl⟩,
      fun k => by cases k <;> rfl, rfl⟩
  | append_singleton lines line ih =>
    rw [setAll_snoc] at hset
    cases hrest : setAll lines with
    | error e =>
      rw [hrest] at hset
      cases hset
    | ok h₁ =>
      rw [hrest] at hset
      obtain ⟨hlines, hholds⟩ := ih hrest
      obtain ⟨hsettable, hsets⟩ := of_set hset
      exact ⟨(hlines.snoc_iff hholds).mpr hsettable, hholds.snoc hlines hsettable hsets⟩

/-- The first of acceptable lines are acceptable. -/
theorem Acceptable.of_snoc (hall : Acceptable (lines ++ [line])) : Acceptable lines := by
  have hvalues : ∀ text, (valuesOf text lines).length ≤ (valuesOf text (lines ++ [line])).length ∧
      ∀ value ∈ valuesOf text lines, value ∈ valuesOf text (lines ++ [line]) := by
    intro text
    rw [valuesOf_snoc, List.length_append]
    exact ⟨Nat.le_add_right _ _, fun value hvalue => List.mem_append_left _ hvalue⟩
  refine ⟨fun k => ⟨(hvalues _).1.trans (hall.text k).1, fun hnil => ?_⟩, ⟨?_, ?_⟩, ?_⟩
  · exact (hall.text k).2 ((hvalues _).2 _ hnil)
  · exact (hvalues _).1.trans hall.contentLength.1
  · exact fun value hvalue => hall.contentLength.2 value ((hvalues _).2 value hvalue)
  · refine List.eq_nil_of_length_eq_zero (Nat.le_zero.mp ?_)
    have := (hvalues transferEncodingName).1
    rwa [hall.encoding] at this

/-- The loop gets through acceptable lines. -/
theorem Acceptable.exists_setAll (hall : Acceptable lines) : ∃ h, setAll lines = .ok h := by
  induction lines using List.reverseRecOn with
  | nil => exact ⟨{}, rfl⟩
  | append_singleton lines line ih =>
    have hlines := hall.of_snoc
    obtain ⟨h, hset⟩ := ih hlines
    obtain ⟨-, hholds⟩ := of_setAll hset
    rw [setAll_snoc, hset]
    exact ((hlines.snoc_iff hholds).mp hall).exists_set

end ParsedHeaders

end InfernalLaw
