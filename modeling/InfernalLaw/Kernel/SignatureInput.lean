import InfernalLaw.Kernel.SignedMessages

/-!
# The text of a signature's parameters

`parse_signature_input` cuts the text of a signature's parameters at the first occurrences of their
labels, so that the values must have neither a semicolon nor a quotation mark: timestamps are
digits, a nonce has letters, digits, hyphens and underscores, and the text of a key's id has no
quotation mark. A timestamp may have leading zeros, and a UUID has several forms: `parsed_iff_plain`
says which of the texts that are accepted are those that `signature_parameters` writes.
-/

namespace InfernalLaw

open Postgres (bind_eq_ok toOption_eq_some)

/-! ## Decimal numbers -/

/-- The digits of a number, without leading zeros. -/
structure IsDecimal (digits : Str) : Prop where
  nonempty : digits.isEmpty = false
  isDigit : digits.all Char.isDigit = true
  leading : digits.head? = some '0' → digits = ['0']

/-- A timestamp from the epoch on is written in decimal digits. -/
theorem displayI64_eq {n : ℤ} (h : 0 ≤ n) : displayI64 n = Nat.toDigits 10 n.toNat := by
  obtain ⟨m, rfl⟩ := Int.eq_ofNat_of_zero_le h
  rw [displayI64, Int.toNat_natCast, ← Nat.toList_repr]
  rfl

/-- The digits of a number denote it. -/
theorem ofDigits_toDigits (n : ℕ) : ofDigits (Nat.toDigits 10 n) = n := by
  rw [ofDigits, ← Nat.ofDigitChars_eq_foldl]
  exact Nat.ofDigitChars_ten_toDigits

/-- The code point of a digit. -/
theorem toNat_of_isDigit {c : Char} (h : c.isDigit = true) : 48 ≤ c.toNat ∧ c.toNat ≤ 57 := by
  unfold Char.isDigit at h
  rw [Bool.and_eq_true, decide_eq_true_eq, decide_eq_true_eq] at h
  exact h

/-- A digit is the one of its value. -/
theorem digitChar_of_isDigit {c : Char} (h : c.isDigit = true) :
    Nat.digitChar (c.toNat - 48) = c := by
  obtain ⟨hlow, hhigh⟩ := toNat_of_isDigit h
  refine Char.toNat_inj.mp ?_
  rw [Nat.toNat_digitChar_of_lt_ten (by omega)]
  omega

/-- More digits after those of a number that is not zero. -/
theorem toDigits_append {n : ℕ} (hn : 0 < n) {digits : Str} (h : digits.all Char.isDigit = true) :
    Nat.toDigits 10 n ++ digits = Nat.toDigits 10 (Nat.ofDigitChars 10 digits n) := by
  induction digits generalizing n with
  | nil => rw [List.append_nil, Nat.ofDigitChars_nil]
  | cons c digits ih =>
    rw [List.all_cons, Bool.and_eq_true] at h
    obtain ⟨hlow, hhigh⟩ := toNat_of_isDigit h.1
    have hvalue : c.toNat - 48 < 10 := by omega
    have hnext : Nat.toDigits 10 n ++ [c] = Nat.toDigits 10 (10 * n + (c.toNat - 48)) := by
      rw [← Nat.toDigits_append_toDigits (by omega) hn hvalue, Nat.toDigits_of_lt_base hvalue,
        digitChar_of_isDigit h.1]
    calc Nat.toDigits 10 n ++ c :: digits
        = Nat.toDigits 10 n ++ [c] ++ digits := by rw [List.append_assoc, List.singleton_append]
      _ = Nat.toDigits 10 (10 * n + (c.toNat - 48)) ++ digits := by rw [hnext]
      _ = _ := ih (by omega) h.2

/-- A number without leading zeros is written with the digits that denote it. -/
theorem IsDecimal.toDigits {digits : Str} (h : IsDecimal digits) :
    Nat.toDigits 10 (ofDigits digits) = digits := by
  have hdigits := h.isDigit
  cases digits with
  | nil => exact absurd h.nonempty (by decide)
  | cons c digits =>
    rw [List.all_cons, Bool.and_eq_true] at hdigits
    obtain ⟨hlow, hhigh⟩ := toNat_of_isDigit hdigits.1
    by_cases hzero : c = '0'
    · rw [h.leading (by rw [hzero]; rfl)]
      decide
    · -- The first digit is the number that the others are appended to.
      have hpos : c.toNat ≠ 48 := fun heq => hzero (Char.toNat_inj.mp heq)
      have hfirst : Nat.toDigits 10 (c.toNat - 48) = [c] := by
        rw [Nat.toDigits_of_lt_base (by omega), digitChar_of_isDigit hdigits.1]
      have hvalue : ofDigits (c :: digits) = Nat.ofDigitChars 10 digits (c.toNat - 48) := by
        rw [ofDigits, ← Nat.ofDigitChars_eq_foldl, Nat.ofDigitChars_cons, Nat.mul_zero,
          Nat.zero_add]
        rfl
      rw [hvalue, ← toDigits_append (by omega) hdigits.2, hfirst, List.singleton_append]

/-- The digits of a number that is not zero begin with another digit than zero. -/
theorem head_toDigits {n : ℕ} (hn : 0 < n) : (Nat.toDigits 10 n).head? ≠ some '0' := by
  induction n using Nat.strongRecOn with
  | ind n ih =>
    by_cases hlt : n < 10
    · rw [Nat.toDigits_of_lt_base hlt]
      intro heq
      have hcode := congrArg Char.toNat (Option.some.inj heq)
      rw [Nat.toNat_digitChar_of_lt_ten hlt] at hcode
      change 48 + n = 48 at hcode
      omega
    · rw [Nat.toDigits_of_base_le (by omega) (by omega),
        List.head?_append_of_ne_nil _ Nat.toDigits_ne_nil]
      exact ih (n / 10) (by omega) (by omega)

/-- Numbers are written without leading zeros. -/
theorem isDecimal_toDigits (n : ℕ) : IsDecimal (Nat.toDigits 10 n) where
  nonempty := List.isEmpty_eq_false_iff.mpr Nat.toDigits_ne_nil
  isDigit := List.all_eq_true.mpr fun c hc => Nat.isDigit_of_mem_toDigits (by omega) (by omega) hc
  leading h := by
    rcases Nat.eq_zero_or_pos n with rfl | hpos
    · exact Nat.toDigits_zero 10
    · exact absurd h (head_toDigits hpos)

/-- A digit is no semicolon. -/
theorem semicolon_not_mem_digits {digits : Str} (h : digits.all Char.isDigit = true) :
    ';' ∉ digits := by
  intro hmem
  have hdigit := List.all_eq_true.mp h _ hmem
  revert hdigit
  decide

/-! ## Timestamps -/

/-- What `parse_timestamp` reads. -/
theorem parseTimestamp_eq_ok {text : Str} {n : ℤ} :
    parseTimestamp text = .ok n ↔
      text.isEmpty = false ∧ text.all Char.isDigit = true ∧ ofDigits text < 2 ^ 63 ∧
        n = ofDigits text := by
  unfold parseTimestamp
  split
  · rename_i hbad
    rw [Bool.or_eq_true, Bool.not_eq_true'] at hbad
    constructor
    · intro h
      cases h
    · rintro ⟨hne, hall, -⟩
      rw [hne, hall] at hbad
      rcases hbad with hbad | hbad <;> cases hbad
  · rename_i hgood
    rw [Bool.or_eq_true, not_or, Bool.not_eq_true, Bool.not_eq_true', Bool.not_eq_false] at hgood
    split
    · rename_i hlt
      constructor
      · exact fun h => ⟨hgood.1, hgood.2, hlt, (Except.ok.inj h).symm⟩
      · rintro ⟨-, -, -, rfl⟩
        rfl
    · rename_i hge
      constructor
      · intro h
        cases h
      · exact fun h => absurd h.2.2.1 hge

/-- A timestamp is read back. -/
theorem parseTimestamp_displayI64 {n : ℤ} (h₀ : 0 ≤ n) (h : IsI64 n) :
    parseTimestamp (displayI64 n) = .ok n := by
  have hdecimal := isDecimal_toDigits n.toNat
  have hlt : n.toNat < 2 ^ 63 := by
    unfold IsI64 at h
    omega
  rw [displayI64_eq h₀]
  refine parseTimestamp_eq_ok.mpr ⟨hdecimal.nonempty, hdecimal.isDigit, ?_, ?_⟩
  · rwa [ofDigits_toDigits]
  · rw [ofDigits_toDigits, Int.toNat_of_nonneg h₀]

/-- A timestamp has no semicolon. -/
theorem semicolon_not_mem_displayI64 {n : ℤ} (h : 0 ≤ n) : ';' ∉ displayI64 n := by
  rw [displayI64_eq h]
  exact semicolon_not_mem_digits (isDecimal_toDigits _).isDigit

/-- What a timestamp is that has been read. -/
theorem parseTimestamp_range {text : Str} {n : ℤ} (h : parseTimestamp text = .ok n) :
    0 ≤ n ∧ IsI64 n := by
  obtain ⟨-, -, hlt, rfl⟩ := parseTimestamp_eq_ok.mp h
  unfold IsI64
  omega

/-- A timestamp that has been read is written as it was exactly when it had no leading zeros. -/
theorem displayI64_eq_iff {text : Str} {n : ℤ} (h : parseTimestamp text = .ok n) :
    displayI64 n = text ↔ IsDecimal text := by
  obtain ⟨-, -, -, rfl⟩ := parseTimestamp_eq_ok.mp h
  rw [displayI64_eq (Int.natCast_nonneg _), Int.toNat_natCast]
  refine ⟨fun heq => ?_, IsDecimal.toDigits⟩
  rw [← heq]
  exact isDecimal_toDigits _

/-! ## The parameters -/

/-- The texts around which the labels of the parameters are put. -/
def spelling (created expires nonce keyId : Str) : Str :=
  coveredComponents ++ ";created=".toList ++ created ++ ";expires=".toList ++ expires ++
    ";nonce=\"".toList ++ nonce ++ "\";keyid=\"".toList ++ keyId ++ "\";alg=\"ed25519\"".toList

/-- The texts that other crates write are read back, and a UUID has no quotation mark. -/
structure Crates.RoundTrips (crates : Crates) : Prop where
  parseUuid : ∀ u, crates.parseUuid (crates.displayUuid u) = some u
  decodeBase64 : ∀ b, crates.decodeBase64 (crates.encodeBase64 b) = some b
  quote_not_mem_displayUuid : ∀ u, '"' ∉ crates.displayUuid u

/-- What the metadata of a signature has been checked for. -/
theorem validateSignatureMetadata_eq_ok {created expires : ℤ} {nonce : Str}
    (h : validateSignatureMetadata created expires nonce = .ok ()) :
    0 ≤ created ∧ created < expires ∧ '"' ∉ nonce := by
  unfold validateSignatureMetadata at h
  split at h
  · cases h
  rename_i hchecked
  simp only [not_or, not_lt, not_le, Bool.not_eq_false] at hchecked
  obtain ⟨hcreated, hexpires, -, -, -, hnonce⟩ := hchecked
  refine ⟨hcreated, hexpires, fun hmem => ?_⟩
  have hquote := List.all_eq_true.mp hnonce _ hmem
  revert hquote
  decide

section

variable {crates : Crates}

/-- What follows once a text has been cut. -/
theorem orMalformed_bind {β γ : Type} {x : Option β} {b : β} (h : x = some b)
    {f : β → Except ServiceRequestAuthenticationError γ} : (orMalformed x >>= f) = f b := by
  rw [h]
  rfl

/-- The labels cut the parameters where the texts were put in. -/
theorem parseSignatureInput_spelling {created expires nonce keyId : Str} (hcreated : ';' ∉ created)
    (hexpires : ';' ∉ expires) (hnonce : '"' ∉ nonce) (hkeyId : '"' ∉ keyId) :
    parseSignatureInput crates (signatureLabel ++ ['='] ++ spelling created expires nonce keyId) =
      (do
      let created' ← parseTimestamp created
      let expires' ← parseTimestamp expires
      validateSignatureMetadata created' expires' nonce
      let keyId' ← orMalformed (crates.parseUuid keyId)
      return { parameters := spelling created expires nonce keyId, created := created'
               expires := expires', nonce, keyId := ⟨keyId'⟩ }) := by
  -- What is left after each of the cuts, from the last one back to the first.
  let afterKeyId : Str := "ed25519\"".toList
  let afterNonce : Str := keyId ++ "\";alg=\"".toList ++ afterKeyId
  let afterExpires : Str := nonce ++ "\";keyid=\"".toList ++ afterNonce
  let afterCreated : Str := expires ++ ";nonce=\"".toList ++ afterExpires
  let afterLabel : Str := created ++ ";expires=".toList ++ afterCreated
  have hparameters : spelling created expires nonce keyId =
      coveredComponents ++ (";created=".toList ++ afterLabel) := by
    have halg : "\";alg=\"ed25519\"".toList = "\";alg=\"".toList ++ "ed25519\"".toList := by decide
    simp only [spelling, afterLabel, afterCreated, afterExpires, afterNonce, afterKeyId, halg,
      List.append_assoc]
  have hlabel : Str.stripPrefix (signatureLabel ++ ['='] ++ spelling created expires nonce keyId)
      (signatureLabel ++ ['=']) = some (spelling created expires nonce keyId) :=
    Str.stripPrefix_eq_some.mpr rfl
  have hcovered : (Str.stripPrefix (spelling created expires nonce keyId) coveredComponents).bind
      (fun value => Str.stripPrefix value ";created=".toList) = some afterLabel := by
    rw [Str.stripPrefix_eq_some.mpr hparameters, Option.bind_some]
    exact Str.stripPrefix_eq_some.mpr rfl
  have hcreatedText : Str.splitOnce ";expires=".toList afterLabel = some (created, afterCreated) :=
    Str.splitOnce_label (c := ';') (by decide) hcreated
  have hexpiresText : Str.splitOnce ";nonce=\"".toList afterCreated =
      some (expires, afterExpires) :=
    Str.splitOnce_label (c := ';') (by decide) hexpires
  have hnonceText : Str.splitOnce "\";keyid=\"".toList afterExpires = some (nonce, afterNonce) :=
    Str.splitOnce_label (c := '"') (by decide) hnonce
  have hkeyIdText : Str.splitOnce "\";alg=\"".toList afterNonce = some (keyId, afterKeyId) :=
    Str.splitOnce_label (c := '"') (by decide) hkeyId
  unfold parseSignatureInput
  rw [orMalformed_bind hlabel, orMalformed_bind hcovered, orMalformed_bind hcreatedText]
  dsimp only
  rw [orMalformed_bind hexpiresText]
  dsimp only
  rw [orMalformed_bind hnonceText]
  dsimp only
  rw [orMalformed_bind hkeyIdText]
  have halgorithm : ¬ afterKeyId ≠ "ed25519\"".toList := fun hne => hne rfl
  exact if_neg halgorithm

/-- What `sign` writes are timestamps without leading zeros, and the key's id as it is displayed. -/
theorem signatureParameters_eq (created expires : ℤ) (nonce : Str) (keyId : KeyId) :
    signatureParameters crates created expires nonce keyId =
      spelling (displayI64 created) (displayI64 expires) nonce
      (crates.displayUuid keyId.uuid) := rfl

/-- What `sign` writes is read back. -/
theorem parseSignatureInput_signatureParameters (hc : crates.RoundTrips) {created expires : ℤ}
    {nonce : Str} {keyId : KeyId} (hcreated : IsI64 created) (hexpires : IsI64 expires)
    (h : validateSignatureMetadata created expires nonce = .ok ()) :
    parseSignatureInput crates
        (signatureLabel ++ ['='] ++ signatureParameters crates created expires nonce keyId) =
      .ok { parameters := signatureParameters crates created expires nonce keyId
            created, expires, nonce, keyId } := by
  obtain ⟨hcreated₀, hlt, hnonce⟩ := validateSignatureMetadata_eq_ok h
  have hexpires₀ : 0 ≤ expires := by omega
  rw [signatureParameters_eq, parseSignatureInput_spelling (semicolon_not_mem_displayI64 hcreated₀)
    (semicolon_not_mem_displayI64 hexpires₀) hnonce (hc.quote_not_mem_displayUuid _)]
  refine bind_eq_ok.mpr ⟨_, parseTimestamp_displayI64 hcreated₀ hcreated, ?_⟩
  refine bind_eq_ok.mpr ⟨_, parseTimestamp_displayI64 hexpires₀ hexpires, ?_⟩
  refine bind_eq_ok.mpr ⟨_, h, ?_⟩
  exact bind_eq_ok.mpr ⟨_, orMalformed_eq_ok.mpr (hc.parseUuid _), rfl⟩

/-- What is read is what the text spells. -/
theorem spelling_of_parseSignatureInput {value : Str} {metadata : SignatureMetadata}
    (h : parseSignatureInput crates value = .ok metadata) :
    ∃ created expires keyId, value = signatureLabel ++ ['='] ++ spelling created expires
      metadata.nonce keyId ∧ parseTimestamp created = .ok metadata.created ∧
      parseTimestamp expires = .ok metadata.expires ∧
      validateSignatureMetadata metadata.created metadata.expires metadata.nonce = .ok () ∧
      crates.parseUuid keyId = some metadata.keyId.uuid := by
  unfold parseSignatureInput at h
  -- The text is taken apart at its fixed labels, from the left.
  obtain ⟨parameters, hlabel, h⟩ := bind_eq_ok.mp h
  obtain ⟨afterLabel, hcovered, h⟩ := bind_eq_ok.mp h
  obtain ⟨⟨created, afterCreated⟩, hcreatedText, h⟩ := bind_eq_ok.mp h
  obtain ⟨⟨expires, afterExpires⟩, hexpiresText, h⟩ := bind_eq_ok.mp h
  obtain ⟨⟨nonce, afterNonce⟩, hnonceText, h⟩ := bind_eq_ok.mp h
  obtain ⟨⟨keyId, afterKeyId⟩, hkeyIdText, h⟩ := bind_eq_ok.mp h
  dsimp only at h
  split at h
  · cases h
  rename_i halgorithm
  rw [ne_eq, not_not] at halgorithm
  obtain ⟨created', hcreated, h⟩ := bind_eq_ok.mp h
  obtain ⟨expires', hexpires, h⟩ := bind_eq_ok.mp h
  obtain ⟨⟨⟩, hvalid, h⟩ := bind_eq_ok.mp h
  obtain ⟨uuid, huuid, h⟩ := bind_eq_ok.mp h
  obtain rfl := Except.ok.inj h
  rw [orMalformed_eq_ok] at hlabel hcovered hcreatedText hexpiresText hnonceText hkeyIdText huuid
  obtain ⟨_, hprefix, hrest⟩ := Option.bind_eq_some_iff.mp hcovered
  refine ⟨created, expires, keyId, ?_, hcreated, hexpires, hvalid, huuid⟩
  -- Put together again, the parts are the text.
  rw [Str.stripPrefix_eq_some.mp hlabel, Str.stripPrefix_eq_some.mp hprefix,
    Str.stripPrefix_eq_some.mp hrest, Str.splitOnce_eq_some hcreatedText,
    Str.splitOnce_eq_some hexpiresText, Str.splitOnce_eq_some hnonceText,
    Str.splitOnce_eq_some hkeyIdText, halgorithm]
  have halg : "\";alg=\"ed25519\"".toList = "\";alg=\"".toList ++ "ed25519\"".toList := by decide
  simp only [spelling, halg, List.append_assoc]

/-! ## Canonical texts -/

/-- The timestamps have no leading zeros, and the key's id is in the form in which `KeyId` is
displayed. -/
def WrittenPlainly (crates : Crates) (value : Str) : Prop :=
  ∃ created expires nonce keyId, value = signatureLabel ++ ['='] ++
      spelling created expires nonce (crates.displayUuid keyId) ∧
    IsDecimal created ∧ IsDecimal expires ∧ '"' ∉ nonce

/-- Two texts say the same when these are the same of what is read from them. -/
def SignatureMetadata.values (m : SignatureMetadata) : ℤ × ℤ × Str × KeyId :=
  (m.created, m.expires, m.nonce, m.keyId)

/-- The text that `sign` writes for what has been read. -/
def SignatureMetadata.canonical (crates : Crates) (m : SignatureMetadata) : Str :=
  signatureLabel ++ ['='] ++ signatureParameters crates m.created m.expires m.nonce m.keyId

/-- What is written plainly is what would be written for what is read. -/
theorem eq_canonical_of_plain (hc : crates.RoundTrips) {value : Str} {metadata : SignatureMetadata}
    (h : parseSignatureInput crates value = .ok metadata) (hplain : WrittenPlainly crates value) :
    value = metadata.canonical crates := by
  obtain ⟨created, expires, nonce, keyId, rfl, hcreated, hexpires, hnonce⟩ := hplain
  rw [parseSignatureInput_spelling (semicolon_not_mem_digits hcreated.isDigit)
    (semicolon_not_mem_digits hexpires.isDigit) hnonce (hc.quote_not_mem_displayUuid _)] at h
  obtain ⟨created', hcreated', h⟩ := bind_eq_ok.mp h
  obtain ⟨expires', hexpires', h⟩ := bind_eq_ok.mp h
  obtain ⟨⟨⟩, -, h⟩ := bind_eq_ok.mp h
  rw [hc.parseUuid] at h
  obtain rfl := Except.ok.inj h
  rw [SignatureMetadata.canonical, signatureParameters_eq,
    (displayI64_eq_iff hcreated').mpr hcreated, (displayI64_eq_iff hexpires').mpr hexpires]

/-- A signature's input that is accepted is the one that would be written for what it says exactly
when it is written plainly. Those that are written plainly say different things, and all others have
a second spelling that is accepted. -/
theorem parsed_iff_plain (hc : crates.RoundTrips) {value : Str} {metadata : SignatureMetadata}
    (h : parseSignatureInput crates value = .ok metadata) :
    (value = signatureLabel ++ ['='] ++ signatureParameters crates metadata.created metadata.expires
        metadata.nonce metadata.keyId ↔ WrittenPlainly crates value) ∧
    (∀ value' metadata', parseSignatureInput crates value' = .ok metadata' →
      WrittenPlainly crates value → WrittenPlainly crates value' →
      metadata.values = metadata'.values → value = value') ∧
    (¬ WrittenPlainly crates value → ∃ value' metadata', value' ≠ value ∧
      parseSignatureInput crates value' = .ok metadata' ∧ metadata'.values = metadata.values) := by
  obtain ⟨created, expires, keyId, -, hcreated, hexpires, hvalid, -⟩ :=
    spelling_of_parseSignatureInput h
  obtain ⟨-, -, hnonce⟩ := validateSignatureMetadata_eq_ok hvalid
  obtain ⟨hcreated₀, hcreatedRange⟩ := parseTimestamp_range hcreated
  obtain ⟨hexpires₀, hexpiresRange⟩ := parseTimestamp_range hexpires
  -- What is written for the metadata is written plainly.
  have hplain : WrittenPlainly crates (metadata.canonical crates) := by
    refine ⟨_, _, _, _, rfl, ?_, ?_, hnonce⟩
    · rw [displayI64_eq hcreated₀]
      exact isDecimal_toDigits _
    · rw [displayI64_eq hexpires₀]
      exact isDecimal_toDigits _
  have hiff : value = metadata.canonical crates ↔ WrittenPlainly crates value := by
    refine ⟨fun heq => ?_, eq_canonical_of_plain hc h⟩
    rw [heq]
    exact hplain
  refine ⟨hiff, ?_, ?_⟩
  · intro value' metadata' h' hvalue hvalue' hvalues
    obtain ⟨hcreated, hexpires, hnonce, hkeyId⟩ :
        metadata.created = metadata'.created ∧ metadata.expires = metadata'.expires ∧
          metadata.nonce = metadata'.nonce ∧ metadata.keyId = metadata'.keyId := by
      simpa [SignatureMetadata.values] using hvalues
    rw [eq_canonical_of_plain hc h hvalue, eq_canonical_of_plain hc h' hvalue',
      SignatureMetadata.canonical, SignatureMetadata.canonical, hcreated, hexpires, hnonce, hkeyId]
  · -- A text that is not plain has the canonical one as its second spelling.
    intro hnot
    refine ⟨metadata.canonical crates, _, fun heq => hnot (hiff.mp heq.symm),
      parseSignatureInput_signatureParameters hc hcreatedRange hexpiresRange hvalid, rfl⟩

end

/-! ## Two spellings -/

/-- Crates whose texts are read back, with the digests of one request and the signatures of its
sender. -/
def exampleReadingCrates : Crates where
  sha256 := exampleCratesOfRequest.sha256
  verifyStrict k m s := decide (k = examplePublicKey.publicKey ∧ s = exampleCredential.sign m)
  displayUuid u := Framing.hyphenated u.toNat
  parseUuid s :=
    if Framing.hyphenated (Framing.unhyphenated s) = s then
      some (BitVec.ofNat 128 (Framing.unhyphenated s))
    else none
  encodeBase64 := Framing.base64
  decodeBase64 s :=
    if Framing.base64 (Framing.unbase64 s) = s then some (Framing.unbase64 s) else none
  decodeUrlSafe _ := none

/-- The crates of the example read back what they write. -/
theorem exampleReadingCrates_roundTrips : exampleReadingCrates.RoundTrips where
  parseUuid u := by
    simp only [exampleReadingCrates, Framing.unhyphenated_hyphenated u.isLt, if_true]
    rw [BitVec.ofNat_toNat, BitVec.setWidth_eq]
  decodeBase64 b := by
    simp only [exampleReadingCrates, Framing.unbase64_base64, if_true]
  quote_not_mem_displayUuid u h := by
    have hmem : '"' ∈ (Framing.hyphenated u.toNat).filter (· ≠ '-') :=
      List.mem_filter.mpr ⟨h, by decide⟩
    rw [Framing.filter_hyphenated] at hmem
    obtain ⟨d, hd, hc⟩ := Framing.mem_hexDigits hmem
    have hall : ∀ d < 16, '"' ≠ Framing.hexDigit d := by decide
    exact hall d hd hc

/-- The parameters of the submission, with a leading zero at the first timestamp. -/
def examplePadded : Str :=
  signatureLabel ++ ['='] ++ spelling "0100".toList "120".toList "aaaaaaaaaaaaaaaa".toList
    (exampleReadingCrates.displayUuid 3)

/-- What is read from the submission's parameters with the leading zero. -/
theorem exampleReadingCrates_parsePadded : ∃ metadata,
    parseSignatureInput exampleReadingCrates examplePadded = .ok metadata ∧
      metadata.values = (100, 120, "aaaaaaaaaaaaaaaa".toList, ⟨3⟩) := by
  have h : (parseSignatureInput exampleReadingCrates examplePadded).toOption.map
      SignatureMetadata.values = some (100, 120, "aaaaaaaaaaaaaaaa".toList, ⟨3⟩) := by
      decide +kernel
  obtain ⟨metadata, hparsed, hvalues⟩ := Option.map_eq_some_iff.mp h
  exact ⟨metadata, toOption_eq_some.mp hparsed, hvalues⟩

/-- The submission's parameters are written plainly, and are what would be written for them. -/
theorem parsed_iff_plain_submission : ∃ metadata,
    parseSignatureInput exampleReadingCrates exampleRequest.signatureInput = .ok metadata ∧
      (exampleRequest.signatureInput = signatureLabel ++ ['='] ++ signatureParameters
        exampleReadingCrates metadata.created metadata.expires metadata.nonce metadata.keyId ↔
        WrittenPlainly exampleReadingCrates exampleRequest.signatureInput) := by
  have h : (parseSignatureInput exampleReadingCrates
      exampleRequest.signatureInput).toOption.isSome = true := by decide +kernel
  obtain ⟨metadata, hparsed⟩ := Option.isSome_iff_exists.mp h
  exact ⟨metadata, toOption_eq_some.mp hparsed,
    (parsed_iff_plain exampleReadingCrates_roundTrips (toOption_eq_some.mp hparsed)).1⟩

/-- The leading zero is accepted, and `sign` does not write it. -/
theorem padded_not_canonical : ¬ ∀ crates : Crates, crates.RoundTrips →
    ∀ value metadata, parseSignatureInput crates value = .ok metadata →
      value = signatureLabel ++ ['='] ++ signatureParameters crates metadata.created
        metadata.expires metadata.nonce metadata.keyId := by
  intro h
  obtain ⟨metadata, hparsed, hvalues⟩ := exampleReadingCrates_parsePadded
  have heq := h _ exampleReadingCrates_roundTrips _ _ hparsed
  obtain ⟨hcreated, hexpires, hnonce, hkeyId⟩ : metadata.created = 100 ∧ metadata.expires = 120 ∧
      metadata.nonce = "aaaaaaaaaaaaaaaa".toList ∧ metadata.keyId = ⟨3⟩ := by
    simpa [SignatureMetadata.values] using hvalues
  rw [hcreated, hexpires, hnonce, hkeyId] at heq
  have hlength := congrArg List.length heq
  revert hlength
  decide +kernel

end InfernalLaw
