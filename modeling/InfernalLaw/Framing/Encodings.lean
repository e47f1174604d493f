import Mathlib.Algebra.GroupWithZero.Nat
import Mathlib.Algebra.Ring.Int.Defs
import Mathlib.Algebra.Ring.Nat
import Mathlib.Data.List.Basic
import Mathlib.Data.List.GetD
import Mathlib.Data.List.Nodup

/-!
# Hexadecimal and Base64

Two texts for binary data: a number in a fixed count of hexadecimal digits, and Base64 with padding.
Both can be read back, and so they determine the data.
-/

namespace Framing

/-! ## Hexadecimal -/

/-- A hexadecimal digit. -/
def hexDigit (n : ℕ) : Char := "0123456789abcdef".toList.getD n '0'

/-- The last `count` hexadecimal digits of a number. -/
def hexDigits : ℕ → ℕ → List Char
  | 0, _ => []
  | count + 1, n => hexDigits count (n / 16) ++ [hexDigit (n % 16)]

/-- What the digits are. -/
theorem mem_hexDigits {count n : ℕ} {c : Char} (h : c ∈ hexDigits count n) :
    ∃ d < 16, c = hexDigit d := by
  induction count generalizing n with
  | zero => cases h
  | succ count ih =>
    rcases List.mem_append.mp h with h | h
    · exact ih h
    · exact ⟨n % 16, Nat.mod_lt _ (by decide), List.mem_singleton.mp h⟩

/-- A digit is neither a hyphen nor a line break. -/
theorem hexDigit_ne {d : ℕ} (hd : d < 16) : hexDigit d ≠ '-' ∧ hexDigit d ≠ '\n' := by
  have hall : ∀ d < 16, hexDigit d ≠ '-' ∧ hexDigit d ≠ '\n' := by decide
  exact hall d hd

/-- The text of a UUID: 32 digits in groups of 8, 4, 4, 4 and 12, with hyphens in between. -/
def hyphenated (n : ℕ) : List Char :=
  (hexDigits 32 n).take 8 ++ '-' :: ((hexDigits 32 n).drop 8).take 4 ++
    '-' :: ((hexDigits 32 n).drop 12).take 4 ++ '-' :: ((hexDigits 32 n).drop 16).take 4 ++
    '-' :: (hexDigits 32 n).drop 20

/-- The digits are what is left without the hyphens. -/
theorem filter_hyphenated (n : ℕ) : (hyphenated n).filter (· ≠ '-') = hexDigits 32 n := by
  have hkeep : ∀ l : List Char, (∀ c ∈ l, c ∈ hexDigits 32 n) → l.filter (· ≠ '-') = l := by
    intro l hl
    refine List.filter_eq_self.mpr fun c hc => decide_eq_true ?_
    obtain ⟨d, hd, rfl⟩ := mem_hexDigits (hl c hc)
    exact (hexDigit_ne hd).1
  have hsplit : ∀ (l : List Char) (i k : ℕ), (l.drop i).take k ++ l.drop (i + k) = l.drop i := by
    intro l i k
    rw [← List.drop_drop, List.take_append_drop]
  have htake : ∀ i k, (((hexDigits 32 n).drop i).take k).filter (· ≠ '-') =
      ((hexDigits 32 n).drop i).take k :=
    fun i k => hkeep _ fun c hc => List.mem_of_mem_drop (List.mem_of_mem_take hc)
  have h₀ := hkeep ((hexDigits 32 n).take 8) fun c => List.mem_of_mem_take
  have h₄ := hkeep ((hexDigits 32 n).drop 20) fun c => List.mem_of_mem_drop
  rw [hyphenated]
  simp only [List.append_assoc, List.cons_append, List.filter_append, List.filter_cons, ne_eq,
    not_true_eq_false, decide_false, Bool.false_eq_true, if_false] at h₀ h₄ htake ⊢
  rw [h₀, h₄, htake, htake, htake, hsplit _ 16 4, hsplit _ 12 4, hsplit _ 8 4,
    List.take_append_drop]

/-- The value of a hexadecimal digit. -/
def hexValue (c : Char) : ℕ := "0123456789abcdef".toList.idxOf c

/-- A hexadecimal digit is read back. -/
theorem hexValue_hexDigit {d : ℕ} (hd : d < 16) : hexValue (hexDigit d) = d := by
  have hall : ∀ d < 16, hexValue (hexDigit d) = d := by decide
  exact hall d hd

/-- The number of a hyphenated text. -/
def unhyphenated (s : List Char) : ℕ :=
  (s.filter (· ≠ '-')).foldl (fun n c => 16 * n + hexValue c) 0

/-- Digits are read back, up to the places that were not written. -/
theorem foldl_hexDigits (count n : ℕ) :
    (hexDigits count n).foldl (fun n c => 16 * n + hexValue c) 0 = n % 16 ^ count := by
  induction count generalizing n with
  | zero => rw [hexDigits, List.foldl_nil, Nat.pow_zero, Nat.mod_one]
  | succ count ih =>
    rw [hexDigits, List.foldl_append, ih, List.foldl_cons, List.foldl_nil,
      hexValue_hexDigit (Nat.mod_lt _ (by decide)), Nat.pow_succ', Nat.mod_mul, Nat.add_comm]

/-- The text of a number of 128 bits is read back. -/
theorem unhyphenated_hyphenated {n : ℕ} (hn : n < 2 ^ 128) : unhyphenated (hyphenated n) = n := by
  rw [unhyphenated, filter_hyphenated, foldl_hexDigits]
  exact Nat.mod_eq_of_lt (by omega)

/-- The text determines a number of 128 bits. -/
theorem hyphenated_inj {m n : ℕ} (hm : m < 2 ^ 128) (hn : n < 2 ^ 128)
    (h : hyphenated m = hyphenated n) : m = n := by
  rw [← unhyphenated_hyphenated hm, ← unhyphenated_hyphenated hn, h]

/-- A hyphenated identifier is on one line. -/
theorem newline_not_mem_hyphenated (n : ℕ) : '\n' ∉ hyphenated n := by
  intro h
  have hmem : '\n' ∈ (hyphenated n).filter (· ≠ '-') := List.mem_filter.mpr ⟨h, by decide⟩
  rw [filter_hyphenated] at hmem
  obtain ⟨d, hd, hc⟩ := mem_hexDigits hmem
  exact (hexDigit_ne hd).2 hc.symm

/-! ## Base64 -/

/-- The digits of Base64. -/
def base64Alphabet : List Char :=
  "ABCDEFGHIJKLMNOPQRSTUVWXYZabcdefghijklmnopqrstuvwxyz0123456789+/".toList

/-- A Base64 digit. -/
def base64Digit (n : ℕ) : Char := base64Alphabet.getD n 'A'

/-- Base64 of bytes, three at a time. -/
def base64 : List UInt8 → List Char
  | a :: b :: c :: rest =>
    base64Digit (a.toNat / 4) :: base64Digit (a.toNat % 4 * 16 + b.toNat / 16) ::
      base64Digit (b.toNat % 16 * 4 + c.toNat / 64) :: base64Digit (c.toNat % 64) :: base64 rest
  | [a, b] =>
    [base64Digit (a.toNat / 4), base64Digit (a.toNat % 4 * 16 + b.toNat / 16),
      base64Digit (b.toNat % 16 * 4), '=']
  | [a] => [base64Digit (a.toNat / 4), base64Digit (a.toNat % 4 * 16), '=', '=']
  | [] => []

/-- The alphabet has 64 characters. -/
theorem length_base64Alphabet : base64Alphabet.length = 64 := by decide

/-- They are all different. -/
theorem nodup_base64Alphabet : base64Alphabet.Nodup := by decide

/-- A digit is the character of the alphabet at its place. -/
theorem base64Digit_eq {n : ℕ} (hn : n < 64) :
    base64Digit n = base64Alphabet.get ⟨n, length_base64Alphabet.symm ▸ hn⟩ :=
  List.getD_eq_getElem _ _ _

/-- A digit is a character of the alphabet. -/
theorem base64Digit_mem {n : ℕ} (hn : n < 64) : base64Digit n ∈ base64Alphabet := by
  rw [base64Digit_eq hn]
  exact List.getElem_mem _

/-- No digit is the padding. -/
theorem base64Digit_ne_pad {n : ℕ} (hn : n < 64) : base64Digit n ≠ '=' := by
  intro h
  have hmem := base64Digit_mem hn
  rw [h] at hmem
  exact absurd hmem (by decide)

/-- The value of a Base64 digit. -/
def base64Value (c : Char) : ℕ := base64Alphabet.idxOf c

/-- A digit is read back. -/
theorem base64Value_base64Digit {n : ℕ} (hn : n < 64) : base64Value (base64Digit n) = n := by
  rw [base64Digit_eq hn]
  exact nodup_base64Alphabet.idxOf_getElem n _

/-- The bytes of Base64 text, four digits at a time. -/
def unbase64 : List Char → List UInt8
  | a :: b :: c :: d :: rest =>
    let first := UInt8.ofNat (base64Value a * 4 + base64Value b / 16)
    let second := UInt8.ofNat (base64Value b % 16 * 16 + base64Value c / 4)
    let third := UInt8.ofNat (base64Value c % 4 * 64 + base64Value d)
    if c = '=' then [first]
    else if d = '=' then [first, second]
    else first :: second :: third :: unbase64 rest
  | _ => []

/-- A byte is read back from its value. -/
theorem ofNat_eq {a : UInt8} {n : ℕ} (h : n = a.toNat) : UInt8.ofNat n = a := by
  rw [h, UInt8.ofNat_toNat]

/-- Base64 is read back. -/
theorem unbase64_base64 (x : List UInt8) : unbase64 (base64 x) = x := by
  induction x using base64.induct with
  | case1 a b c rest ih =>
    have ha := a.toNat_lt
    have hb := b.toNat_lt
    have hc := c.toNat_lt
    rw [base64, unbase64, if_neg (base64Digit_ne_pad (by omega)),
      if_neg (base64Digit_ne_pad (by omega)), base64Value_base64Digit (by omega),
      base64Value_base64Digit (by omega), base64Value_base64Digit (by omega),
      base64Value_base64Digit (by omega), ih, ofNat_eq (a := a) (by omega),
      ofNat_eq (a := b) (by omega), ofNat_eq (a := c) (by omega)]
  | case2 a b =>
    have ha := a.toNat_lt
    have hb := b.toNat_lt
    rw [base64, unbase64, if_neg (base64Digit_ne_pad (by omega)), if_pos rfl,
      base64Value_base64Digit (by omega), base64Value_base64Digit (by omega),
      base64Value_base64Digit (by omega), ofNat_eq (a := a) (by omega),
      ofNat_eq (a := b) (by omega)]
  | case3 a =>
    have ha := a.toNat_lt
    rw [base64, unbase64, if_pos rfl, base64Value_base64Digit (by omega),
      base64Value_base64Digit (by omega), ofNat_eq (a := a) (by omega)]
  | case4 => rfl

/-- Base64 determines the bytes. -/
theorem base64_injective : Function.Injective base64 :=
  Function.LeftInverse.injective unbase64_base64

/-- The characters of Base64 are its digits and the padding. -/
theorem mem_base64 {x : List UInt8} {ch : Char} (h : ch ∈ base64 x) :
    ch ∈ base64Alphabet ∨ ch = '=' := by
  have hdigit : ∀ {n}, n < 64 → ch = base64Digit n → ch ∈ base64Alphabet :=
    fun hn hch => hch ▸ base64Digit_mem hn
  induction x using base64.induct with
  | case1 a b c rest ih =>
    have ha := a.toNat_lt
    have hb := b.toNat_lt
    have hc := c.toNat_lt
    simp only [base64, List.mem_cons] at h
    rcases h with h | h | h | h | h
    · exact .inl (hdigit (by omega) h)
    · exact .inl (hdigit (by omega) h)
    · exact .inl (hdigit (by omega) h)
    · exact .inl (hdigit (by omega) h)
    · exact ih h
  | case2 a b =>
    have ha := a.toNat_lt
    have hb := b.toNat_lt
    simp only [base64, List.mem_cons, List.not_mem_nil, or_false] at h
    rcases h with h | h | h | h
    · exact .inl (hdigit (by omega) h)
    · exact .inl (hdigit (by omega) h)
    · exact .inl (hdigit (by omega) h)
    · exact .inr h
  | case3 a =>
    have ha := a.toNat_lt
    simp only [base64, List.mem_cons, List.not_mem_nil, or_false] at h
    rcases h with h | h | h | h
    · exact .inl (hdigit (by omega) h)
    · exact .inl (hdigit (by omega) h)
    · exact .inr h
    · exact .inr h
  | case4 => cases h

/-! ## Base64 for URLs -/

/-- The digit for URLs in the place of a digit of Base64. -/
def toUrlDigit (c : Char) : Char := if c = '+' then '-' else if c = '/' then '_' else c

/-- The standard digit for a digit of the URL alphabet. -/
def ofUrlDigit (c : Char) : Char := if c = '-' then '+' else if c = '_' then '/' else c

/-- Base64 for URLs, without padding. -/
def base64Url (x : List UInt8) : List Char := ((base64 x).filter (· ≠ '=')).map toUrlDigit

/-- The text with the padding that it lacks. -/
def padded (s : List Char) : List Char := s ++ List.replicate ((4 - s.length % 4) % 4) '='

/-- The bytes of Base64 text for URLs. -/
def unbase64Url (s : List Char) : List UInt8 := unbase64 (padded (s.map ofUrlDigit))

/-- Four characters more take no other padding. -/
theorem padded_four (a b c d : Char) (s : List Char) :
    padded (a :: b :: c :: d :: s) = a :: b :: c :: d :: padded s := by
  simp only [padded, List.length_cons, List.cons_append, Nat.add_mod_right, Nat.add_assoc]

/-- Four digits come first where three bytes do. -/
theorem filter_base64 (a b c : UInt8) (rest : List UInt8) :
    (base64 (a :: b :: c :: rest)).filter (· ≠ '=') =
      base64Digit (a.toNat / 4) :: base64Digit (a.toNat % 4 * 16 + b.toNat / 16) ::
        base64Digit (b.toNat % 16 * 4 + c.toNat / 64) :: base64Digit (c.toNat % 64) ::
          (base64 rest).filter (· ≠ '=') := by
  have ha := a.toNat_lt
  have hb := b.toNat_lt
  have hc := c.toNat_lt
  rw [base64]
  simp only [List.filter_cons, decide_eq_true_eq, base64Digit_ne_pad (n := a.toNat / 4) (by omega),
    base64Digit_ne_pad (n := a.toNat % 4 * 16 + b.toNat / 16) (by omega),
    base64Digit_ne_pad (n := b.toNat % 16 * 4 + c.toNat / 64) (by omega),
    base64Digit_ne_pad (n := c.toNat % 64) (by omega), ne_eq, not_false_eq_true, if_true]

/-- The padding of Base64 is what its digits lack. -/
theorem padded_filter_base64 (x : List UInt8) :
    padded ((base64 x).filter (· ≠ '=')) = base64 x := by
  induction x using base64.induct with
  | case1 a b c rest ih => rw [filter_base64, padded_four, ih, base64]
  | case2 a b =>
    have ha := a.toNat_lt
    have hb := b.toNat_lt
    simp [padded, base64, base64Digit_ne_pad (n := a.toNat / 4) (by omega),
      base64Digit_ne_pad (n := a.toNat % 4 * 16 + b.toNat / 16) (by omega),
      base64Digit_ne_pad (n := b.toNat % 16 * 4) (by omega)]
  | case3 a =>
    have ha := a.toNat_lt
    simp [padded, base64, base64Digit_ne_pad (n := a.toNat / 4) (by omega),
      base64Digit_ne_pad (n := a.toNat % 4 * 16) (by omega), List.replicate_succ]
  | case4 => rfl

/-- A digit is taken to the URL alphabet and back. -/
theorem ofUrlDigit_toUrlDigit {c : Char} (h : c ∈ base64Alphabet) :
    ofUrlDigit (toUrlDigit c) = c := by
  have hall : base64Alphabet.all fun c => ofUrlDigit (toUrlDigit c) = c := by decide
  exact of_decide_eq_true (List.all_eq_true.mp hall c h)

/-- Base64 for URLs is read back. -/
theorem unbase64Url_base64Url (x : List UInt8) : unbase64Url (base64Url x) = x := by
  have hdigits : ((base64 x).filter (· ≠ '=')).map (ofUrlDigit ∘ toUrlDigit) =
      (base64 x).filter (· ≠ '=') := by
    refine (List.map_congr_left fun c hc => ?_).trans (List.map_id _)
    obtain ⟨hmem, hne⟩ := List.mem_filter.mp hc
    exact ofUrlDigit_toUrlDigit ((mem_base64 hmem).resolve_right (of_decide_eq_true hne))
  rw [unbase64Url, base64Url, List.map_map, hdigits, padded_filter_base64, unbase64_base64]

/-- How many digits there are. -/
theorem length_base64Url (x : List UInt8) : (base64Url x).length = (x.length * 4 + 2) / 3 := by
  rw [base64Url, List.length_map]
  induction x using base64.induct with
  | case1 a b c rest ih =>
    rw [filter_base64]
    simp only [List.length_cons, ih]
    omega
  | case2 a b =>
    have ha := a.toNat_lt
    have hb := b.toNat_lt
    simp [base64, base64Digit_ne_pad (n := a.toNat / 4) (by omega),
      base64Digit_ne_pad (n := a.toNat % 4 * 16 + b.toNat / 16) (by omega),
      base64Digit_ne_pad (n := b.toNat % 16 * 4) (by omega)]
  | case3 a =>
    have ha := a.toNat_lt
    simp [base64, base64Digit_ne_pad (n := a.toNat / 4) (by omega),
      base64Digit_ne_pad (n := a.toNat % 4 * 16) (by omega)]
  | case4 => rfl

/-- The digits of Base64 for URLs. -/
def IsUrlDigit (c : Char) : Prop := c.isAlphanum = true ∨ c = '-' ∨ c = '_'

instance (c : Char) : Decidable (IsUrlDigit c) := inferInstanceAs (Decidable (_ ∨ _))

/-- What is encoded for a URL has digits of that alphabet only. -/
theorem isUrlDigit_of_mem_base64Url {x : List UInt8} {c : Char} (h : c ∈ base64Url x) :
    IsUrlDigit c := by
  obtain ⟨digit, hdigit, rfl⟩ := List.mem_map.mp h
  obtain ⟨hmem, hne⟩ := List.mem_filter.mp hdigit
  have hall : base64Alphabet.all fun c => IsUrlDigit (toUrlDigit c) := by decide
  exact of_decide_eq_true
    (List.all_eq_true.mp hall digit ((mem_base64 hmem).resolve_right (of_decide_eq_true hne)))

end Framing
