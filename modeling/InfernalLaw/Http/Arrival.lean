import InfernalLaw.Http.ReadRequest

/-!
# How a request arrives

What `read_request` makes of a stream, and when that depends on how the stream arrives. The position
of the end of the header is bounded, and so is the number of bytes that are read before it is found:
a header that ends right at the bound is refused if the last bytes of its end arrive late.
-/

namespace InfernalLaw

open Reading (Schedule readUntil)

/-! ## The end of the header -/

/-- The end of the header is the first place where the terminator stands. -/
theorem findHeaderEnd_eq_some {bytes : List UInt8} {p : ℕ} : findHeaderEnd bytes = some p ↔
    (bytes.drop p).take 4 = headerTerminator ∧
      ∀ q < p, (bytes.drop q).take 4 ≠ headerTerminator := by
  induction bytes generalizing p with
  | nil => simp [findHeaderEnd, headerTerminator]
  | cons b bytes ih =>
    rw [findHeaderEnd]
    split
    · rename_i hfirst
      constructor
      · rintro ⟨⟩
        exact ⟨hfirst, fun q hq => absurd hq (Nat.not_lt_zero q)⟩
      · rintro ⟨-, hbefore⟩
        rcases Nat.eq_zero_or_pos p with rfl | hp
        · rfl
        · exact absurd hfirst (hbefore 0 hp)
    · rename_i hfirst
      rw [Option.map_eq_some_iff]
      constructor
      · rintro ⟨p', hp', rfl⟩
        obtain ⟨hend, hbefore⟩ := ih.mp hp'
        refine ⟨hend, fun q hq => ?_⟩
        cases q with
        | zero => exact hfirst
        | succ q => exact hbefore q (by omega)
      · rintro ⟨hend, hbefore⟩
        cases p with
        | zero => exact absurd hend hfirst
        | succ p => exact ⟨p, ih.mpr ⟨hend, fun q hq => hbefore (q + 1) (by omega)⟩, rfl⟩

/-- No end is found where no terminator stands. -/
theorem findHeaderEnd_eq_none {bytes : List UInt8} : findHeaderEnd bytes = none ↔
    ∀ q, (bytes.drop q).take 4 ≠ headerTerminator := by
  induction bytes with
  | nil => simp [findHeaderEnd, headerTerminator]
  | cons b bytes ih =>
    rw [findHeaderEnd]
    split
    · rename_i hfirst
      exact ⟨nofun, fun h => absurd hfirst (h 0)⟩
    · rename_i hfirst
      rw [Option.map_eq_none_iff, ih]
      constructor
      · intro h q
        cases q with
        | zero => exact hfirst
        | succ q => exact h q
      · exact fun h q => h (q + 1)

/-- The end of the header has all its bytes. -/
theorem le_length_of_findHeaderEnd {bytes : List UInt8} {p : ℕ} (h : findHeaderEnd bytes = some p) :
    p + 4 ≤ bytes.length := by
  have hlen := congrArg List.length (findHeaderEnd_eq_some.mp h).1
  rw [List.length_take, List.length_drop] at hlen
  change _ = 4 at hlen
  omega

/-- Four bytes of a prefix. -/
theorem take_four_take {bytes : List UInt8} {n q : ℕ} (h : q + 4 ≤ n) :
    ((bytes.take n).drop q).take 4 = (bytes.drop q).take 4 := by
  rw [List.drop_take, List.take_take, Nat.min_eq_left (by omega)]

/-- The end of the header is found in what has been read as soon as all its bytes are there. -/
theorem findHeaderEnd_take {bytes : List UInt8} {p : ℕ} (h : findHeaderEnd bytes = some p) (n : ℕ) :
    findHeaderEnd (bytes.take n) = if p + 4 ≤ n then some p else none := by
  obtain ⟨hend, hbefore⟩ := findHeaderEnd_eq_some.mp h
  split
  · rename_i hn
    refine findHeaderEnd_eq_some.mpr ⟨?_, fun q hq => ?_⟩
    · rw [take_four_take hn]
      exact hend
    · rw [take_four_take (by omega)]
      exact hbefore q hq
  · rename_i hn
    refine findHeaderEnd_eq_none.mpr fun q hq => ?_
    have hlen := congrArg List.length hq
    rw [List.length_take, List.length_drop, List.length_take] at hlen
    change _ = 4 at hlen
    rw [take_four_take (by omega)] at hq
    exact hbefore q (by omega) hq

/-- Without an end in the stream, none is found in what has been read. -/
theorem findHeaderEnd_take_none {bytes : List UInt8} (h : findHeaderEnd bytes = none) (n : ℕ) :
    findHeaderEnd (bytes.take n) = none := by
  refine findHeaderEnd_eq_none.mpr fun q hq => ?_
  have hlen := congrArg List.length hq
  rw [List.length_take, List.length_drop, List.length_take] at hlen
  change _ = 4 at hlen
  rw [take_four_take (by omega)] at hq
  exact findHeaderEnd_eq_none.mp h q hq

/-! ## What a stream means -/

/-- The request in a stream whose header ends at `p`, read without regard to the bounds on the
header. -/
def requestAt (stream : List UInt8) (p : ℕ) : Except RequestReadError ParsedRequest := do
  let head ← parseHead (stream.take p)
  if stream.length < p + 4 + head.contentLength then .error .malformed
  else return head.request ((stream.drop (p + 4)).take head.contentLength)

variable {s : Schedule} {stream : List UInt8} {p : ℕ}

/-- What the second loop comes to, after any bytes that hold the header. -/
theorem readUntil_body {k contentLength : ℕ} (f : List UInt8 → ParsedRequest) (hk : p + 4 ≤ k)
    (hlen : k ≤ stream.length) :
    (do let full ← readUntil s (fun bytes => min (contentLength - (bytes.length - (p + 4))) 4096)
          (decideBody (p + 4) contentLength) .malformed (stream.take k) (stream.drop k)
        return f ((full.bytes.drop (p + 4)).take contentLength)) =
      if stream.length < p + 4 + contentLength then .error .malformed
      else .ok (f ((stream.drop (p + 4)).take contentLength)) := by
  have htake : ∀ n ≤ stream.length, (stream.take n).length = n := fun n hn => by
    rw [List.length_take, Nat.min_eq_left hn]
  split
  · rename_i hshort
    rw [Reading.readUntil_eq_error hlen]
    · rfl
    · intro n hn hnone
      rw [decideBody] at hnone
      split at hnone
      · omega
      · cases hnone
    · intro n hn hle
      rw [decideBody, htake n hle, if_pos (by omega)]
      exact .inl rfl
  · rename_i hthere
    have hread : ∃ n, max k (p + 4 + contentLength) ≤ n ∧ n ≤ stream.length ∧
        readUntil s (fun bytes => min (contentLength - (bytes.length - (p + 4))) 4096)
          (decideBody (p + 4) contentLength) .malformed (stream.take k) (stream.drop k) =
            .ok ⟨stream.take n, stream.drop n, ()⟩ := by
      refine Reading.readUntil_eq_ok (Nat.le_max_left _ _) (by omega) (fun n hmn hnk => ?_) ?_
      · rw [decideBody, htake n (by omega), if_pos (by omega)]
        exact ⟨rfl, by omega⟩
      · intro n hkn hle
        rw [decideBody, htake n hle, if_neg (by omega)]
    obtain ⟨n, hn, hle, hread⟩ := hread
    rw [hread]
    have hbody : ((stream.take n).drop (p + 4)).take contentLength =
        (stream.drop (p + 4)).take contentLength := by
      rw [List.drop_take, List.take_take, Nat.min_eq_left (by omega)]
    exact congrArg (Except.ok ∘ f) hbody

/-- Once the end of the header has been found, how the rest arrives does not matter. -/
theorem readRequest_of_reached {k : ℕ} (hk : p + 4 ≤ k) (hlen : k ≤ stream.length)
    (h : readUntil s (fun _ => 4096) decideHeaderEnd .malformed [] stream =
      .ok ⟨stream.take k, stream.drop k, p⟩) : readRequest s stream = requestAt stream p := by
  have hheader : (stream.take k).take p = stream.take p := by
    rw [List.take_take, Nat.min_eq_left (by omega)]
  rw [readRequest, h, requestAt]
  simp only [bind, Except.bind, hheader]
  cases parseHead (stream.take p) with
  | error e => rfl
  | ok head =>
    exact readUntil_body head.request hk hlen

/-! ## Where arrival does not matter -/

/-- What the first loop decides about the bytes that it has read. -/
theorem decideHeaderEnd_take (h : findHeaderEnd stream = some p) {n : ℕ} (hn : n ≤ stream.length) :
    decideHeaderEnd (stream.take n) =
      if p + 4 ≤ n then (if maxHeaderBytes < p then some (.error .malformed) else some (.ok p))
      else if maxHeaderBytes < n then some (.error .malformed) else none := by
  rw [decideHeaderEnd, findHeaderEnd_take h]
  split
  · rename_i hfound
    split at hfound
    · obtain rfl := Option.some.inj hfound
      rename_i hle
      rw [if_pos hle]
    · cases hfound
  · rename_i hnone
    split at hnone
    · cases hnone
    · rename_i hle
      rw [if_neg hle, List.length_take, Nat.min_eq_left hn]

/-- A header that ends early enough is read however it arrives. -/
theorem readRequest_eq (h : findHeaderEnd stream = some p) (hp : p + 3 ≤ maxHeaderBytes) :
    readRequest s stream = requestAt stream p := by
  have hlen := le_length_of_findHeaderEnd h
  have hread : ∃ n, p + 4 ≤ n ∧ n ≤ stream.length ∧
      readUntil s (fun _ => 4096) decideHeaderEnd .malformed (stream.take 0) (stream.drop 0) =
        .ok ⟨stream.take n, stream.drop n, p⟩ := by
    refine Reading.readUntil_eq_ok (Nat.zero_le _) hlen (fun n _ hn => ⟨?_, by decide⟩) ?_
    · rw [decideHeaderEnd_take h (by omega), if_neg (by omega), if_neg (by omega)]
    · intro n hn hle
      rw [decideHeaderEnd_take h hle, if_pos hn, if_neg (by omega)]
  obtain ⟨n, hn, hle, hread⟩ := hread
  exact readRequest_of_reached hn hle hread

/-- A header without an end, or with one that is too late, is malformed however it arrives. -/
theorem readRequest_malformed (h : ∀ p, findHeaderEnd stream = some p → maxHeaderBytes < p) :
    readRequest s stream = .error .malformed := by
  have hread : readUntil s (fun _ => 4096) decideHeaderEnd .malformed (stream.take 0)
      (stream.drop 0) = .error .malformed := by
    refine Reading.readUntil_eq_error (Nat.zero_le _) (fun _ _ _ => by decide) fun n _ hn => ?_
    cases hend : findHeaderEnd stream with
    | none =>
      rw [decideHeaderEnd, findHeaderEnd_take_none hend]
      dsimp only
      split
      · exact .inr rfl
      · exact .inl rfl
    | some p =>
      rw [decideHeaderEnd_take hend hn, if_pos (h p hend)]
      split
      · exact .inr rfl
      · split
        · exact .inr rfl
        · exact .inl rfl
  rw [readRequest]
  simp only [List.take_zero, List.drop_zero] at hread
  rw [hread]
  rfl

/-! ## Where it does -/

/-- Every read fills the buffer. -/
def fullReads : Schedule where
  size _ offered := offered
  pos _ _ h := h
  le _ _ := Nat.le_refl _

/-- The read after the first `n` elements gives one element, and every other one fills the
buffer. -/
def oneAt (n : ℕ) : Schedule where
  size position offered := if position = n then min 1 offered else offered
  pos position offered h := by
    split
    · omega
    · exact h
  le position offered := by
    split
    · exact Nat.min_le_right _ _
    · exact Nat.le_refl _

/-- The first loop goes on while the end of the header is not there and the bound is not passed. -/
theorem readUntil_header_more (h : findHeaderEnd stream = some p) {n : ℕ} (hend : n < p + 4)
    (hn : n ≤ maxHeaderBytes) :
    readUntil s (fun _ => 4096) decideHeaderEnd .malformed (stream.take n) (stream.drop n) =
      readUntil s (fun _ => 4096) decideHeaderEnd .malformed (stream.take (n + s.size n 4096))
        (stream.drop (n + s.size n 4096)) := by
  have hlen := le_length_of_findHeaderEnd h
  refine Reading.readUntil_more ?_ (by omega) (Nat.succ_pos 4095)
  rw [decideHeaderEnd_take h (by omega), if_neg (by omega), if_neg (by omega)]

section

variable (h : findHeaderEnd stream = some p) (hlate : maxHeaderBytes < p + 3)
    (hp : p ≤ maxHeaderBytes)

include h hlate

/-- After two full reads the third one decides. -/
theorem readUntil_header_two (hfirst : s.size 0 4096 = 4096) (hsecond : s.size 4096 4096 = 4096) :
    readUntil s (fun _ => 4096) decideHeaderEnd .malformed [] stream =
      readUntil s (fun _ => 4096) decideHeaderEnd .malformed
        (stream.take (maxHeaderBytes + s.size maxHeaderBytes 4096))
        (stream.drop (maxHeaderBytes + s.size maxHeaderBytes 4096)) := by
  rw [maxHeaderBytes] at hlate
  have hzero := readUntil_header_more (s := s) h (n := 0) (by omega) (by decide)
  have hone := readUntil_header_more (s := s) h (n := 4096) (by omega) (by decide)
  have htwo := readUntil_header_more (s := s) h (n := maxHeaderBytes)
    (by rw [maxHeaderBytes]; omega) (Nat.le_refl _)
  rw [hfirst] at hzero
  rw [hsecond] at hone
  exact hzero.trans (hone.trans htwo)

/-- With full reads the header is read. -/
theorem readRequest_fullReads (hp : p ≤ maxHeaderBytes) :
    readRequest fullReads stream = requestAt stream p := by
  have hlen := le_length_of_findHeaderEnd h
  have htwo := readUntil_header_two (s := fullReads) h hlate rfl rfl
  change _ = readUntil fullReads (fun _ => 4096) decideHeaderEnd .malformed
    (stream.take (maxHeaderBytes + 4096)) (stream.drop (maxHeaderBytes + 4096)) at htwo
  rcases Nat.le_total (maxHeaderBytes + 4096) stream.length with hle | hle
  · refine readRequest_of_reached (by omega) hle (htwo.trans (Reading.readUntil_ok ?_))
    rw [decideHeaderEnd_take h hle, if_pos (by omega), if_neg (by omega)]
  · -- The third read takes all that is left.
    refine readRequest_of_reached hlen (Nat.le_refl _) ?_
    rw [List.take_of_length_le hle, List.drop_eq_nil_of_le hle] at htwo
    rw [htwo, List.take_length, List.drop_length]
    have hdecide := decideHeaderEnd_take h (Nat.le_refl stream.length)
    rw [if_pos hlen, if_neg (by omega), List.take_length] at hdecide
    have hread : readUntil fullReads (fun _ => 4096) decideHeaderEnd .malformed
        (stream.take stream.length) (stream.drop stream.length) = .ok ⟨_, _, p⟩ :=
      Reading.readUntil_ok (by rw [List.take_length]; exact hdecide)
    rw [List.take_length, List.drop_length] at hread
    exact hread

/-- With one byte in the third read the bound is passed before the end is there. -/
theorem readRequest_oneAt : readRequest (oneAt maxHeaderBytes) stream = .error .malformed := by
  have hlen := le_length_of_findHeaderEnd h
  have htwo := readUntil_header_two (s := oneAt maxHeaderBytes) h hlate rfl rfl
  change _ = readUntil (oneAt maxHeaderBytes) (fun _ => 4096) decideHeaderEnd .malformed
    (stream.take (maxHeaderBytes + 1)) (stream.drop (maxHeaderBytes + 1)) at htwo
  have hdecide := decideHeaderEnd_take h (n := maxHeaderBytes + 1) (by omega)
  rw [if_neg (by omega), if_pos (by omega)] at hdecide
  rw [readRequest, htwo, Reading.readUntil_error hdecide]
  rfl

end

/-- In any case the header is read, or the request is malformed. -/
theorem readRequest_cases (h : findHeaderEnd stream = some p) (hp : p ≤ maxHeaderBytes) :
    readRequest s stream = requestAt stream p ∨ readRequest s stream = .error .malformed := by
  have hread : (∃ n, p + 4 ≤ n ∧ n ≤ stream.length ∧
      readUntil s (fun _ => 4096) decideHeaderEnd .malformed [] stream =
        .ok ⟨stream.take n, stream.drop n, p⟩) ∨
      readUntil s (fun _ => 4096) decideHeaderEnd .malformed [] stream = .error .malformed := by
    refine Reading.readUntil_induction (m := 0)
      (p := fun r : Except RequestReadError _ => (∃ n, p + 4 ≤ n ∧ n ≤ stream.length ∧
        r = .ok ⟨stream.take n, stream.drop n, p⟩) ∨ r = .error .malformed) (Nat.zero_le _)
        (fun _ _ _ => Nat.succ_pos 4095) (fun n _ hn hsome => ?_)
      fun _ => .inr rfl
    have hdecide := decideHeaderEnd_take h hn
    split at hdecide
    · rename_i hend
      rw [if_neg (by omega)] at hdecide
      exact .inl ⟨n, hend, hn, Reading.readUntil_ok hdecide⟩
    · split at hdecide
      · exact .inr (Reading.readUntil_error hdecide)
      · exact absurd hdecide hsome
  rcases hread with ⟨n, hn, hle, hread⟩ | hread
  · exact .inl (readRequest_of_reached hn hle hread)
  · refine .inr ?_
    rw [readRequest, hread]
    rfl

end InfernalLaw
