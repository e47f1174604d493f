import Mathlib.Data.List.Basic

/-!
# Reading a stream in pieces

A stream is read into a buffer piece by piece, until what has been read decides something. How large
the pieces are is up to the transport, a `Schedule`. A decision that stays what it is while more is
read is the same under every schedule (`readUntil_eq_ok`, `readUntil_eq_error`, `readUntil_ended`).
-/

namespace Reading

variable {α β ε : Type}

/-- How many elements each read gives, by the position in the stream and the size of the buffer. A
read into a buffer gives at least one element, unless the stream is at its end. -/
structure Schedule where
  size : ℕ → ℕ → ℕ
  pos : ∀ position offered, 0 < offered → 0 < size position offered
  le : ∀ position offered, size position offered ≤ offered

/-- What a read gives, from the position on. -/
def Schedule.read (s : Schedule) (position offered : ℕ) (rest : List α) : List α :=
  rest.take (s.size position offered)

/-- What has been read when the loop ends, what is left of the stream, and the decision. -/
structure Reached (α β : Type) where
  bytes : List α
  rest : List α
  value : β

/-- The loop that reads until `decision` answers. It fails with `ended` when a read gives
nothing. -/
def readUntil (s : Schedule) (offer : List α → ℕ) (decision : List α → Option (Except ε β))
    (ended : ε) (bytes rest : List α) : Except ε (Reached α β) :=
  match decision bytes with
  | some (.ok b) => .ok ⟨bytes, rest, b⟩
  | some (.error e) => .error e
  | none =>
    if _h : s.read bytes.length (offer bytes) rest = [] then .error ended
    else readUntil s offer decision ended (bytes ++ s.read bytes.length (offer bytes) rest)
      (rest.drop (s.read bytes.length (offer bytes) rest).length)
termination_by rest.length
decreasing_by
  have hpos := List.length_pos_iff.mpr _h
  have hle : (s.read bytes.length (offer bytes) rest).length ≤ rest.length := by
    rw [Schedule.read, List.length_take]
    exact Nat.min_le_right _ _
  rw [List.length_drop]
  omega

section

variable {s : Schedule} {offer : List α → ℕ} {decision : List α → Option (Except ε β)} {ended : ε}
  {stream : List α} {n : ℕ}

/-- The loop after the first `n` elements of the stream, when they decide. -/
theorem readUntil_ok {b : β} (h : decision (stream.take n) = some (.ok b)) :
    readUntil s offer decision ended (stream.take n) (stream.drop n) =
      .ok ⟨stream.take n, stream.drop n, b⟩ := by
  unfold readUntil
  rw [h]

/-- The same, when they decide for an error. -/
theorem readUntil_error {e : ε} (h : decision (stream.take n) = some (.error e)) :
    readUntil s offer decision ended (stream.take n) (stream.drop n) = .error e := by
  unfold readUntil
  rw [h]

/-- The same, when they do not decide: the loop goes on after the next read. -/
theorem readUntil_more (h : decision (stream.take n) = none) (hn : n < stream.length)
    (hoffer : 0 < offer (stream.take n)) :
    readUntil s offer decision ended (stream.take n) (stream.drop n) =
      readUntil s offer decision ended (stream.take (n + s.size n (offer (stream.take n))))
        (stream.drop (n + s.size n (offer (stream.take n)))) := by
  have hlen : (stream.take n).length = n := by
    rw [List.length_take]
    omega
  have hsize := s.pos n _ hoffer
  have hread : s.read n (offer (stream.take n)) (stream.drop n) ≠ [] := by
    rw [Schedule.read, ← List.length_pos_iff, List.length_take, List.length_drop]
    omega
  rw [readUntil, h]
  simp only [hlen]
  rw [dif_neg hread, Schedule.read, ← List.take_add, List.length_take, List.length_drop]
  congr 1
  -- The rest is what the read has left, also when it has left nothing.
  rw [List.drop_drop]
  rcases Nat.le_total (s.size n (offer (stream.take n))) (stream.length - n) with hle | hle
  · rw [Nat.min_eq_left hle]
  · rw [Nat.min_eq_right hle, List.drop_eq_nil_of_le (by omega), List.drop_eq_nil_of_le (by omega)]

/-- The same, at the end of the stream. -/
theorem readUntil_none (h : decision stream = none) :
    readUntil s offer decision ended stream [] = .error ended := by
  rw [readUntil, h]
  simp [Schedule.read]

/-- The loop after the first `m` elements, by what it has read: the positions at which nothing is
decided are passed, and at one of the others it ends. -/
theorem readUntil_induction {p : Except ε (Reached α β) → Prop} {m : ℕ} (hm : m ≤ stream.length)
    (hoffer : ∀ n, m ≤ n → decision (stream.take n) = none → 0 < offer (stream.take n))
    (hdone : ∀ n, m ≤ n → n ≤ stream.length → decision (stream.take n) ≠ none →
      p (readUntil s offer decision ended (stream.take n) (stream.drop n)))
    (hended : decision stream = none → p (.error ended)) :
    p (readUntil s offer decision ended (stream.take m) (stream.drop m)) := by
  -- The induction is on how much of the stream is left.
  have hall : ∀ k n, stream.length - n = k → m ≤ n → n ≤ stream.length →
      p (readUntil s offer decision ended (stream.take n) (stream.drop n)) := by
    intro k
    induction k using Nat.strongRecOn with
    | _ k ih =>
      intro n hk hmn hn
      by_cases hnone : decision (stream.take n) = none
      · rcases Nat.lt_or_ge n stream.length with hlt | hge
        · rw [readUntil_more hnone hlt (hoffer n hmn hnone)]
          have hsize := s.pos n _ (hoffer n hmn hnone)
          rcases Nat.le_total (n + s.size n (offer (stream.take n))) stream.length with hle | hle
          · exact ih _ (by omega) _ rfl (by omega) hle
          · have hend := ih 0 (by omega) stream.length (by omega) hm (Nat.le_refl _)
            rw [List.take_length, List.drop_length] at hend
            rwa [List.take_of_length_le hle, List.drop_eq_nil_of_le hle]
        · rw [List.take_of_length_le hge] at hnone
          rw [List.take_of_length_le hge, List.drop_eq_nil_of_le hge, readUntil_none hnone]
          exact hended hnone
      · exact hdone n hmn hn hnone
  exact hall _ m rfl (Nat.le_refl _) hm

/-- A decision for a value that is made once `k` elements are there, and kept, is what the loop
comes to. -/
theorem readUntil_eq_ok {b : β} {m k : ℕ} (hmk : m ≤ k) (hk : k ≤ stream.length)
    (hbefore : ∀ n, m ≤ n → n < k → decision (stream.take n) = none ∧ 0 < offer (stream.take n))
    (hafter : ∀ n, k ≤ n → n ≤ stream.length → decision (stream.take n) = some (.ok b)) :
    ∃ n, k ≤ n ∧ n ≤ stream.length ∧
      readUntil s offer decision ended (stream.take m) (stream.drop m) =
        .ok ⟨stream.take n, stream.drop n, b⟩ := by
  have hlast := hafter stream.length hk (Nat.le_refl _)
  rw [List.take_length] at hlast
  refine readUntil_induction
    (p := fun r => ∃ n, k ≤ n ∧ n ≤ stream.length ∧ r = .ok ⟨stream.take n, stream.drop n, b⟩)
    (Nat.le_trans hmk hk) (fun n hmn hnone => ?_) (fun n hmn hn hsome => ?_)
    fun hnone => ?_
  · rcases Nat.lt_or_ge n k with hlt | hge
    · exact (hbefore n hmn hlt).2
    · rcases Nat.le_total n stream.length with hle | hle
      · rw [hafter n hge hle] at hnone
        cases hnone
      · rw [List.take_of_length_le hle, hlast] at hnone
        cases hnone
  · rcases Nat.lt_or_ge n k with hlt | hge
    · exact absurd (hbefore n hmn hlt).1 hsome
    · exact ⟨n, hge, hn, readUntil_ok (hafter n hge hn)⟩
  · rw [hlast] at hnone
    cases hnone

/-- If there is nothing to decide for but the error of a stream that ends, the loop comes to it. -/
theorem readUntil_eq_error {m : ℕ} (hm : m ≤ stream.length)
    (hoffer : ∀ n, m ≤ n → decision (stream.take n) = none → 0 < offer (stream.take n))
    (hall : ∀ n, m ≤ n → n ≤ stream.length →
      decision (stream.take n) = none ∨ decision (stream.take n) = some (.error ended)) :
    readUntil s offer decision ended (stream.take m) (stream.drop m) = .error ended := by
  refine readUntil_induction (p := fun r => r = .error ended) hm hoffer (fun n hmn hn hsome => ?_)
    fun _ => rfl
  rcases hall n hmn hn with hnone | herror
  · exact absurd hnone hsome
  · exact readUntil_error herror

end

end Reading
