import Mathlib.Data.Int.Notation
import InfernalLaw.Framing.Encodings
import InfernalLaw.Postgres.Process

/-!
# Values that the kernel's modules share

UUIDs are 128-bit words, digests are lists of 32 bytes, and text is a list of characters. An `i64`
is an integer; where the code's arithmetic can leave the range, `wrapI64` is what a release build
computes.
-/

namespace InfernalLaw

/-- A UUID, by its 128 bits. -/
abbrev Uuid := BitVec 128

/-- The bytes of a number, the most significant one first. -/
def beBytes (count n : ℕ) : List UInt8 :=
  (List.range count).map fun i => UInt8.ofNat (n >>> (8 * (count - 1 - i)))

/-- A number is written in as many bytes as are asked for. -/
@[simp] theorem length_beBytes (count n : ℕ) : (beBytes count n).length = count := by
  simp [beBytes]

/-- The last byte of a number is its remainder, and the bytes before it are those of the
quotient. -/
theorem beBytes_succ (count n : ℕ) :
    beBytes (count + 1) n = beBytes count (n / 256) ++ [UInt8.ofNat n] := by
  unfold beBytes
  rw [List.range_succ, List.map_append]
  congr 1
  · refine List.map_congr_left fun i hi => ?_
    have hlt := List.mem_range.mp hi
    have hshift : 8 * (count + 1 - 1 - i) = 8 + 8 * (count - 1 - i) := by omega
    rw [hshift, Nat.shiftRight_add, Nat.shiftRight_eq_div_pow n 8]
  · simp

/-- A number that fits is determined by its bytes. -/
theorem beBytes_inj {count m n : ℕ} (hm : m < 256 ^ count) (hn : n < 256 ^ count)
    (h : beBytes count m = beBytes count n) : m = n := by
  induction count generalizing m n with
  | zero => omega
  | succ count ih =>
    rw [beBytes_succ, beBytes_succ] at h
    obtain ⟨hinit, hlast⟩ := List.append_inj' h rfl
    rw [Nat.pow_succ] at hm hn
    have hdiv : m / 256 = n / 256 := ih (by omega) (by omega) hinit
    have hmod := congrArg UInt8.toNat (List.cons.inj hlast).1
    simp only [UInt8.toNat_ofNat'] at hmod
    omega

/-- `Uuid::as_bytes`. -/
def Uuid.asBytes (u : Uuid) : List UInt8 := beBytes 16 u.toNat

/-- A UUID has 16 bytes. -/
@[simp] theorem Uuid.length_asBytes (u : Uuid) : (Uuid.asBytes u).length = 16 := length_beBytes _ _

/-- A UUID is given by its bytes. -/
theorem Uuid.asBytes_inj {u u' : Uuid} (h : Uuid.asBytes u = Uuid.asBytes u') : u = u' :=
  BitVec.eq_of_toNat_eq (beBytes_inj u.isLt u'.isLt h)

/-- The `Display` of `Uuid`. -/
def Uuid.display (u : Uuid) : String := String.ofList (Framing.hyphenated u.toNat)

/-- `[u8; 32]`. -/
structure Bytes32 where
  bytes : List UInt8
  length_eq : bytes.length = 32
  deriving DecidableEq

/-- A digest with every byte the same. -/
def Bytes32.fill (b : UInt8) : Bytes32 := ⟨List.replicate 32 b, List.length_replicate⟩

/-- The text of a `Repository(String)` error: what the database driver reports, or a text of the
kernel's own. -/
inductive Failure where
  | database (error : Postgres.DbError)
  | kernel (message : String)
  deriving DecidableEq

/-- `i64` arithmetic of a release build. -/
def wrapI64 (x : ℤ) : ℤ := x.bmod (2 ^ 64)

/-- Within the range of `i64`, the successor either is one more or wraps around below zero. -/
theorem wrapI64_succ {x : ℤ} (h₀ : 0 ≤ x) (h₁ : x < 2 ^ 63) :
    wrapI64 (x + 1) = x + 1 ∧ x + 1 < 2 ^ 63 ∨ wrapI64 (x + 1) < 0 := by
  unfold wrapI64
  by_cases h : x + 1 < 2 ^ 63
  · exact .inl ⟨Int.bmod_eq_of_le (by omega) (by omega), h⟩
  · have hx : x + 1 = 2 ^ 63 := by omega
    rw [hx]
    exact .inr (by decide)

/-- `i64::saturating_add`. -/
def saturatingAdd (x y : ℤ) : ℤ := max (-2 ^ 63) (min (2 ^ 63 - 1) (x + y))

end InfernalLaw
