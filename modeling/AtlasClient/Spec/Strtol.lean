import AtlasClient.Spec.Bytes
import Mathlib.Data.List.TakeWhile

/-!
# Numbers in strings

`strtol` of the C library with base 10 and no end pointer. A string is the list of its bytes
without the final NUL; `long` is as wide as the platform makes it, at least 32 bits.
-/

namespace AtlasClient

/-- The white space of the C locale. -/
def isspace (c : UInt8) : Bool := c = 32 ∨ (9 ≤ c ∧ c ≤ 13)

def isdigit (c : UInt8) : Bool := 48 ≤ c ∧ c ≤ 57

/-- The value of a string of digits. -/
def digitsValue (s : Bytes) : ℕ := s.foldl (fun n c => 10 * n + (c.toNat - 48)) 0

/-- An optional sign: whether it is a minus, and the rest. -/
def sign : Bytes → Bool × Bytes
  | 45 :: s => (true, s)
  | 43 :: s => (false, s)
  | s => (false, s)

/-- The number at the head of a string: white space, a sign, digits; what follows is ignored, and
no digits are the number zero. -/
def subjectValue (s : Bytes) : ℤ :=
  let (negative, s) := sign (s.dropWhile isspace)
  let n : ℤ := digitsValue (s.takeWhile isdigit)
  if negative then -n else n

/-- The type `long`. -/
structure LongType where
  bits : ℕ
  bits_ge : 32 ≤ bits

def LongType.max (long : LongType) : ℤ := 2 ^ (long.bits - 1) - 1

def LongType.min (long : LongType) : ℤ := -2 ^ (long.bits - 1)

/-- The number, cut to the range of `long`, and whether `errno` is set to `ERANGE`. -/
def strtol (long : LongType) (s : Bytes) : ℤ × Bool :=
  if long.max < subjectValue s then (long.max, true)
  else if subjectValue s < long.min then (long.min, true)
  else (subjectValue s, false)

/-- The string is the decimal representation of a number. -/
def IsDecimal (s : Bytes) (n : ℕ) : Prop := s ≠ [] ∧ (∀ c ∈ s, isdigit c) ∧ digitsValue s = n

instance decidableIsDecimal (s : Bytes) (n : ℕ) : Decidable (IsDecimal s n) :=
  decidable_of_iff (s ≠ [] ∧ s.all isdigit = true ∧ digitsValue s = n) (by rw [IsDecimal, List.all_eq_true])

/-- **A decimal representation is the number that it represents.** -/
theorem IsDecimal.subjectValue {s : Bytes} {n : ℕ} (h : IsDecimal s n) : subjectValue s = n := by
  obtain ⟨hne, hdigits, hn⟩ := h
  rcases s with _ | ⟨c, s⟩
  · exact absurd rfl hne
  have hc : isdigit c = true := hdigits c List.mem_cons_self
  simp only [isdigit, decide_eq_true_eq, UInt8.le_iff_toNat_le, UInt8.reduceToNat] at hc
  -- a digit is neither white space nor a sign
  have hspace : ¬ isspace c = true := by
    simp only [isspace, decide_eq_true_eq, UInt8.le_iff_toNat_le, ← UInt8.toNat_inj, UInt8.reduceToNat]
    omega
  have hsign : sign (c :: s) = (false, c :: s) := by
    unfold sign
    split
    · rename_i heq
      simp only [List.cons.injEq] at heq
      rw [heq.1] at hc
      exact absurd hc (by decide)
    · rename_i heq
      simp only [List.cons.injEq] at heq
      rw [heq.1] at hc
      exact absurd hc (by decide)
    · rfl
  rw [AtlasClient.subjectValue, List.dropWhile_cons_of_neg hspace, hsign]
  simp only [Bool.false_eq_true, if_false, List.takeWhile_eq_self_iff.2 hdigits, hn]

theorem LongType.two_pow (long : LongType) : ∃ k : ℤ, 1 ≤ k ∧ (2 : ℤ) ^ (long.bits - 1) = 2 ^ 31 * k := by
  refine ⟨2 ^ (long.bits - 32), one_le_pow₀ (by decide), ?_⟩
  rw [← pow_add]
  congr 1
  have := long.bits_ge
  omega

theorem LongType.le_max (long : LongType) : 2 ^ 31 - 1 ≤ long.max := by
  obtain ⟨k, hk, hpow⟩ := long.two_pow
  rw [LongType.max, hpow]
  omega

theorem LongType.min_le (long : LongType) : long.min ≤ -2 ^ 31 := by
  obtain ⟨k, hk, hpow⟩ := long.two_pow
  rw [LongType.min, hpow]
  omega

/-- The largest `long` stored in 16 bits. -/
theorem LongType.max_mod (long : LongType) : long.max % 2 ^ 16 = 65535 := by
  obtain ⟨k, hk, hpow⟩ := long.two_pow
  rw [LongType.max, hpow]
  omega

/-- The smallest `long` stored in 16 bits. -/
theorem LongType.min_mod (long : LongType) : long.min % 2 ^ 16 = 0 := by
  obtain ⟨k, hk, hpow⟩ := long.two_pow
  rw [LongType.min, hpow]
  omega

end AtlasClient
