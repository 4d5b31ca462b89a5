import ChainFollower.Bytes
import ChainFollower.Saturating
import Mathlib.Algebra.Group.Nat.Defs

/-!
# Words as integers

Sums of 64-bit words that stay within bounds are sums of integers, and the bytes of a
word determine it.
-/

namespace ChainFollower

namespace Words

variable {left right : Int64}

/-- The bounds of words, written out. -/
theorem toInt_lt (word : Int64) : word.toInt < 9223372036854775808 :=
  Int64.toInt_lt word

theorem le_toInt (word : Int64) : -9223372036854775808 ≤ word.toInt :=
  Int64.le_toInt word

/-- A sum within bounds. -/
theorem toInt_add (lower : -9223372036854775808 ≤ left.toInt + right.toInt)
    (upper : left.toInt + right.toInt < 9223372036854775808) :
    (left + right).toInt = left.toInt + right.toInt := by
  rw [Int64.toInt_add]
  exact Int.bmod_eq_of_le (by omega) (by omega)

/-- A difference within bounds. -/
theorem toInt_sub (lower : -9223372036854775808 ≤ left.toInt - right.toInt)
    (upper : left.toInt - right.toInt < 9223372036854775808) :
    (left - right).toInt = left.toInt - right.toInt := by
  rw [Int64.toInt_sub]
  exact Int.bmod_eq_of_le (by omega) (by omega)

/-- The successor of a word below the last one. -/
theorem toInt_succ (notLast : left.toInt < 9223372036854775807) :
    (left + 1).toInt = left.toInt + 1 := by
  have lower := le_toInt left
  rw [toInt_add] <;> rw [Int64.toInt_one] <;> omega

theorem ne_maxValue_iff : left ≠ Int64.maxValue ↔ left.toInt < 9223372036854775807 := by
  have upper := toInt_lt left
  rw [Ne, ← Int64.toInt_inj, Int64.toInt_maxValue]
  omega

theorem toInt_min : (min left right).toInt = min left.toInt right.toInt := by
  rw [show min left right = if left ≤ right then left else right from rfl, Int.min_def]
  simp only [Int64.le_iff_toInt_le]
  split <;> rfl

theorem toInt_max : (max left right).toInt = max left.toInt right.toInt := by
  rw [show max left right = if left ≤ right then right else left from rfl, Int.max_def]
  simp only [Int64.le_iff_toInt_le]
  split <;> rfl

/-- The greater of a word without a sign and one. -/
theorem toNat_max_one (word : UInt64) : (max word 1).toNat = max word.toNat 1 := by
  rw [show max word 1 = if word ≤ 1 then 1 else word from rfl, Nat.max_def]
  simp only [UInt64.le_iff_toNat_le, UInt64.toNat_one]
  split <;> rfl

/-- A word without a sign wraps around as a signed word. -/
theorem toInt_toInt64_eq (word : UInt64) :
    word.toInt64.toInt = (word.toNat : Int).bmod 18446744073709551616 :=
  BitVec.toInt_eq_toNat_bmod word.toBitVec

/-- A word without a sign is the same number as a signed word below the bound. -/
theorem toInt_toInt64 {word : UInt64} (small : word.toNat < 9223372036854775808) :
    word.toInt64.toInt = word.toNat := by
  change word.toBitVec.toInt = word.toBitVec.toNat
  exact BitVec.toInt_eq_toNat_of_lt (by change 2 * word.toNat < _; omega)

end Words

/-- A sum stops at the bounds of words. -/
theorem Saturating.toInt_add (left right : Int64) :
    (add left right).toInt =
      max (-9223372036854775808) (min 9223372036854775807 (left.toInt + right.toInt)) := by
  have least : Int64.minValue.toInt = -9223372036854775808 := rfl
  have greatest : Int64.maxValue.toInt = 9223372036854775807 := rfl
  rw [add, clamp, least, greatest]
  exact Int64.toInt_ofInt_of_le (by omega) (by omega)

/-- The bytes of a number give back what fits in them. -/
theorem Bytes.toNat_bigEndian (width number : Nat) :
    toNat (bigEndian width number) = number % 256 ^ width := by
  induction width generalizing number with
  | zero => simp [bigEndian, toNat, Nat.mod_one]
  | succ width ih =>
      have split : number % 256 ^ (width + 1) =
          (number / 256 % 256 ^ width) * 256 + number % 256 := by
        rw [Nat.pow_succ, Nat.mul_comm, Nat.mod_mul]
        omega
      rw [split, ← ih]
      simp [bigEndian, toNat, List.foldl_append]

end ChainFollower
