import Mathlib.Algebra.Order.Round
import Mathlib.Data.Int.ModEq
import Mathlib.Data.Rat.Floor
import Mathlib.Tactic.Positivity
import ZMachine.Machine.Arithmetic

/-!
# Words and integers

A word stands for its signed reading modulo 65536. So sums, differences and products of words are
those of their readings, while quotients, remainders and shifts are computed from the readings
themselves. The laws of division and of shifts are about rational numbers, which are cut off toward
zero and toward negative infinity.
-/

namespace ZMachine

/-- The integer that is left when the places after the point are dropped. -/
def truncated (number : ℚ) : ℤ :=
  if 0 ≤ number then ⌊number⌋ else ⌈number⌉

theorem truncated_div_natCast (dividend : ℤ) (divisor : ℕ) :
    truncated ((dividend : ℚ) / divisor) = dividend.tdiv divisor := by
  rcases Nat.eq_zero_or_pos divisor with rfl | positive
  · simp [truncated]
  · have denominator : (0 : ℚ) < divisor := by exact_mod_cast positive
    unfold truncated
    by_cases sign : 0 ≤ dividend
    · have quotient : (0 : ℚ) ≤ dividend / divisor := by positivity
      rw [if_pos quotient, Rat.floor_intCast_div_natCast, Int.tdiv_eq_ediv_of_nonneg sign]
    · have negative : (dividend : ℚ) < 0 := by exact_mod_cast not_le.mp sign
      have quotient : (dividend : ℚ) / divisor < 0 := div_neg_of_neg_of_pos negative denominator
      have turned : (dividend : ℚ) / divisor = -(((-dividend : ℤ) : ℚ) / divisor) := by
        push_cast
        rw [neg_div, neg_neg]
      rw [if_neg (not_le.mpr quotient), turned, Int.ceil_neg, Rat.floor_intCast_div_natCast,
        ← Int.tdiv_eq_ediv_of_nonneg (by omega), Int.neg_tdiv, neg_neg]

theorem truncated_div (dividend divisor : ℤ) :
    truncated ((dividend : ℚ) / divisor) = dividend.tdiv divisor := by
  rcases Int.eq_nat_or_neg divisor with ⟨size, rfl | rfl⟩
  · exact truncated_div_natCast dividend size
  · have turned : (dividend : ℚ) / ((-(size : ℤ) : ℤ) : ℚ) = ((-dividend : ℤ) : ℚ) / size := by
      push_cast
      rw [div_neg, neg_div]
    rw [turned, truncated_div_natCast, Int.neg_tdiv, Int.tdiv_neg]

/-- Multiplying by a power of two moves the digits of a number; below the point they are dropped. -/
theorem floor_mul_zpow (number places : ℤ) :
    ⌊(number : ℚ) * 2 ^ places⌋ =
      if 0 ≤ places then number * 2 ^ places.natAbs else number / 2 ^ places.natAbs := by
  by_cases left : 0 ≤ places
  · obtain ⟨count, rfl⟩ := Int.eq_ofNat_of_zero_le left
    have whole : (number : ℚ) * 2 ^ (count : ℤ) = ((number * 2 ^ count : ℤ) : ℚ) := by
      push_cast
      rw [zpow_natCast]
    rw [if_pos left, Int.natAbs_natCast, whole, Int.floor_intCast]
  · obtain ⟨count, rfl⟩ : ∃ count : ℕ, places = -count := ⟨places.natAbs, by omega⟩
    have quotient : (number : ℚ) * 2 ^ (-(count : ℤ)) = (number : ℚ) / ((2 ^ count : ℕ) : ℚ) := by
      rw [zpow_neg, zpow_natCast, div_eq_mul_inv]
      push_cast
      rfl
    rw [if_neg left, quotient, Rat.floor_intCast_div_natCast, Int.natAbs_neg, Int.natAbs_natCast]
    push_cast
    rfl

namespace Word

theorem signed_eq (word : UInt16) :
    signed word = if word.toNat < 32768 then (word.toNat : ℤ) else word.toNat - 65536 := by
  have read : signed word = _ := BitVec.toInt_eq_toNat_cond word.toBitVec
  rw [read, UInt16.toNat_toBitVec]
  split
  · rw [if_pos (by omega)]
  · rw [if_neg (by omega)]
    rfl

theorem signed_bounds (word : UInt16) : -32768 ≤ signed word ∧ signed word < 32768 := by
  have small := word.toNat_lt
  rw [signed_eq]
  split <;> omega

theorem toNat_ofInt (number : ℤ) : ((ofInt number).toNat : ℤ) = number % 65536 := by
  rw [ofInt, UInt16.toNat_ofNat']
  omega

theorem signed_ofInt {number : ℤ} (least : -32768 ≤ number) (greatest : number < 32768) :
    signed (ofInt number) = number := by
  have value := toNat_ofInt number
  rw [signed_eq]
  split <;> omega

theorem eq_of_toNat_emod {left right : UInt16} {number : ℤ}
    (first : (left.toNat : ℤ) = number % 65536) (second : (right.toNat : ℤ) = number % 65536) :
    left = right :=
  UInt16.toNat_inj.mp (Int.ofNat_inj.mp (first.trans second.symm))

/-- A word is its signed reading modulo 65536. -/
theorem toNat_eq_signed_emod (word : UInt16) : (word.toNat : ℤ) = signed word % 65536 := by
  have small := word.toNat_lt
  rw [signed_eq]
  split <;> omega

theorem toNat_modEq_signed (word : UInt16) : (word.toNat : ℤ) ≡ signed word [ZMOD 65536] := by
  rw [toNat_eq_signed_emod]
  exact Int.mod_modEq _ _

theorem signed_ofInt_modEq (number : ℤ) : signed (ofInt number) ≡ number [ZMOD 65536] := by
  refine (toNat_modEq_signed _).symm.trans ?_
  rw [toNat_ofInt]
  exact Int.mod_modEq _ _

theorem signed_eq_zero {word : UInt16} : signed word = 0 ↔ word = 0 := by
  rw [signed_eq, ← UInt16.toNat_inj]
  have small := word.toNat_lt
  simp only [UInt16.toNat_zero]
  split <;> omega

theorem toNat_add_emod (left right : UInt16) :
    ((left + right).toNat : ℤ) = (signed left + signed right) % 65536 := by
  have readings := (toNat_modEq_signed left).add (toNat_modEq_signed right)
  rw [UInt16.toNat_add]
  push_cast
  exact readings

theorem toNat_sub_emod (left right : UInt16) :
    ((left - right).toNat : ℤ) = (signed left - signed right) % 65536 := by
  have readings := (toNat_modEq_signed left).sub (toNat_modEq_signed right)
  have small := right.toNat_lt
  rw [← readings, UInt16.toNat_sub]
  omega

theorem toNat_mul_emod (left right : UInt16) :
    ((left * right).toNat : ℤ) = (signed left * signed right) % 65536 := by
  have readings := (toNat_modEq_signed left).mul (toNat_modEq_signed right)
  rw [UInt16.toNat_mul]
  push_cast
  exact readings

section Division

variable (dividend divisor : UInt16)

theorem toNat_divide : ((divide dividend divisor).toNat : ℤ) =
    truncated ((signed dividend : ℚ) / signed divisor) % 65536 := by
  rw [divide, toNat_ofInt, truncated_div]

/-- Only one quotient is not the reading of a word: divisors other than 1 and -1 leave no more than
half of the dividend. -/
theorem signed_divide (fits : ¬ (signed dividend = -32768 ∧ signed divisor = -1)) :
    signed (divide dividend divisor) = truncated ((signed dividend : ℚ) / signed divisor) := by
  have bounds := signed_bounds dividend
  have size : ((signed dividend).tdiv (signed divisor)).natAbs =
      (signed dividend).natAbs / (signed divisor).natAbs := Int.natAbs_tdiv _ _
  have small : -32768 ≤ (signed dividend).tdiv (signed divisor) ∧
      (signed dividend).tdiv (signed divisor) < 32768 := by
    by_cases one : (signed divisor).natAbs = 1
    · rcases Int.natAbs_eq_iff.mp one with positive | negative
      · rw [positive, Int.natCast_one, Int.tdiv_one]
        exact bounds
      · rw [negative, Int.natCast_one, Int.tdiv_neg, Int.tdiv_one]
        omega
    · have half : (signed dividend).natAbs / (signed divisor).natAbs ≤ 16384 := by
        rcases Nat.eq_zero_or_pos (signed divisor).natAbs with zero | positive
        · simp [zero]
        · have larger : (signed dividend).natAbs / (signed divisor).natAbs ≤
              (signed dividend).natAbs / 2 := Nat.div_le_div_left (by omega) (by decide)
          omega
      omega
  rw [truncated_div, divide, signed_ofInt small.1 small.2]

theorem natAbs_tmod_lt (nonzero : divisor ≠ 0) :
    ((signed dividend).tmod (signed divisor)).natAbs < (signed divisor).natAbs := by
  rw [Int.natAbs_tmod]
  exact Nat.mod_lt _ (Int.natAbs_pos.mpr fun zero => nonzero (signed_eq_zero.mp zero))

/-- A remainder is always the reading of a word, being smaller than the divisor. -/
theorem signed_remainder (nonzero : divisor ≠ 0) :
    signed (remainder dividend divisor) = (signed dividend).tmod (signed divisor) := by
  have bounds := signed_bounds divisor
  have small := natAbs_tmod_lt dividend divisor nonzero
  exact signed_ofInt (by omega) (by omega)

theorem natAbs_remainder_lt (nonzero : divisor ≠ 0) :
    (signed (remainder dividend divisor)).natAbs < (signed divisor).natAbs := by
  rw [signed_remainder dividend divisor nonzero]
  exact natAbs_tmod_lt dividend divisor nonzero

theorem sign_remainder (nonzero : divisor ≠ 0) :
    signed (remainder dividend divisor) = 0 ∨
      (signed (remainder dividend divisor)).sign = (signed dividend).sign := by
  rw [signed_remainder dividend divisor nonzero, Int.sign_tmod]
  split
  · rename_i divides
    exact Or.inl (Int.tmod_eq_zero_of_dvd divides)
  · exact Or.inr rfl

theorem signed_modEq_division :
    signed dividend ≡ signed divisor * signed (divide dividend divisor) +
      signed (remainder dividend divisor) [ZMOD 65536] := by
  have parts := ((signed_ofInt_modEq ((signed dividend).tdiv (signed divisor))).mul_left
    (signed divisor)).add (signed_ofInt_modEq ((signed dividend).tmod (signed divisor)))
  rw [Int.mul_tdiv_add_tmod] at parts
  exact parts.symm

end Division

theorem dvd_two_pow {count : ℕ} (far : 16 ≤ count) : (65536 : ℤ) ∣ 2 ^ count :=
  pow_dvd_pow 2 far

theorem le_two_pow {count : ℕ} (far : 16 ≤ count) : (65536 : ℤ) ≤ 2 ^ count :=
  Int.le_of_dvd (by positivity) (dvd_two_pow far)

theorem toNat_ofNat_mod {count : ℕ} (near : count < 16) :
    (UInt16.ofNat count).toNat % 16 = count := by
  rw [UInt16.toNat_ofNat']
  omega

theorem toNat_logicalShift (word : UInt16) (places : ℤ) :
    ((logicalShift word places).toNat : ℤ) = ⌊(word.toNat : ℚ) * 2 ^ places⌋ % 65536 := by
  have moved := floor_mul_zpow word.toNat places
  rw [Int.cast_natCast] at moved
  rw [moved]
  have small := word.toNat_lt
  unfold logicalShift
  split
  · rename_i far
    split
    · rw [Int.emod_eq_zero_of_dvd ((dvd_two_pow far).mul_left _)]
      rfl
    · have power := le_two_pow far
      rw [Int.ediv_eq_zero_of_lt (by omega) (by omega)]
      rfl
  · rename_i near
    have distance := toNat_ofNat_mod (Nat.not_le.mp near)
    split
    · rw [UInt16.toNat_shiftLeft, distance, Nat.shiftLeft_eq]
      push_cast
      rfl
    · have less := Nat.lt_of_le_of_lt (Nat.div_le_self word.toNat (2 ^ places.natAbs)) small
      have quotient : (word.toNat : ℤ) / 2 ^ places.natAbs =
          ((word.toNat / 2 ^ places.natAbs : ℕ) : ℤ) := by
        push_cast
        rfl
      rw [UInt16.toNat_shiftRight, distance, Nat.shiftRight_eq_div_pow, quotient]
      exact (Int.emod_eq_of_lt (Int.natCast_nonneg _) (Int.ofNat_lt.mpr less)).symm

/-- Copies of the sign come in on the left. -/
theorem toInt_shiftRight (number : Int16) {count : ℕ} (near : count < 16) :
    (number >>> Int16.ofNat count).toInt = number.toInt / 2 ^ count := by
  have distance : ∀ count < 16, ((Int16.ofNat count).toBitVec.smod 16).toNat = count := by decide
  have shifted : (number >>> Int16.ofNat count).toInt =
      (number.toBitVec.sshiftRight ((Int16.ofNat count).toBitVec.smod 16).toNat).toInt := rfl
  rw [shifted, distance count near, BitVec.toInt_sshiftRight, Int.shiftRight_eq_div_pow]
  push_cast
  rfl

theorem toNat_arithmeticShift (word : UInt16) (places : ℤ) :
    ((arithmeticShift word places).toNat : ℤ) = ⌊(signed word : ℚ) * 2 ^ places⌋ % 65536 := by
  rw [floor_mul_zpow]
  have bounds := signed_bounds word
  unfold arithmeticShift
  split
  · rename_i left
    have moved := floor_mul_zpow word.toNat places
    rw [Int.cast_natCast, if_pos left] at moved
    rw [toNat_logicalShift, moved]
    exact (toNat_modEq_signed word).mul_right _
  · split
    · rename_i far
      have power := le_two_pow far
      split
      · have quotient : signed word / 2 ^ places.natAbs = -1 :=
          ((Int.ediv_emod_unique (by omega)).mpr
            ⟨(by omega : signed word + 2 ^ places.natAbs + 2 ^ places.natAbs * -1 = signed word),
              by omega, by omega⟩).1
        rw [quotient]
        rfl
      · rw [Int.ediv_eq_zero_of_lt (by omega) (by omega)]
        rfl
    · rename_i near
      have reading : signed (word.toInt16 >>> Int16.ofNat places.natAbs).toUInt16 =
          signed word / 2 ^ places.natAbs := by
        unfold signed
        rw [Int16.toInt16_toUInt16, toInt_shiftRight _ (Nat.not_le.mp near)]
      rw [toNat_eq_signed_emod, reading]

end Word

end ZMachine
