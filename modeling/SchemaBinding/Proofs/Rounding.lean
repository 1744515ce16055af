import Mathlib
import SchemaBinding.Number.Double

/-!
# Rounding to floating-point numbers

A magnitude that is one of a floating-point number is rounded to that number. So an integer that is
a floating-point number is read as itself, and every integer of at most 2⁵³ is one.
-/

namespace SchemaBinding.Double

variable {negative : Bool} {exponent : Fin 2047} {fraction : Fin 4503599627370496}

/-- A whole number of quotients is rounded to itself. -/
theorem roundDiv_mul (n : Nat) {den : Nat} (hd : 0 < den) : roundDiv (n * den) den = n := by
  rw [roundDiv, Nat.mul_div_cancel n hd, Nat.mul_mod_left]
  exact if_pos (by omega)

/-- A significand has fifty-three bits. -/
theorem significand_lt (exponent : Fin 2047) (fraction : Fin 4503599627370496) :
    significand exponent fraction < 2 ^ 53 := by
  have hf := fraction.isLt
  rw [significand]
  split
  · omega
  · rw [Nat.pow_eq]
    omega

/-- The significand has all of its 53 bits unless its scale is the least one. -/
theorem le_significand (h : scale exponent ≠ 0) : 2 ^ 52 ≤ significand exponent fraction := by
  rw [scale] at h
  rw [significand, if_neg (by omega)]
  exact Nat.le_add_right _ _

/-- The scale of a number can be read off its magnitude. -/
theorem scaleFor_magnitude (exponent : Fin 2047) (fraction : Fin 4503599627370496) :
    scaleFor (magnitude exponent fraction) = scale exponent := by
  have hlt := significand_lt exponent fraction
  by_cases hs : scale exponent = 0
  · rw [scaleFor, magnitude, hs, Nat.pow_eq, Nat.pow_zero, Nat.mul_one]
    by_cases hz : significand exponent fraction = 0
    · rw [hz]
      rfl
    · have := (Nat.log2_lt hz).mpr hlt
      omega
  · have hle : 2 ^ 52 ≤ significand exponent fraction := le_significand hs
    have hpos : 0 < 2 ^ scale exponent := Nat.two_pow_pos _
    have hne : magnitude exponent fraction ≠ 0 := by
      rw [magnitude, Nat.pow_eq]
      exact Nat.mul_ne_zero (by omega) (Nat.ne_of_gt hpos)
    have hlog : (magnitude exponent fraction).log2 = 52 + scale exponent := by
      rw [Nat.log2_eq_iff hne, magnitude, Nat.pow_eq]
      constructor
      · rw [Nat.pow_add]
        exact Nat.mul_le_mul_right _ hle
      · rw [Nat.add_right_comm, Nat.pow_add]
        exact Nat.mul_lt_mul_of_pos_right hlt hpos
    rw [scaleFor, hlog]
    omega

/-- A floating-point number is made of its significand and its scale. -/
theorem ofScaled_significand (negative : Bool) (exponent : Fin 2047)
    (fraction : Fin 4503599627370496) :
    ofScaled negative (significand exponent fraction) (scale exponent) =
      .finite negative exponent fraction := by
  have hf := fraction.isLt
  by_cases he : exponent.val = 0
  · have hsig : significand exponent fraction = fraction.val := if_pos he
    rw [ofScaled, hsig, if_pos (by simp only [Nat.pow_eq]; omega)]
    congr 1
    · exact Fin.ext he.symm
    · exact Fin.ext (Nat.mod_eq_of_lt hf)
  · have hsig : significand exponent fraction = Nat.pow 2 52 + fraction.val := if_neg he
    have hscale : scale exponent + 1 = exponent.val := Nat.sub_add_cancel (Nat.pos_of_ne_zero he)
    rw [ofScaled, hsig, if_neg (Nat.not_lt.mpr (Nat.le_add_right _ _)),
      dif_pos (by rw [hscale]; exact exponent.isLt), Nat.add_sub_cancel_left]
    congr 1
    · exact Fin.ext hscale
    · exact Fin.ext (Nat.mod_eq_of_lt hf)

/-- The magnitude of a number is rounded to that number. -/
theorem ofUnitRatio_magnitude (negative : Bool) (exponent : Fin 2047)
    (fraction : Fin 4503599627370496) :
    ofUnitRatio negative (magnitude exponent fraction) 1 =
      .finite negative exponent fraction := by
  have hsig : roundDiv (magnitude exponent fraction) (1 * Nat.pow 2 (scale exponent)) =
      significand exponent fraction := by
    rw [Nat.one_mul]
    exact roundDiv_mul _ (Nat.two_pow_pos _)
  have hne : significand exponent fraction ≠ Nat.pow 2 53 := Nat.ne_of_lt (significand_lt _ _)
  rw [ofUnitRatio, Nat.div_one, scaleFor_magnitude, hsig, if_neg hne]
  exact ofScaled_significand negative exponent fraction

/-- The power of two that no finite number reaches. -/
def topBits : Nat := 1024

/-- A magnitude beyond the finite numbers is rounded to an infinity. -/
theorem ofUnitRatio_eq_infinite (negative : Bool) {n : Nat}
    (h : 2 ^ (topBits + unitBits) ≤ n) :
    ofUnitRatio negative n 1 = .infinite negative := by
  have hn : n ≠ 0 := by
    have := Nat.two_pow_pos (topBits + unitBits)
    omega
  have hlog : topBits + unitBits ≤ n.log2 := (Nat.le_log2 hn).mpr h
  have hbits : unitBits = 1074 := rfl
  have htop : topBits = 1024 := rfl
  have hscale : scaleFor n = n.log2 - 52 := rfl
  have hover : ∀ sig scale, 2 ^ 52 ≤ sig → 2046 ≤ scale →
      ofScaled negative sig scale = .infinite negative := by
    intro sig scale hsig hs
    have hnot : ¬ sig < Nat.pow 2 52 := Nat.not_lt.mpr hsig
    rw [ofScaled, if_neg hnot, dif_neg (by omega)]
  -- the significand has all its bits, for the quotient by the scale's power of two has them
  have hsig : 2 ^ 52 ≤ roundDiv n (1 * Nat.pow 2 (scaleFor n)) := by
    have hq : 2 ^ 52 ≤ n / 2 ^ scaleFor n := by
      rw [Nat.le_div_iff_mul_le (Nat.two_pow_pos _), ← Nat.pow_add, hscale,
        Nat.add_sub_cancel' (by omega)]
      exact Nat.log2_self_le hn
    rw [roundDiv, Nat.one_mul, Nat.pow_eq]
    split
    · exact hq
    · split
      · omega
      · omega
  rw [ofUnitRatio, Nat.div_one]
  split
  · exact hover _ _ (Nat.le_refl _) (by omega)
  · exact hover _ _ hsig (by omega)

/-- An integer that has a nearest number is not beyond the numbers. -/
theorem natAbs_lt_of_ofInt? {i : Int} {x : Double} (h : ofInt? i = some x) :
    i.natAbs < 2 ^ topBits := by
  rw [← Nat.not_le]
  intro hle
  have hn : 2 ^ (topBits + unitBits) ≤ i.natAbs * Nat.pow 2 unitBits := by
    generalize unitBits = n
    rw [Nat.pow_add]
    exact Nat.mul_le_mul_right _ hle
  rw [ofInt?, ofRatio, ofUnitRatio_eq_infinite _ hn] at h
  cases h

/-- An integer with the magnitude of a number is read as the number of its sign. -/
theorem ofInt?_eq_finite {i : Int} (h : i.natAbs * 2 ^ unitBits = magnitude exponent fraction) :
    ofInt? i = some (.finite (i < 0) exponent fraction) := by
  rw [ofInt?, ofRatio, Nat.pow_eq, h, ofUnitRatio_magnitude]
  rfl

/-- A natural number that has all of 53 bits is the magnitude of a number at each scale. -/
theorem exists_magnitude_of_le {n s : Nat} (hl : 2 ^ 52 ≤ n) (hn : n < 2 ^ 53) (hs : s < 2046) :
    ∃ exponent fraction, magnitude exponent fraction = n * 2 ^ s := by
  refine ⟨⟨s + 1, by omega⟩, ⟨n - 2 ^ 52, by omega⟩, ?_⟩
  rw [magnitude, significand, if_neg (Nat.succ_ne_zero s), Nat.pow_eq, Nat.pow_eq,
    Nat.add_sub_cancel' hl]
  rfl

/-- A natural number of at most 53 bits is the magnitude of a number at each scale. -/
theorem exists_magnitude {n s : Nat} (hn : n < 2 ^ 53) (hs : s < 2046) :
    ∃ exponent fraction, magnitude exponent fraction = n * 2 ^ s := by
  induction s generalizing n with
  | zero =>
    by_cases h : n < 2 ^ 52
    · exact ⟨0, ⟨n, h⟩, rfl⟩
    · exact exists_magnitude_of_le (Nat.le_of_not_lt h) hn hs
  | succ s ih =>
    by_cases h : n < 2 ^ 52
    · obtain ⟨exponent, fraction, he⟩ := ih (n := n * 2) (by omega) (by omega)
      refine ⟨exponent, fraction, ?_⟩
      rw [he, Nat.mul_assoc, Nat.pow_succ']
    · exact exists_magnitude_of_le (Nat.le_of_not_lt h) hn hs

/-- An integer of at most 2⁵³ has the magnitude of some number. -/
theorem exists_magnitude_of_natAbs_le {i : Int} (hi : i.natAbs ≤ 2 ^ 53) :
    ∃ exponent fraction, i.natAbs * 2 ^ unitBits = magnitude exponent fraction := by
  by_cases h : i.natAbs < 2 ^ 53
  · obtain ⟨exponent, fraction, he⟩ := exists_magnitude (s := unitBits) h (by decide)
    exact ⟨exponent, fraction, he.symm⟩
  · obtain ⟨exponent, fraction, he⟩ := exists_magnitude (n := 2 ^ 52) (s := unitBits + 1)
      (by decide) (by decide)
    have hi' : i.natAbs = 2 ^ 52 * 2 := by omega
    refine ⟨exponent, fraction, ?_⟩
    rw [he, hi', Nat.mul_assoc, Nat.pow_succ' (n := unitBits)]

end SchemaBinding.Double
