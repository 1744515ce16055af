import SchemaBinding.Proofs.LooseNumbers

/-!
# The nearest floating-point numbers

A quotient is rounded to the floating-point number nearest to it, and of two that are as near to the
one with the even significand; beyond the finite numbers it is rounded to an infinity. So rounding
keeps the order of numbers, and an integer has a nearest number unless it is halfway from the
largest finite number to the next power of two, or beyond.
-/

namespace SchemaBinding.Double

/-! ### Rounding to a natural number -/

/-- A rounded quotient is the quotient or the number after it, whichever is nearer, and even in the
middle. -/
theorem roundDiv_cases (num den : Nat) :
    (roundDiv num den = num / den ∧ 2 * (num % den) ≤ den) ∨
      (roundDiv num den = num / den + 1 ∧ den ≤ 2 * (num % den)) := by
  rw [roundDiv]
  split
  · exact .inl ⟨rfl, by omega⟩
  · split
    · exact .inr ⟨rfl, by omega⟩
    · rcases Nat.mod_two_eq_zero_or_one (num / den) with h | h
      · exact .inl ⟨by omega, by omega⟩
      · exact .inr ⟨by omega, by omega⟩

/-- In the middle between two multiples the rounded quotient is even. -/
theorem even_roundDiv {num den : Nat} (h : 2 * (num % den) = den) : roundDiv num den % 2 = 0 := by
  rw [roundDiv, if_neg (by omega), if_neg (by omega)]
  omega

/-- A rounded quotient is off by half the divisor at most. -/
theorem roundDiv_bounds (num : Nat) {den : Nat} (hd : 0 < den) :
    2 * (roundDiv num den * den) ≤ 2 * num + den ∧
      2 * num ≤ 2 * (roundDiv num den * den) + den := by
  have hdm := Nat.div_add_mod' num den
  have hr := Nat.mod_lt num hd
  rcases roundDiv_cases num den with ⟨he, h⟩ | ⟨he, h⟩
  · rw [he]
    omega
  · rw [he, Nat.add_one_mul (num / den)]
    omega

/-- No multiple of the divisor is nearer than that of the rounded quotient. -/
theorem roundDiv_nearest (num : Nat) {den : Nat} (hd : 0 < den) (k : Nat) :
    ((roundDiv num den * den : Nat) - num : Int).natAbs ≤ ((k * den : Nat) - num : Int).natAbs := by
  obtain ⟨hu, hl⟩ := roundDiv_bounds num hd
  rcases Nat.lt_trichotomy k (roundDiv num den) with h | rfl | h
  · have := Nat.mul_le_mul_right den h
    rw [Nat.succ_mul] at this
    omega
  · exact le_rfl
  · have := Nat.mul_le_mul_right den h
    rw [Nat.succ_mul] at this
    omega

/-- If another multiple of the divisor is as near, then the rounded quotient is even. -/
theorem roundDiv_even (num : Nat) {den k : Nat} (hd : 0 < den) (hk : k ≠ roundDiv num den)
    (he : ((roundDiv num den * den : Nat) - num : Int).natAbs =
      ((k * den : Nat) - num : Int).natAbs) :
    roundDiv num den % 2 = 0 := by
  apply even_roundDiv
  have hdm := Nat.div_add_mod' num den
  have hr := Nat.mod_lt num hd
  rcases roundDiv_cases num den with ⟨hq, h⟩ | ⟨hq, h⟩
  · rw [hq] at he hk
    rcases Nat.lt_or_gt_of_ne hk with hlt | hlt
    · have := Nat.mul_le_mul_right den hlt
      rw [Nat.succ_mul] at this
      omega
    · have := Nat.mul_le_mul_right den hlt
      rw [Nat.succ_mul] at this
      omega
  · rw [hq] at he hk
    rw [Nat.succ_mul] at he
    rcases Nat.lt_or_gt_of_ne hk with hlt | hlt
    · have := Nat.mul_le_mul_right den (Nat.le_of_lt_succ hlt)
      omega
    · have := Nat.mul_le_mul_right den hlt
      rw [Nat.succ_mul, Nat.succ_mul] at this
      omega

/-! ### Rounding to a magnitude -/

/-- The significand to which `num / den` units are rounded, at the scale of the quotient. -/
def sigFor (num den : Nat) : Nat := roundDiv num (den * 2 ^ scaleFor (num / den))

/-- The magnitude to which `num / den` units are rounded. -/
def rounded (num den : Nat) : Nat := sigFor num den * 2 ^ scaleFor (num / den)

private theorem lt_scaleFor (n : Nat) : n < 2 ^ (53 + scaleFor n) := by
  by_cases hn : n = 0
  · rw [hn]
    exact Nat.two_pow_pos _
  · rw [← Nat.log2_lt hn, scaleFor]
    omega

private theorem scaleFor_le {n : Nat} (h : scaleFor n ≠ 0) : 2 ^ (52 + scaleFor n) ≤ n := by
  rw [scaleFor] at h ⊢
  have hn : n ≠ 0 := by
    rintro rfl
    exact h rfl
  rw [← Nat.le_log2 hn]
  omega

variable {num den : Nat}

/-- The divisor at the scale of the quotient. -/
theorem den_pos (num : Nat) (hd : 0 < den) : 0 < den * 2 ^ scaleFor (num / den) :=
  Nat.mul_pos hd (Nat.two_pow_pos _)

private theorem rounded_mul (num den : Nat) :
    rounded num den * den = sigFor num den * (den * 2 ^ scaleFor (num / den)) := by
  rw [rounded, Nat.mul_assoc, Nat.mul_comm den]

private theorem two_pow_add_mul (a b den : Nat) : 2 ^ (a + b) * den = 2 ^ a * (den * 2 ^ b) := by
  rw [Nat.pow_add, Nat.mul_assoc, Nat.mul_comm den]

private theorem num_lt (num : Nat) (hd : 0 < den) :
    num < 2 ^ 53 * (den * 2 ^ scaleFor (num / den)) := by
  rw [← two_pow_add_mul, ← Nat.div_lt_iff_lt_mul hd]
  exact lt_scaleFor _

private theorem le_num (hd : 0 < den) (h : scaleFor (num / den) ≠ 0) :
    2 ^ 52 * (den * 2 ^ scaleFor (num / den)) ≤ num := by
  rw [← two_pow_add_mul, ← Nat.le_div_iff_mul_le hd]
  exact scaleFor_le h

private theorem sigFor_le (num : Nat) (hd : 0 < den) : sigFor num den ≤ 2 ^ 53 := by
  have hp := den_pos num hd
  have hlt := (Nat.div_lt_iff_lt_mul hp).mpr (num_lt num hd)
  rw [sigFor]
  rcases roundDiv_cases num (den * 2 ^ scaleFor (num / den)) with ⟨he, -⟩ | ⟨he, -⟩
  · omega
  · omega

private theorem le_sigFor (num : Nat) (hd : 0 < den) (h : scaleFor (num / den) ≠ 0) :
    2 ^ 52 ≤ sigFor num den := by
  have hp := den_pos num hd
  have hle := (Nat.le_div_iff_mul_le hp).mpr (le_num hd h)
  rw [sigFor]
  rcases roundDiv_cases num (den * 2 ^ scaleFor (num / den)) with ⟨he, -⟩ | ⟨he, -⟩
  · omega
  · omega

/-- A rounded magnitude is off by half a unit of its significand at most. -/
theorem rounded_bounds (num : Nat) (hd : 0 < den) :
    2 * (rounded num den * den) ≤ 2 * num + den * 2 ^ scaleFor (num / den) ∧
      2 * num ≤ 2 * (rounded num den * den) + den * 2 ^ scaleFor (num / den) := by
  rw [rounded_mul]
  exact roundDiv_bounds num (den_pos num hd)

/-- A magnitude is a multiple of each power of two, or is less than 2⁵² times the power. -/
theorem magnitude_grid (exponent : Fin 2047) (fraction : Fin 4503599627370496) (s : Nat) :
    (∃ k, magnitude exponent fraction = k * 2 ^ s) ∨
      (s ≠ 0 ∧ magnitude exponent fraction < 2 ^ 52 * 2 ^ s) := by
  rcases Nat.lt_or_ge (scale exponent) s with h | h
  · refine .inr ⟨by omega, ?_⟩
    have hpow : 2 ^ 53 * 2 ^ scale exponent ≤ 2 ^ 52 * 2 ^ s := by
      rw [← Nat.pow_add, ← Nat.pow_add]
      exact Nat.pow_le_pow_right (by decide) (by omega)
    exact Nat.lt_of_lt_of_le
      (Nat.mul_lt_mul_of_pos_right (significand_lt exponent fraction) (Nat.two_pow_pos _)) hpow
  · refine .inl ⟨significand exponent fraction * 2 ^ (scale exponent - s), ?_⟩
    rw [Nat.mul_assoc, ← Nat.pow_add, Nat.sub_add_cancel h]
    rfl

/-- No magnitude is nearer than the rounded one, and if another one is as near, then the rounded
significand is even. -/
theorem rounded_nearest (num : Nat) (hd : 0 < den) (exponent : Fin 2047)
    (fraction : Fin 4503599627370496) :
    let error := ((rounded num den * den : Nat) - num : Int).natAbs
    let other := ((magnitude exponent fraction * den : Nat) - num : Int).natAbs
    error ≤ other ∧
      (error = other → magnitude exponent fraction ≠ rounded num den → sigFor num den % 2 = 0) := by
  intro error other
  have hp := den_pos num hd
  have hmul := rounded_mul num den
  rcases magnitude_grid exponent fraction (scaleFor (num / den)) with ⟨k, hk⟩ | ⟨hs, hlt⟩
  · have hk' : magnitude exponent fraction * den = k * (den * 2 ^ scaleFor (num / den)) := by
      rw [hk, Nat.mul_assoc, Nat.mul_comm den]
    simp only [error, other, hmul, hk']
    refine ⟨roundDiv_nearest num hp k, fun he hne => roundDiv_even num hp ?_ he⟩
    rintro rfl
    exact hne hk
  · -- a magnitude of a lower scale is farther away than the least one of this scale
    have hle := le_num hd hs
    have hlt' : magnitude exponent fraction * den < 2 ^ 52 * (den * 2 ^ scaleFor (num / den)) := by
      rw [Nat.mul_comm den, ← Nat.mul_assoc]
      exact Nat.mul_lt_mul_of_pos_right hlt hd
    have hnear := roundDiv_nearest num hp (2 ^ 52)
    rw [← sigFor, ← hmul] at hnear
    exact ⟨by omega, fun he => by omega⟩

/-- Rounding keeps a bound from below that is itself a magnitude. -/
theorem le_rounded (hd : 0 < den) {exponent : Fin 2047} {fraction : Fin 4503599627370496}
    (h : magnitude exponent fraction * den ≤ num) :
    magnitude exponent fraction ≤ rounded num den := by
  rw [← Nat.not_lt]
  intro hlt
  have hmul := Nat.mul_lt_mul_of_pos_right hlt hd
  have := (rounded_nearest num hd exponent fraction).1
  omega

/-- Rounding keeps a bound from above that is itself a magnitude. -/
theorem rounded_le (hd : 0 < den) {exponent : Fin 2047} {fraction : Fin 4503599627370496}
    (h : num ≤ magnitude exponent fraction * den) :
    rounded num den ≤ magnitude exponent fraction := by
  rw [← Nat.not_lt]
  intro hlt
  have hmul := Nat.mul_lt_mul_of_pos_right hlt hd
  have := (rounded_nearest num hd exponent fraction).1
  omega

/-- A magnitude is rounded to itself. -/
theorem rounded_eq (hd : 0 < den) {exponent : Fin 2047} {fraction : Fin 4503599627370496}
    (h : num = magnitude exponent fraction * den) :
    rounded num den = magnitude exponent fraction :=
  Nat.le_antisymm (rounded_le hd h.le) (le_rounded hd h.ge)

/-! ### Rounding to a number -/

/-- A significand and a scale are those of a number, if the significand has all of its bits unless
the scale is the least one. -/
theorem exists_significand {sig s : Nat} (hsig : sig < 2 ^ 53) (hs : s ≠ 0 → 2 ^ 52 ≤ sig)
    (h : s < 2046) :
    ∃ exponent fraction, significand exponent fraction = sig ∧ scale exponent = s := by
  by_cases hl : 2 ^ 52 ≤ sig
  · refine ⟨⟨s + 1, by omega⟩, ⟨sig - 2 ^ 52, by omega⟩, ?_, rfl⟩
    rw [significand, if_neg (Nat.succ_ne_zero s), Nat.pow_eq]
    exact Nat.add_sub_cancel' hl
  · have hz : s = 0 := by
      by_contra hne
      exact hl (hs hne)
    subst hz
    exact ⟨0, ⟨sig, by omega⟩, rfl, rfl⟩

/-- A quotient is rounded to a significand below 2⁵³, the next scale being taken where the
significand reaches it. -/
theorem ofUnitRatio_eq_ofScaled (negative : Bool) (num : Nat) (hd : 0 < den) :
    ∃ sig s, ofUnitRatio negative num den = ofScaled negative sig s ∧
      sig * 2 ^ s = rounded num den ∧ sig < 2 ^ 53 ∧ (s ≠ 0 → 2 ^ 52 ≤ sig) ∧
      (sigFor num den % 2 = 0 → sig % 2 = 0) := by
  have hle := sigFor_le num hd
  have hratio : ofUnitRatio negative num den =
      if sigFor num den = 2 ^ 53 then ofScaled negative (2 ^ 52) (scaleFor (num / den) + 1)
      else ofScaled negative (sigFor num den) (scaleFor (num / den)) := rfl
  by_cases h : sigFor num den = 2 ^ 53
  · refine ⟨2 ^ 52, scaleFor (num / den) + 1, by rw [hratio, if_pos h], ?_, by decide,
      fun _ => le_rfl, fun _ => by decide⟩
    rw [rounded, h, Nat.pow_succ' (n := scaleFor (num / den)), ← Nat.mul_assoc]
    rfl
  · exact ⟨sigFor num den, scaleFor (num / den), by rw [hratio, if_neg h], rfl, by omega,
      le_sigFor num hd, id⟩

/-- A quotient is rounded to a finite number if the rounded magnitude is below the power of two that
no finite number reaches. -/
theorem ofUnitRatio_finite (negative : Bool) (hd : 0 < den)
    (h : rounded num den < 2 ^ (topBits + unitBits)) :
    ∃ exponent fraction, ofUnitRatio negative num den = .finite negative exponent fraction ∧
      magnitude exponent fraction = rounded num den ∧
      (sigFor num den % 2 = 0 → significand exponent fraction % 2 = 0) := by
  obtain ⟨sig, s, hratio, hr, hsig, hs, heven⟩ := ofUnitRatio_eq_ofScaled negative num hd
  have hlt : s < 2046 := by
    rw [← Nat.not_le]
    intro hge
    have hpow : 2 ^ (topBits + unitBits) ≤ 2 ^ 52 * 2 ^ s := by
      rw [← Nat.pow_add]
      refine Nat.pow_le_pow_right (by decide) ?_
      rw [topBits, unitBits]
      omega
    have := Nat.mul_le_mul_right (2 ^ s) (hs (by omega))
    omega
  obtain ⟨exponent, fraction, rfl, rfl⟩ := exists_significand hsig hs hlt
  exact ⟨exponent, fraction, hratio.trans (ofScaled_significand _ _ _), hr, heven⟩

/-- Any other quotient is rounded to an infinity. -/
theorem ofUnitRatio_infinite (negative : Bool) (hd : 0 < den)
    (h : 2 ^ (topBits + unitBits) ≤ rounded num den) :
    ofUnitRatio negative num den = .infinite negative := by
  obtain ⟨sig, s, hratio, hr, hsig, hs, -⟩ := ofUnitRatio_eq_ofScaled negative num hd
  have hge : 2046 ≤ s := by
    rw [← Nat.not_lt]
    intro hlt
    have hpow : 2 ^ 53 * 2 ^ s ≤ 2 ^ (topBits + unitBits) := by
      rw [← Nat.pow_add]
      refine Nat.pow_le_pow_right (by decide) ?_
      rw [topBits, unitBits]
      omega
    have := Nat.mul_lt_mul_of_pos_right hsig (Nat.two_pow_pos s)
    omega
  have hnot : ¬ sig < Nat.pow 2 52 := Nat.not_lt.mpr (hs (by omega))
  rw [hratio, ofScaled, if_neg hnot, dif_neg (by omega)]

/-- The scale one below that of the largest numbers, which counts half of their unit. -/
def halfScale : Nat := 2044

/-- The largest finite magnitude is 2⁵³ − 1 at the largest scale. -/
theorem exists_magnitude_largest :
    ∃ exponent fraction, magnitude exponent fraction = (2 ^ 53 - 1) * 2 ^ (halfScale + 1) :=
  exists_magnitude (by decide) (by decide)

/-- The power of two that no finite number reaches, in halves of the largest unit. -/
theorem top_mul (den : Nat) :
    2 ^ (topBits + unitBits) * den = 2 ^ 54 * (den * 2 ^ halfScale) := by
  have hbits : topBits + unitBits = 54 + halfScale := rfl
  exact (congrArg (2 ^ · * den) hbits).trans (two_pow_add_mul 54 halfScale den)

/-- A quotient in the middle between the largest finite number and the next power of two, or beyond,
is rounded to that power at least. -/
theorem top_le_rounded (hd : 0 < den) (h : (2 ^ 54 - 1) * (den * 2 ^ halfScale) ≤ num) :
    2 ^ (topBits + unitBits) ≤ rounded num den := by
  rw [← Nat.mul_le_mul_right_iff hd, top_mul]
  have hlow := num_lt num hd
  have hbounds := rounded_bounds num hd
  have htie := roundDiv_even num (k := 2 ^ 53) (den_pos num hd)
  have hpos : 0 < den * 2 ^ halfScale := Nat.mul_pos hd (Nat.two_pow_pos _)
  rw [← sigFor, ← rounded_mul] at htie
  have hmul := rounded_mul num den
  have hsig := sigFor_le num hd
  have hfull := le_sigFor num hd
  generalize scaleFor (num / den) = s at *
  generalize sigFor num den = sig at *
  rcases Nat.lt_trichotomy s (halfScale + 1) with hs | rfl | hs
  · -- the scale is too low for the quotient
    have : den * 2 ^ s ≤ den * 2 ^ halfScale :=
      Nat.mul_le_mul_left _ (Nat.pow_le_pow_right (by decide) (by omega))
    omega
  · -- the largest significand is odd, so the middle is rounded away from it
    have hstep : den * 2 ^ (halfScale + 1) = 2 * (den * 2 ^ halfScale) := by
      rw [Nat.pow_succ' (n := halfScale), Nat.mul_left_comm]
    rw [hstep] at hbounds hmul htie
    generalize den * 2 ^ halfScale = d at *
    generalize rounded num den * den = r at *
    by_contra hlt
    have hne : sig ≠ 2 ^ 53 := by
      rintro rfl
      omega
    have hge : 2 ^ 53 - 1 ≤ sig := by
      by_contra hlt'
      have := Nat.mul_le_mul_right (2 * d) (show sig ≤ 2 ^ 53 - 2 by omega)
      omega
    have hodd : sig = 2 ^ 53 - 1 := by omega
    subst hodd
    have := htie (by decide) (by omega)
    omega
  · have : 4 * (den * 2 ^ halfScale) ≤ den * 2 ^ s := by
      rw [Nat.mul_left_comm]
      refine Nat.mul_le_mul_left _ ?_
      rw [show (4 : Nat) = 2 ^ 2 from rfl, ← Nat.pow_add]
      exact Nat.pow_le_pow_right (by decide) (by omega)
    have := Nat.mul_le_mul_right (den * 2 ^ s) (hfull (by omega))
    omega

/-- A quotient below the middle is no nearer to that power than to the largest finite number. -/
theorem rounded_lt_top (hd : 0 < den) (h : num < (2 ^ 54 - 1) * (den * 2 ^ halfScale)) :
    rounded num den < 2 ^ (topBits + unitBits) := by
  rw [← Nat.mul_lt_mul_right hd, top_mul]
  obtain ⟨exponent, fraction, hmax⟩ := exists_magnitude_largest
  have hnear := (rounded_nearest num hd exponent fraction).1
  have hmax' : magnitude exponent fraction * den = (2 ^ 54 - 2) * (den * 2 ^ halfScale) := by
    rw [hmax, Nat.pow_succ' (n := halfScale), Nat.mul_comm den, ← Nat.mul_assoc, ← Nat.mul_assoc,
      show (2 ^ 53 - 1) * 2 = 2 ^ 54 - 2 by decide]
  rw [hmax'] at hnear
  rw [← Nat.not_le]
  intro hle
  generalize den * 2 ^ halfScale = d at *
  omega

/-- A quotient is rounded to a finite number if it is less than the middle. -/
theorem rounded_lt_iff (hd : 0 < den) :
    rounded num den < 2 ^ (topBits + unitBits) ↔ num < (2 ^ 54 - 1) * (den * 2 ^ halfScale) :=
  ⟨fun h => Nat.lt_of_not_le fun hle => Nat.not_lt.mpr (top_le_rounded hd hle) h,
    rounded_lt_top hd⟩

/-- The quotient of finite units by more than one is rounded to a finite number. -/
theorem rounded_lt_of_lt (hd : 1 < den) (h : num < 2 ^ (topBits + unitBits)) :
    rounded num den < 2 ^ (topBits + unitBits) := by
  have hbits : topBits + unitBits = 54 + halfScale := rfl
  rw [rounded_lt_iff (Nat.zero_lt_of_lt hd)]
  rw [hbits, Nat.pow_add] at h
  have hmul := Nat.mul_le_mul_right (2 ^ halfScale) hd
  omega

/-! ### Errors of rounding -/

/-- A rounded quotient is off by a half at most. -/
theorem abs_roundDiv_sub_le (num : Nat) (hd : 0 < den) :
    |(roundDiv num den : ℚ) - num / den| ≤ 1 / 2 := by
  obtain ⟨hu, hl⟩ := roundDiv_bounds num hd
  have hpos : (0 : ℚ) < den := Nat.cast_pos.mpr hd
  have hu' : (2 * (roundDiv num den * den) : ℚ) ≤ 2 * num + den := by exact_mod_cast hu
  have hl' : (2 * num : ℚ) ≤ 2 * (roundDiv num den * den) + den := by exact_mod_cast hl
  rw [← mul_div_cancel_right₀ (roundDiv num den : ℚ) hpos.ne', ← sub_div, abs_div,
    abs_of_pos hpos, div_le_iff₀ hpos, abs_le]
  constructor <;> linarith

/-- A rounded magnitude is off by half a unit of its significand at most. -/
theorem abs_rounded_sub_le (num : Nat) (hd : 0 < den) :
    |(rounded num den : ℚ) - num / den| ≤ 2 ^ scaleFor (num / den) / 2 := by
  obtain ⟨hu, hl⟩ := rounded_bounds num hd
  have hpos : (0 : ℚ) < den := Nat.cast_pos.mpr hd
  have hu' : (2 * (rounded num den * den) : ℚ) ≤ 2 * num + den * 2 ^ scaleFor (num / den) := by
    exact_mod_cast hu
  have hl' : (2 * num : ℚ) ≤ 2 * (rounded num den * den) + den * 2 ^ scaleFor (num / den) := by
    exact_mod_cast hl
  rw [← mul_div_cancel_right₀ (rounded num den : ℚ) hpos.ne', ← sub_div, abs_div,
    abs_of_pos hpos, div_le_iff₀ hpos, abs_le]
  constructor <;> linarith

/-- Below a power of two the scale is bounded. -/
theorem scaleFor_add_le {n b : Nat} (h : n < 2 ^ b) (hb : 53 ≤ b) : scaleFor n + 53 ≤ b := by
  by_cases hn : n = 0
  · rw [hn]
    exact (Nat.zero_add 53).trans_le hb
  · have := (Nat.log2_lt hn).mpr h
    rw [scaleFor]
    omega

/-! ### The nearest number of an integer -/

/-- The rational number that is a finite floating-point number. -/
def value (negative : Bool) (exponent : Fin 2047) (fraction : Fin 4503599627370496) : ℚ :=
  signed negative (magnitude exponent fraction) / 2 ^ unitBits

/-- The rational number that a floating-point number is, if it is finite. -/
def rat? : Double → Option ℚ
  | .finite negative exponent fraction => some (value negative exponent fraction)
  | _ => none

/-- The number of a floating-point number is a rational if that is its value. -/
theorem number?_eq_coe_iff (x : Double) (q : ℚ) :
    x.number? = some ((q : WithTop ℚ) : ExtendedRat) ↔ x.rat? = some q := by
  cases x with
  | nan origin => exact iff_of_false nofun nofun
  | infinite negative => cases negative <;> exact iff_of_false nofun nofun
  | finite negative exponent fraction =>
    simp only [number?, rat?, value, Option.some.injEq, WithBot.coe_inj, WithTop.coe_inj]

/-- A finite number of the sign of an integer is nearest to it: no finite number is nearer, and if a
different one is as near, the significand of the number is even. -/
structure NearestTo (i : Int) (exponent : Fin 2047) (fraction : Fin 4503599627370496) : Prop where
  le : ∀ y s, rat? y = some s → |value (i < 0) exponent fraction - i| ≤ |s - i|
  even : ∀ y s, rat? y = some s → s ≠ value (i < 0) exponent fraction →
    |value (i < 0) exponent fraction - i| = |s - i| → significand exponent fraction % 2 = 0

/-- The distance of two numbers in units. -/
theorem abs_sub_eq (u i : Int) :
    |(u / 2 ^ unitBits : ℚ) - i| = (u - i * 2 ^ unitBits).natAbs / 2 ^ unitBits := by
  have hpos : (0 : ℚ) < 2 ^ unitBits := pow_pos two_pos _
  rw [Nat.cast_natAbs, Int.cast_abs, eq_div_iff hpos.ne', ← abs_of_pos hpos, ← abs_mul,
    abs_of_pos hpos, sub_mul, div_mul_cancel₀ _ hpos.ne']
  push_cast
  rfl

/-- The rounded magnitude, with the sign of what was rounded, is nearest among the numbers of either
sign, and if another one is as near, then the rounded significand is even. -/
theorem signed_nearest (negative other : Bool) (hd : 0 < den) {exponent : Fin 2047}
    {fraction : Fin 4503599627370496} (h : magnitude exponent fraction = rounded num den)
    (exponent' : Fin 2047) (fraction' : Fin 4503599627370496) :
    let u := signed negative (magnitude exponent fraction)
    let v := signed other (magnitude exponent' fraction')
    let i := signed negative num
    (u * den - i).natAbs ≤ (v * den - i).natAbs ∧
      (v ≠ u → (u * den - i).natAbs = (v * den - i).natAbs → sigFor num den % 2 = 0) := by
  intro u v i
  have hnear := rounded_nearest num hd exponent' fraction'
  have hzero := rounded_nearest num hd 0 0
  have hz : magnitude 0 0 = 0 := rfl
  simp only [hz, ← h, Nat.zero_mul, Nat.cast_mul] at hnear hzero
  have hcancel : ∀ m : Nat, (m * den : Int) = 0 → m = 0 := fun m hm =>
    Int.natCast_eq_zero.mp ((Int.mul_eq_zero.mp hm).resolve_right (Int.natCast_ne_zero.mpr hd.ne'))
  by_cases hs : other = negative
  · subst hs
    cases other <;> simp only [u, v, i, signed] at * <;> grind
  · -- a number of the other sign is no nearer than zero
    cases negative <;> cases other <;> simp only [u, v, i, signed] at * <;> grind

/-- The middle between the largest finite number and the next power of two. -/
theorem middle_mul_units : (2 ^ 1024 - 2 ^ 970) * 2 ^ unitBits = (2 ^ 54 - 1) * 2 ^ halfScale := by
  have hsplit : ∀ k, 2 ^ (54 + k) - 2 ^ k = (2 ^ 54 - 1) * 2 ^ k := fun k => by
    rw [Nat.pow_add, Nat.sub_mul, Nat.one_mul]
  have hbits : halfScale = 970 + unitBits := rfl
  rw [hsplit 970, Nat.mul_assoc, ← Nat.pow_add, hbits]

/-- The middle, for a whole number. -/
theorem rounded_units_lt_iff (n : Nat) :
    rounded (n * 2 ^ unitBits) 1 < 2 ^ (topBits + unitBits) ↔ n < 2 ^ 1024 - 2 ^ 970 := by
  have hmiddle := middle_mul_units
  generalize 2 ^ 1024 - 2 ^ 970 = middle at *
  rw [rounded_lt_iff Nat.one_pos, Nat.one_mul, ← hmiddle, Nat.mul_lt_mul_right (Nat.two_pow_pos _)]

/-- An integer of at most 2⁵³ is not rounded. -/
theorem rounded_units_eq {n : Nat} (h : n ≤ 2 ^ 53) :
    rounded (n * 2 ^ unitBits) 1 = n * 2 ^ unitBits := by
  obtain ⟨exponent, fraction, hm⟩ := exists_magnitude_of_natAbs_le (i := n) h
  rw [Int.natAbs_natCast] at hm
  rw [rounded_eq Nat.one_pos (hm.trans (Nat.mul_one _).symm), hm]

/-- A significand is far below the point from which numbers are rounded to infinity. -/
theorem lt_middle {n : Nat} (h : n ≤ 2 ^ 53) : n < 2 ^ 1024 - 2 ^ 970 := by
  refine (rounded_units_lt_iff n).mp ?_
  rw [rounded_units_eq h, Nat.pow_add, Nat.mul_lt_mul_right (Nat.two_pow_pos _)]
  have hbits : 53 < topBits := by decide
  exact Nat.lt_of_le_of_lt h (Nat.pow_lt_pow_right (by decide) hbits)

/-- An integer below the middle is rounded to a finite number. -/
theorem ofInt?_finite {i : Int} (h : i.natAbs < 2 ^ 1024 - 2 ^ 970) :
    ∃ exponent fraction, ofInt? i = some (.finite (i < 0) exponent fraction) ∧
      magnitude exponent fraction = rounded (i.natAbs * 2 ^ unitBits) 1 ∧
      (sigFor (i.natAbs * 2 ^ unitBits) 1 % 2 = 0 → significand exponent fraction % 2 = 0) := by
  obtain ⟨exponent, fraction, hr, hm, heven⟩ :=
    ofUnitRatio_finite (i < 0) Nat.one_pos ((rounded_units_lt_iff _).mpr h)
  refine ⟨exponent, fraction, ?_, hm, heven⟩
  rw [ofInt?, ofRatio, Nat.pow_eq, hr]
  rfl

/-- Any other integer is rounded to no finite number. -/
theorem ofInt?_eq_none {i : Int} (h : 2 ^ 1024 - 2 ^ 970 ≤ i.natAbs) : ofInt? i = none := by
  have hle := Nat.le_of_not_lt (mt (rounded_units_lt_iff _).mp (Nat.not_lt.mpr h))
  rw [ofInt?, ofRatio, Nat.pow_eq, ofUnitRatio_infinite _ Nat.one_pos hle]
  rfl

/-- The number to which an integer is rounded is nearest to it. -/
theorem nearestTo_of_rounded {i : Int} {exponent : Fin 2047} {fraction : Fin 4503599627370496}
    (hm : magnitude exponent fraction = rounded (i.natAbs * 2 ^ unitBits) 1)
    (heven : sigFor (i.natAbs * 2 ^ unitBits) 1 % 2 = 0 →
      significand exponent fraction % 2 = 0) : NearestTo i exponent fraction := by
  have hnear := fun other => signed_nearest (i < 0) other Nat.one_pos hm
  simp only [signed_natAbs_mul, Nat.cast_pow, Nat.cast_ofNat, Nat.cast_one, mul_one] at hnear
  constructor
  · rintro (origin | other | ⟨other, exponent', fraction'⟩) s hs <;> cases hs
    rw [value, value, abs_sub_eq, abs_sub_eq]
    gcongr
    exact (hnear other exponent' fraction').1
  · rintro (origin | other | ⟨other, exponent', fraction'⟩) s hs hne he <;> cases hs
    have hunits : (2 ^ unitBits : ℚ) ≠ 0 := pow_ne_zero _ two_ne_zero
    rw [value, value, abs_sub_eq, abs_sub_eq, div_left_inj' hunits, Nat.cast_inj] at he
    refine heven ((hnear other exponent' fraction').2 (fun heq => hne ?_) he)
    rw [value, value, heq]

/-! ### There is one nearest number -/

section Unique

variable {i : Int} {exponent exponent' : Fin 2047} {fraction fraction' : Fin 4503599627370496}

/-- A number has one form. -/
theorem magnitude_injective
    (h : magnitude exponent fraction = magnitude exponent' fraction') :
    exponent = exponent' ∧ fraction = fraction' := by
  have hr := ofUnitRatio_magnitude false exponent fraction
  rw [h, ofUnitRatio_magnitude] at hr
  cases hr
  exact ⟨rfl, rfl⟩

/-- If a finite number with an even significand is not the last one, then there is one after it
whose significand is odd. -/
theorem exists_next (h : magnitude exponent fraction < magnitude exponent' fraction')
    (he : significand exponent fraction % 2 = 0) :
    ∃ next nextFraction, magnitude exponent fraction < magnitude next nextFraction ∧
      magnitude next nextFraction ≤ magnitude exponent' fraction' ∧
      significand next nextFraction % 2 = 1 := by
  have hsig := significand_lt exponent fraction
  have hfull : scale exponent ≠ 0 → 2 ^ 52 ≤ significand exponent fraction := le_significand
  have hexp : scale exponent < 2046 := by
    have := exponent.isLt
    rw [scale]
    omega
  have hm : magnitude exponent fraction = significand exponent fraction * 2 ^ scale exponent := rfl
  have hpos : 0 < 2 ^ scale exponent := Nat.two_pow_pos _
  obtain ⟨next, nextFraction, hn, hs⟩ := exists_significand
    (show significand exponent fraction + 1 < 2 ^ 53 by omega)
    (fun hs => Nat.le_succ_of_le (hfull hs)) hexp
  have hnext : magnitude next nextFraction =
      (significand exponent fraction + 1) * 2 ^ scale exponent := by
    rw [magnitude, hn, hs, Nat.pow_eq]
  refine ⟨next, nextFraction, ?_, ?_, by omega⟩
  · rw [hnext, hm, Nat.add_one_mul (significand exponent fraction)]
    omega
  · rw [hnext]
    rcases magnitude_grid exponent' fraction' (scale exponent) with ⟨k, hk⟩ | ⟨hs, hk⟩
    · rw [hk, hm, Nat.mul_lt_mul_right hpos] at h
      rw [hk]
      exact Nat.mul_le_mul_right _ h
    · have := Nat.mul_le_mul_right (2 ^ scale exponent) (hfull hs)
      omega

private theorem natAbs_signed_sub (negative : Bool) (m n : Nat) :
    (signed negative m - signed negative n).natAbs = (m - n : Int).natAbs := by
  cases negative <;> simp only [signed] <;> grind

/-- The distance of a number from an integer of its sign in units. -/
theorem abs_value_sub (i : Int) (exponent : Fin 2047) (fraction : Fin 4503599627370496) :
    |value (i < 0) exponent fraction - i| =
      (magnitude exponent fraction - (i.natAbs * 2 ^ unitBits : Nat) : Int).natAbs /
        2 ^ unitBits := by
  have hi := signed_natAbs_mul i (2 ^ unitBits)
  rw [Nat.cast_pow, Nat.cast_ofNat] at hi
  rw [value, abs_sub_eq, ← hi, natAbs_signed_sub]

namespace NearestTo

private theorem natAbs_le (h : NearestTo i exponent fraction) (exponent' : Fin 2047)
    (fraction' : Fin 4503599627370496) :
    (magnitude exponent fraction - (i.natAbs * 2 ^ unitBits : Nat) : Int).natAbs ≤
      (magnitude exponent' fraction' - (i.natAbs * 2 ^ unitBits : Nat) : Int).natAbs := by
  have hle := h.le (.finite (i < 0) exponent' fraction') _ rfl
  rw [abs_value_sub, abs_value_sub, div_le_div_iff_of_pos_right (pow_pos two_pos _),
    Nat.cast_le] at hle
  exact hle

private theorem even_of_natAbs_eq (h : NearestTo i exponent fraction)
    (hne : magnitude exponent' fraction' ≠ magnitude exponent fraction)
    (heq : (magnitude exponent fraction - (i.natAbs * 2 ^ unitBits : Nat) : Int).natAbs =
      (magnitude exponent' fraction' - (i.natAbs * 2 ^ unitBits : Nat) : Int).natAbs) :
    significand exponent fraction % 2 = 0 := by
  refine h.even (.finite (i < 0) exponent' fraction') _ rfl (fun hv => hne ?_) ?_
  · rw [value, value, div_left_inj' (pow_ne_zero _ two_ne_zero), Int.cast_inj] at hv
    have := congrArg Int.natAbs hv
    rwa [natAbs_signed, natAbs_signed] at this
  · rw [abs_value_sub, abs_value_sub, heq]

private theorem not_lt (h : NearestTo i exponent fraction) (h' : NearestTo i exponent' fraction') :
    ¬ magnitude exponent fraction < magnitude exponent' fraction' := by
  intro hlt
  have heq := Nat.le_antisymm (h.natAbs_le exponent' fraction') (h'.natAbs_le exponent fraction)
  have heven := h.even_of_natAbs_eq hlt.ne' heq
  obtain ⟨next, nextFraction, hl, hu, hodd⟩ := exists_next hlt heven
  -- the integer is in the middle, and the next number is not between the two
  have hnear := h.natAbs_le next nextFraction
  have hsame : magnitude next nextFraction = magnitude exponent' fraction' := by omega
  obtain ⟨rfl, rfl⟩ := magnitude_injective hsame
  have heven' := h'.even_of_natAbs_eq hlt.ne heq.symm
  omega

/-- An integer has one nearest number. -/
theorem unique (h : NearestTo i exponent fraction) (h' : NearestTo i exponent' fraction') :
    exponent = exponent' ∧ fraction = fraction' :=
  magnitude_injective (Nat.le_antisymm (Nat.not_lt.mp (h'.not_lt h)) (Nat.not_lt.mp (h.not_lt h')))

end NearestTo

end Unique

/-- An integer has a nearest number unless it is in the middle between the largest finite number and
the next power of two, or beyond. -/
theorem ofInt?_eq_some_iff (i : Int) (x : Double) :
    ofInt? i = some x ↔ i.natAbs < 2 ^ 1024 - 2 ^ 970 ∧ ∃ exponent fraction,
      x = .finite (i < 0) exponent fraction ∧ NearestTo i exponent fraction := by
  rcases Nat.lt_or_ge i.natAbs (2 ^ 1024 - 2 ^ 970) with h | h
  · obtain ⟨exponent, fraction, hi, hm, heven⟩ := ofInt?_finite h
    have hn := nearestTo_of_rounded hm heven
    rw [hi, Option.some.injEq]
    constructor
    · rintro rfl
      exact ⟨h, exponent, fraction, rfl, hn⟩
    · rintro ⟨-, exponent', fraction', rfl, hn'⟩
      obtain ⟨rfl, rfl⟩ := hn.unique hn'
      rfl
  · rw [ofInt?_eq_none h]
    exact iff_of_false nofun fun hx => Nat.not_lt.mpr h hx.1

end SchemaBinding.Double
