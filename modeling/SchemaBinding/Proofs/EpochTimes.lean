import SchemaBinding.Proofs.BindClosure
import SchemaBinding.Proofs.CalendarDays
import SchemaBinding.Proofs.NearestNumbers

/-!
# Milliseconds as dates

An integer is read as the date so many milliseconds after the start of 1970. It becomes a
floating-point number of seconds on the way, and the fraction of the second is rounded twice more.
So the calendar date is always the right one, but the microseconds are right exactly if some
floating-point number of seconds is within half a microsecond of the integer, as it is for two
centuries around 1970.
-/

namespace SchemaBinding

namespace Calendar.Epoch

open Double

/-! ### The microseconds of a number of seconds -/

/-- A power of two is so small a part of the number of units in one. -/
theorem two_pow_div_units_le {s k : Nat} (h : s + k ≤ unitBits) :
    (2 ^ s / 2 ^ unitBits : ℚ) ≤ 1 / 2 ^ k := by
  rw [div_le_div_iff₀ (pow_pos two_pos _) (pow_pos two_pos _), one_mul, ← pow_add]
  exact pow_le_pow_right₀ one_le_two h

/-- The fraction of a magnitude is a magnitude. -/
theorem exists_magnitude_mod (exponent : Fin 2047) (fraction : Fin 4503599627370496) :
    ∃ e f, magnitude e f = magnitude exponent fraction % 2 ^ unitBits := by
  have hlt := significand_lt exponent fraction
  have hexp : scale exponent < 2046 := by
    have := exponent.isLt
    rw [scale]
    omega
  have hm : magnitude exponent fraction = significand exponent fraction * 2 ^ scale exponent := rfl
  rcases Nat.le_total unitBits (scale exponent) with h | h
  · refine ⟨0, 0, ?_⟩
    rw [hm, ← Nat.sub_add_cancel h, Nat.pow_add, ← Nat.mul_assoc, Nat.mul_mod_left]
    rfl
  · rw [hm, ← Nat.sub_add_cancel h, Nat.pow_add, Nat.mul_mod_mul_right]
    exact exists_magnitude (Nat.lt_of_le_of_lt (Nat.mod_le _ _) hlt) hexp

section Fraction

variable {exponent : Fin 2047} {fraction : Fin 4503599627370496}

private theorem fractionMicros_of_mulNat {n : Nat} (negative : Bool)
    (h : (ofUnitRatio false n 1).mulNat 1000000 = .finite negative exponent fraction) :
    fractionMicros n = roundDiv (magnitude exponent fraction) (2 ^ unitBits) := by
  unfold fractionMicros
  rw [h, Nat.pow_eq]

/-- The microseconds of a fraction are rounded twice. -/
theorem fractionMicros_eq (h : magnitude exponent fraction < 2 ^ unitBits) :
    fractionMicros (magnitude exponent fraction) =
      roundDiv (rounded (magnitude exponent fraction * 1000000) 1) (2 ^ unitBits) := by
  have hsmall : magnitude exponent fraction * 1000000 < (2 ^ 54 - 1) * (1 * 2 ^ halfScale) := by
    have hpow : 2 ^ (unitBits + 20) ≤ 2 ^ halfScale := Nat.pow_le_pow_right (by decide) (by decide)
    rw [Nat.pow_add] at hpow
    omega
  obtain ⟨e, f, hr, hm, -⟩ := ofUnitRatio_finite false Nat.one_pos
    ((rounded_lt_iff Nat.one_pos).mpr hsmall)
  rw [← hm]
  apply fractionMicros_of_mulNat false
  rw [ofUnitRatio_magnitude]
  exact hr

/-- The microseconds of a fraction are off by hardly more than a half. -/
theorem abs_fractionMicros_sub_le (h : magnitude exponent fraction < 2 ^ unitBits) :
    |(fractionMicros (magnitude exponent fraction) : ℚ) -
      magnitude exponent fraction / 2 ^ unitBits * 1000000| ≤ 1 / 2 + 1 / 2 ^ 34 := by
  have hscale : scaleFor (magnitude exponent fraction * 1000000 / 1) + 53 ≤ unitBits + 20 := by
    refine scaleFor_add_le ?_ (by decide)
    rw [Nat.pow_add]
    omega
  have hpos : (0 : ℚ) < 2 ^ unitBits := pow_pos two_pos _
  have hsecond := abs_roundDiv_sub_le (rounded (magnitude exponent fraction * 1000000) 1)
    (Nat.two_pow_pos unitBits)
  have hfirst := abs_rounded_sub_le (magnitude exponent fraction * 1000000) Nat.one_pos
  have hunit := two_pow_div_units_le
    (show scaleFor (magnitude exponent fraction * 1000000 / 1) + 33 ≤ unitBits by omega)
  rw [fractionMicros_eq h]
  generalize scaleFor (magnitude exponent fraction * 1000000 / 1) = s at *
  generalize roundDiv (rounded (magnitude exponent fraction * 1000000) 1) (2 ^ unitBits) = k at *
  generalize rounded (magnitude exponent fraction * 1000000) 1 = p at *
  push_cast at hsecond hfirst
  rw [div_one] at hfirst
  calc |(k : ℚ) - magnitude exponent fraction / 2 ^ unitBits * 1000000|
      ≤ |(k : ℚ) - p / 2 ^ unitBits| +
          |(p : ℚ) / 2 ^ unitBits - magnitude exponent fraction / 2 ^ unitBits * 1000000| :=
        abs_sub_le _ _ _
    _ = |(k : ℚ) - p / 2 ^ unitBits| +
          |(p : ℚ) - magnitude exponent fraction * 1000000| / 2 ^ unitBits := by
        rw [div_mul_eq_mul_div, ← sub_div, abs_div, abs_of_pos hpos]
    _ ≤ 1 / 2 + 2 ^ s / 2 / 2 ^ unitBits := by gcongr
    _ = 1 / 2 + 2 ^ s / 2 ^ unitBits / 2 := by rw [div_right_comm]
    _ ≤ 1 / 2 + 1 / 2 ^ 33 / 2 := by gcongr
    _ = 1 / 2 + 1 / 2 ^ 34 := by norm_num

/-- They are off by a half at most if their product is not rounded. -/
theorem abs_fractionMicros_sub_le_half (h : magnitude exponent fraction < 2 ^ unitBits)
    {e : Fin 2047} {f : Fin 4503599627370496}
    (hp : magnitude e f = magnitude exponent fraction * 1000000) :
    |(fractionMicros (magnitude exponent fraction) : ℚ) -
      magnitude exponent fraction / 2 ^ unitBits * 1000000| ≤ 1 / 2 := by
  have hone : rounded (magnitude exponent fraction * 1000000) 1 = magnitude e f :=
    rounded_eq Nat.one_pos (hp.symm.trans (Nat.mul_one _).symm)
  have hround := abs_roundDiv_sub_le (magnitude exponent fraction * 1000000)
    (Nat.two_pow_pos unitBits)
  rw [fractionMicros_eq h, hone, hp, div_mul_eq_mul_div]
  push_cast at hround
  exact hround

end Fraction

/-- The microseconds of a magnitude of seconds. -/
def wholeMicros (m : Nat) : Nat := m / 2 ^ unitBits * 1000000 + fractionMicros (m % 2 ^ unitBits)

private theorem micros?_finite (negative : Bool) (exponent : Fin 2047)
    (fraction : Fin 4503599627370496) :
    micros? (.finite negative exponent fraction) =
      some (signed negative (wholeMicros (magnitude exponent fraction))) := by
  rw [micros?, wholeMicros, Nat.pow_eq]

/-- The error of the microseconds is that of the microseconds of the fraction. -/
theorem wholeMicros_sub (m : Nat) :
    (wholeMicros m : ℚ) - m / 2 ^ unitBits * 1000000 =
      fractionMicros (m % 2 ^ unitBits) - (m % 2 ^ unitBits : Nat) / 2 ^ unitBits * 1000000 := by
  have hpos : (0 : ℚ) < 2 ^ unitBits := pow_pos two_pos _
  have hdiv : (m / 2 ^ unitBits : ℚ) =
      (m / 2 ^ unitBits : Nat) + (m % 2 ^ unitBits : Nat) / 2 ^ unitBits := by
    rw [eq_comm, ← mul_div_cancel_right₀ ((m / 2 ^ unitBits : Nat) : ℚ) hpos.ne', ← add_div]
    exact congrArg (· / _) (by exact_mod_cast Nat.div_add_mod' m (2 ^ unitBits))
  rw [wholeMicros, hdiv]
  push_cast
  ring

section Whole

variable (exponent : Fin 2047) (fraction : Fin 4503599627370496)

/-- The microseconds of a number are off by hardly more than a half. -/
theorem abs_wholeMicros_sub_le :
    |(wholeMicros (magnitude exponent fraction) : ℚ) -
      magnitude exponent fraction / 2 ^ unitBits * 1000000| ≤ 1 / 2 + 1 / 2 ^ 34 := by
  obtain ⟨e, f, h⟩ := exists_magnitude_mod exponent fraction
  rw [wholeMicros_sub, ← h]
  refine abs_fractionMicros_sub_le ?_
  rw [h]
  exact Nat.mod_lt _ (Nat.two_pow_pos _)

/-- They are off by a half at most if the fraction has 19 bits. -/
theorem abs_wholeMicros_sub_le_half {b : Nat} (hb : unitBits ≤ b + 19)
    (hdvd : 2 ^ b ∣ magnitude exponent fraction) :
    |(wholeMicros (magnitude exponent fraction) : ℚ) -
      magnitude exponent fraction / 2 ^ unitBits * 1000000| ≤ 1 / 2 := by
  obtain ⟨e, f, h⟩ := exists_magnitude_mod exponent fraction
  have hlt : magnitude e f < 2 ^ unitBits := by
    rw [h]
    exact Nat.mod_lt _ (Nat.two_pow_pos _)
  have hunits : 2 ^ unitBits = 2 ^ (unitBits - 19) * 2 ^ 19 := by
    rw [← Nat.pow_add, Nat.sub_add_cancel (by decide)]
  obtain ⟨t, ht⟩ : 2 ^ (unitBits - 19) ∣ magnitude e f := by
    rw [h, Nat.dvd_mod_iff ⟨_, hunits⟩]
    exact (Nat.pow_dvd_pow 2 (by omega)).trans hdvd
  have hsmall : t < 2 ^ 19 := by
    rw [ht, hunits] at hlt
    exact Nat.lt_of_mul_lt_mul_left hlt
  obtain ⟨e', f', hp⟩ := exists_magnitude (n := t * 1000000) (s := unitBits - 19) (by omega)
    (by decide)
  rw [wholeMicros_sub, ← h]
  exact abs_fractionMicros_sub_le_half hlt (e := e') (f := f') (by
    rw [hp, ht, Nat.mul_right_comm, Nat.mul_comm t])

end Whole

/-! ### The seconds of a number of milliseconds -/

section Milliseconds

variable {n : Nat} {exponent : Fin 2047} {fraction : Fin 4503599627370496}

/-- The scale of seconds is bounded by the number of milliseconds. -/
theorem scaleFor_seconds_le {b : Nat} (h : n < 1000 * 2 ^ b) :
    scaleFor (n * 2 ^ unitBits / 1000) + 53 ≤ unitBits + b := by
  refine scaleFor_add_le ?_ (Nat.le_add_right_of_le (by decide))
  rw [Nat.div_lt_iff_lt_mul (by decide), Nat.pow_add]
  calc n * 2 ^ unitBits < 1000 * 2 ^ b * 2 ^ unitBits :=
        Nat.mul_lt_mul_of_pos_right h (Nat.two_pow_pos _)
    _ = 2 ^ unitBits * 2 ^ b * 1000 := by ring

/-- The seconds are off by half a unit of their significand at most. -/
theorem abs_seconds_sub_le (n : Nat) :
    |(rounded (n * 2 ^ unitBits) 1000 / 2 ^ unitBits : ℚ) - n / 1000| ≤
      2 ^ scaleFor (n * 2 ^ unitBits / 1000) / 2 ^ unitBits / 2 := by
  have hpos : (0 : ℚ) < 2 ^ unitBits := pow_pos two_pos _
  have h := abs_rounded_sub_le (n * 2 ^ unitBits) (show 0 < 1000 by decide)
  push_cast at h
  rw [← mul_div_cancel_right₀ (n / 1000 : ℚ) hpos.ne', ← sub_div, abs_div, abs_of_pos hpos,
    div_right_comm, div_mul_eq_mul_div]
  gcongr

/-- A number of units that is no multiple of five does not divide a second so that its parts are in
the middle between two microseconds, at a whole number of milliseconds from the one or the other. -/
theorem abs_ne_half {u : Nat} (hpos : 0 < u) (hfive : ¬ 5 ∣ u) (m n : Nat) :
    |(m / u * 1000000 : ℚ) - 1000 * n| ≠ 1 / 2 := by
  intro h
  have hu : (u : ℚ) ≠ 0 := Nat.cast_ne_zero.mpr hpos.ne'
  have habs : |(2000 * (1000 * m - n * u) : ℚ)| = u := by
    have hmul : (2000 * (1000 * m - n * u) : ℚ) = (m / u * 1000000 - 1000 * n) * (2 * u) := by
      field_simp
      ring
    rw [hmul, abs_mul, h, abs_of_pos (by positivity)]
    ring
  have hint : |(2000 * (1000 * m - n * u) : Int)| = u := by exact_mod_cast habs
  refine hfive (Int.natCast_dvd_natCast.mp ?_)
  rw [← hint, dvd_abs]
  exact Dvd.dvd.mul_right (by decide) _

private theorem abs_units_ne_half (m n : Nat) :
    |(m / 2 ^ unitBits * 1000000 : ℚ) - 1000 * n| ≠ 1 / 2 := by
  have hfive : ¬ 5 ∣ 2 ^ unitBits := fun h => absurd (Nat.prime_five.dvd_of_dvd_pow h) (by decide)
  have h := abs_ne_half (Nat.two_pow_pos unitBits) hfive m n
  rwa [Nat.cast_pow, Nat.cast_ofNat] at h

/-- Two whole numbers closer than one are the same. -/
theorem eq_of_abs_sub_lt_one {a b : Nat} (h : |(a : ℚ) - b| < 1) : a = b := by
  have hint : |(a : Int) - b| < 1 := by exact_mod_cast h
  rw [Int.abs_lt_one_iff, sub_eq_zero] at hint
  exact Int.ofNat_inj.mp hint

/-- The error of the microseconds is a million times that of the seconds and their own. -/
theorem abs_micros_sub_le {c x t e e' : ℚ} (hc : |c - x * 1000000| ≤ e)
    (hx : |x - t / 1000| ≤ e') : |c - 1000 * t| ≤ e + 1000000 * e' := by
  rw [abs_le] at *
  constructor <;> linarith

private theorem natAbs_sub_le_fifteen {c n : Nat} (h : |(c : ℚ) - 1000 * n| < 16) :
    (c - 1000 * n : Int).natAbs ≤ 15 := by
  have hint : |(c : Int) - 1000 * n| < 16 := by exact_mod_cast h
  rw [Int.abs_eq_natAbs] at hint
  omega

/-- Of seconds within the span of the calendar the microseconds are off by fifteen at most. -/
theorem natAbs_wholeMicros_seconds_le (hn : n < 1000 * 2 ^ 38)
    (hm : magnitude exponent fraction = rounded (n * 2 ^ unitBits) 1000) :
    (wholeMicros (magnitude exponent fraction) - 1000 * n : Int).natAbs ≤ 15 := by
  have hscale := scaleFor_seconds_le hn
  have hunit := two_pow_div_units_le
    (show scaleFor (n * 2 ^ unitBits / 1000) + 15 ≤ unitBits by omega)
  have hseconds := (abs_seconds_sub_le n).trans (div_le_div_of_nonneg_right hunit two_pos.le)
  rw [← hm] at hseconds
  have hle := abs_micros_sub_le (abs_wholeMicros_sub_le exponent fraction) hseconds
  exact natAbs_sub_le_fifteen (hle.trans_lt (by norm_num))

/-- Microseconds that are off by a half at most are right exactly if the seconds are within half a
microsecond, and not in the middle. -/
theorem eq_iff_of_error_le_half {c n : Nat} {x : ℚ} (hc : |(c : ℚ) - x * 1000000| ≤ 1 / 2)
    (hne : |x * 1000000 - 1000 * n| ≠ 1 / 2) :
    c = 1000 * n ↔ |x - n / 1000| < 1 / 2000000 := by
  constructor
  · rintro rfl
    have hlt : |x * 1000000 - 1000 * n| < 1 / 2 := by
      refine lt_of_le_of_ne ?_ hne
      rw [abs_sub_comm]
      exact_mod_cast hc
    rw [abs_lt] at hlt ⊢
    constructor <;> linarith
  · intro hx
    apply eq_of_abs_sub_lt_one
    push_cast
    rw [abs_lt] at hx ⊢
    rw [abs_le] at hc
    constructor <;> linarith

/-- Seconds of few bits are within half a microsecond, and the microseconds are right. -/
theorem eq_iff_of_small_error {c n : Nat} {x : ℚ}
    (hc : |(c : ℚ) - x * 1000000| ≤ 1 / 2 + 1 / 2 ^ 34) (hx : |x - n / 1000| ≤ 1 / 2 ^ 20 / 2) :
    c = 1000 * n ↔ |x - n / 1000| < 1 / 2000000 := by
  refine iff_of_true ?_ (hx.trans_lt (by norm_num))
  apply eq_of_abs_sub_lt_one
  push_cast
  exact (abs_micros_sub_le hc hx).trans_lt (by norm_num)

/-- The microseconds are right exactly if the seconds are within half a microsecond. -/
theorem wholeMicros_seconds_eq_iff
    (hm : magnitude exponent fraction = rounded (n * 2 ^ unitBits) 1000) :
    wholeMicros (magnitude exponent fraction) = 1000 * n ↔
      |(magnitude exponent fraction / 2 ^ unitBits : ℚ) - n / 1000| < 1 / 2000000 := by
  rcases Nat.lt_or_ge unitBits (scaleFor (n * 2 ^ unitBits / 1000) + 20) with hs | hs
  · -- the product of the fraction is not rounded, and no seconds are in the middle
    have hdvd : 2 ^ scaleFor (n * 2 ^ unitBits / 1000) ∣ magnitude exponent fraction := by
      rw [hm]
      exact Dvd.intro_left _ rfl
    exact eq_iff_of_error_le_half (abs_wholeMicros_sub_le_half exponent fraction (by omega) hdvd)
      (abs_units_ne_half _ n)
  · have hseconds := (abs_seconds_sub_le n).trans
      (div_le_div_of_nonneg_right (two_pow_div_units_le hs) two_pos.le)
    rw [← hm] at hseconds
    exact eq_iff_of_small_error (abs_wholeMicros_sub_le exponent fraction) hseconds

private theorem mul_lt_of_div_lt {k b c : Nat} (h : (k / 2 ^ b * 1000000 - 1 : ℚ) < c) :
    k * 1000000 < (c + 1) * 2 ^ b := by
  have hpos : (0 : ℚ) < 2 ^ b := pow_pos two_pos _
  rw [sub_lt_iff_lt_add, div_mul_eq_mul_div, div_lt_iff₀ hpos] at h
  exact_mod_cast h

/-- Milliseconds that are so many seconds or more have hardly fewer microseconds. -/
theorem lt_wholeMicros {w k b : Nat} (hw : w < 2 ^ 53) (hk : k < 2 ^ 53) (hb : b ≤ unitBits)
    (hle : k * 1000 ≤ w * 2 ^ b) (hn : w ≤ n)
    (hm : magnitude exponent fraction = rounded (rounded (n * 2 ^ unitBits) 1) 1000) :
    k * 1000000 < (wholeMicros (magnitude exponent fraction) + 1) * 2 ^ b := by
  obtain ⟨e, f, hw'⟩ := exists_magnitude (s := unitBits) hw (by decide)
  obtain ⟨e', f', hk'⟩ := exists_magnitude (s := unitBits - b) hk (by
    rw [unitBits]
    omega)
  have hunits : 2 ^ unitBits = 2 ^ b * 2 ^ (unitBits - b) := by
    rw [← Nat.pow_add, Nat.add_sub_cancel' hb]
  have hfirst : w * 2 ^ unitBits ≤ rounded (n * 2 ^ unitBits) 1 := by
    rw [← hw']
    refine le_rounded Nat.one_pos ?_
    rw [hw', Nat.mul_one]
    exact Nat.mul_le_mul_right _ hn
  have hsecond : k * 2 ^ (unitBits - b) ≤ magnitude exponent fraction := by
    rw [hm, ← hk']
    refine le_rounded (by decide) (le_trans ?_ hfirst)
    rw [hk', hunits, Nat.mul_right_comm, ← Nat.mul_assoc]
    exact Nat.mul_le_mul_right _ hle
  have hseconds : (k / 2 ^ b : ℚ) ≤ magnitude exponent fraction / 2 ^ unitBits := by
    have hcast : (2 ^ unitBits : ℚ) = 2 ^ b * 2 ^ (unitBits - b) := by
      rw [← pow_add, Nat.add_sub_cancel' hb]
    have hpos : (0 : ℚ) < 2 ^ (unitBits - b) := pow_pos two_pos _
    rw [hcast, ← mul_div_mul_right (k : ℚ) (2 ^ b) hpos.ne']
    refine div_le_div_of_nonneg_right ?_ (by positivity)
    exact_mod_cast hsecond
  have hmicros := (abs_le.mp (abs_wholeMicros_sub_le exponent fraction)).1
  apply mul_lt_of_div_lt
  linarith

end Milliseconds

/-! ### Milliseconds of either sign -/

/-- Some floating-point number of seconds is within half a microsecond of so many milliseconds. -/
def Sharp (n : Int) : Prop :=
  ∃ (x : Double) (q : ℚ), x.rat? = some q ∧ |q - n / 1000| < 1 / 2000000

/-- The units of the seconds as which a number of milliseconds is read. -/
def secondUnits (n : Nat) : Nat := rounded (rounded (n * 2 ^ unitBits) 1) 1000

/-- The microseconds as which so many milliseconds are read. -/
def epochMicros (n : Int) : Int := signed (n < 0) (wholeMicros (secondUnits n.natAbs))

/-- An integer that has a nearest floating-point number is read as the date-time of its
microseconds, if the calendar holds it. -/
theorem parseDate_int_eq {n : Int} (h : n.natAbs < 2 ^ 1024 - 2 ^ 970) (target : DateTarget) :
    parseDate (.int n) target =
      .ok ((ofMicros? (epochMicros n)).map fun d => Moment.toValue target (.dateTime d)) := by
  obtain ⟨exponent, fraction, hi, hm, -⟩ := ofInt?_finite h
  have hlt : magnitude exponent fraction < 2 ^ (topBits + unitBits) :=
    hm.trans_lt ((rounded_units_lt_iff _).mpr h)
  obtain ⟨e, f, hr, hm', -⟩ := ofUnitRatio_finite (n < 0) (show 0 < 1000 by decide)
    (rounded_lt_of_lt (by decide) hlt)
  have hdiv : (Double.finite (n < 0) exponent fraction).divNat 1000 = .finite (n < 0) e f := hr
  have hfinite : (Double.finite (n < 0) exponent fraction).isFinite = true := rfl
  have hepoch : Moment.ofEpoch (.finite (n < 0) exponent fraction) =
      (ofMicros? (epochMicros n)).map .dateTime := by
    rw [Moment.ofEpoch, if_pos hfinite, hdiv, ofSeconds?, micros?_finite, hm', hm]
    rfl
  rw [Binding.parseDate_int, hi, orOverflow, Except.map, hepoch, Option.map_map]
  rfl

/-- The seconds of an integer that has a nearest floating-point number are those of a number. -/
theorem exists_secondUnits {n : Nat} (h : n < 2 ^ 1024 - 2 ^ 970) :
    ∃ exponent fraction, magnitude exponent fraction = secondUnits n := by
  obtain ⟨e, f, -, hm, -⟩ := ofUnitRatio_finite false (show 0 < 1000 by decide)
    (rounded_lt_of_lt (by decide) ((rounded_units_lt_iff n).mpr h))
  exact ⟨e, f, hm⟩

/-- An integer of at most 2⁵³ is not rounded itself. -/
theorem secondUnits_eq {n : Nat} (h : n ≤ 2 ^ 53) :
    secondUnits n = rounded (n * 2 ^ unitBits) 1000 := by
  rw [secondUnits, rounded_units_eq h]

private theorem signed_of_nonneg {n : Int} (hn : 0 ≤ n) (c : Nat) : signed (n < 0) c = c :=
  if_neg (fun h => Int.not_lt.mpr hn (of_decide_eq_true h))

private theorem signed_of_neg {n : Int} (hn : n < 0) (c : Nat) : signed (n < 0) c = -c :=
  if_pos (decide_eq_true hn)

/-- Milliseconds after the last year are read as microseconds after it. -/
theorem le_epochMicros {n : Int} (h : n.natAbs < 2 ^ 1024 - 2 ^ 970)
    (hn : 253402300800000 ≤ n) : 253402300800000000 ≤ epochMicros n := by
  obtain ⟨e, f, hm⟩ := exists_secondUnits h
  have hlt := lt_wholeMicros (n := n.natAbs) (w := 253402300800000) (k := 253402300800) (b := 0)
    (by decide) (by decide) (Nat.zero_le _) (by decide) (by omega) hm
  rw [epochMicros, signed_of_nonneg (by omega), ← hm]
  generalize wholeMicros (magnitude e f) = c at *
  omega

/-- Milliseconds before the first year are read as microseconds before it. -/
theorem epochMicros_lt {n : Int} (h : n.natAbs < 2 ^ 1024 - 2 ^ 970)
    (hn : n < -62135596800000) : epochMicros n < -62135596800000000 := by
  obtain ⟨e, f, hm⟩ := exists_secondUnits h
  -- the next millisecond is more than half a microsecond away
  have hlt := lt_wholeMicros (n := n.natAbs) (w := 62135596800001)
    (k := 62135596800 * 2 ^ 11 + 1) (b := 11) (by decide) (by decide) (by decide) (by decide)
    (by omega) hm
  rw [epochMicros, signed_of_neg (by omega), ← hm]
  generalize wholeMicros (magnitude e f) = c at *
  omega

private theorem natAbs_signed_sub_mul (n : Int) (c : Nat) :
    (signed (n < 0) c - 1000 * n).natAbs = (c - 1000 * n.natAbs : Int).natAbs := by
  rcases Int.lt_or_le n 0 with h | h
  · rw [signed_of_neg h]
    omega
  · rw [signed_of_nonneg h]
    omega

/-- Within the span of the calendar the microseconds are off by fifteen at most. -/
theorem natAbs_epochMicros_sub_le {n : Int} (hn : n.natAbs < 1000 * 2 ^ 38) :
    (epochMicros n - 1000 * n).natAbs ≤ 15 := by
  have hsmall : n.natAbs ≤ 2 ^ 53 := by omega
  obtain ⟨e, f, hm⟩ := exists_secondUnits (lt_middle hsmall)
  rw [epochMicros, natAbs_signed_sub_mul, ← hm]
  exact natAbs_wholeMicros_seconds_le hn (hm.trans (secondUnits_eq hsmall))

/-- The distance of a number of seconds from milliseconds is the same on either side of the
start. -/
theorem abs_value_sub_div (n : Int) (exponent : Fin 2047) (fraction : Fin 4503599627370496) :
    |value (n < 0) exponent fraction - n / 1000| =
      |(magnitude exponent fraction / 2 ^ unitBits : ℚ) - n.natAbs / 1000| := by
  rw [value]
  rcases Int.lt_or_le n 0 with h | h
  · have hn : (n.natAbs : ℚ) = -n := by
      rw [← Int.cast_natCast, Int.ofNat_natAbs_of_nonpos h.le, Int.cast_neg]
    rw [signed_of_neg h, hn, ← abs_neg]
    push_cast
    congr 1
    ring
  · have hn : (n.natAbs : ℚ) = n := by
      rw [← Int.cast_natCast, Int.natAbs_of_nonneg h]
    rw [signed_of_nonneg h, hn, Int.cast_natCast]

/-- The distance of so many units from milliseconds, in units and a thousand times over. -/
theorem abs_units_sub_div (u n : Int) :
    |(u / 2 ^ unitBits : ℚ) - n / 1000| =
      (u * 1000 - n * 2 ^ unitBits).natAbs / 2 ^ unitBits / 1000 := by
  rw [← abs_sub_eq, ← abs_of_pos (show (0 : ℚ) < 1000 by norm_num), ← abs_div, abs_of_pos
    (show (0 : ℚ) < 1000 by norm_num)]
  push_cast
  congr 1
  ring

/-- No number of seconds is nearer to milliseconds than the one to which they are rounded. -/
theorem sharp_iff {n : Int} {exponent : Fin 2047} {fraction : Fin 4503599627370496}
    (hm : magnitude exponent fraction = rounded (n.natAbs * 2 ^ unitBits) 1000) :
    Sharp n ↔ |(magnitude exponent fraction / 2 ^ unitBits : ℚ) - n.natAbs / 1000| <
      1 / 2000000 := by
  rw [← abs_value_sub_div]
  constructor
  · rintro ⟨x, q, hx, hlt⟩
    rcases x with origin | other | ⟨other, e, f⟩ <;> cases hx
    refine lt_of_le_of_lt ?_ hlt
    have hnear := (signed_nearest (n < 0) other (show 0 < 1000 by decide) hm e f).1
    simp only [signed_natAbs_mul, Nat.cast_pow, Nat.cast_ofNat] at hnear
    rw [value, value, abs_units_sub_div, abs_units_sub_div]
    gcongr
  · intro h
    exact ⟨.finite (n < 0) exponent fraction, _, rfl, h⟩

/-- They are right exactly if the milliseconds are sharp. -/
theorem epochMicros_eq_iff {n : Int} (hn : n.natAbs ≤ 2 ^ 53) :
    epochMicros n = 1000 * n ↔ Sharp n := by
  obtain ⟨e, f, hm⟩ := exists_secondUnits (lt_middle hn)
  have hm' := hm.trans (secondUnits_eq hn)
  rw [sharp_iff hm', ← wholeMicros_seconds_eq_iff hm', ← sub_eq_zero, ← Int.natAbs_eq_zero,
    epochMicros, natAbs_signed_sub_mul, ← hm]
  generalize wholeMicros (magnitude e f) = c
  omega

/-- Multiples of an eighth of a second are sharp. -/
theorem sharp_of_dvd {n : Int} (hn : n.natAbs ≤ 2 ^ 53) (h : 125 ∣ n) : Sharp n := by
  obtain ⟨k, hk⟩ : 125 ∣ n.natAbs := by omega
  obtain ⟨e, f, hm⟩ := exists_magnitude (n := k) (s := unitBits - 3) (by omega) (by decide)
  refine ⟨.finite (n < 0) e f, _, rfl, ?_⟩
  have hunits : (2 ^ unitBits : ℚ) = 2 ^ (unitBits - 3) * 8 := by
    rw [show (8 : ℚ) = 2 ^ 3 by norm_num, ← pow_add, Nat.sub_add_cancel (by decide)]
  have hpos : (0 : ℚ) < 2 ^ (unitBits - 3) := pow_pos two_pos _
  have hzero : (magnitude e f / 2 ^ unitBits : ℚ) - n.natAbs / 1000 = 0 := by
    rw [hm, hk, hunits]
    push_cast
    field_simp
    ring
  rw [abs_value_sub_div, hzero, abs_zero]
  norm_num

/-- Milliseconds of less than 2³³ seconds are sharp. -/
theorem sharp_of_lt {n : Int} (h : n.natAbs < 1000 * 2 ^ 33) : Sharp n := by
  have hsmall : n.natAbs ≤ 2 ^ 53 := by omega
  obtain ⟨e, f, hm⟩ := exists_secondUnits (lt_middle hsmall)
  have hm' := hm.trans (secondUnits_eq hsmall)
  have hscale := scaleFor_seconds_le h
  have hunit := two_pow_div_units_le
    (show scaleFor (n.natAbs * 2 ^ unitBits / 1000) + 20 ≤ unitBits by omega)
  have hseconds := (abs_seconds_sub_le n.natAbs).trans (div_le_div_of_nonneg_right hunit two_pos.le)
  rw [sharp_iff hm', hm']
  exact hseconds.trans_lt (by norm_num)

/-! ### Dates of milliseconds -/

/-- A date-time in UTC is so many milliseconds after the start of 1970. -/
structure IsAt (d : DateTime) (n : Int) : Prop where
  utc : d.offset = some .utc
  instant_eq : d.instant = start + 1000 * n

private theorem start_eq : start = 62135683200000000 := by decide

/-- The calendar holds the milliseconds from the start of its first year to the end of its last. -/
theorem exists_isAt_iff (n : Int) :
    (∃ d, IsAt d n) ↔ -62135596800000 ≤ n ∧ n < 253402300800000 := by
  have hday : (Time.dayMicros : Int) = 86400000000 := rfl
  have hend : (((Date.lastDay + 1) * Time.dayMicros : Nat) : Int) = 315537984000000000 := by
    decide
  constructor
  · rintro ⟨d, ho, hi⟩
    obtain ⟨h1, h2⟩ := instant_bounds ho
    rw [hi, start_eq] at h1 h2
    omega
  · rintro ⟨h1, h2⟩
    obtain ⟨d, hd⟩ : ∃ d, ofMicros? (1000 * n) = some d :=
      exists_ofMicros? (by rw [start_eq]; omega) (by rw [start_eq]; omega)
    obtain ⟨ho, hi⟩ := spec_of_ofMicros? hd
    exact ⟨d, ho, hi⟩

/-- Milliseconds that the calendar does not hold are read as no date. -/
theorem ofMicros?_epochMicros_eq_none {n : Int} (h : n.natAbs < 2 ^ 1024 - 2 ^ 970)
    (hn : ¬ ∃ d, IsAt d n) : ofMicros? (epochMicros n) = none := by
  rw [exists_isAt_iff] at hn
  rw [Option.eq_none_iff_forall_ne_some]
  intro d hd
  obtain ⟨ho, hi⟩ := spec_of_ofMicros? hd
  obtain ⟨h1, h2⟩ := instant_bounds ho
  have hday : (Time.dayMicros : Int) = 86400000000 := rfl
  have hend : (((Date.lastDay + 1) * Time.dayMicros : Nat) : Int) = 315537984000000000 := by
    decide
  rw [hi, start_eq] at h1 h2
  by_cases hlow : n < -62135596800000
  · have := epochMicros_lt h hlow
    omega
  · have := le_epochMicros h (by omega)
    omega

section IsAt

variable {d e : DateTime} {n : Int}

private theorem IsAt.natAbs_lt (h : IsAt d n) : n.natAbs < 1000 * 2 ^ 38 := by
  have := (exists_isAt_iff n).mp ⟨d, h⟩
  omega

/-- Date-times in UTC with hardly different instants have the same date, if one of them is at the
start of a millisecond and, where it is at the start of the day, the two are the same. -/
theorem IsAt.date_eq (h : IsAt d n) (he : e.offset = some .utc)
    (hle : (e.instant - d.instant).natAbs ≤ 15) (hsame : 125 ∣ n → e = d) : e.date = d.date := by
  by_cases hn : 125 ∣ n
  · rw [hsame hn]
  · apply Date.ordinal_injective
    have hi := h.instant_eq
    have hd := d.time.micros_lt
    have he' := e.time.micros_lt
    rw [DateTime.instant_utc h.utc, start_eq] at hi
    rw [DateTime.instant_utc h.utc, DateTime.instant_utc he] at hle
    rw [Time.dayMicros] at *
    generalize d.date.ordinal = day at *
    generalize e.date.ordinal = day' at *
    generalize d.time.micros = t at *
    generalize e.time.micros = t' at *
    clear hsame
    have hms : t % 1000 = 0 := by omega
    have hstart : t ≠ 0 := by
      rintro rfl
      omega
    omega

/-- Milliseconds that the calendar holds are read as their date. As a date-time they are read to
within fifteen microseconds, and as the right one exactly if they are sharp. -/
theorem IsAt.parseDate (h : IsAt d n) :
    parseDate (.int n) .date = .ok (some (.date d.date)) ∧
      ∃ e : DateTime, e.offset = some .utc ∧
        parseDate (.int n) .dateTime = .ok (some (.dateTime e)) ∧
        (e.instant - d.instant).natAbs ≤ 15 ∧ (e = d ↔ Sharp n) := by
  have hn := h.natAbs_lt
  have hsmall : n.natAbs ≤ 2 ^ 53 := by omega
  have hle := natAbs_epochMicros_sub_le hn
  have heq := epochMicros_eq_iff hsmall
  have hsharp : 125 ∣ n → epochMicros n = 1000 * n := fun hdvd =>
    heq.mpr (sharp_of_dvd hsmall hdvd)
  have hbounds := (exists_isAt_iff n).mp ⟨d, h⟩
  obtain ⟨e, he⟩ : ∃ e, ofMicros? (epochMicros n) = some e := by
    have hday : (Time.dayMicros : Int) = 86400000000 := rfl
    have hend : (((Date.lastDay + 1) * Time.dayMicros : Nat) : Int) = 315537984000000000 := by
      decide
    -- an error does not lead out of the calendar, for its ends are sharp
    have hlow : -62135596800000000 ≤ epochMicros n := by
      by_cases hfirst : n = -62135596800000
      · rw [hsharp (by omega)]
        omega
      · omega
    exact exists_ofMicros? (by rw [start_eq]; omega) (by rw [start_eq]; omega)
  obtain ⟨ho, hi⟩ := spec_of_ofMicros? he
  have hread := parseDate_int_eq (lt_middle hsmall)
  have hutc : e.assumeUtc = e := by
    rw [DateTime.assumeUtc, ho]
  have hdiff : (e.instant - d.instant).natAbs ≤ 15 := by
    rw [hi, h.instant_eq, add_sub_add_left_eq_sub]
    exact hle
  have hsame : e = d ↔ epochMicros n = 1000 * n := by
    constructor
    · rintro rfl
      exact add_left_cancel (hi.symm.trans h.instant_eq)
    · intro hmicros
      exact DateTime.eq_of_instant_eq ho h.utc (by rw [hi, h.instant_eq, hmicros])
  refine ⟨?_, e, ho, ?_, hdiff, hsame.trans heq⟩
  · rw [hread, he, ← h.date_eq ho hdiff fun hdvd => hsame.mpr (hsharp hdvd)]
    rfl
  · rw [hread, he, Option.map_some, Moment.toValue, hutc]

end IsAt

end Calendar.Epoch

open Calendar Calendar.Epoch

/-- An integer is read as the date so many milliseconds after the start of 1970, or as no date where
the calendar does not hold them. As a date-time it is read to within fifteen microseconds, and as
the right one exactly if the milliseconds are sharp; less than 2³³ seconds from the start they
always are, and so are eighths of a second. An integer in the middle between the largest finite
floating-point number and the next power of two, or beyond, is no date but a fault. -/
theorem parseDate_epoch (n : Int) :
    (2 ^ 1024 - 2 ^ 970 ≤ n.natAbs →
      ∀ target, parseDate (.int n) target = .error (.overflow .double)) ∧
    (n.natAbs < 2 ^ 1024 - 2 ^ 970 → (¬ ∃ d, IsAt d n) →
      ∀ target, parseDate (.int n) target = .ok none) ∧
    (∀ d, IsAt d n → parseDate (.int n) .date = .ok (some (.date d.date)) ∧
      (∃ e : DateTime, e.offset = some .utc ∧
        parseDate (.int n) .dateTime = .ok (some (.dateTime e)) ∧
        (e.instant - d.instant).natAbs ≤ 15 ∧ (e = d ↔ Sharp n)) ∧
      (n.natAbs < 1000 * 2 ^ 33 ∨ 125 ∣ n → Sharp n)) := by
  refine ⟨fun h target => ?_, fun h hn target => ?_, fun d h => ?_⟩
  · rw [Binding.parseDate_int, Double.ofInt?_eq_none h]
    rfl
  · rw [parseDate_int_eq h, ofMicros?_epochMicros_eq_none h hn]
    rfl
  · have hn := h.natAbs_lt
    obtain ⟨hdate, hdateTime⟩ := h.parseDate
    refine ⟨hdate, hdateTime, ?_⟩
    rintro (hlt | hdvd)
    · exact sharp_of_lt hlt
    · exact sharp_of_dvd (by omega) hdvd

/-- The last millisecond of the calendar. -/
def lastMillisecond : DateTime :=
  ⟨⟨9999, 12, 31, by decide⟩,
    ⟨⟨23, by decide⟩, ⟨59, by decide⟩, ⟨59, by decide⟩, ⟨999000, by decide⟩⟩, some .utc⟩

/-- The last millisecond of the calendar is read as its date, and as another date-time; the next one
is read as no date, and the first integer without a nearest floating-point number is a fault. -/
theorem parseDate_lastMillisecond :
    IsAt lastMillisecond 253402300799999 ∧
      parseDate (.int 253402300799999) .date = .ok (some (.date lastMillisecond.date)) ∧
      (∃ e : DateTime, parseDate (.int 253402300799999) .dateTime = .ok (some (.dateTime e)) ∧
        (e.instant - lastMillisecond.instant).natAbs ≤ 15 ∧ e ≠ lastMillisecond) ∧
      parseDate (.int 253402300800000) .dateTime = .ok none ∧
      parseDate (.int (2 ^ 1024 - 2 ^ 970 : Nat)) .dateTime = .error (.overflow .double) := by
  have hd : IsAt lastMillisecond 253402300799999 := ⟨rfl, by decide +kernel⟩
  have hblunt : ¬ Sharp 253402300799999 := by
    rw [← epochMicros_eq_iff (by decide)]
    decide +kernel
  obtain ⟨-, -, hin⟩ := parseDate_epoch 253402300799999
  obtain ⟨hdate, ⟨e, -, hread, hle, heq⟩, -⟩ := hin lastMillisecond hd
  obtain ⟨-, hout, -⟩ := parseDate_epoch 253402300800000
  obtain ⟨hover, -, -⟩ := parseDate_epoch (2 ^ 1024 - 2 ^ 970 : Nat)
  refine ⟨hd, hdate, ⟨e, hread, hle, fun h => hblunt (heq.mp h)⟩, hout ?_ ?_ _, hover ?_ _⟩
  · exact Double.lt_middle (by decide)
  · rw [exists_isAt_iff]
    omega
  · rw [Int.natAbs_natCast]

end SchemaBinding
