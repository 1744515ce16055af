import Mathlib
import SchemaBinding.Calendar.Epoch

/-!
# The days of the calendar

Days are numbered without gaps: the first of January of a year follows the last day of the year
before, and the first day of a month the last one of the month before. So a date is read off its
number, a time of day off its microseconds, and a date-time in UTC off its instant.
-/

namespace SchemaBinding.Calendar

namespace Date

/-- The number of days in a year. -/
def daysInYear (year : Nat) : Nat := if isLeap year then 366 else 365

/-! ### Years and months -/

private theorem isLeap_iff (year : Nat) :
    isLeap year = true ↔ 4 ∣ year ∧ (¬ 100 ∣ year ∨ 400 ∣ year) := by
  simp [isLeap, Nat.dvd_iff_mod_eq_zero]

private theorem daysBeforeYear_succ {year : Nat} (h : 1 ≤ year) :
    daysBeforeYear (year + 1) = daysBeforeYear year + daysInYear year := by
  obtain ⟨y, rfl⟩ := Nat.exists_eq_add_of_le' h
  have hle : y / 100 ≤ y / 4 := Nat.div_le_div_left (by decide) (by decide)
  have h100 : 100 ∣ y + 1 → 4 ∣ y + 1 := Nat.dvd_trans (by decide)
  have h400 : 400 ∣ y + 1 → 100 ∣ y + 1 := Nat.dvd_trans (by decide)
  simp only [daysBeforeYear, daysInYear, isLeap_iff, Nat.add_sub_cancel, Nat.succ_div]
  generalize y / 4 = a at *
  generalize y / 100 = b at *
  generalize y / 400 = c at *
  by_cases h4 : 4 ∣ y + 1
  · by_cases hc : 100 ∣ y + 1
    · by_cases hq : 400 ∣ y + 1
      · rw [if_pos h4, if_pos hc, if_pos hq, if_pos ⟨h4, .inr hq⟩]
        omega
      · rw [if_pos h4, if_pos hc, if_neg hq, if_neg fun h => h.2.elim (· hc) hq]
        omega
    · rw [if_pos h4, if_neg hc, if_neg (mt h400 hc), if_pos ⟨h4, .inl hc⟩]
      omega
  · have hc := mt h100 h4
    rw [if_neg h4, if_neg hc, if_neg (mt h400 hc), if_neg fun h => h4 h.1]
    omega

private theorem daysBeforeMonth_succ (year month : Nat) :
    daysBeforeMonth year (month + 1) = daysBeforeMonth year month + daysInMonth year month := by
  have hfold : ∀ (ms : List Nat) (days : Nat),
      ms.foldr (fun m days => daysInMonth year m + days) days =
        ms.foldr (fun m days => daysInMonth year m + days) 0 + days := by
    intro ms days
    induction ms with
    | nil => exact (Nat.zero_add days).symm
    | cons m ms ih => rw [List.foldr_cons, List.foldr_cons, ih, Nat.add_assoc]
  rw [daysBeforeMonth, List.range_succ, List.foldr_append, hfold]
  rfl

/-- All months together are the year. -/
theorem daysBeforeMonth_thirteen (year : Nat) : daysBeforeMonth year 13 = daysInYear year := by
  rw [daysInYear]
  cases h : isLeap year <;>
    simp [daysBeforeMonth, daysInMonth, h, List.range_succ]

private theorem daysBeforeMonth_mono (year : Nat) : Monotone (daysBeforeMonth year) :=
  monotone_nat_of_le_succ fun month => by
    rw [daysBeforeMonth_succ]
    exact Nat.le_add_right _ _

private theorem daysBeforeYear_mono {y z : Nat} (hy : 1 ≤ y) (h : y ≤ z) :
    daysBeforeYear y ≤ daysBeforeYear z := by
  induction z, h using Nat.le_induction with
  | base => exact le_rfl
  | succ z hz ih =>
    rw [daysBeforeYear_succ (hy.trans hz)]
    exact ih.trans (Nat.le_add_right _ _)

/-! ### The day of a date -/

/-- The place of a date in its year. -/
def dayOfYear (d : Date) : Nat := daysBeforeMonth d.year d.month + d.day

private theorem dayOfYear_pos (d : Date) : 1 ≤ d.dayOfYear :=
  Nat.le_add_left_of_le d.isDate.2.2.2.2.1

private theorem dayOfYear_le (d : Date) : d.dayOfYear ≤ daysInYear d.year := by
  obtain ⟨-, -, -, hm, -, hd⟩ := d.isDate
  rw [← daysBeforeMonth_thirteen]
  calc d.dayOfYear ≤ daysBeforeMonth d.year d.month + daysInMonth d.year d.month :=
        Nat.add_le_add_left hd _
    _ = daysBeforeMonth d.year (d.month + 1) := (daysBeforeMonth_succ _ _).symm
    _ ≤ daysBeforeMonth d.year 13 := daysBeforeMonth_mono _ (by omega)

private theorem ordinal_eq (d : Date) : d.ordinal = daysBeforeYear d.year + d.dayOfYear :=
  Nat.add_assoc _ _ _

private theorem ordinal_pos (d : Date) : 1 ≤ d.ordinal := by
  rw [ordinal_eq]
  exact Nat.le_add_left_of_le d.dayOfYear_pos

/-- The number of the last day of the calendar. -/
def lastDay : Nat := 3652059

private theorem ordinal_le (d : Date) : d.ordinal ≤ lastDay := by
  obtain ⟨h1, h2, -⟩ := d.isDate
  calc d.ordinal = daysBeforeYear d.year + d.dayOfYear := d.ordinal_eq
    _ ≤ daysBeforeYear d.year + daysInYear d.year := Nat.add_le_add_left d.dayOfYear_le _
    _ = daysBeforeYear (d.year + 1) := (daysBeforeYear_succ h1).symm
    _ ≤ daysBeforeYear 10000 := daysBeforeYear_mono (by omega) (by omega)
    _ = lastDay := rfl

/-- Days of different years have different numbers. -/
theorem year_le_of_ordinal_le {d e : Date} (h : d.ordinal ≤ e.ordinal) : d.year ≤ e.year := by
  rw [← Nat.not_lt]
  intro hlt
  have hmono := daysBeforeYear_mono (Nat.le_succ_of_le e.isDate.1) hlt
  rw [daysBeforeYear_succ e.isDate.1] at hmono
  have hd := d.dayOfYear_pos
  have he := e.dayOfYear_le
  rw [ordinal_eq, ordinal_eq] at h
  omega

/-- Days of different months of one year have different numbers. -/
theorem month_le_of_dayOfYear_le {d e : Date} (hy : d.year = e.year)
    (h : d.dayOfYear ≤ e.dayOfYear) : d.month ≤ e.month := by
  rw [← Nat.not_lt]
  intro hlt
  have hmono := daysBeforeMonth_mono e.year (Nat.succ_le_of_lt hlt)
  rw [Nat.succ_eq_add_one, daysBeforeMonth_succ] at hmono
  obtain ⟨-, -, -, -, hd, -⟩ := d.isDate
  obtain ⟨-, -, -, -, -, he⟩ := e.isDate
  rw [dayOfYear, dayOfYear, hy] at h
  omega

/-- Different dates have different numbers. -/
theorem ordinal_injective : Function.Injective ordinal := by
  intro d e h
  have hy : d.year = e.year :=
    Nat.le_antisymm (year_le_of_ordinal_le h.le) (year_le_of_ordinal_le h.ge)
  have hday : d.dayOfYear = e.dayOfYear := by
    rw [ordinal_eq, ordinal_eq, hy] at h
    exact Nat.add_left_cancel h
  have hm : d.month = e.month :=
    Nat.le_antisymm (month_le_of_dayOfYear_le hy hday.le)
      (month_le_of_dayOfYear_le hy.symm hday.ge)
  rw [dayOfYear, dayOfYear, hy, hm] at hday
  have hd := Nat.add_left_cancel hday
  cases d
  cases e
  cases hy
  cases hm
  cases hd
  rfl

/-! ### The date of a day -/

/-- The days before a year, counted by cycles. -/
theorem daysBeforeYear_cycles {cycles centuries quads years : Nat} (hc : centuries ≤ 3)
    (hq : quads ≤ 24) (hy : years ≤ 3) :
    daysBeforeYear (cycles * 400 + centuries * 100 + quads * 4 + years + 1) =
      146097 * cycles + 36524 * centuries + 1461 * quads + 365 * years := by
  rw [daysBeforeYear]
  simp only [Nat.add_sub_cancel]
  omega

private theorem le_daysInYear (year : Nat) : 365 ≤ daysInYear year := by
  rw [daysInYear]
  split <;> decide

/-- Of four parts of a whole the fourth takes the rest, be it longer than the others. -/
theorem fourthPart_spec (n : Nat) {unit : Nat} (hu : 0 < unit) :
    min (n / unit) 3 ≤ 3 ∧ min (n / unit) 3 * unit ≤ n ∧
      (min (n / unit) 3 < 3 → n < min (n / unit) 3 * unit + unit) := by
  have hdm := Nat.div_add_mod' n unit
  have hlt := Nat.mod_lt n hu
  rcases Nat.lt_or_ge (n / unit) 3 with hq | hq
  · rw [Nat.min_eq_left hq.le]
    exact ⟨hq.le, by omega, fun _ => by omega⟩
  · have := Nat.mul_le_mul_right unit hq
    rw [Nat.min_eq_right hq]
    exact ⟨le_rfl, by omega, fun hlt => absurd hlt (Nat.lt_irrefl 3)⟩

/-- The last day of four years is there in a leap year; a century has it at the end of a cycle. -/
theorem fourthYear_le {cycles centuries quads inQuad : Nat} (hc : centuries ≤ 3) (hq : quads ≤ 24)
    (hquad : inQuad < 1461) (hcentury : centuries < 3 → 1461 * quads + inQuad < 36524) :
    inQuad - 3 * 365 + 1 ≤ daysInYear (cycles * 400 + centuries * 100 + quads * 4 + 3 + 1) := by
  by_cases hleap : isLeap (cycles * 400 + centuries * 100 + quads * 4 + 3 + 1) = true
  · rw [daysInYear, if_pos hleap]
    omega
  · rw [daysInYear, if_neg hleap]
    rw [isLeap_iff, not_and, not_or, not_not] at hleap
    obtain ⟨h100, h400⟩ := hleap (by omega)
    have hquads : quads = 24 := by
      clear h400
      omega
    have hlt3 : centuries < 3 := by
      by_contra hge
      exact h400 (by omega)
    have := hcentury hlt3
    omega

/-- The year found for a day holds it. -/
theorem yearOf_spec {number year day : Nat} (hn : 1 ≤ number) (h : yearOf number = (year, day)) :
    1 ≤ year ∧ daysBeforeYear year + day = number ∧ 1 ≤ day ∧ day ≤ daysInYear year := by
  rw [yearOf, Prod.mk.injEq] at h
  obtain ⟨rfl, rfl⟩ := h
  have hcycles := Nat.div_add_mod (number - 1) 146097
  have hcycle := Nat.mod_lt (number - 1) (show 146097 > 0 by decide)
  generalize (number - 1) / 146097 = cycles at *
  generalize (number - 1) % 146097 = inCycle at *
  obtain ⟨hc, hlow, hcentury⟩ := fourthPart_spec inCycle (show 0 < 36524 by decide)
  generalize min (inCycle / 36524) 3 = centuries at *
  obtain ⟨inCentury, rfl⟩ := Nat.exists_eq_add_of_le hlow
  rw [Nat.add_sub_cancel_left]
  have hquads := Nat.div_add_mod inCentury 1461
  have hquad := Nat.mod_lt inCentury (show 1461 > 0 by decide)
  generalize inCentury / 1461 = quads at *
  generalize inCentury % 1461 = inQuad at *
  subst hquads
  obtain ⟨hy, hlow', hyear⟩ := fourthPart_spec inQuad (show 0 < 365 by decide)
  generalize min (inQuad / 365) 3 = years at *
  have hq : quads ≤ 24 := by omega
  rw [daysBeforeYear_cycles hc hq hy]
  refine ⟨Nat.le_add_left 1 _, by omega, Nat.le_add_left 1 _, ?_⟩
  rcases Nat.lt_or_ge years 3 with hl | hl
  · have := hyear hl
    have := le_daysInYear (cycles * 400 + centuries * 100 + quads * 4 + years + 1)
    omega
  · rw [Nat.le_antisymm hy hl]
    exact fourthYear_le hc hq hquad fun hlt => by
      have := hcentury hlt
      omega

/-- The month found for a day holds it. -/
theorem monthOf_spec (year months month day : Nat) (hd : 1 ≤ day)
    (h : daysBeforeMonth year month + day ≤ daysBeforeMonth year (month + months + 1)) :
    ∃ m d, monthOf year months month day = (m, d) ∧ month ≤ m ∧ m ≤ month + months ∧ 1 ≤ d ∧
      d ≤ daysInMonth year m ∧ daysBeforeMonth year m + d = daysBeforeMonth year month + day := by
  induction months generalizing month day with
  | zero =>
    rw [Nat.add_zero, daysBeforeMonth_succ] at h
    exact ⟨month, day, rfl, le_rfl, le_rfl, hd, by omega, rfl⟩
  | succ months ih =>
    rw [monthOf]
    split
    · next hle => exact ⟨month, day, rfl, le_rfl, by omega, hd, hle, rfl⟩
    · next hlt =>
      have hs := daysBeforeMonth_succ year month
      have hlast : month + (months + 1) + 1 = month + 1 + months + 1 := by omega
      rw [hlast] at h
      obtain ⟨m, d, hm, hl, hu, h1, h2, h3⟩ :=
        ih (month + 1) (day - daysInMonth year month) (by omega) (by omega)
      exact ⟨m, d, hm, by omega, by omega, h1, h2, by omega⟩

/-- The parts found for a day name a date with its number, unless the year is beyond the
calendar. -/
theorem ofOrdinal?_eq_ofParts? {number : Nat} (hn : 1 ≤ number) :
    ∃ year m d, ofOrdinal? number = ofParts? year m d ∧ 1 ≤ year ∧
      (year ≤ 9999 → IsDate year m d) ∧ 1 ≤ d ∧
      daysBeforeYear year + (daysBeforeMonth year m + d) = number := by
  rcases hy : yearOf number with ⟨year, inYear⟩
  obtain ⟨hyear, hsum, hpos, hle⟩ := yearOf_spec hn hy
  have hfirst : daysBeforeMonth year 1 = 0 := rfl
  obtain ⟨m, d, hm, hlow, hhigh, hd, hdays, hplace⟩ :=
    monthOf_spec year 11 1 inYear hpos (by
      rw [hfirst, Nat.zero_add]
      exact hle.trans_eq (daysBeforeMonth_thirteen year).symm)
  refine ⟨year, m, d, ?_, hyear, fun h => ⟨hyear, h, hlow, hhigh, hd, hdays⟩, hd, ?_⟩
  · rw [ofOrdinal?, if_neg (by omega), hy]
    dsimp only
    rw [hm]
  · rw [hplace, hfirst, Nat.zero_add, hsum]

/-- Every number of a day is that of a date. -/
theorem exists_ofOrdinal? {number : Nat} (h1 : 1 ≤ number) (h2 : number ≤ lastDay) :
    ∃ d : Date, ofOrdinal? number = some d ∧ d.ordinal = number := by
  obtain ⟨year, m, d, hparts, hyear, hdate, hd, hsum⟩ := ofOrdinal?_eq_ofParts? h1
  have hlast : year ≤ 9999 := by
    rw [← Nat.not_lt]
    intro hlt
    have hmono : lastDay ≤ daysBeforeYear year := daysBeforeYear_mono (y := 10000) (by decide) hlt
    omega
  refine ⟨⟨year, m, d, hdate hlast⟩, hparts.trans (dif_pos (hdate hlast)), ?_⟩
  rw [ordinal_eq]
  exact hsum

/-- The date of a day is the one with its number. -/
theorem ofOrdinal?_eq_some_iff (number : Nat) (d : Date) :
    ofOrdinal? number = some d ↔ d.ordinal = number := by
  constructor
  · intro h
    have hn : 1 ≤ number := by
      rw [Nat.one_le_iff_ne_zero]
      rintro rfl
      cases h
    obtain ⟨year, m, day, hparts, -, -, -, hsum⟩ := ofOrdinal?_eq_ofParts? hn
    rw [hparts, ofParts?] at h
    split at h
    · cases h
      rw [ordinal_eq]
      exact hsum
    · cases h
  · rintro rfl
    obtain ⟨e, he, ho⟩ := exists_ofOrdinal? d.ordinal_pos d.ordinal_le
    rw [he, ordinal_injective ho]

end Date

namespace Time

/-- The number of microseconds in a day. -/
def dayMicros : Nat := 86400000000

/-- A time lies within one day. -/
theorem micros_lt (t : Time) : t.micros < dayMicros := by
  have := t.hour.isLt
  have := t.minute.isLt
  have := t.second.isLt
  have := t.micro.isLt
  rw [micros, dayMicros]
  omega

private theorem micros_injective : Function.Injective micros := by
  rintro ⟨⟨h, hh⟩, ⟨m, hm⟩, ⟨s, hs⟩, ⟨u, hu⟩⟩ ⟨⟨h', hh'⟩, ⟨m', hm'⟩, ⟨s', hs'⟩, ⟨u', hu'⟩⟩ he
  simp only [micros] at he
  obtain ⟨rfl, rfl, rfl, rfl⟩ : h = h' ∧ m = m' ∧ s = s' ∧ u = u' := by omega
  rfl

/-- The units of a number of microseconds are those of a time of day. -/
theorem ofParts?_units {n : Nat} (h : n < dayMicros) :
    ∃ t, ofParts? (n / 3600000000) (n / 60000000 % 60) (n / 1000000 % 60) (n % 1000000) = some t ∧
      t.micros = n := by
  rw [dayMicros] at h
  have hunits : n / 3600000000 < 24 ∧ n / 60000000 % 60 < 60 ∧ n / 1000000 % 60 < 60 ∧
      n % 1000000 < 1000000 := by omega
  refine ⟨_, dif_pos hunits, ?_⟩
  simp only [micros]
  omega

end Time

namespace DateTime

open Time

/-- The instant of a date-time in UTC is its local time. -/
theorem instant_utc {d : DateTime} (h : d.offset = some .utc) :
    d.instant = (d.date.ordinal * dayMicros + d.time.micros : Nat) := by
  rw [instant, h, localMicros, dayMicros]
  exact Int.sub_zero _

/-- A date-time in UTC is known by its instant. -/
theorem eq_of_instant_eq {d e : DateTime} (hd : d.offset = some .utc) (he : e.offset = some .utc)
    (h : d.instant = e.instant) : d = e := by
  rw [instant_utc hd, instant_utc he, Nat.cast_inj] at h
  have hlt := d.time.micros_lt
  have hlt' := e.time.micros_lt
  have hday : d.date.ordinal = e.date.ordinal := by
    rw [dayMicros] at *
    omega
  have htime : d.time.micros = e.time.micros := by
    rw [hday] at h
    exact Nat.add_left_cancel h
  cases d
  cases e
  cases hd
  cases he
  cases Date.ordinal_injective hday
  cases Time.micros_injective htime
  rfl

end DateTime

namespace Epoch

open Date Time DateTime

/-- The microseconds from the start of the day numbered zero to the start of 1970. -/
def start : Int := (firstDay * dayMicros : Nat)

/-- The date-time at an instant is that of its day and of the rest. -/
theorem ofMicros?_eq {micros : Int} {n : Nat} (h : start + micros = n) :
    ofMicros? micros = (ofOrdinal? (n / dayMicros)).bind fun date =>
      (ofParts? (n % dayMicros / 3600000000) (n % dayMicros / 60000000 % 60)
        (n % dayMicros / 1000000 % 60) (n % dayMicros % 1000000)).map
          fun time => ⟨date, time, some .utc⟩ := by
  have hn : micros + (firstDay * 86400000000 : Nat) = n := (Int.add_comm _ _).trans h
  rw [ofMicros?, hn]
  exact if_neg (Int.not_lt.mpr (Int.natCast_nonneg n))

/-- What is found at an instant is in UTC and names it. -/
theorem spec_of_ofMicros? {micros : Int} {d : DateTime} (h : ofMicros? micros = some d) :
    d.offset = some .utc ∧ d.instant = start + micros := by
  rcases Int.lt_or_le (start + micros) 0 with hneg | hpos
  · have hn : micros + (firstDay * 86400000000 : Nat) < 0 := (Int.add_comm _ _).trans_lt hneg
    rw [ofMicros?] at h
    cases (if_pos hn).symm.trans h
  · obtain ⟨n, hn⟩ := Int.eq_ofNat_of_zero_le hpos
    rw [ofMicros?_eq hn] at h
    obtain ⟨date, hdate, h⟩ := Option.bind_eq_some_iff.mp h
    obtain ⟨time, htime, rfl⟩ := Option.map_eq_some_iff.mp h
    obtain ⟨t, ht, hmicros⟩ := ofParts?_units (Nat.mod_lt n (show 0 < dayMicros by decide))
    cases ht.symm.trans htime
    rw [instant_utc rfl, hn, (ofOrdinal?_eq_some_iff _ _).mp hdate, hmicros, Nat.div_add_mod']
    exact ⟨rfl, rfl⟩

/-- The calendar holds the instants from the start of its first day to the end of its last one. -/
theorem exists_ofMicros? {micros : Int} (h1 : dayMicros ≤ start + micros)
    (h2 : start + micros < ((lastDay + 1) * dayMicros : Nat)) : ∃ d, ofMicros? micros = some d := by
  obtain ⟨n, hn⟩ := Int.eq_ofNat_of_zero_le ((Int.natCast_nonneg _).trans h1)
  rw [hn, Nat.cast_le] at h1
  rw [hn, Nat.cast_lt] at h2
  have hpos : 0 < dayMicros := by decide
  obtain ⟨date, hdate, -⟩ := exists_ofOrdinal? ((Nat.one_le_div_iff hpos).mpr h1)
    (Nat.le_of_lt_succ ((Nat.div_lt_iff_lt_mul hpos).mpr h2))
  obtain ⟨time, htime, -⟩ := ofParts?_units (Nat.mod_lt n hpos)
  rw [ofMicros?_eq hn, hdate, Option.bind_some, htime]
  exact ⟨_, rfl⟩

/-- The instants of date-times in UTC are those that the calendar holds. -/
theorem instant_bounds {d : DateTime} (h : d.offset = some .utc) :
    dayMicros ≤ d.instant ∧ d.instant < ((lastDay + 1) * dayMicros : Nat) := by
  have h1 := Nat.mul_le_mul_right dayMicros d.date.ordinal_pos
  have h2 := Nat.mul_le_mul_right dayMicros d.date.ordinal_le
  have hlt := d.time.micros_lt
  rw [instant_utc h, Nat.cast_le, Nat.cast_lt, Nat.add_one_mul]
  omega

/-- The date-time at an instant is the one in UTC that names it. -/
theorem ofMicros?_eq_some_iff (micros : Int) (d : DateTime) :
    ofMicros? micros = some d ↔ d.offset = some .utc ∧ d.instant = start + micros := by
  refine ⟨spec_of_ofMicros?, fun ⟨ho, hi⟩ => ?_⟩
  obtain ⟨h1, h2⟩ := instant_bounds ho
  rw [hi] at h1 h2
  obtain ⟨e, he⟩ := exists_ofMicros? h1 h2
  obtain ⟨heo, hei⟩ := spec_of_ofMicros? he
  rw [he, eq_of_instant_eq ho heo (hi.trans hei.symm)]

end Epoch

end SchemaBinding.Calendar
