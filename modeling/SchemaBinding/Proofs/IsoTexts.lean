import Mathlib
import SchemaBinding.Calendar.Iso

/-!
# Reading what was written

What is written of a date, a time of day or an offset is read as the same, with one exception: an
offset of less than a second is read as none at all. Numbers are written with a fixed count of
digits, so that each part is read without looking at the next.
-/

namespace SchemaBinding.Calendar.Iso

open SchemaBinding.Text

/-! ### Digits -/

/-- The last decimal digits of a number. -/
def lastDigits : (width : Nat) → (n : Nat) → List Char
  | 0, _ => []
  | width + 1, n => lastDigits width (n / 10) ++ [Nat.digitChar (n % 10)]

/-- The last digits of a number are as many as are asked for. -/
@[simp]
theorem length_lastDigits (width n : Nat) : (lastDigits width n).length = width := by
  induction width generalizing n with
  | zero => rfl
  | succ width ih => rw [lastDigits, List.length_append, ih, List.length_singleton]

private theorem digitChar_spec {n : Nat} (h : n < 10) : isAsciiDigit n.digitChar = true ∧
    digitValue? n.digitChar = some n ∧ n.digitChar.utf8Size = 1 := by
  have hall : ∀ n < 10, isAsciiDigit n.digitChar = true ∧ digitValue? n.digitChar = some n ∧
      n.digitChar.utf8Size = 1 := by decide
  exact hall n h

private theorem exists_digitChar_of_mem {c : Char} {width n : Nat} (h : c ∈ lastDigits width n) :
    ∃ k < 10, c = Nat.digitChar k := by
  induction width generalizing n with
  | zero => exact absurd h List.not_mem_nil
  | succ width ih =>
    rcases List.mem_append.mp h with h | h
    · exact ih h
    · exact ⟨n % 10, Nat.mod_lt _ (by decide), List.mem_singleton.mp h⟩

private theorem isAsciiDigit_of_mem {c : Char} {width n : Nat} (h : c ∈ lastDigits width n) :
    isAsciiDigit c = true := by
  obtain ⟨k, hk, rfl⟩ := exists_digitChar_of_mem h
  exact (digitChar_spec hk).1

/-- The digits write the number, if they are enough. -/
theorem valueIn_lastDigits (width n : Nat) : valueIn 10 (lastDigits width n) = n % 10 ^ width := by
  induction width generalizing n with
  | zero => exact (Nat.mod_one n).symm
  | succ width ih =>
    rw [lastDigits, valueIn, List.foldl_append, ← valueIn, ih, List.foldl_cons, List.foldl_nil,
      (digitChar_spec (Nat.mod_lt n (by decide))).2.1, Option.getD_some, Nat.pow_succ',
      Nat.mod_mul]
    omega

private theorem lastDigits_zero (width : Nat) : lastDigits width 0 = List.replicate width '0' := by
  induction width with
  | zero => rfl
  | succ width ih =>
    rw [lastDigits, Nat.zero_div, ih, List.replicate_succ']
    rfl

/-- A number that is not too large is written with its last digits. -/
theorem padded_toList {width n : Nat} (hw : 0 < width) (h : n < 10 ^ width) :
    (padded width n).toList = lastDigits width n := by
  rw [padded, String.toList_ofList]
  induction width generalizing n with
  | zero => exact absurd hw (Nat.lt_irrefl 0)
  | succ width ih =>
    by_cases hn : n < 10
    · rw [Nat.toDigits_of_lt_base hn, lastDigits, Nat.div_eq_of_lt hn, Nat.mod_eq_of_lt hn,
        lastDigits_zero]
      rfl
    · have hlt : n / 10 < 10 ^ width := by
        rw [Nat.div_lt_iff_lt_mul (by decide), ← Nat.pow_succ]
        exact h
      have hpos : 0 < width := by
        rw [Nat.pos_iff_ne_zero]
        rintro rfl
        omega
      rw [Nat.toDigits_of_base_le (by decide) (Nat.le_of_not_lt hn), lastDigits, ← ih hpos hlt,
        List.length_append, List.length_singleton, Nat.add_sub_add_right, List.append_assoc]

private theorem readDigits_lastDigits {width n : Nat} (h : n < 10 ^ width) (rest : List Char) :
    readDigits width (lastDigits width n ++ rest) = some (n, rest) := by
  have htake : (lastDigits width n ++ rest).take width = lastDigits width n :=
    List.take_left' (length_lastDigits width n)
  have hdrop : (lastDigits width n ++ rest).drop width = rest :=
    List.drop_left' (length_lastDigits width n)
  rw [readDigits, htake, hdrop, if_pos ⟨length_lastDigits width n, List.all_eq_true.mpr fun c =>
    isAsciiDigit_of_mem⟩, valueIn_lastDigits, Nat.mod_eq_of_lt h]

/-- The character after the digits is the first one of the rest. -/
theorem getElem?_lastDigits_append (width n : Nat) (rest : List Char) (i : Nat) :
    (lastDigits width n ++ rest)[width + i]? = rest[i]? := by
  rw [List.getElem?_append_right (by simp), length_lastDigits, Nat.add_sub_cancel_left]

/-- A number is written with a digit in front. -/
theorem exists_cons_lastDigits (width n : Nat) (rest : List Char) :
    ∃ k < 10, ∃ cs, lastDigits (width + 1) n ++ rest = Nat.digitChar k :: cs := by
  cases h : lastDigits (width + 1) n with
  | nil =>
    have := length_lastDigits (width + 1) n
    rw [h] at this
    cases this
  | cons c cs =>
    have hc : c ∈ lastDigits (width + 1) n := h ▸ List.mem_cons_self ..
    obtain ⟨k, hk, rfl⟩ := exists_digitChar_of_mem hc
    exact ⟨k, hk, cs ++ rest, rfl⟩

/-! ### Lengths -/

private theorem byteLength_append (cs ds : List Char) :
    byteLength (cs ++ ds) = byteLength cs + byteLength ds := by
  induction cs with
  | nil => exact (Nat.zero_add _).symm
  | cons c cs ih =>
    change c.utf8Size + byteLength (cs ++ ds) = c.utf8Size + byteLength cs + byteLength ds
    rw [ih, Nat.add_assoc]

/-- Characters of one byte each are as many bytes. -/
theorem byteLength_eq_length {cs : List Char} (h : ∀ c ∈ cs, c.utf8Size = 1) :
    byteLength cs = cs.length := by
  induction cs with
  | nil => rfl
  | cons c cs ih =>
    change c.utf8Size + byteLength cs = cs.length + 1
    rw [h c (List.mem_cons_self ..), ih fun d hd => h d (List.mem_cons_of_mem c hd), Nat.add_comm]

/-! ### Dates -/

/-- The characters of a date. -/
def dateChars (d : Date) : List Char :=
  lastDigits 4 d.year ++ '-' :: (lastDigits 2 d.month ++ '-' :: lastDigits 2 d.day)

private theorem Date.bounds (d : Date) : d.year < 10 ^ 4 ∧ d.month < 10 ^ 2 ∧ d.day < 10 ^ 2 := by
  obtain ⟨-, hy, -, hm, -, hd⟩ := d.isDate
  have hdays : daysInMonth d.year d.month ≤ 31 := by
    rw [daysInMonth]
    split
    · split <;> omega
    · split
      · omega
      · split <;> omega
  omega

/-- The characters of a date are its year, month and day with hyphens. -/
theorem dateText_toList (d : Date) : (dateText d).toList = dateChars d := by
  obtain ⟨hy, hm, hd⟩ := Date.bounds d
  simp only [dateText, String.toList_append, padded_toList (by decide) hy,
    padded_toList (by decide) hm, padded_toList (by decide) hd, List.append_assoc]
  rfl

private theorem readMonthDay_lastDigits {month day : Nat} (hm : month < 10 ^ 2) (hd : day < 10 ^ 2)
    (year : Nat) (rest : List Char) :
    readMonthDay year true (lastDigits 2 month ++ '-' :: (lastDigits 2 day ++ rest)) =
      Date.ofParts? year month day := by
  rw [readMonthDay, readDigits_lastDigits hm, Option.bind_some]
  change (readDigits 2 (lastDigits 2 day ++ rest)).bind _ = _
  rw [readDigits_lastDigits hd, Option.bind_some]

/-- The characters of a date are read as that date, whatever follows. -/
theorem readDatePart_dateChars (length : Nat) (d : Date) (rest : List Char) :
    readDatePart length (dateChars d ++ rest) = some d := by
  obtain ⟨hy, hm, hd⟩ := Date.bounds d
  obtain ⟨k, hk, cs, hcs⟩ := exists_cons_lastDigits 1 d.month
    ('-' :: (lastDigits 2 d.day ++ rest))
  have hc := (digitChar_spec hk).1
  generalize Nat.digitChar k = c at hc hcs
  have hmonth := readMonthDay_lastDigits hm hd d.year rest
  rw [dateChars, readDatePart, List.append_assoc, readDigits_lastDigits hy, Option.bind_some,
    List.cons_append, List.append_assoc, List.cons_append]
  dsimp only
  rw [hcs] at hmonth ⊢
  split
  · next h =>
    cases h
    cases hc
  · change readMonthDay d.year true (c :: cs) = some d
    rw [hmonth]
    exact dif_pos d.isDate

private theorem utf8Size_of_mem_lastDigits {width n : Nat} {c : Char} (h : c ∈ lastDigits width n) :
    c.utf8Size = 1 := by
  obtain ⟨k, hk, rfl⟩ := exists_digitChar_of_mem h
  exact (digitChar_spec hk).2.2

private theorem utf8Size_of_mem_dateChars {d : Date} {c : Char} (h : c ∈ dateChars d) :
    c.utf8Size = 1 := by
  simp only [dateChars, List.mem_append, List.mem_cons] at h
  rcases h with h | rfl | h | rfl | h
  · exact utf8Size_of_mem_lastDigits h
  · rfl
  · exact utf8Size_of_mem_lastDigits h
  · rfl
  · exact utf8Size_of_mem_lastDigits h

private theorem byteLength_dateChars (d : Date) (rest : List Char) :
    byteLength (dateChars d ++ rest) = 10 + byteLength rest := by
  have hlength : (dateChars d).length = 10 := by
    simp [dateChars]
  rw [byteLength_append, byteLength_eq_length fun c => utf8Size_of_mem_dateChars, hlength]

/-- A date with separators ends after ten characters. -/
theorem dateEnd_dateChars (d : Date) (rest : List Char) : dateEnd (dateChars d ++ rest) = 10 := by
  have hlength := byteLength_dateChars d rest
  obtain ⟨k, hk, cs, hcs⟩ := exists_cons_lastDigits 1 d.month
    ('-' :: (lastDigits 2 d.day ++ rest))
  have hc := (digitChar_spec hk).1
  generalize Nat.digitChar k = c at hc hcs
  have hchars : dateChars d ++ rest = lastDigits 4 d.year ++ '-' :: c :: cs := by
    rw [dateChars, List.append_assoc, List.cons_append, List.append_assoc, List.cons_append, ← hcs]
  have hdash : (dateChars d ++ rest)[4]? = some '-' := by
    rw [hchars]
    exact getElem?_lastDigits_append 4 d.year _ 0
  have hmonth : (dateChars d ++ rest)[5]? = some c := by
    rw [hchars]
    exact getElem?_lastDigits_append 4 d.year _ 1
  have hweek : ¬ (some c == some 'W') = true := by
    rw [beq_iff_eq, Option.some.injEq]
    rintro rfl
    cases hc
  rw [dateEnd, if_neg (by omega), hdash, hmonth, if_pos (by rfl), if_neg hweek]

/-- The characters of a date alone are read as that date. -/
theorem readDate_dateChars (d : Date) : readDate (dateChars d) = some d := by
  have hlength := byteLength_dateChars d []
  have hread := readDatePart_dateChars 10 d []
  rw [List.append_nil] at hlength hread
  rw [readDate, hlength]
  exact hread

/-- A date with a time is too long for a date alone. -/
theorem readDate_append {d : Date} {rest : List Char} (h : rest ≠ []) :
    readDate (dateChars d ++ rest) = none := by
  have hpos : 0 < byteLength rest := by
    cases rest with
    | nil => exact absurd rfl h
    | cons c cs => exact Nat.add_pos_left c.utf8Size_pos _
  rw [readDate, byteLength_dateChars]
  exact if_neg (by omega)

/-! ### Clocks -/

/-- The characters of a fraction of a second. -/
def fractionChars (micros : Nat) : List Char :=
  if micros = 0 then [] else '.' :: lastDigits 6 micros

/-- The characters of hours, minutes and seconds. -/
def clockChars (hour minute second micros : Nat) : List Char :=
  lastDigits 2 hour ++ ':' :: (lastDigits 2 minute ++ ':' ::
    (lastDigits 2 second ++ fractionChars micros))

section Units

variable {n left room : Nat} (units : List Nat) (rest : List Char)

/-- A unit that ends its room is the last one. -/
theorem readUnits_last (hn : n < 10 ^ 2) (colons : Option Bool) (hr : room ≤ 3) :
    readUnits (left + 1) units colons room (lastDigits 2 n ++ rest) =
      some (clockOf (units ++ [n]) 0 (front rest != '\x00')) := by
  rw [readUnits, readDigits_lastDigits hn, Option.bind_some]
  exact if_pos hr

/-- After a unit and a colon the next unit is read. -/
theorem readUnits_colon (hn : n < 10 ^ 2) {colons : Option Bool} (hc : colons.getD true = true)
    (hr : 3 < room) :
    readUnits (left + 1) units colons room (lastDigits 2 n ++ ':' :: rest) =
      readUnits left (units ++ [n]) (some true) (room - 3) rest := by
  have hcolons : colons.getD (':' == ':') = true := hc
  rw [readUnits, readDigits_lastDigits hn, Option.bind_some]
  change (if room ≤ 3 then _ else if (colons.getD (':' == ':') && ':' == ':') = true then _
    else _) = _
  rw [if_neg (by omega), if_pos (by rw [hcolons]; rfl)]
  change readUnits left _ (some (colons.getD (':' == ':'))) _ rest = _
  rw [hcolons]

/-- After a unit and a point the fraction is read. -/
theorem readUnits_point (hn : n < 10 ^ 2) (colons : Option Bool) (hr : 3 < room) :
    readUnits (left + 1) units colons room (lastDigits 2 n ++ '.' :: rest) =
      readFraction (units ++ [n]) (room - 3) rest := by
  rw [readUnits, readDigits_lastDigits hn, Option.bind_some]
  change (if room ≤ 3 then _ else if (colons.getD ('.' == ':') && '.' == ':') = true then _
    else _) = _
  rw [if_neg (by omega), Bool.and_comm]
  rfl

end Units

private theorem readFraction_lastDigits {micros : Nat} (h : micros < 10 ^ 6) (units : List Nat)
    (rest : List Char) :
    readFraction units 6 (lastDigits 6 micros ++ rest) =
      some (clockOf units micros (front (rest.dropWhile isAsciiDigit) != '\x00')) := by
  rw [readFraction, Nat.min_self, readDigits_lastDigits h, Option.map_some, Nat.sub_self]
  change some (clockOf units (micros * 1) _) = _
  rw [Nat.mul_one]

section Clock

variable {hour minute second micros : Nat} (rest : List Char)

private theorem length_clockChars (hour minute second micros : Nat) :
    (clockChars hour minute second micros).length = if micros = 0 then 8 else 15 := by
  rw [clockChars, fractionChars]
  split <;> simp

/-- The characters of a clock are read as its units, whatever follows. -/
theorem readClock_clockChars (hh : hour < 10 ^ 2) (hm : minute < 10 ^ 2) (hs : second < 10 ^ 2)
    (hu : micros < 10 ^ 6) :
    ∃ leftover, readClock (clockChars hour minute second micros).length
        (clockChars hour minute second micros ++ rest) =
      some ⟨hour, minute, second, micros, leftover⟩ ∧ (rest = [] → leftover = false) := by
  rw [length_clockChars, readClock, clockChars, List.append_assoc, List.cons_append,
    List.append_assoc, List.cons_append, List.append_assoc, fractionChars]
  by_cases hz : micros = 0
  · rw [if_pos hz, if_pos hz, readUnits_colon _ _ hh rfl (by decide),
      readUnits_colon _ _ hm rfl (by decide), readUnits_last _ _ hs _ (by decide), hz]
    refine ⟨_, rfl, ?_⟩
    rintro rfl
    rfl
  · rw [if_neg hz, if_neg hz, readUnits_colon _ _ hh rfl (by decide),
      readUnits_colon _ _ hm rfl (by decide), List.cons_append,
      readUnits_point _ _ hs _ (by decide), readFraction_lastDigits hu]
    refine ⟨_, rfl, ?_⟩
    rintro rfl
    rfl

/-- Hours and minutes alone are read as such. -/
theorem readClock_minutes (hh : hour < 10 ^ 2) (hm : minute < 10 ^ 2) :
    readClock 5 (lastDigits 2 hour ++ ':' :: lastDigits 2 minute) =
      some ⟨hour, minute, 0, 0, false⟩ := by
  have hlast : readUnits 2 [hour] (some true) 2 (lastDigits 2 minute ++ []) = _ :=
    readUnits_last [hour] [] hm (some true) (by decide)
  rw [List.append_nil] at hlast
  rw [readClock, readUnits_colon _ _ hh rfl (by decide), List.nil_append]
  exact hlast

end Clock

private theorem fractionText_toList {micros : Nat} (h : micros < 10 ^ 6) :
    (fractionText micros).toList = fractionChars micros := by
  rw [fractionText, fractionChars]
  split
  · rfl
  · rw [String.toList_append, padded_toList (by decide) h]
    rfl

private theorem mem_clockChars {hour minute second micros : Nat} {c : Char}
    (h : c ∈ clockChars hour minute second micros) :
    (∃ k < 10, c = Nat.digitChar k) ∨ c = ':' ∨ c = '.' := by
  simp only [clockChars, List.mem_append, List.mem_cons] at h
  rcases h with h | h | h | h | h | h
  · exact .inl (exists_digitChar_of_mem h)
  · exact .inr (.inl h)
  · exact .inl (exists_digitChar_of_mem h)
  · exact .inr (.inl h)
  · exact .inl (exists_digitChar_of_mem h)
  · rw [fractionChars] at h
    split at h
    · exact absurd h List.not_mem_nil
    · rcases List.mem_cons.mp h with h | h
      · exact .inr (.inr h)
      · exact .inl (exists_digitChar_of_mem h)

/-- A clock has one byte for each character, and no character that starts an offset. -/
theorem of_mem_clockChars {hour minute second micros : Nat} {c : Char}
    (h : c ∈ clockChars hour minute second micros) :
    c.utf8Size = 1 ∧ startsOffset c = false := by
  have hdigit : ∀ k < 10, startsOffset (Nat.digitChar k) = false := by decide
  rcases mem_clockChars h with ⟨k, hk, rfl⟩ | rfl | rfl
  · exact ⟨(digitChar_spec hk).2.2, hdigit k hk⟩
  · exact ⟨rfl, rfl⟩
  · exact ⟨rfl, rfl⟩

/-! ### Offsets -/

/-- The offset as which an offset is read back: one of less than a second is lost. -/
def kept (o : Offset) : Offset := if o.micros.natAbs < 1000000 then .utc else o

/-- The characters of an offset after its sign. -/
def unsignedChars (n : Nat) : List Char :=
  if n % 60000000 = 0 then
    lastDigits 2 (n / 1000000 / 3600) ++ ':' :: lastDigits 2 (n / 1000000 / 60 % 60)
  else
    clockChars (n / 1000000 / 3600) (n / 1000000 / 60 % 60) (n / 1000000 % 60) (n % 1000000)

/-- The characters of an offset. -/
def offsetChars (o : Offset) : List Char :=
  (if o.micros < 0 then '-' else '+') :: unsignedChars o.micros.natAbs

private theorem offsetText_toList (o : Offset) : (offsetText o).toList = offsetChars o := by
  have hlt := o.lt_day
  rw [offsetText, offsetChars, unsignedChars]
  generalize o.micros.natAbs = n at *
  have hh : n / 1000000 / 3600 < 10 ^ 2 := by omega
  have hm : n / 1000000 / 60 % 60 < 10 ^ 2 := by omega
  have hs : n / 1000000 % 60 < 10 ^ 2 := by omega
  have hu : n % 1000000 < 10 ^ 6 := by omega
  have hsign : (if o.micros < 0 then "-" else "+" : String).toList =
      [if o.micros < 0 then '-' else '+'] := by
    split <;> rfl
  simp only [String.toList_append, padded_toList (by decide) hh, padded_toList (by decide) hm,
    hsign]
  by_cases hz : n % 60000000 = 0
  · rw [if_pos hz, if_pos hz]
    simp
  · rw [if_neg hz, if_neg hz]
    simp only [String.toList_append, padded_toList (by decide) hs, fractionText_toList hu,
      clockChars]
    simp

/-- The units of an offset name it, if they have a whole second. -/
theorem offsetOf_units {o : Offset} {hour minute second micros : Nat} (leftover : Bool)
    (h : ((hour * 60 + minute) * 60 + second) * 1000000 + micros = o.micros.natAbs)
    (hu : micros < 1000000) :
    offsetOf (o.micros < 0) ⟨hour, minute, second, micros, leftover⟩ = some (kept o) := by
  have hlt := o.lt_day
  rw [offsetOf, kept]
  dsimp only
  by_cases hz : hour * 3600 + minute * 60 + second = 0
  · rw [if_pos hz, if_pos (by omega)]
  · have hmicros : (if decide (o.micros < 0) = true then
        -(((hour * 3600 + minute * 60 + second) * 1000000 + micros : Nat) : Int)
      else (((hour * 3600 + minute * 60 + second) * 1000000 + micros : Nat) : Int)) = o.micros := by
      simp only [decide_eq_true_eq]
      split <;> omega
    have hbig : ¬ o.micros.natAbs < 1000000 := by omega
    rw [if_neg hz, if_neg hbig, hmicros]
    exact dif_pos hlt

private theorem readOffset_sign (negative : Bool) (rest : List Char) :
    readOffset ((if negative then '-' else '+') :: rest) =
      (readClock (byteLength rest) rest).bind fun c =>
        if c.leftover then none else offsetOf negative c := by
  cases negative <;> rfl

private theorem readClock_unsignedChars {n : Nat} (h : n < 86400000000) :
    readClock (byteLength (unsignedChars n)) (unsignedChars n) =
      some ⟨n / 1000000 / 3600, n / 1000000 / 60 % 60, n / 1000000 % 60, n % 1000000, false⟩ := by
  have hh : n / 1000000 / 3600 < 10 ^ 2 := by omega
  have hm : n / 1000000 / 60 % 60 < 10 ^ 2 := by omega
  have hs : n / 1000000 % 60 < 10 ^ 2 := by omega
  have hu : n % 1000000 < 10 ^ 6 := by omega
  rw [unsignedChars]
  split
  · next hz =>
    have hbytes : byteLength (lastDigits 2 (n / 1000000 / 3600) ++
        ':' :: lastDigits 2 (n / 1000000 / 60 % 60)) = 5 := by
      rw [byteLength_eq_length]
      · simp
      · intro c hc
        rcases List.mem_append.mp hc with hc | hc
        · exact utf8Size_of_mem_lastDigits hc
        · rcases List.mem_cons.mp hc with rfl | hc
          · rfl
          · exact utf8Size_of_mem_lastDigits hc
    have hs0 : n / 1000000 % 60 = 0 := by omega
    have hu0 : n % 1000000 = 0 := by omega
    rw [hbytes, readClock_minutes hh hm, hs0, hu0]
  · obtain ⟨leftover, hread, hleft⟩ := readClock_clockChars [] hh hm hs hu
    rw [List.append_nil, hleft rfl] at hread
    rw [byteLength_eq_length fun c hc => (of_mem_clockChars hc).1]
    exact hread

/-- The characters of an offset are read as that offset, or as none if it is less than a second. -/
theorem readOffset_offsetChars (o : Offset) : readOffset (offsetChars o) = some (kept o) := by
  have hlt := o.lt_day
  have hsign := readOffset_sign (o.micros < 0) (unsignedChars o.micros.natAbs)
  simp only [decide_eq_true_eq] at hsign
  rw [offsetChars, hsign, readClock_unsignedChars hlt, Option.bind_some]
  dsimp only
  rw [if_neg Bool.false_ne_true]
  exact offsetOf_units _ (by omega) (Nat.mod_lt _ (by decide))

/-! ### Date-times -/

/-- The characters of the offset of a date-time, none if it is naive. -/
def zoneChars : Option Offset → List Char
  | none => []
  | some o => offsetChars o

/-- The characters of a date-time. -/
def dateTimeChars (d : DateTime) : List Char :=
  dateChars d.date ++ 'T' ::
    (clockChars d.time.hour d.time.minute d.time.second d.time.micro ++ zoneChars d.offset)

/-- The characters of a time are those of its clock. -/
theorem timeText_toList (t : Time) :
    (timeText t).toList = clockChars t.hour t.minute t.second t.micro := by
  have hh := t.hour.isLt
  have hm := t.minute.isLt
  have hs := t.second.isLt
  have hu := t.micro.isLt
  have htwo : ∀ n < 10 ^ 2, (padded 2 n).toList = lastDigits 2 n :=
    fun n hn => padded_toList (by decide) hn
  simp only [timeText, String.toList_append, htwo _ (by omega : t.hour.val < 10 ^ 2),
    htwo _ (by omega : t.minute.val < 10 ^ 2), htwo _ (by omega : t.second.val < 10 ^ 2),
    fractionText_toList hu, clockChars]
  simp

/-- The characters of a date-time are those of its date, its time and its offset. -/
theorem dateTimeText_toList (d : DateTime) : (dateTimeText d).toList = dateTimeChars d := by
  have hzone : ((d.offset.map offsetText).getD "").toList = zoneChars d.offset := by
    cases d.offset with
    | none => rfl
    | some o => exact offsetText_toList o
  simp only [dateTimeText, String.toList_append, dateText_toList, timeText_toList, hzone,
    dateTimeChars]
  simp

private theorem ofParts?_time (t : Time) :
    Time.ofParts? t.hour t.minute t.second t.micro = some t :=
  dif_pos ⟨t.hour.isLt, t.minute.isLt, t.second.isLt, t.micro.isLt⟩

/-- A time and a zone are told apart where the zone starts. -/
theorem takeWhile_clockChars (t : Time) (o : Option Offset) :
    (clockChars t.hour t.minute t.second t.micro ++ zoneChars o).takeWhile
      (fun c => !startsOffset c) = clockChars t.hour t.minute t.second t.micro := by
  have hclock : ∀ c ∈ clockChars t.hour t.minute t.second t.micro, (!startsOffset c) = true := by
    intro c hc
    rw [(of_mem_clockChars hc).2]
    rfl
  rw [List.takeWhile_append_of_pos hclock]
  cases o with
  | none => exact List.append_nil _
  | some o =>
    rw [zoneChars, offsetChars, List.takeWhile_cons_of_neg, List.append_nil]
    split <;> decide

private theorem readTime_clockChars (t : Time) (o : Option Offset) :
    readTime (clockChars t.hour t.minute t.second t.micro ++ zoneChars o) =
      some (t, o.map kept) := by
  have hh := t.hour.isLt
  have hm := t.minute.isLt
  have hs := t.second.isLt
  have hclock := readClock_clockChars (zoneChars o) (by omega : t.hour.val < 10 ^ 2)
    (by omega : t.minute.val < 10 ^ 2) (by omega : t.second.val < 10 ^ 2) t.micro.isLt
  obtain ⟨leftover, hread, hleft⟩ := hclock
  rw [readTime, takeWhile_clockChars, List.drop_left,
    byteLength_eq_length fun c hc => (of_mem_clockChars hc).1, hread, Option.bind_some,
    ofParts?_time, Option.bind_some]
  cases o with
  | none =>
    rw [hleft rfl]
    rfl
  | some o =>
    change (readOffset (offsetChars o)).map _ = _
    rw [readOffset_offsetChars]
    rfl

/-- The characters of a date-time are read as that date-time, but an offset of less than a second is
lost. -/
theorem readDateTime_dateTimeChars (d : DateTime) :
    readDateTime (dateTimeChars d) = some { d with offset := d.offset.map kept } := by
  have hlength : (dateChars d.date).length = 10 := by
    simp [dateChars]
  rw [readDateTime, dateTimeChars]
  dsimp only
  rw [dateEnd_dateChars, readDatePart_dateChars, Option.bind_some, List.drop_left' hlength]
  change (readTime _).map _ = _
  rw [readTime_clockChars]
  rfl

/-- The characters of a date are read as its midnight. -/
theorem readDateTime_dateChars (d : Date) :
    readDateTime (dateChars d) = some ⟨d, .midnight, none⟩ := by
  have hlength : (dateChars d).length = 10 := by
    simp [dateChars]
  have hend := dateEnd_dateChars d []
  have hread := readDatePart_dateChars 10 d []
  rw [List.append_nil] at hend hread
  rw [readDateTime]
  dsimp only
  rw [hend, hread, Option.bind_some, List.drop_of_length_le hlength.le]

end SchemaBinding.Calendar.Iso
