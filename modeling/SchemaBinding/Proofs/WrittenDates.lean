import SchemaBinding.Kind.Conversion
import SchemaBinding.Proofs.IsoTexts

/-!
# Dates that were written

Where a date is asked for, a text that was written of a date or a date-time is read as what it was
written of: blanks around it do not matter, and neither does the letter that stands for an offset of
zero. Only an offset of less than a second is lost.
-/

namespace SchemaBinding

open Calendar Calendar.Iso Text

/-! ### Blanks and the offset zero -/

/-- A text is another one with blanks around it, in which the letter Z of either case may stand for
an offset of zero at the end. -/
def Rewrites (text s : String) : Prop :=
  ∃ before core after, s.toList = before ++ core ++ after ∧
    (∀ c ∈ before, isBlank c = true) ∧ (∀ c ∈ after, isBlank c = true) ∧
    (core = text.toList ∨ ∃ front z, (z = 'Z' ∨ z = 'z') ∧
      text.toList = front ++ "+00:00".toList ∧ core = front ++ [z])

/-- Characters end with a digit. -/
def EndsInDigit (cs : List Char) : Prop := ∃ front k, k < 10 ∧ cs = front ++ [Nat.digitChar k]

/-- Characters begin and end with a digit. -/
structure Framed (cs : List Char) : Prop where
  starts : ∃ k rest, k < 10 ∧ cs = Nat.digitChar k :: rest
  ends : EndsInDigit cs

private theorem isBlank_digitChar {k : Nat} (h : k < 10) : isBlank (Nat.digitChar k) = false := by
  have hall : ∀ k < 10, isBlank (Nat.digitChar k) = false := by decide
  exact hall k h

/-- Blanks around characters that are none are taken away. -/
theorem stripList_append {before core after : List Char} {first last : Char}
    (hb : ∀ c ∈ before, isBlank c = true) (ha : ∀ c ∈ after, isBlank c = true)
    (hf : core.head? = some first) (hl : core.getLast? = some last)
    (hfirst : isBlank first = false) (hlast : isBlank last = false) :
    stripList (before ++ core ++ after) = core := by
  obtain ⟨rest, rfl⟩ := List.head?_eq_some_iff.mp hf
  obtain ⟨front, hfront⟩ := List.getLast?_eq_some_iff.mp hl
  have hleft : (before ++ (first :: rest) ++ after).dropWhile isBlank =
      (first :: rest) ++ after := by
    rw [List.append_assoc, List.dropWhile_append_of_pos hb, List.cons_append,
      List.dropWhile_cons_of_neg (by rw [hfirst]; exact Bool.false_ne_true)]
  rw [stripList, hleft, List.reverse_append, List.dropWhile_append_of_pos
    (fun c hc => ha c (List.mem_reverse.mp hc)), hfront, List.reverse_append,
    List.reverse_singleton, List.singleton_append,
    List.dropWhile_cons_of_neg (by rw [hlast]; exact Bool.false_ne_true), ← List.singleton_append,
    ← List.reverse_singleton, ← List.reverse_append, List.reverse_reverse,
    List.reverse_singleton]

private theorem expandZulu_digit (front : List Char) {k : Nat} (h : k < 10) :
    Moment.expandZulu (front ++ [Nat.digitChar k]) = front ++ [Nat.digitChar k] := by
  have hall : ∀ k < 10, Nat.digitChar k ≠ 'Z' ∧ Nat.digitChar k ≠ 'z' := by decide
  obtain ⟨hu, hl⟩ := hall k h
  rw [Moment.expandZulu, List.getLast?_concat]
  split
  · next he => exact absurd (Option.some.inj he) hu
  · next he => exact absurd (Option.some.inj he) hl
  · rfl

private theorem expandZulu_letter (front : List Char) {z : Char} (h : z = 'Z' ∨ z = 'z') :
    Moment.expandZulu (front ++ [z]) = front ++ "+00:00".toList := by
  rw [Moment.expandZulu, List.getLast?_concat, List.dropLast_concat]
  rcases h with rfl | rfl <;> rfl

/-- A moment that characters write, where a date or a date-time is asked for. -/
def momentOf (target : DateTarget) (cs : List Char) : Option Moment :=
  match target with
  | .dateTime => (readDateTime cs).map .dateTime
  | .date =>
    match readDate cs with
    | some d => some (.date d)
    | none => (readDateTime cs).map .dateTime

/-- A text is read without the blanks around it, and with its offset zero in digits. -/
theorem ofText_eq {target : DateTarget} {s : String} {core : List Char}
    (hs : stripList s.toList = core) (hne : core ≠ []) :
    Moment.ofText target s = momentOf target (Moment.expandZulu core) := by
  rw [Moment.ofText, hs]
  exact if_neg fun h => hne (List.isEmpty_iff.mp h)

/-- A rewritten text is read as the text itself. -/
theorem ofText_of_rewrites {text s : String} (hs : Rewrites text s) (hf : Framed text.toList)
    (target : DateTarget) : Moment.ofText target s = momentOf target text.toList := by
  obtain ⟨before, core, after, he, hb, ha, hcore⟩ := hs
  obtain ⟨⟨j, rest, hj, hfirst⟩, front, k, hk, hlast⟩ := hf
  rcases hcore with rfl | ⟨front', z, hz, htext, rfl⟩
  · have hstrip : stripList s.toList = text.toList := by
      rw [he]
      exact stripList_append hb ha (by rw [hfirst]; rfl) (by rw [hlast, List.getLast?_concat])
        (isBlank_digitChar hj) (isBlank_digitChar hk)
    rw [ofText_eq hstrip (by rw [hfirst]; exact List.cons_ne_nil _ _), hlast,
      expandZulu_digit front hk]
  · have hhead : (front' ++ [z]).head? = some (Nat.digitChar j) := by
      cases front' with
      | nil =>
        have hsign : ∀ j < 10, Nat.digitChar j ≠ '+' := by decide
        rw [htext] at hfirst
        exact absurd (List.cons.inj hfirst).1.symm (hsign j hj)
      | cons c cs =>
        rw [htext] at hfirst
        rw [List.cons_append, List.head?_cons, (List.cons.inj hfirst).1]
    have hblank : isBlank z = false := by
      rcases hz with rfl | rfl <;> decide
    have hstrip : stripList s.toList = front' ++ [z] := by
      rw [he]
      exact stripList_append hb ha hhead (List.getLast?_concat ..) (isBlank_digitChar hj) hblank
    rw [ofText_eq hstrip (List.append_ne_nil_of_right_ne_nil _ (List.cons_ne_nil z [])),
      expandZulu_letter front' hz, htext]

/-! ### What is written begins and ends with a digit -/

private theorem endsInDigit_lastDigits (width n : Nat) : EndsInDigit (lastDigits (width + 1) n) :=
  ⟨_, _, Nat.mod_lt n (by decide), rfl⟩

/-- What ends with a digit does so with more in front of it. -/
theorem EndsInDigit.append {cs : List Char} (h : EndsInDigit cs) (ds : List Char) :
    EndsInDigit (ds ++ cs) := by
  obtain ⟨front, k, hk, rfl⟩ := h
  exact ⟨ds ++ front, k, hk, (List.append_assoc ..).symm⟩

/-- What ends with a digit does so with a character in front of it. -/
theorem EndsInDigit.cons {cs : List Char} (h : EndsInDigit cs) (c : Char) :
    EndsInDigit (c :: cs) := h.append [c]

private theorem endsInDigit_clockChars (hour minute second micros : Nat) :
    EndsInDigit (clockChars hour minute second micros) := by
  refine .append (.cons (.append (.cons ?_ _) _) _) _
  rw [fractionChars]
  split
  · rw [List.append_nil]
    exact endsInDigit_lastDigits 1 second
  · exact .append (.cons (endsInDigit_lastDigits 5 micros) _) _

private theorem endsInDigit_offsetChars (o : Offset) : EndsInDigit (offsetChars o) := by
  refine .cons ?_ _
  rw [unsignedChars]
  split
  · exact .append (.cons (endsInDigit_lastDigits 1 _) _) _
  · exact endsInDigit_clockChars _ _ _ _

private theorem framed_dateChars (d : Date) : Framed (dateChars d) := by
  obtain ⟨k, hk, rest, hrest⟩ := exists_cons_lastDigits 3 d.year
    ('-' :: (lastDigits 2 d.month ++ '-' :: lastDigits 2 d.day))
  exact ⟨⟨k, rest, hk, hrest⟩,
    .append (.cons (.append (.cons (endsInDigit_lastDigits 1 _) _) _) _) _⟩

private theorem framed_dateTimeChars (d : DateTime) : Framed (dateTimeChars d) := by
  obtain ⟨⟨k, rest, hk, hrest⟩, -⟩ := framed_dateChars d.date
  refine ⟨⟨k, _, hk, by rw [dateTimeChars, hrest, List.cons_append]⟩, .append (.cons ?_ _) _⟩
  cases d.offset with
  | none =>
    rw [zoneChars, List.append_nil]
    exact endsInDigit_clockChars _ _ _ _
  | some o => exact (endsInDigit_offsetChars o).append _

/-! ### Dates and date-times are read as they were written -/

private theorem parseDate_str (s : String) (target : DateTarget) :
    parseDate (.str s) target = .ok ((Moment.ofText target s).map (Moment.toValue target)) := rfl

/-- A written date-time is read as itself, but an offset of less than a second is lost. -/
theorem ofText_dateTimeText {d : DateTime} {s : String} (h : Rewrites (dateTimeText d) s)
    (target : DateTarget) :
    Moment.ofText target s = some (.dateTime { d with offset := d.offset.map kept }) := by
  rw [ofText_of_rewrites h (by rw [dateTimeText_toList]; exact framed_dateTimeChars d),
    dateTimeText_toList]
  have hread := readDateTime_dateTimeChars d
  cases target with
  | dateTime => rw [momentOf, hread, Option.map_some]
  | date =>
    have hdate : readDate (dateTimeChars d) = none := readDate_append (List.cons_ne_nil _ _)
    rw [momentOf, hdate, hread, Option.map_some]

private theorem ofText_dateText {e : Date} {s : String} (h : Rewrites (dateText e) s) :
    Moment.ofText .date s = some (.date e) ∧
      Moment.ofText .dateTime s = some (.dateTime ⟨e, .midnight, none⟩) := by
  have hframed : Framed (dateText e).toList := by
    rw [dateText_toList]
    exact framed_dateChars e
  have hdate := readDate_dateChars e
  have hdateTime := readDateTime_dateChars e
  rw [ofText_of_rewrites h hframed, ofText_of_rewrites h hframed, dateText_toList]
  exact ⟨by rw [momentOf, hdate], by rw [momentOf, hdateTime, Option.map_some]⟩

/-- A text is itself, written without blanks and with its offset in digits. -/
theorem Rewrites.refl (s : String) : Rewrites s s :=
  ⟨[], s.toList, [], (List.append_nil _).symm, nofun, nofun, .inl rfl⟩

/-- The date-time of an offset that is less than a second. -/
def barelyAhead : DateTime :=
  ⟨⟨2024, 3, 1, by decide⟩, ⟨⟨12, by decide⟩, ⟨30, by decide⟩, ⟨15, by decide⟩, ⟨250, by decide⟩⟩,
    some ⟨1, by decide⟩⟩

/-- A written date-time is not always read as itself: the offset of a microsecond is lost. -/
theorem parseDate_barelyAhead :
    dateTimeText barelyAhead = "2024-03-01T12:30:15.000250+00:00:00.000001" ∧
      parseDate (.str (dateTimeText barelyAhead)) .dateTime =
        .ok (some (.dateTime { barelyAhead with offset := some .utc })) ∧
      parseDate (.str (dateTimeText barelyAhead)) .dateTime ≠
        .ok (some (.dateTime barelyAhead)) := by
  have hread : parseDate (.str (dateTimeText barelyAhead)) .dateTime =
      .ok (some (.dateTime { barelyAhead with offset := some .utc })) := by
    rw [parseDate_str, ofText_dateTimeText (.refl _)]
    rfl
  refine ⟨by decide +kernel, hread, fun h => ?_⟩
  rw [hread] at h
  have heq : { barelyAhead with offset := some .utc } = barelyAhead := by
    injection h with h
    injection h with h
    injection h
  revert heq
  decide

/-- The zero is read as no offset either way. -/
theorem kept_eq (o : Offset) :
    kept o = if 0 < o.micros.natAbs ∧ o.micros.natAbs < 1000000 then .utc else o := by
  rw [kept]
  by_cases hz : o.micros = 0
  · have ho : o = .utc := by
      cases o
      cases hz
      rfl
    rw [if_pos (by omega), if_neg (by omega), ho]
  · by_cases hlt : o.micros.natAbs < 1000000
    · rw [if_pos hlt, if_pos ⟨by omega, hlt⟩]
    · rw [if_neg hlt, if_neg fun h => hlt h.2]

/-- A text written of a date-time with an offset is read as that date-time, with the offset unless
it is less than a second and not zero, when it is read as none; of a naive date-time, as the
date-time in UTC; and where a date is asked for, as the local date. A text written of a date is read
as that date, and where a date-time is asked for as its midnight in UTC. Blanks around the text, and
the letter Z for an offset of zero, change nothing. -/
theorem parseDate_written (s : String) :
    (∀ (date : Date) (time : Time) (o : Offset),
      Rewrites (dateTimeText ⟨date, time, some o⟩) s →
        parseDate (.str s) .dateTime =
          .ok (some (.dateTime ⟨date, time,
            some (if 0 < o.micros.natAbs ∧ o.micros.natAbs < 1000000 then .utc else o)⟩)) ∧
        parseDate (.str s) .date = .ok (some (.date date))) ∧
    (∀ (date : Date) (time : Time), Rewrites (dateTimeText ⟨date, time, none⟩) s →
      parseDate (.str s) .dateTime = .ok (some (.dateTime ⟨date, time, some .utc⟩)) ∧
      parseDate (.str s) .date = .ok (some (.date date))) ∧
    (∀ date : Date, Rewrites (dateText date) s →
      parseDate (.str s) .dateTime = .ok (some (.dateTime (.midnightUtc date))) ∧
      parseDate (.str s) .date = .ok (some (.date date))) := by
  simp only [parseDate_str]
  refine ⟨fun date time o h => ?_, fun date time h => ?_, fun date h => ?_⟩
  · rw [ofText_dateTimeText h, ofText_dateTimeText h, ← kept_eq]
    exact ⟨rfl, rfl⟩
  · rw [ofText_dateTimeText h, ofText_dateTimeText h]
    exact ⟨rfl, rfl⟩
  · obtain ⟨hdate, hdateTime⟩ := ofText_dateText h
    rw [hdate, hdateTime]
    exact ⟨rfl, rfl⟩

/-- A date-time in UTC with its offset as a letter, a naive one and a date are read among blanks as
what they were written of. -/
theorem parseDate_amongBlanks :
    dateTimeText ⟨barelyAhead.date, barelyAhead.time, some .utc⟩ =
      "2024-03-01T12:30:15.000250+00:00" ∧
      parseDate (.str " 2024-03-01T12:30:15.000250z\n") .dateTime =
        .ok (some (.dateTime ⟨barelyAhead.date, barelyAhead.time, some .utc⟩)) ∧
      dateTimeText ⟨barelyAhead.date, barelyAhead.time, none⟩ = "2024-03-01T12:30:15.000250" ∧
      parseDate (.str "2024-03-01T12:30:15.000250\t") .date = .ok (some (.date barelyAhead.date)) ∧
      dateText barelyAhead.date = "2024-03-01" ∧
      parseDate (.str "\t2024-03-01 ") .dateTime =
        .ok (some (.dateTime (.midnightUtc barelyAhead.date))) := by
  have hz : Rewrites (dateTimeText ⟨barelyAhead.date, barelyAhead.time, some .utc⟩)
      " 2024-03-01T12:30:15.000250z\n" :=
    ⟨[' '], "2024-03-01T12:30:15.000250z".toList, ['\n'], by decide +kernel,
      List.forall_mem_singleton.mpr rfl, List.forall_mem_singleton.mpr rfl,
      .inr ⟨"2024-03-01T12:30:15.000250".toList, 'z',
        .inr rfl, by decide +kernel, by decide +kernel⟩⟩
  have hn : Rewrites (dateTimeText ⟨barelyAhead.date, barelyAhead.time, none⟩)
      "2024-03-01T12:30:15.000250\t" :=
    ⟨[], "2024-03-01T12:30:15.000250".toList, ['\t'], by decide +kernel, nofun,
      List.forall_mem_singleton.mpr rfl, .inl (by decide +kernel)⟩
  have he : Rewrites (dateText barelyAhead.date) "\t2024-03-01 " :=
    ⟨['\t'], "2024-03-01".toList, [' '], by decide +kernel,
      List.forall_mem_singleton.mpr rfl, List.forall_mem_singleton.mpr rfl,
        .inl (by decide +kernel)⟩
  obtain ⟨haware, -, -⟩ := parseDate_written " 2024-03-01T12:30:15.000250z\n"
  obtain ⟨-, hnaive, -⟩ := parseDate_written "2024-03-01T12:30:15.000250\t"
  obtain ⟨-, -, hdate⟩ := parseDate_written "\t2024-03-01 "
  exact ⟨by decide +kernel, (haware _ _ _ hz).1, by decide +kernel, (hnaive _ _ hn).2,
    by decide +kernel, (hdate _ he).1⟩

end SchemaBinding
