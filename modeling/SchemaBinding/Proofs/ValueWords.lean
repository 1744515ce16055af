import SchemaBinding.Proofs.IsoTexts
import SchemaBinding.Value.Printer

/-!
# Words that only a text has

Of all values but texts, the words of a message show what they are: there is a digit, a bracket, a
quote, a sign or a capital letter in them. So a value whose words are a name in small letters is the
text of that name, but for the two numbers that have names.
-/

namespace SchemaBinding

/-- A character of a name in small letters, whose parts are joined by underscores. -/
def Text.isNameChar (c : Char) : Bool := c == '_' || ('a' ≤ c && c ≤ 'z')

/-- Not every character of a text is one of a name in small letters. -/
def Text.Marked (s : String) : Prop := ∃ c ∈ s.toList, isNameChar c = false

namespace Text

variable {s t : String}

private theorem Marked.append_left (h : Marked s) (t : String) : Marked (s ++ t) := by
  obtain ⟨c, hc, hn⟩ := h
  exact ⟨c, by rw [String.toList_append]; exact List.mem_append_left _ hc, hn⟩

private theorem Marked.append_right (s : String) (h : Marked t) : Marked (s ++ t) := by
  obtain ⟨c, hc, hn⟩ := h
  exact ⟨c, by rw [String.toList_append]; exact List.mem_append_right _ hc, hn⟩

private theorem marked_ofList {cs : List Char} {c : Char} (hc : c ∈ cs)
    (hn : isNameChar c = false) :
    Marked (String.ofList cs) := ⟨c, by rwa [String.toList_ofList], hn⟩

/-! ### Numbers -/

private theorem isNameChar_digitChar {k : Nat} (h : k < 10) : isNameChar k.digitChar = false := by
  revert k
  decide

/-- A number ends in a digit. -/
theorem exists_digit_mem (n : Nat) : ∃ c ∈ Nat.toDigits 10 n, isNameChar c = false := by
  by_cases h : n < 10
  · rw [Nat.toDigits_of_lt_base h]
    exact ⟨_, List.mem_singleton_self _, isNameChar_digitChar h⟩
  · rw [Nat.toDigits_of_base_le (by decide) (Nat.le_of_not_lt h)]
    exact ⟨_, List.mem_append_right _ (List.mem_singleton_self _),
      isNameChar_digitChar (Nat.mod_lt n (by decide))⟩

private theorem marked_toString_nat (n : Nat) : Marked (toString n) := by
  obtain ⟨c, hc, hn⟩ := exists_digit_mem n
  rw [Nat.toString_eq_ofList_toDigits]
  exact marked_ofList hc hn

private theorem marked_toString_int (i : Int) : Marked (toString i) := by
  cases i with
  | ofNat n => exact marked_toString_nat n
  | negSucc n =>
    have hs : toString (Int.negSucc n) = "-" ++ toString (n + 1) := rfl
    rw [hs]
    exact (marked_toString_nat (n + 1)).append_right "-"

end Text

open Text

/-- Digits are laid out with a point or a sign among them. -/
theorem Double.exists_mark_layout (digits : List Char) (point : Int) :
    ∃ c ∈ layout digits point, isNameChar c = false := by
  unfold layout
  split
  · split
    · exact ⟨'.', by simp, by decide⟩
    · split
      · exact ⟨'.', by simp, by decide⟩
      · exact ⟨'.', by simp, by decide⟩
  · by_cases h : point - 1 < 0
    · exact ⟨'-', List.mem_append_right _ (by simp [exponentText, h]), by decide⟩
    · exact ⟨'+', List.mem_append_right _ (by simp [exponentText, h]), by decide⟩

private theorem Double.marked_finite (negative : Bool) (exponent : Fin 2047)
    (fraction : Fin 4503599627370496) : Marked (text (.finite negative exponent fraction)) := by
  obtain ⟨c, hc, hn⟩ : ∃ c ∈ magnitudeText exponent fraction, isNameChar c = false := by
    unfold magnitudeText
    split
    · exact ⟨'0', by simp, by decide⟩
    · exact exists_mark_layout _ _
  exact marked_ofList (List.mem_append_right _ hc) hn

/-! ### Dates and times -/

private theorem Calendar.Iso.marked_dateText (d : Date) : Marked (dateText d) :=
  ⟨'-', by simp [dateText_toList, dateChars], by decide⟩

private theorem Calendar.Iso.marked_timeText (t : Time) : Marked (timeText t) :=
  ⟨':', by simp [timeText_toList, clockChars], by decide⟩

/-! ### Values -/

namespace Value

/-- A value with a name in small letters as its words is a text or a number that has a name. -/
theorem cases_of_not_marked {v : Value} (h : ¬ Marked v.words) :
    (∃ s, v = .str s) ∨ (∃ origin, v = .float (.nan origin)) ∨ v = .float (.infinite false) := by
  have hopen : ∀ (c : Char) {s : String}, c ∈ s.toList → isNameChar c = false →
      ∀ rest closing, Marked (s ++ rest ++ closing) :=
    fun c _ hc hn rest closing => Marked.append_left (Marked.append_left ⟨c, hc, hn⟩ rest) closing
  cases v with
  | str s => exact .inl ⟨s, rfl⟩
  | null => exact absurd ⟨'N', by decide, by decide⟩ h
  | bool b =>
    cases b with
    | true => exact absurd ⟨'T', by decide, by decide⟩ h
    | false => exact absurd ⟨'F', by decide, by decide⟩ h
  | int i => exact absurd (marked_toString_int i) h
  | float x =>
    cases x with
    | nan origin => exact .inr (.inl ⟨origin, rfl⟩)
    | infinite negative =>
      cases negative with
      | true => exact absurd ⟨'-', by decide, by decide⟩ h
      | false => exact .inr (.inr rfl)
    | finite negative exponent fraction =>
      exact absurd (Double.marked_finite negative exponent fraction) h
  | list items label => exact absurd (hopen '[' (by decide) (by decide) _ _) h
  | tuple items =>
    refine absurd ?_ h
    simp only [words, text]
    split
    · exact hopen '(' (by decide) (by decide) _ _
    · exact hopen '(' (by decide) (by decide) _ _
  | dict entries => exact absurd (hopen '\x7b' (by decide) (by decide) _ _) h
  | bytes bs =>
    have hq : ∀ cs, isNameChar (quoteFor cs) = false := by
      intro cs
      rw [quoteFor]
      split <;> decide
    exact absurd (marked_ofList (List.mem_cons_of_mem _ List.mem_cons_self) (hq _)) h
  | dateTime d =>
    have hd := Calendar.Iso.marked_dateText d.date
    exact absurd (((hd.append_left _).append_left _).append_left _) h
  | date d => exact absurd (Calendar.Iso.marked_dateText d) h
  | time t => exact absurd (Calendar.Iso.marked_timeText t) h
  | record cls attrs =>
    refine absurd ?_ h
    simp only [words, text]
    split
    · exact ((Marked.append_right cls.name ⟨'(', by decide, by decide⟩).append_left _).append_left _
    · exact hopen '<' (by decide) (by decide) _ _

end Value

end SchemaBinding
