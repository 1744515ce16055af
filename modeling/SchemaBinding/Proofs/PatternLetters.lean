import SchemaBinding.Log.Redaction

/-!
# Characters in patterns

Patterns do not tell apart the forms of a letter. The characters that they look for are of few
sorts: the letters with which a secret is named or announced, blanks, and the characters of values
and of tokens. What these sorts have in common and what keeps them apart is settled here.
-/

namespace SchemaBinding.Log

/-- The letters beyond ASCII that patterns take for forms of ASCII letters. -/
def foreignForms : List Char := ['\u0130', '\u0131', '\u017F', '\u212A']

/-- What holds of each character of a list shows on the list alone, without a look at all characters
that there are. -/
theorem forall_mem_of_all {P : Char → Prop} [DecidablePred P] {cs : List Char}
    (h : (cs.all fun c => decide (P c)) = true) : ∀ c ∈ cs, P c :=
  fun c hc => of_decide_eq_true (List.all_eq_true.mp h c hc)

/-- What excludes something is excluded by it. -/
theorem eq_false_of_excludes {a b : Bool} (h : a = true → b = false) (hb : b = true) :
    a = false := by
  cases a with
  | false => rfl
  | true => exact absurd hb (ne_true_of_eq_false (h rfl))

private theorem forall_isAscii {P : Char → Prop} (h : ∀ n < 128, P (Char.ofNat n)) {c : Char}
    (hc : Text.isAscii c = true) : P c := by
  have hn := h c.toNat (of_decide_eq_true hc)
  rwa [Char.ofNat_toNat] at hn

private theorem asciiLower_of_not_isAscii {c : Char} (h : Text.isAscii c = false) :
    Text.asciiLower c = c := by
  rw [Text.asciiLower, if_neg]
  intro hc
  have hz : c.toNat ≤ 90 := by
    simpa [Char.le_def, UInt32.le_iff_toNat_le] using (Bool.and_eq_true_iff.mp hc).2
  exact absurd (decide_eq_true (show c.toNat < 128 by omega)) (ne_true_of_eq_false h)

private theorem patternLetter_of_not_mem {c : Char} (h : c ∉ foreignForms) :
    patternLetter c = Text.asciiLower c := by
  simp only [foreignForms, List.mem_cons, List.not_mem_nil, or_false, not_or] at h
  simp [patternLetter, h]

/-- A character beyond ASCII is a form of no letter but itself, apart from four. -/
theorem patternLetter_cases {P : Char → Prop} (hf : ∀ c ∈ foreignForms, P c)
    (ha : ∀ n < 128, P (Char.ofNat n))
    (ho : ∀ c, Text.isAscii c = false → patternLetter c = c → P c) (c : Char) : P c := by
  by_cases hc : c ∈ foreignForms
  · exact hf c hc
  · cases h : Text.isAscii c with
    | false => exact ho c h ((patternLetter_of_not_mem hc).trans (asciiLower_of_not_isAscii h))
    | true => exact forall_isAscii ha h

/-- The forms of a letter are word characters alike. -/
theorem isWord_patternLetter (c : Char) : Text.isWord (patternLetter c) = Text.isWord c := by
  induction c using patternLetter_cases with
  | hf c hc => revert c; exact forall_mem_of_all (by decide +kernel)
  | ha n hn => revert n; decide
  | ho c _ h => rw [h]

private theorem patternLetter_patternLetter (c : Char) :
    patternLetter (patternLetter c) = patternLetter c := by
  induction c using patternLetter_cases with
  | hf c hc => revert c; exact forall_mem_of_all (by decide)
  | ha n hn => revert n; decide
  | ho c _ h => rw [h, h]

/-- A character that is a form of a character other than a letter is that character. -/
theorem eq_of_patternLetter_eq {c d : Char} (hd : Text.isAsciiLetter d = false)
    (h : patternLetter c = d) : c = d := by
  subst h
  induction c using patternLetter_cases with
  | hf c hc => revert c; exact forall_mem_of_all (by decide)
  | ha n hn => revert n; decide
  | ho c _ h => exact h.symm

/-! ### Blanks -/

/-- The code points of the blanks. -/
def blankPoints : List Nat :=
  List.range' 0x9 5 ++ List.range' 0x1C 5 ++ [0x85, 0xA0, 0x1680] ++ List.range' 0x2000 11 ++
    [0x2028, 0x2029, 0x202F, 0x205F, 0x3000]

private theorem mem_blankPoints {c : Char} (h : Text.isBlank c = true) : c.toNat ∈ blankPoints := by
  simp only [Text.isBlank, Bool.or_eq_true, Bool.and_eq_true, decide_eq_true_eq, beq_iff_eq] at h
  simp only [blankPoints, List.mem_append, List.mem_range'_1, List.mem_cons, List.not_mem_nil,
    or_false]
  omega

private theorem forall_isBlank {P : Char → Prop} (h : ∀ n ∈ blankPoints, P (Char.ofNat n))
    {c : Char}
    (hc : Text.isBlank c = true) : P c := by
  have hn := h c.toNat (mem_blankPoints hc)
  rwa [Char.ofNat_toNat] at hn

/-- No blank is a word character. -/
theorem isWord_of_isBlank {c : Char} (h : Text.isBlank c = true) : Text.isWord c = false :=
  forall_isBlank (P := fun c => Text.isWord c = false) (by decide +kernel) h

private theorem isBlank_of_isWord {c : Char} (h : Text.isWord c = true) : Text.isBlank c = false :=
  eq_false_of_excludes isWord_of_isBlank h

/-! ### First letters -/

/-- The letters with which the name of a secret or the word before a token begins. -/
def startLetters : List Char := ['a', 'b', 'c', 'p', 's', 't']

/-- Whether a character is a form of a letter with which a match begins. -/
def isStart (c : Char) : Bool := startLetters.contains (patternLetter c)

/-- A character begins a match if the letter that it is a form of does. -/
theorem isStart_patternLetter (c : Char) : isStart (patternLetter c) = isStart c := by
  rw [isStart, isStart, patternLetter_patternLetter]

private theorem forall_isStart {P : Char → Prop} (h : ∀ l ∈ startLetters, P l) {c : Char}
    (hc : isStart c = true) : P (patternLetter c) :=
  h _ (List.contains_iff_mem.mp hc)

private theorem isWord_of_isStart {c : Char} (h : isStart c = true) : Text.isWord c = true := by
  rw [← isWord_patternLetter]
  exact forall_isStart (P := fun l => Text.isWord l = true) (forall_mem_of_all (by decide)) h

/-- No match begins with a blank. -/
theorem isStart_of_isBlank {c : Char} (h : Text.isBlank c = true) : isStart c = false :=
  eq_false_of_excludes (fun hs => isBlank_of_isWord (isWord_of_isStart hs)) h

/-! ### Values and tokens -/

private theorem isValueChar_of_isWord {c : Char} (h : Text.isWord c = true) :
    isValueChar c = true := by
  have hne : ∀ d, Text.isWord d = false → c ≠ d := by
    rintro d hd rfl
    exact absurd h (ne_true_of_eq_false hd)
  have hcomma := hne ',' (by decide)
  have hsemi := hne ';' (by decide)
  simp [isValueChar, isBlank_of_isWord h, hcomma, hsemi]

/-- A secret can begin with any letter with which another match could begin. -/
theorem isValueChar_of_isStart {c : Char} (h : isStart c = true) : isValueChar c = true :=
  isValueChar_of_isWord (isWord_of_isStart h)

/-- There are no blanks in the value of a secret. -/
theorem isBlank_of_isValueChar {c : Char} (h : isValueChar c = true) : Text.isBlank c = false := by
  simp only [isValueChar, Bool.and_eq_true, Bool.not_eq_true'] at h
  exact h.1.1

/-- A letter with which a match begins may stand in a token. -/
theorem isTokenChar_of_isStart {c : Char} (h : isStart c = true) : isTokenChar c = true := by
  have hl : Text.isAsciiLetter (patternLetter c) = true :=
    forall_isStart (P := fun l => Text.isAsciiLetter l = true) (forall_mem_of_all (by decide)) h
  rw [isTokenChar, hl, Bool.true_or, Bool.true_or]

/-- The characters of tokens are ASCII characters or forms of ASCII letters. -/
theorem forall_isTokenChar {P : Char → Prop} (hf : ∀ c ∈ foreignForms, P c)
    (ha : ∀ n < 128, isTokenChar (Char.ofNat n) = true → P (Char.ofNat n)) {c : Char}
    (hc : isTokenChar c = true) : P c := by
  induction c using patternLetter_cases with
  | hf c h => exact hf c h
  | ha n hn => exact ha n hn hc
  | ho c hn h =>
    -- letters, digits and signs of tokens are ASCII characters
    rw [isTokenChar, h] at hc
    have hlt : c.toNat < 128 := by
      simp only [Text.isAsciiLetter, Text.isAsciiDigit, Bool.or_eq_true, Bool.and_eq_true,
        decide_eq_true_eq, Char.le_def, UInt32.le_iff_toNat_le, List.contains_iff_mem] at hc
      rcases hc with ((⟨-, hc⟩ | ⟨-, hc⟩) | ⟨-, hc⟩) | hc
      · exact Nat.lt_of_le_of_lt hc (by decide)
      · exact Nat.lt_of_le_of_lt hc (by decide)
      · exact Nat.lt_of_le_of_lt hc (by decide)
      · exact forall_mem_of_all (P := fun d => d.toNat < 128) (by decide) c hc
    exact absurd (decide_eq_true hlt) (ne_true_of_eq_false hn)

/-- There are no blanks in a token. -/
theorem isBlank_of_isTokenChar {c : Char} (h : isTokenChar c = true) : Text.isBlank c = false :=
  forall_isTokenChar (P := fun c => Text.isBlank c = false) (forall_mem_of_all (by decide))
    (by decide) h

/-- A blank does not stand in a token. -/
theorem isTokenChar_of_isBlank {c : Char} (h : Text.isBlank c = true) : isTokenChar c = false :=
  eq_false_of_excludes isBlank_of_isTokenChar h

/-- A character may stand in a token if the letter that it is a form of may. -/
theorem isTokenChar_patternLetter (c : Char) : isTokenChar (patternLetter c) = isTokenChar c := by
  induction c using patternLetter_cases with
  | hf c hc => revert c; exact forall_mem_of_all (by decide)
  | ha n hn => revert n; decide
  | ho c _ h => rw [h]

/-- What may stand in a token may stand in the value of a secret. -/
theorem isValueChar_of_isTokenChar {c : Char} (h : isTokenChar c = true) : isValueChar c = true :=
  forall_isTokenChar (P := fun c => isValueChar c = true) (forall_mem_of_all (by decide))
    (by decide) h

end SchemaBinding.Log
