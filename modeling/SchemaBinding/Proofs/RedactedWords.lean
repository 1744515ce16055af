import SchemaBinding.Proofs.SecretPatterns

/-!
# Words in redacted texts

Redaction makes no words. A word that occurs in a redacted text, and not in the mask, has been in
the text before; only the word before a token may have been written in other letters there. It
follows that redaction makes no text speak of a secret that did not.
-/

namespace SchemaBinding.Log

/-! ### Occurrences -/

/-- A text that occurs in two parts together occurs in one of them, or across the place where they
meet. -/
theorem infix_append_cases {m u v : List Char} (h : m <:+: u ++ v) :
    m <:+: u ∨ m <:+: v ∨ ∃ x y, m = x ++ y ∧ x <:+ u ∧ y <+: v := by
  obtain ⟨s, t, he⟩ := h
  rcases List.append_eq_append_iff.mp he with ⟨a, rfl, -⟩ | ⟨a, hm, rfl⟩
  · exact .inl ⟨s, a, rfl⟩
  rcases List.append_eq_append_iff.mp hm with ⟨b, rfl, rfl⟩ | ⟨b, rfl, rfl⟩
  · exact .inr (.inr ⟨b, a, rfl, List.suffix_append s b, List.prefix_append a t⟩)
  · exact .inr (.inl ⟨b, t, rfl⟩)

private theorem eq_nil_of_prefix_cons {m v : List Char} {c : Char} (hc : c ∉ m) (h : m <+: c :: v) :
    m = [] := by
  cases m with
  | nil => rfl
  | cons d m =>
    obtain ⟨rfl, -⟩ := List.cons_prefix_cons.mp h
    exact absurd List.mem_cons_self hc

/-- A text occurs before or after a character that it does not have. -/
theorem infix_of_append_cons {m u v : List Char} {c : Char} (hc : c ∉ m) (h : m <:+: u ++ c :: v) :
    m <:+: u ∨ m <:+: v := by
  rcases infix_append_cases h with h | h | ⟨x, y, rfl, hx, hy⟩
  · exact .inl h
  · rcases List.infix_cons_iff.mp h with h | h
    · rw [eq_nil_of_prefix_cons hc h]
      exact .inl List.nil_infix
    · exact .inr h
  · rw [eq_nil_of_prefix_cons (fun h => hc (List.mem_append_right x h)) hy, List.append_nil]
    exact .inl hx.isInfix

/-! ### Scans -/

/-- A word that is no part of the mask is found behind it. -/
theorem infix_of_mask_append {m out : List Char} (hstar : '*' ∉ m) (hmask : ¬ m <:+: mask.toList)
    (h : m <:+: mask.toList ++ out) : m <:+: out := by
  rw [mask_eq_concat, List.append_assoc] at h
  rcases infix_of_append_cons hstar h with h | h
  · rw [mask_eq_concat] at hmask
    exact absurd (h.trans (List.prefix_append _ _).isInfix) hmask
  · exact h

section Scan

variable {pattern : Pattern} {Opens : List Char → Prop} {inSecret : Char → Bool}

/-- A word of a text with matches replaced has been in the text before, in the form `Q`, if that is
so for what the replacements begin with. -/
theorem Masks.exists_infix_of_replaceAll (hp : Masks pattern Opens inSecret) {m : List Char}
    {Q : List Char → Prop} (hm : Q m) (hstar : '*' ∉ m) (hmask : ¬ m <:+: mask.toList)
    (hrep : ∀ {b cs rep rest}, pattern b cs = some (rep, rest) →
      ∃ taken front sep, cs = taken ++ rest ∧ rep = front ++ sep :: mask.toList ∧ sep ∉ m ∧
        ∀ u, m <:+: u ++ front → ∃ m', Q m' ∧ m' <:+: u ++ taken)
    (before : Option Char) (cs u : List Char) (h : m <:+: u ++ replaceAll pattern before 0 cs) :
    ∃ m', Q m' ∧ m' <:+: u ++ cs := by
  induction before, cs using hp.scan_induction generalizing u with
  | nil b => exact ⟨m, hm, h⟩
  | keep b c cs hn ih =>
    rw [replaceAll_of_none hn, List.append_cons] at h
    rw [List.append_cons]
    exact ih (u ++ [c]) h
  | replace b c n rest rep hr ih =>
    obtain ⟨taken, front, sep, he, rfl, hsep, hfront⟩ := hrep hr
    obtain rfl := List.append_cancel_right he
    rw [replaceAll_of_some hr, List.append_assoc, ← List.append_assoc, List.cons_append] at h
    rcases infix_of_append_cons hsep h with h | h
    · obtain ⟨m', hm', h'⟩ := hfront u h
      exact ⟨m', hm', h'.trans (by rw [← List.append_assoc]; exact List.infix_append' [] _ _)⟩
    · obtain ⟨m', hm', h'⟩ := ih [] (infix_of_mask_append hstar hmask h)
      exact ⟨m', hm',
        h'.trans (by rw [← List.append_assoc]; exact (List.suffix_append _ _).isInfix)⟩

end Scan

/-- A word that masking an assignment cannot bring about: it has no sign of assignment in it and is
no part of the mask. -/
structure IsPlain (m : List Char) : Prop where
  /-- There is no sign in it. -/
  sign (c : Char) : isSign c = true → c ∉ m
  /-- There is no star in it. -/
  star : '*' ∉ m
  /-- It is no part of the mask. -/
  mask : ¬ m <:+: Log.mask.toList

/-- A plain word in a text with masked assignments was there before. -/
theorem IsPlain.infix_of_assignments {m : List Char} (hm : IsPlain m) {before : Option Char}
    {cs : List Char} (h : m <:+: replaceAll matchAssignment before 0 cs) : m <:+: cs := by
  have hrep : ∀ {b cs rep rest}, matchAssignment b cs = some (rep, rest) →
      ∃ taken front sep, cs = taken ++ rest ∧ rep = front ++ sep :: Log.mask.toList ∧ sep ∉ m ∧
        ∀ u, m <:+: u ++ front → ∃ m', m = m' ∧ m' <:+: u ++ taken := by
    intro b cs rep rest hr
    obtain ⟨-, name, sign, opening, value, ⟨-, hs, gap, gap', -, -, rfl⟩, -, -, -, rfl, rfl⟩ :=
      matchAssignment_sound hr
    refine ⟨name ++ (gap ++ sign :: gap' ++ value), name, sign, by simp, rfl, hm.sign sign hs, ?_⟩
    intro u hu
    refine ⟨m, rfl, hu.trans ?_⟩
    rw [← List.append_assoc]
    exact (List.prefix_append _ _).isInfix
  obtain ⟨m', rfl, h'⟩ :=
    masks_matchAssignment.exists_infix_of_replaceAll rfl hm.star hm.mask hrep before cs [] h
  exact h'

/-- A word again, with its end written in other letters if it is the word before a token or begins
it. -/
def Recased (m m' : List Char) : Prop :=
  ∃ x y y', m = x ++ y ∧ m' = x ++ y' ∧ y <+: bearerWord ∧
    y'.map patternLetter = y.map patternLetter

/-- A word is itself in the same letters. -/
theorem Recased.refl (m : List Char) : Recased m m :=
  ⟨m, [], [], (List.append_nil m).symm, (List.append_nil m).symm, List.nil_prefix, rfl⟩

/-- A word of masked bearer tokens that is not a part of what takes their place was there before,
but for the letters in which its end was written. -/
theorem exists_infix_of_bearers {m : List Char} (hblank : ' ' ∉ m) (hstar : '*' ∉ m)
    (hmask : ¬ m <:+: bearerMask) {before : Option Char} {cs : List Char}
    (h : m <:+: replaceAll matchBearer before 0 cs) : ∃ m', Recased m m' ∧ m' <:+: cs := by
  have hword : ¬ m <:+: bearerWord := fun hw =>
    hmask (hw.trans (List.prefix_append bearerWord _).isInfix)
  have hmask' : ¬ m <:+: mask.toList := fun hw => hmask (hw.trans mask_suffix_bearerMask.isInfix)
  have hrep : ∀ {b cs rep rest}, matchBearer b cs = some (rep, rest) →
      ∃ taken front sep, cs = taken ++ rest ∧ rep = front ++ sep :: mask.toList ∧ sep ∉ m ∧
        ∀ u, m <:+: u ++ front → ∃ m', Recased m m' ∧ m' <:+: u ++ taken := by
    intro b cs rep rest hr
    obtain ⟨-, opening, token, signs, ⟨word, gap, hw, -, -, rfl⟩, -, -, -, -, -, rfl, rfl⟩ :=
      matchBearer_sound hr
    refine ⟨word ++ (gap ++ token ++ signs), bearerWord, ' ', by simp, bearerMask_eq, hblank, ?_⟩
    intro u hu
    rcases infix_append_cases hu with hu | hu | ⟨x, y, rfl, hx, hy⟩
    · exact ⟨m, .refl m, hu.trans (List.prefix_append _ _).isInfix⟩
    · exact absurd hu hword
    · -- the front of the word is written as it was
      refine ⟨x ++ word.take y.length, ⟨x, y, _, rfl, rfl, hy, ?_⟩, ?_⟩
      · rw [List.map_take, hw, ← isBearer_bearerWord, ← List.map_take,
          ← List.prefix_iff_eq_take.mp hy]
      · obtain ⟨s, rfl⟩ := hx
        refine ⟨s, word.drop y.length ++ (gap ++ token ++ signs), ?_⟩
        have he := List.take_append_drop y.length word
        simp only [List.append_assoc]
        rw [← List.append_assoc (word.take y.length), he]
  exact masks_matchBearer.exists_infix_of_replaceAll (.refl m) hstar hmask' hrep before cs [] h

/-! ### Lower case -/

/-- A text occurs in another if it is a part of it. -/
theorem occursIn_iff {part cs : List Char} : occursIn part cs = true ↔ part <:+: cs := by
  induction cs with
  | nil => rw [occursIn, List.isEmpty_iff, List.infix_nil]
  | cons c cs ih =>
    rw [occursIn, Bool.or_eq_true, ih, List.isPrefixOf_iff_prefix, List.infix_cons_iff]

/-- The letter that stands for a character in lower case, if that is an ASCII character; the capital
sigma and the dotted capital i have none. -/
def lowerLetter (c : Char) : Char :=
  if c == 'Σ' || c == 'İ' then '̇' else (Text.lowerChar c).headD c

private theorem lowerChar_eq {c : Char} (h : c ≠ 'İ') :
    Text.lowerChar c = [(Text.lowerChar c).headD c] := by
  unfold Text.lowerChar
  split
  · rfl
  · rw [if_neg (by simpa using h)]
    rfl

/-- A character goes over into lower case as one letter, or else no ASCII word goes on across it. -/
theorem lowerList_cons_cases (before : List Char) (c : Char) (cs : List Char) :
    Text.lowerList before (c :: cs) = lowerLetter c :: Text.lowerList (c :: before) cs ∨
      Text.isAscii (lowerLetter c) = false ∧
        ((∃ x, Text.isAscii x = false ∧
            Text.lowerList before (c :: cs) = x :: Text.lowerList (c :: before) cs) ∨
          Text.lowerList before (c :: cs) =
            'i' :: '̇' :: Text.lowerList (c :: before) cs) := by
  by_cases hs : c = 'Σ'
  · subst hs
    refine .inr ⟨by decide, .inl ?_⟩
    rw [Text.lowerList, if_pos (beq_self_eq_true _)]
    split
    · exact ⟨_, by decide, rfl⟩
    · exact ⟨_, by decide, rfl⟩
  · by_cases hi : c = 'İ'
    · subst hi
      exact .inr ⟨by decide, .inr rfl⟩
    · refine .inl ?_
      rw [Text.lowerList, if_neg (by simpa using hs), lowerChar_eq hi, lowerLetter,
        if_neg (by simp [hs, hi])]
      rfl

variable {before cs w m : List Char}

/-- A word of ASCII characters that a text in lower case begins with comes from the front of the
text. -/
theorem exists_prefix_of_lowerList (ha : AllOf Text.isAscii w) (hi : w.getLast? ≠ some 'i')
    (h : w <+: Text.lowerList before cs) : ∃ m, m <+: cs ∧ m.map lowerLetter = w := by
  induction cs generalizing w before with
  | nil => exact ⟨[], List.nil_prefix, (List.prefix_nil.mp h).symm⟩
  | cons c cs ih =>
    cases w with
    | nil => exact ⟨[], List.nil_prefix, rfl⟩
    | cons x w =>
      obtain ⟨hx, hw⟩ := List.forall_mem_cons.mp ha
      rcases lowerList_cons_cases before c cs with he | ⟨-, ⟨y, hy, he⟩ | he⟩
      · rw [he] at h
        obtain ⟨rfl, hp⟩ := List.cons_prefix_cons.mp h
        have hi' : w.getLast? ≠ some 'i' := by
          cases w with
          | nil => exact nofun
          | cons y w => rwa [List.getLast?_cons_cons] at hi
        obtain ⟨m, hm, rfl⟩ := ih hw hi' hp
        exact ⟨c :: m, List.cons_prefix_cons.mpr ⟨rfl, hm⟩, rfl⟩
      · rw [he] at h
        obtain ⟨rfl, -⟩ := List.cons_prefix_cons.mp h
        exact absurd hx (ne_true_of_eq_false hy)
      · rw [he] at h
        obtain ⟨rfl, hp⟩ := List.cons_prefix_cons.mp h
        cases w with
        | nil => exact absurd rfl hi
        | cons y w =>
          obtain ⟨rfl, -⟩ := List.cons_prefix_cons.mp hp
          exact absurd (hw _ List.mem_cons_self) (by decide)

/-- A word of ASCII characters that occurs in a text in lower case comes from a part of the text. -/
theorem exists_infix_of_lowerList (ha : AllOf Text.isAscii w) (hi : w.getLast? ≠ some 'i')
    (h : w <:+: Text.lowerList before cs) : ∃ m, m <:+: cs ∧ m.map lowerLetter = w := by
  induction cs generalizing before with
  | nil => exact ⟨[], List.nil_infix, (List.infix_nil.mp h).symm⟩
  | cons c cs ih =>
    have hfront : w <+: Text.lowerList before (c :: cs) →
        ∃ m, m <:+: c :: cs ∧ m.map lowerLetter = w := by
      intro hp
      obtain ⟨m, hm, rfl⟩ := exists_prefix_of_lowerList ha hi hp
      exact ⟨m, hm.isInfix, rfl⟩
    have hrest : w <:+: Text.lowerList (c :: before) cs →
        ∃ m, m <:+: c :: cs ∧ m.map lowerLetter = w := by
      intro hr
      obtain ⟨m, hm, rfl⟩ := ih hr
      exact ⟨m, List.infix_cons hm, rfl⟩
    have hone : ∀ x, Text.lowerList before (c :: cs) = x :: Text.lowerList (c :: before) cs →
        ∃ m, m <:+: c :: cs ∧ m.map lowerLetter = w := by
      intro x he
      rw [he] at h hfront
      exact (List.infix_cons_iff.mp h).elim hfront hrest
    rcases lowerList_cons_cases before c cs with he | ⟨-, ⟨y, -, he⟩ | he⟩
    · exact hone _ he
    · exact hone y he
    · rw [he] at h hfront
      rcases List.infix_cons_iff.mp h with h | h
      · exact hfront h
      rcases List.infix_cons_iff.mp h with h | h
      · cases w with
        | nil => exact ⟨[], List.nil_infix, rfl⟩
        | cons x w =>
          obtain ⟨rfl, -⟩ := List.cons_prefix_cons.mp h
          exact absurd (ha _ List.mem_cons_self) (by decide)
      · exact hrest h

private theorem prefix_lowerList (ha : AllOf Text.isAscii (m.map lowerLetter)) (h : m <+: cs) :
    m.map lowerLetter <+: Text.lowerList before cs := by
  induction m generalizing before cs with
  | nil => exact List.nil_prefix
  | cons c m ih =>
    obtain ⟨cs, rfl⟩ := h
    obtain ⟨hc, hm⟩ := List.forall_mem_cons.mp ha
    rcases lowerList_cons_cases before c (m ++ cs) with he | ⟨hn, -⟩
    · rw [List.cons_append, he]
      exact List.cons_prefix_cons.mpr ⟨rfl, ih hm (List.prefix_append m cs)⟩
    · exact absurd hc (ne_true_of_eq_false hn)

/-- A part of a text that goes over into a word of ASCII characters makes that word occur in the
text in lower case. -/
theorem infix_lowerList (ha : AllOf Text.isAscii (m.map lowerLetter)) (h : m <:+: cs) :
    m.map lowerLetter <:+: Text.lowerList before cs := by
  induction cs generalizing before with
  | nil =>
    rw [List.infix_nil.mp h]
    exact List.nil_infix
  | cons c cs ih =>
    rcases List.infix_cons_iff.mp h with hp | hr
    · exact (prefix_lowerList ha hp).isInfix
    · rcases lowerList_cons_cases before c cs with he | ⟨-, ⟨y, -, he⟩ | he⟩
      · exact he ▸ List.infix_cons (ih hr)
      · exact he ▸ List.infix_cons (ih hr)
      · exact he ▸ List.infix_cons (List.infix_cons (ih hr))

/-! ### Names of secrets -/

/-- A text speaks of a secret if a part of it is a sensitive term, letter by letter. -/
theorem isSensitive_iff (key : String) :
    isSensitive key = true ↔ ∃ term ∈ sensitiveTerms, ∃ m, m <:+: key.toList ∧
      m.map lowerLetter = term.toList := by
  have hterms : ∀ term ∈ sensitiveTerms, term.toList.all Text.isAscii = true ∧
      term.toList.getLast? ≠ some 'i' := by
    decide
  rw [isSensitive, List.any_eq_true, Text.lower]
  refine exists_congr fun term => and_congr_right fun ht => ?_
  rw [occursIn_iff, String.toList_ofList]
  have hascii : AllOf Text.isAscii term.toList := List.all_eq_true.mp (hterms term ht).1
  constructor
  · exact exists_infix_of_lowerList hascii (hterms term ht).2
  · rintro ⟨m, hm, he⟩
    rw [← he]
    exact infix_lowerList (he ▸ hascii) hm

/-- A word without the letter with which the word before a token begins is not written in another
way. -/
theorem Recased.eq_of_not_mem {m m' : List Char} (h : Recased m m') (hb : 'B' ∉ m) : m' = m := by
  obtain ⟨x, y, y', rfl, rfl, hy, he⟩ := h
  cases y with
  | nil => rw [List.map_eq_nil_iff.mp he]
  | cons c y =>
    obtain ⟨rfl, -⟩ : c = 'B' ∧ y <+: "earer".toList := List.cons_prefix_cons.mp hy
    exact absurd (List.mem_append_right x List.mem_cons_self) hb

/-- A text that has been redacted speaks of no secret that it did not speak of before. -/
theorem isSensitive_of_redactText {s : String} (h : isSensitive (redactText s) = true) :
    isSensitive s = true := by
  obtain ⟨term, ht, m, hm, he⟩ := (isSensitive_iff _).mp h
  have hnot : ∀ c, lowerLetter c ∉ term.toList → c ∉ m := fun c hc hcm =>
    hc (he ▸ List.mem_map_of_mem hcm)
  have hletters : ∀ term ∈ sensitiveTerms,
      (['B', ' ', '*', ':', '='].all fun c => decide (lowerLetter c ∉ term.toList)) = true := by
    decide
  have hmasks : ∀ term ∈ sensitiveTerms,
      occursIn term.toList (bearerMask.map lowerLetter) = false := by
    decide
  have hbearer : ¬ m <:+: bearerMask := by
    intro hi
    have ho := occursIn_iff.mpr (he ▸ hi.map lowerLetter)
    exact absurd ho (ne_true_of_eq_false (hmasks term ht))
  have hmask : ¬ m <:+: mask.toList := fun hi => hbearer (hi.trans mask_suffix_bearerMask.isInfix)
  have hword := fun c hc => hnot c (forall_mem_of_all (hletters term ht) c hc)
  have hplain : IsPlain m := by
    refine ⟨fun c hc => ?_, hword '*' (by decide), hmask⟩
    rcases isSign_cases hc with rfl | rfl
    · exact hword ':' (by decide)
    · exact hword '=' (by decide)
  rw [redactText, String.toList_ofList] at hm
  obtain ⟨m', hr, hm'⟩ :=
    exists_infix_of_bearers (hword ' ' (by decide)) (hword '*' (by decide)) hbearer hm
  rw [hr.eq_of_not_mem (hword 'B' (by decide))] at hm'
  refine (isSensitive_iff s).mpr ⟨term, ht, m, ?_, he⟩
  exact hplain.infix_of_assignments hm'

end SchemaBinding.Log
