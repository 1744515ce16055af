import SchemaBinding.Proofs.PatternScans

/-!
# The patterns of secrets

What the two patterns match, said apart from how they are matched. An assignment is the name of a
secret, a sign with blanks around it, and as many characters of a value as follow. A bearer token is
a word, blanks, as many characters of a token as follow, and as many signs of equality after them.
-/

namespace SchemaBinding.Log

/-- A text does not begin with a character of a sort. -/
def Stops (sort : Char → Bool) (cs : List Char) : Prop :=
  ∀ c, cs.head? = some c → sort c = false

/-- The characters of a text are of one sort. -/
def AllOf (sort : Char → Bool) (cs : List Char) : Prop := ∀ c ∈ cs, sort c = true

private theorem stops_of_append {sort : Char → Bool} {u v : List Char} (h : Stops sort (u ++ v)) :
    Stops sort u := by
  cases u with
  | nil => exact nofun
  | cons c u => exact h

/-- A text that does not begin with a character of a sort does not begin with one of a narrower
sort. -/
theorem Stops.mono {sort sort' : Char → Bool} {cs : List Char} (h : Stops sort cs)
    (hs : ∀ {c}, sort' c = true → sort c = true) : Stops sort' cs :=
  fun c hc => Bool.eq_false_iff.mpr fun hd => absurd (hs hd) (ne_true_of_eq_false (h c hc))

/-- A text stops a match if its front does. -/
theorem stops_append_left {sort : Char → Bool} {u v : List Char} (hu : u ≠ [])
    (h : Stops sort u) : Stops sort (u ++ v) := by
  cases u with
  | nil => exact absurd rfl hu
  | cons d u => exact h

/-- A text consists of the characters of a sort at its front and what follows them. -/
theorem takeWhile_dropWhile (sort : Char → Bool) (cs : List Char) :
    cs = cs.takeWhile sort ++ cs.dropWhile sort ∧ AllOf sort (cs.takeWhile sort) ∧
      Stops sort (cs.dropWhile sort) := by
  refine ⟨List.takeWhile_append_dropWhile.symm, List.all_eq_true.mp List.all_takeWhile, ?_⟩
  intro c hc
  have hn := List.head?_dropWhile_not sort cs
  rwa [hc] at hn

/-- Characters of a sort at the front of a text are all that there are if no other follows. -/
theorem takeWhile_dropWhile_append {sort : Char → Bool} {u v : List Char} (hu : AllOf sort u)
    (hv : Stops sort v) : (u ++ v).takeWhile sort = u ∧ (u ++ v).dropWhile sort = v := by
  rw [List.takeWhile_append_of_pos hu, List.dropWhile_append_of_pos hu]
  cases v with
  | nil => simp
  | cons c v => simp [hv c rfl]

/-! ### Words -/

private theorem matchWord_eq_some_iff {word cs m rest : List Char} :
    matchWord word cs = some (m, rest) ↔ cs = m ++ rest ∧ m.map patternLetter = word := by
  induction word generalizing cs m with
  | nil =>
    rw [matchWord, Option.some.injEq, Prod.mk.injEq, List.map_eq_nil_iff]
    constructor
    · rintro ⟨rfl, rfl⟩
      exact ⟨rfl, rfl⟩
    · rintro ⟨rfl, rfl⟩
      exact ⟨rfl, rfl⟩
  | cons w word ih =>
    cases cs with
    | nil =>
      refine iff_of_false nofun ?_
      rintro ⟨h, hm⟩
      obtain ⟨rfl, -⟩ := List.append_eq_nil_iff.mp h.symm
      cases hm
    | cons c cs =>
      rw [matchWord]
      split
      · next hc =>
        rw [Option.map_eq_some_iff]
        constructor
        · rintro ⟨⟨n, r⟩, hn, he⟩
          cases he
          obtain ⟨rfl, rfl⟩ := ih.mp hn
          exact ⟨rfl, by rw [List.map_cons, beq_iff_eq.mp hc]⟩
        · rintro ⟨he, hm⟩
          cases m with
          | nil => cases hm
          | cons d m =>
            cases he
            exact ⟨(m, rest), ih.mpr ⟨rfl, (List.cons.inj hm).2⟩, rfl⟩
      · next hc =>
        refine iff_of_false nofun ?_
        rintro ⟨he, hm⟩
        cases m with
        | nil => cases hm
        | cons d m =>
          cases he
          exact hc (beq_iff_eq.mpr (List.cons.inj hm).1)

/-! ### Names of secrets -/

/-- The ways to write the name of an API key. -/
def apiKeyWords : List (List Char) := ["apikey".toList, "api_key".toList, "api-key".toList]

/-- The words that name a secret. -/
def secretWords : List (List Char) := apiKeyWords ++ secretNames.map String.toList

/-- A text is the name of a secret, in any case of letters. -/
def IsSecretName (name : List Char) : Prop := name.map patternLetter ∈ secretWords

/-- No name of a secret is the front of another. -/
theorem eq_of_isSecretName {name name' rest rest' : List Char} (h : IsSecretName name)
    (h' : IsSecretName name') (he : name ++ rest = name' ++ rest') : name = name' := by
  have hw : ∀ v ∈ secretWords, ∀ w ∈ secretWords, v <+: w → v.length = w.length := by
    decide
  have hl : name.length = name'.length := by
    rcases List.prefix_or_prefix_of_prefix ⟨rest, he⟩ ⟨rest', rfl⟩ with hp | hp
    · simpa using hw _ h _ h' (hp.map patternLetter)
    · simpa using (hw _ h' _ h (hp.map patternLetter)).symm
  exact (List.append_inj he hl).1

/-- What may stand between the two words of an API key. -/
def joints : List (List Char) := [[], ['_'], ['-']]

private theorem matchApiKey_sound {cs name rest : List Char}
    (h : matchApiKey cs = some (name, rest)) :
    cs = name ++ rest ∧ IsSecretName name := by
  obtain ⟨⟨api, r⟩, ha, hr⟩ := Option.bind_eq_some_iff.mp h
  obtain ⟨rfl, hapi⟩ := matchWord_eq_some_iff.mp ha
  have key : ∀ joint ∈ joints, ∀ r,
      (matchWord "key".toList r).map (fun x => (api ++ joint ++ x.1, x.2)) = some (name, rest) →
      api ++ (joint ++ r) = name ++ rest ∧ IsSecretName name := by
    intro joint hj r h
    obtain ⟨⟨k, r'⟩, hk, he⟩ := Option.map_eq_some_iff.mp h
    obtain ⟨rfl, hkey⟩ := matchWord_eq_some_iff.mp hk
    cases he
    refine ⟨by simp, ?_⟩
    rw [IsSecretName, List.map_append, List.map_append, hapi, hkey]
    exact (by decide : ∀ j ∈ joints,
      "api".toList ++ j.map patternLetter ++ "key".toList ∈ secretWords) joint hj
  dsimp only at hr
  split at hr
  · exact key ['_'] (by decide) _ hr
  · exact key ['-'] (by decide) _ hr
  · exact key [] (by decide) _ hr

private theorem matchApiKey_isSome {api joint key : List Char}
    (ha : api.map patternLetter = "api".toList)
    (hj : joint ∈ joints) (hk : key.map patternLetter = "key".toList) (rest : List Char) :
    (matchApiKey (api ++ (joint ++ (key ++ rest)))).isSome = true := by
  have hmatch : (matchWord "key".toList (key ++ rest)).isSome = true := by
    rw [matchWord_eq_some_iff.mpr ⟨rfl, hk⟩]
    rfl
  rw [matchApiKey, matchWord_eq_some_iff.mpr ⟨rfl, ha⟩, Option.bind_some]
  dsimp only
  rw [Option.isSome_map]
  simp only [joints, List.mem_cons, List.not_mem_nil, or_false] at hj
  rcases hj with rfl | rfl | rfl
  · -- a joint is not a form of the letter with which the second word begins
    obtain ⟨k, key, rfl, hk', -⟩ := List.map_eq_cons_iff.mp hk
    split
    · next h =>
      cases h
      exact absurd hk' (by decide)
    · next h =>
      cases h
      exact absurd hk' (by decide)
    · exact hmatch
  · exact hmatch
  · exact hmatch

private theorem matchSecretName_sound {cs name rest : List Char}
    (h : matchSecretName cs = some (name, rest)) : cs = name ++ rest ∧ IsSecretName name := by
  rw [matchSecretName] at h
  split at h
  · next m hm =>
    cases h
    exact matchApiKey_sound hm
  · obtain ⟨word, hw, hm⟩ := List.exists_of_findSome?_eq_some h
    obtain ⟨rfl, hn⟩ := matchWord_eq_some_iff.mp hm
    refine ⟨rfl, ?_⟩
    rw [IsSecretName, hn]
    exact List.mem_append_right _ (List.mem_map_of_mem hw)

/-- A name of an API key consists of two words. -/
theorem exists_of_apiKey {name joint : List Char} (hj : joint ∈ joints)
    (h : name.map patternLetter = "api".toList ++ (joint ++ "key".toList)) :
    ∃ api key, name = api ++ (joint ++ key) ∧ api.map patternLetter = "api".toList ∧
      key.map patternLetter = "key".toList := by
  obtain ⟨api, r, rfl, ha, hr⟩ := List.map_eq_append_iff.mp h
  obtain ⟨j, key, rfl, hj', hk⟩ := List.map_eq_append_iff.mp hr
  refine ⟨api, key, ?_, ha, hk⟩
  have hsign : ∀ w ∈ joints, (w.all fun c => decide (Text.isAsciiLetter c = false)) = true := by
    decide
  have heq : j.map patternLetter = j.map id := by
    refine List.map_congr_left fun c hc => ?_
    have hc' := forall_mem_of_all (hsign joint hj) _ (hj' ▸ List.mem_map_of_mem hc)
    exact (eq_of_patternLetter_eq hc' rfl).symm
  rw [← hj', heq, List.map_id]

/-- A name of a secret is found, if one stands at the front of a text. -/
theorem matchSecretName_isSome {name : List Char} (h : IsSecretName name) (rest : List Char) :
    (matchSecretName (name ++ rest)).isSome = true := by
  rw [matchSecretName]
  split
  · rfl
  · next hnone =>
    rcases List.mem_append.mp h with h | h
    · exfalso
      have hwords : ∀ w ∈ apiKeyWords, ∃ j ∈ joints, w = "api".toList ++ (j ++ "key".toList) := by
        decide
      obtain ⟨joint, hj, h⟩ := hwords _ h
      obtain ⟨api, key, rfl, ha, hk⟩ := exists_of_apiKey hj h
      have hsome := matchApiKey_isSome ha hj hk rest
      rw [List.append_assoc, List.append_assoc] at hnone
      rw [hnone] at hsome
      cases hsome
    · obtain ⟨word, hw, hword⟩ := List.mem_map.mp h
      rw [List.findSome?_isSome_iff]
      refine ⟨word, hw, ?_⟩
      rw [matchWord_eq_some_iff.mpr ⟨rfl, hword.symm⟩]
      rfl

private theorem matchSecretName_eq_some_iff {cs name rest : List Char} :
    matchSecretName cs = some (name, rest) ↔ cs = name ++ rest ∧ IsSecretName name := by
  refine ⟨matchSecretName_sound, ?_⟩
  rintro ⟨rfl, hn⟩
  obtain ⟨⟨name', rest'⟩, h⟩ := Option.isSome_iff_exists.mp (matchSecretName_isSome hn rest)
  obtain ⟨he, hn'⟩ := matchSecretName_sound h
  obtain rfl := eq_of_isSecretName hn hn' he
  rw [h, List.append_cancel_left he]

/-- The name of a secret begins with one of the letters with which matches begin, and no match
begins in the rest of it. -/
theorem IsSecretName.start {name : List Char} (h : IsSecretName name) :
    ∃ c v, name = c :: v ∧ isStart c = true ∧ quiet (some c) v = true := by
  have hw : ∀ w ∈ secretWords,
      w.head?.any (fun c => startLetters.contains c && quiet (some c) w.tail) = true := by
    decide
  cases name with
  | nil => cases hw _ h
  | cons c v =>
    obtain ⟨hc, hq⟩ := Bool.and_eq_true_iff.mp (hw _ h)
    exact ⟨c, v, rfl, hc, (quiet_map_patternLetter c v).symm.trans hq⟩

/-- The name of a secret ends with a word character. -/
theorem IsSecretName.getLast {name : List Char} (h : IsSecretName name) :
    name.getLast?.any Text.isWord = true := by
  have hw : ∀ w ∈ secretWords, w.getLast?.any Text.isWord = true := by decide
  have hl := hw _ h
  rw [List.getLast?_map, Option.any_map] at hl
  simpa only [Function.comp_def, isWord_patternLetter] using hl

/-! ### Assignments -/

/-- The first character of the mask, and the rest. -/
theorem mask_eq_cons : mask.toList = '*' :: "**REDACTED***".toList := rfl

/-- The mask up to its last character, and that character. -/
theorem mask_eq_concat : mask.toList = "***REDACTED**".toList ++ ['*'] := rfl

/-- A sign of assignment. -/
def isSign (c : Char) : Bool := c == ':' || c == '='

/-- The name of a secret with a sign of assignment after it, and blanks around the sign. -/
def Assigns (name : List Char) (sign : Char) (opening : List Char) : Prop :=
  IsSecretName name ∧ isSign sign = true ∧ ∃ gap gap', AllOf Text.isBlank gap ∧
    AllOf Text.isBlank gap' ∧ opening = name ++ gap ++ sign :: gap'

/-- A sign of assignment is a colon or an equals sign. -/
theorem isSign_cases {sign : Char} (h : isSign sign = true) : sign = ':' ∨ sign = '=' := by
  simpa [isSign] using h

private theorem isBlank_of_isSign {sign : Char} (h : isSign sign = true) :
    Text.isBlank sign = false := by
  rcases isSign_cases h with rfl | rfl <;> decide

private theorem isWord_of_isSign {sign : Char} (h : isSign sign = true) :
    Text.isWord sign = false := by
  rcases isSign_cases h with rfl | rfl <;> decide

/-- What is matched as an assignment: the name and the sign are kept, and all characters of the
value that there are go. -/
theorem matchAssignment_sound {before : Option Char} {cs rep rest : List Char}
    (h : matchAssignment before cs = some (rep, rest)) :
    Text.isBoundary before cs.head? = true ∧ ∃ name sign opening value,
      Assigns name sign opening ∧ value ≠ [] ∧ AllOf isValueChar value ∧
      Stops isValueChar rest ∧ cs = opening ++ (value ++ rest) ∧
      rep = name ++ sign :: mask.toList := by
  rw [matchAssignment] at h
  split at h
  · cases h
  next hb =>
  refine ⟨by simpa using hb, ?_⟩
  obtain ⟨⟨name, r⟩, hm, hr⟩ := Option.bind_eq_some_iff.mp h
  obtain ⟨rfl, hn⟩ := matchSecretName_eq_some_iff.mp hm
  dsimp only at hr
  split at hr
  · cases hr
  split at hr
  · next sign r' hd =>
    split at hr
    · next hs =>
      split at hr
      · cases hr
      next hv =>
      obtain ⟨rfl, rfl⟩ := Prod.mk.inj (Option.some.inj hr)
      obtain ⟨hgap, hall, -⟩ := takeWhile_dropWhile Text.isBlank r
      obtain ⟨hgap', hall', -⟩ := takeWhile_dropWhile Text.isBlank r'
      obtain ⟨hvalue, hallv, hstop⟩ :=
        takeWhile_dropWhile isValueChar (r'.dropWhile Text.isBlank)
      rw [hd] at hgap
      refine ⟨name, sign, _, _, ⟨hn, hs, _, _, hall, hall', rfl⟩, by simpa using hv, hallv,
        hstop, ?_, by simp⟩
      rw [← hvalue, List.append_assoc, List.append_assoc, List.cons_append, ← hgap', ← hgap]
    · cases hr
  · cases hr

/-- An assignment of a value to the name of a secret, at a word boundary, is matched up to the end
of the value. -/
theorem matchAssignment_complete {before : Option Char} {rest name opening value : List Char}
    {sign : Char} (ho : Assigns name sign opening) (hv : value ≠ [])
    (hall : AllOf isValueChar value)
    (hstop : Stops isValueChar rest)
    (hb : Text.isBoundary before (opening ++ (value ++ rest)).head? = true) :
    matchAssignment before (opening ++ (value ++ rest)) =
      some (name ++ sign :: mask.toList, rest) := by
  obtain ⟨hn, hs, gap, gap', hgap, hgap', rfl⟩ := ho
  have hbound : Text.isBoundary name.getLast? (gap ++ sign :: (gap' ++ (value ++ rest))).head? =
      true := by
    have hd : (gap ++ sign :: (gap' ++ (value ++ rest))).head?.any Text.isWord = false := by
      cases gap with
      | nil => exact isWord_of_isSign hs
      | cons c gap => exact isWord_of_isBlank (hgap c List.mem_cons_self)
    rw [Text.isBoundary, hn.getLast, hd]
    rfl
  have hsign : (gap ++ sign :: (gap' ++ (value ++ rest))).dropWhile Text.isBlank =
      sign :: (gap' ++ (value ++ rest)) := by
    refine (takeWhile_dropWhile_append hgap ?_).2
    rintro c ⟨⟩
    exact isBlank_of_isSign hs
  have hvalue : (gap' ++ (value ++ rest)).dropWhile Text.isBlank = value ++ rest := by
    refine (takeWhile_dropWhile_append hgap' (stops_append_left hv ?_)).2
    intro c hc
    exact isBlank_of_isValueChar (hall c (List.mem_of_head? hc))
  obtain ⟨htake, hdrop⟩ := takeWhile_dropWhile_append hall hstop
  rw [matchAssignment, hb, Bool.not_true, if_neg Bool.false_ne_true]
  rw [List.append_assoc, List.append_assoc, List.cons_append,
    matchSecretName_eq_some_iff.mpr ⟨rfl, hn⟩, Option.bind_some]
  dsimp only
  rw [hbound, hsign, Bool.not_true, if_neg Bool.false_ne_true]
  dsimp only
  rw [← isSign, if_pos hs, hvalue, htake, hdrop, if_neg (by simpa using hv)]
  simp

/-! ### Bearer tokens -/

/-- The word before a token, in any case of letters. -/
def IsBearer (word : List Char) : Prop := word.map patternLetter = "bearer".toList

/-- The word before a token with blanks after it. -/
def Announces (opening : List Char) : Prop :=
  ∃ word gap, IsBearer word ∧ gap ≠ [] ∧ AllOf Text.isBlank gap ∧ opening = word ++ gap

/-- A sign of equality. -/
def isEquality : Char → Bool := (· == '=')

/-- The word before a token, as redaction writes it. -/
def bearerWord : List Char := "Bearer".toList

/-- The word before a token, as the mask writes it, announces one. -/
theorem isBearer_bearerWord : IsBearer bearerWord := rfl

/-- What takes the place of a bearer token. -/
def bearerMask : List Char := "Bearer ".toList ++ mask.toList

/-- What takes the place of a token that is announced is the word, a blank and the mask. -/
theorem bearerMask_eq : bearerMask = bearerWord ++ ' ' :: mask.toList := rfl

/-- What takes the place of a token that is announced ends with the mask. -/
theorem mask_suffix_bearerMask : mask.toList <:+ bearerMask :=
  List.suffix_append "Bearer ".toList mask.toList

/-- What is matched as a bearer token: all characters of a token that there are go, and all signs of
equality after them. -/
theorem matchBearer_sound {before : Option Char} {cs rep rest : List Char}
    (h : matchBearer before cs = some (rep, rest)) :
    Text.isBoundary before cs.head? = true ∧ ∃ opening token signs,
      Announces opening ∧ token ≠ [] ∧ AllOf isTokenChar token ∧ AllOf isEquality signs ∧
      Stops isTokenChar (signs ++ rest) ∧ Stops isEquality rest ∧
      cs = opening ++ (token ++ (signs ++ rest)) ∧ rep = bearerMask := by
  rw [matchBearer] at h
  split at h
  · cases h
  next hb =>
  refine ⟨by simpa using hb, ?_⟩
  obtain ⟨⟨word, r⟩, hm, hr⟩ := Option.bind_eq_some_iff.mp h
  obtain ⟨rfl, hw⟩ := matchWord_eq_some_iff.mp hm
  dsimp only at hr
  split at hr
  · cases hr
  next hne =>
  rw [Bool.or_eq_true, not_or] at hne
  obtain ⟨rfl, rfl⟩ := Prod.mk.inj (Option.some.inj hr)
  obtain ⟨hgap, hallg, -⟩ := takeWhile_dropWhile Text.isBlank r
  obtain ⟨htoken, hallt, hstopt⟩ := takeWhile_dropWhile isTokenChar (r.dropWhile Text.isBlank)
  obtain ⟨hsigns, halls, hstops⟩ :=
    takeWhile_dropWhile isEquality ((r.dropWhile Text.isBlank).dropWhile isTokenChar)
  refine ⟨_, _, _, ⟨word, _, hw, by simpa using hne.1, hallg, rfl⟩, by simpa using hne.2, hallt,
    halls, hsigns ▸ hstopt, hstops, ?_, rfl⟩
  have hr' := htoken.trans (congrArg (_ ++ ·) hsigns)
  rw [List.append_assoc]
  exact congrArg (word ++ ·) (hgap.trans (congrArg (_ ++ ·) hr'))

/-- A token that is announced, at a word boundary, is matched up to its end and the equals signs
behind it. -/
theorem matchBearer_complete {before : Option Char} {opening token signs rest : List Char}
    (ho : Announces opening) (ht : token ≠ []) (hallt : AllOf isTokenChar token)
    (halls : AllOf isEquality signs) (hstopt : Stops isTokenChar (signs ++ rest))
    (hstops : Stops isEquality rest)
    (hb : Text.isBoundary before (opening ++ (token ++ (signs ++ rest))).head? = true) :
    matchBearer before (opening ++ (token ++ (signs ++ rest))) = some (bearerMask, rest) := by
  obtain ⟨word, gap, hw, hne, hgap, rfl⟩ := ho
  have hstopg : Stops Text.isBlank (token ++ (signs ++ rest)) := by
    refine stops_append_left ht fun c hc => ?_
    exact isBlank_of_isTokenChar (hallt c (List.mem_of_head? hc))
  obtain ⟨htake, hdrop⟩ := takeWhile_dropWhile_append hgap hstopg
  obtain ⟨htake', hdrop'⟩ := takeWhile_dropWhile_append hallt hstopt
  have hdrops : (signs ++ rest).dropWhile (· == '=') = rest :=
    (takeWhile_dropWhile_append halls hstops).2
  rw [matchBearer, hb, Bool.not_true, if_neg Bool.false_ne_true, List.append_assoc,
    matchWord_eq_some_iff.mpr ⟨rfl, hw⟩, Option.bind_some]
  dsimp only
  rw [htake, hdrop, htake', hdrop', hdrops, if_neg (by simp [hne, ht])]
  rfl

/-! ### Openings -/

/-- An assignment up to its value. -/
def AssignmentOpens (opening : List Char) : Prop := ∃ name sign, Assigns name sign opening

private theorem isStart_of_isSign {sign : Char} (h : isSign sign = true) :
    isStart sign = false := by
  rcases isSign_cases h with rfl | rfl <;> decide

/-- The front of an assignment begins a match, and no other match begins in it. -/
theorem AssignmentOpens.start {opening : List Char} (h : AssignmentOpens opening) :
    ∃ c v, opening = c :: v ∧ isStart c = true ∧ quiet (some c) v = true := by
  obtain ⟨name, sign, hn, hs, gap, gap', hgap, hgap', rfl⟩ := h
  obtain ⟨c, v, rfl, hc, hq⟩ := hn.start
  refine ⟨c, v ++ gap ++ sign :: gap', rfl, hc, ?_⟩
  rw [List.append_assoc, quiet_append, hq, Bool.true_and]
  refine quiet_of_not_isStart _ fun d hd => ?_
  rcases List.mem_append.mp hd with hd | hd
  · exact isStart_of_isBlank (hgap d hd)
  · rcases List.mem_cons.mp hd with rfl | hd
    · exact isStart_of_isSign hs
    · exact isStart_of_isBlank (hgap' d hd)

/-- The word before a token begins with a form of b, and no match begins further on in it. -/
theorem Announces.start {opening : List Char} (h : Announces opening) :
    ∃ c v, opening = c :: v ∧ patternLetter c = 'b' ∧ quiet (some c) v = true := by
  obtain ⟨word, gap, hw, -, hgap, rfl⟩ := h
  obtain ⟨c, v, rfl, hc, hv⟩ := List.map_eq_cons_iff.mp hw
  have hq : quiet (some c) v = true := by
    rw [← quiet_map_patternLetter, hc, hv]
    decide
  refine ⟨c, v ++ gap, rfl, hc, ?_⟩
  rw [quiet_append, hq, Bool.true_and]
  exact quiet_of_not_isStart _ fun d hd => isStart_of_isBlank (hgap d hd)

/-- No match begins at the front of a text that does not begin with a character of a secret. -/
theorem begins_of_stops {sort : Char → Bool} (hs : ∀ {c}, isStart c = true → sort c = true)
    {cs : List Char} (h : Stops sort cs) (before : Option Char) : begins before cs = false := by
  cases cs with
  | nil => exact Bool.and_false _
  | cons c cs =>
    exact begins_of_not_isStart before (h.mono hs c rfl) cs

private theorem quiet_mask {sign : Char} (h : isSign sign = true) :
    quiet (some sign) mask.toList = true := by
  rcases isSign_cases h with rfl | rfl <;> decide

private theorem lastRead_mask (before : Option Char) : lastRead before mask.toList = some '*' := rfl

/-- Assignments are a pattern of secrets. -/
theorem masks_matchAssignment : Masks matchAssignment AssignmentOpens isValueChar where
  isSome_iff := by
    intro before cs
    rw [Option.isSome_iff_exists]
    constructor
    · rintro ⟨⟨rep, rest⟩, h⟩
      obtain ⟨hb, name, sign, opening, value, ho, hv, hall, -, rfl, -⟩ := matchAssignment_sound h
      obtain ⟨c, value, rfl⟩ := List.exists_cons_of_ne_nil hv
      exact ⟨hb, opening, c, value ++ rest, rfl, ⟨name, sign, ho⟩, hall c List.mem_cons_self⟩
    · rintro ⟨hb, opening, c, v, rfl, ⟨name, sign, ho⟩, hc⟩
      obtain ⟨he, hall, hstop⟩ := takeWhile_dropWhile isValueChar (c :: v)
      rw [he] at hb ⊢
      refine ⟨_, matchAssignment_complete ho ?_ hall hstop hb⟩
      rw [List.takeWhile_cons_of_pos hc]
      exact List.cons_ne_nil _ _
  opens := AssignmentOpens.start
  inSecret_of_isStart := isValueChar_of_isStart
  congr := by
    intro b b' cs h
    rw [matchAssignment, matchAssignment, h]
  takes := by
    intro before cs rep rest h
    obtain ⟨-, name, sign, opening, value, ⟨hn, hs, gap, gap', -, -, rfl⟩, -, -, hstop, rfl, rfl⟩ :=
      matchAssignment_sound h
    obtain ⟨c, v, rfl, -, hq⟩ := hn.start
    refine ⟨c, v ++ gap ++ sign :: gap' ++ value, c, v ++ sign :: mask.toList, by simp, rfl, rfl,
      ?_, ?_, ?_⟩
    · have hb := begins_of_not_isStart (lastRead (some c) v) (isStart_of_isSign hs) mask.toList
      rw [quiet_append, hq, quiet, hb, quiet_mask hs]
      rfl
    · rw [lastRead_append, lastRead, lastRead_mask]
    · rw [begins_of_stops isValueChar_of_isStart hstop,
        begins_of_stops isValueChar_of_isStart hstop]
  cut := by
    intro before u v rep rest h
    obtain ⟨hb, name, sign, opening, value, ho, hv, hall, hstop, he, rfl⟩ := matchAssignment_sound h
    rw [← List.append_assoc, ← List.append_assoc] at he
    obtain rfl := List.append_cancel_right he
    rw [List.append_assoc] at hb ⊢
    refine matchAssignment_complete ho hv hall (stops_of_append hstop) ?_
    obtain ⟨c, w, rfl, -⟩ := AssignmentOpens.start ⟨name, sign, ho⟩
    exact hb

private theorem lastRead_of_isEquality {signs : List Char} (hne : signs ≠ [])
    (h : AllOf isEquality signs) (before : Option Char) : lastRead before signs = some '=' := by
  induction signs generalizing before with
  | nil => exact absurd rfl hne
  | cons c signs ih =>
    obtain ⟨hc, hs⟩ := List.forall_mem_cons.mp h
    obtain rfl : c = '=' := by simpa [isEquality] using hc
    by_cases hn : signs = []
    · rw [hn]
      rfl
    · exact ih hn hs _

/-- Bearer tokens are a pattern of secrets. -/
theorem masks_matchBearer : Masks matchBearer Announces isTokenChar where
  isSome_iff := by
    intro before cs
    rw [Option.isSome_iff_exists]
    constructor
    · rintro ⟨⟨rep, rest⟩, h⟩
      obtain ⟨hb, opening, token, signs, ho, ht, hall, -, -, -, rfl, -⟩ := matchBearer_sound h
      obtain ⟨c, token, rfl⟩ := List.exists_cons_of_ne_nil ht
      exact ⟨hb, opening, c, token ++ (signs ++ rest), rfl, ho, hall c List.mem_cons_self⟩
    · rintro ⟨hb, opening, c, v, rfl, ho, hc⟩
      obtain ⟨he, hall, hstop⟩ := takeWhile_dropWhile isTokenChar (c :: v)
      obtain ⟨hsigns, halls, hstops⟩ :=
        takeWhile_dropWhile isEquality ((c :: v).dropWhile isTokenChar)
      rw [he, hsigns] at hb ⊢
      refine ⟨_, matchBearer_complete ho ?_ hall halls (hsigns ▸ hstop) hstops hb⟩
      rw [List.takeWhile_cons_of_pos hc]
      exact List.cons_ne_nil _ _
  opens := by
    intro opening ho
    obtain ⟨c, v, rfl, hc, hq⟩ := ho.start
    exact ⟨c, v, rfl, by rw [isStart, hc]; decide, hq⟩
  inSecret_of_isStart := isTokenChar_of_isStart
  congr := by
    intro b b' cs h
    rw [matchBearer, matchBearer, h]
  takes := by
    intro before cs rep rest h
    obtain ⟨-, opening, token, signs, ho, ht, hallt, halls, hstopt, -, rfl, rfl⟩ :=
      matchBearer_sound h
    obtain ⟨c, v, rfl, hc, -⟩ := ho.start
    refine ⟨c, v ++ token ++ signs, 'B', "earer ".toList ++ mask.toList, by simp, by decide,
      hc.symm, by decide, by decide, ?_⟩
    cases signs with
    | nil =>
      have hstop : Stops isTokenChar rest := hstopt
      rw [begins_of_stops isTokenChar_of_isStart hstop,
        begins_of_stops isTokenChar_of_isStart hstop]
    | cons s signs =>
      have hw : Text.isWord '=' = Text.isWord '*' := by decide
      rw [lastRead_append, lastRead_of_isEquality (List.cons_ne_nil _ _) halls]
      simp only [begins, Text.isBoundary, Option.any_some, hw]
  cut := by
    intro before u v rep rest h
    obtain ⟨hb, opening, token, signs, ho, ht, hallt, halls, hstopt, hstops, he, rfl⟩ :=
      matchBearer_sound h
    rw [← List.append_assoc, ← List.append_assoc, ← List.append_assoc] at he
    obtain rfl := List.append_cancel_right he
    rw [List.append_assoc, List.append_assoc] at hb ⊢
    rw [← List.append_assoc] at hstopt
    refine matchBearer_complete ho ht hallt halls (stops_of_append hstopt)
      (stops_of_append hstops) ?_
    obtain ⟨c, w, rfl, -⟩ := ho.start
    exact hb

end SchemaBinding.Log
