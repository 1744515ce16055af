import SchemaBinding.Proofs.RepeatedRedaction

/-!
# What becomes of a bearer token

A token after the word that announces it is masked, unless that word is itself taken for a secret,
or for a part of one: for the value of an assignment, or for the token of an earlier announcement.
Then the token stays, as it would with nothing before it.
-/

namespace SchemaBinding.Log

/-! ### Scans that change nothing -/

section Scan

variable {pattern : Pattern} {Opens : List Char → Prop} {inSecret : Char → Bool}

private theorem settled_of_forall_none {before : Option Char} {cs : List Char}
    (h : ∀ b u v, cs = u ++ v → pattern b v = none) : Settled pattern before cs := by
  induction cs generalizing before with
  | nil => trivial
  | cons c cs ih =>
    refine ⟨fun rep rest hm => ?_, ih fun b u v he => h b (c :: u) v (congrArg (c :: ·) he)⟩
    cases (h before [] (c :: cs) rfl).symm.trans hm

variable (hp : Masks pattern Opens inSecret)
include hp

/-- What is read last is the same after a scan, or it is the end of the mask. -/
theorem Masks.lastRead_replaceAll (before : Option Char) (cs : List Char) :
    lastRead before (replaceAll pattern before 0 cs) = lastRead before cs ∨
      lastRead before (replaceAll pattern before 0 cs) = some '*' := by
  induction before, cs using hp.scan_induction with
  | nil b => exact .inl rfl
  | keep b c cs h ih =>
    rw [replaceAll_of_none h]
    exact ih
  | replace b c m rest rep h ih =>
    obtain ⟨c', m', d, w, -, rfl, -, -, hlast, -⟩ := hp.takes h
    rw [replaceAll_of_some h, lastRead_append, lastRead_append]
    have hstar : lastRead b (d :: w) = some '*' := hlast
    rw [hstar]
    -- what is read last of a text does not depend on what goes before, unless there is no text
    cases ho : replaceAll pattern (lastRead (some c) m) 0 rest with
    | nil => exact .inr rfl
    | cons e out =>
      rw [ho] at ih
      exact ih

/-- A scan puts at the front what was there, or a letter with which a match begins. -/
theorem Masks.exists_replaceAll_cons (before : Option Char) (c : Char) (cs : List Char) :
    ∃ d w, replaceAll pattern before 0 (c :: cs) = d :: w ∧ (d = c ∨ isStart d = true) := by
  cases h : pattern before (c :: cs) with
  | none => exact ⟨c, _, replaceAll_of_none h, .inl rfl⟩
  | some r =>
    obtain ⟨rep, rest⟩ := r
    obtain ⟨c', m, d, w, he, rfl, hd, -⟩ := hp.takes h
    have hb := hp.begins_of_some h
    rw [he] at h ⊢
    rw [replaceAll_of_some h]
    refine ⟨d, _, rfl, .inr ?_⟩
    obtain ⟨rfl, -⟩ := List.cons.inj he
    rw [isStart, hd]
    exact (Bool.and_eq_true_iff.mp hb).2

end Scan

/-! ### Tokens -/

private theorem stops_isTokenChar {cs : List Char} (h : Stops isValueChar cs) :
    Stops isTokenChar cs :=
  h.mono isValueChar_of_isTokenChar

/-- The name of a secret is written in letters of tokens. -/
theorem IsSecretName.isTokenChar {name : List Char} (h : IsSecretName name) :
    AllOf isTokenChar name := by
  have hw : ∀ w ∈ secretWords, w.all Log.isTokenChar = true := by decide
  intro c hc
  rw [← isTokenChar_patternLetter]
  exact List.all_eq_true.mp (hw _ h) _ (List.mem_map_of_mem hc)

/-- The word that announces a token is written in letters of tokens. -/
theorem IsBearer.isTokenChar {word : List Char} (h : IsBearer word) : AllOf isTokenChar word := by
  intro c hc
  rw [← isTokenChar_patternLetter]
  have hw : "bearer".toList.all Log.isTokenChar = true := rfl
  exact List.all_eq_true.mp hw _ (h ▸ List.mem_map_of_mem hc)

/-- Where the characters of a sort at the front of a text end is where they end however the text is
put together. -/
theorem append_inj_of_stops {sort : Char → Bool} {u u' v v' : List Char} (hu : AllOf sort u)
    (hu' : AllOf sort u') (hv : Stops sort v) (hv' : Stops sort v') (h : u ++ v = u' ++ v') :
    u = u' ∧ v = v' := by
  obtain ⟨ht, hd⟩ := takeWhile_dropWhile_append hu hv
  obtain ⟨ht', hd'⟩ := takeWhile_dropWhile_append hu' hv'
  rw [h] at ht hd
  exact ⟨ht.symm.trans ht', hd.symm.trans hd'⟩

private theorem isTokenChar_of_isSign {c : Char} (h : isSign c = true) : isTokenChar c = false := by
  rcases isSign_cases h with rfl | rfl <;> decide

/-- There is no assignment in a token. -/
theorem replaceAll_assignment_token (before : Option Char) {t : List Char}
    (ht : AllOf isTokenChar t) : replaceAll matchAssignment before 0 t = t := by
  refine masks_matchAssignment.replaceAll_of_settled (settled_of_forall_none ?_)
  rintro b u v rfl
  cases h : matchAssignment b v with
  | none => rfl
  | some r =>
    obtain ⟨-, name, sign, opening, value, ⟨-, hs, gap, gap', -, -, rfl⟩, -, -, -, rfl, -⟩ :=
      matchAssignment_sound h
    exact absurd (ht sign (by simp)) (ne_true_of_eq_false (isTokenChar_of_isSign hs))

/-- Masking assignments in a token and what follows it keeps the token, and brings no plain word
into what follows it. -/
theorem replaceAll_token (before : Option Char) {t q : List Char} (ht : AllOf isTokenChar t)
    (hq : Stops isValueChar q) :
    ∃ z, replaceAll matchAssignment before 0 (t ++ q) = t ++ z ∧ Stops isTokenChar z ∧
      ∀ m, IsPlain m → m <:+: z → m <:+: q := by
  rcases masks_matchAssignment.parts_or_crosses before t q with
    h | ⟨k, m, v, rep, rest, rfl, hm, rfl, -, hr, -, h⟩
  · refine ⟨replaceAll matchAssignment (lastRead before t) 0 q, ?_, ?_,
      fun m hm => hm.infix_of_assignments⟩
    · rw [h, replaceAll_assignment_token before ht]
    · refine stops_isTokenChar fun c hc => hq c ?_
      rwa [masks_matchAssignment.head?_replaceAll
        (begins_of_stops isValueChar_of_isStart hq _)] at hc
  -- the token ends with the name of a secret, and what follows it assigns to that name
  obtain ⟨htk, htm⟩ := List.forall_mem_append.mp ht
  obtain ⟨-, name, sign, opening, value, ⟨hn, hs, gap, gap', hgap, -, rfl⟩, -, -, -, he, rfl⟩ :=
    matchAssignment_sound hr
  have hstop : Stops isTokenChar (gap ++ sign :: (gap' ++ (value ++ rest))) := by
    cases gap with
    | nil =>
      rintro c ⟨⟩
      exact isTokenChar_of_isSign hs
    | cons d gap =>
      rintro c ⟨⟩
      exact isTokenChar_of_isBlank (hgap d List.mem_cons_self)
  have he' : m ++ (v ++ rest) = name ++ (gap ++ sign :: (gap' ++ (value ++ rest))) := by
    rw [he]
    simp
  obtain ⟨rfl, -⟩ := append_inj_of_stops htm hn.isTokenChar (stops_isTokenChar hq) hstop he'
  rw [← List.append_assoc] at hr
  refine ⟨sign :: (mask.toList ++
    replaceAll matchAssignment (lastRead (lastRead before k) (m ++ v)) 0 rest), ?_, ?_, ?_⟩
  · rw [List.append_assoc, h, replaceAll_assignment_token before htk, ← List.append_assoc m,
      replaceAll_append (List.append_ne_nil_of_left_ne_nil hm v) hr]
    simp
  · rintro d ⟨⟩
    exact isTokenChar_of_isSign hs
  · intro w hw hi
    rcases infix_of_append_cons (u := []) (hw.sign sign hs) hi with hi | hi
    · rw [List.infix_nil.mp hi]
      exact List.nil_infix
    · have hrest := hw.infix_of_assignments (infix_of_mask_append hw.star hw.mask hi)
      exact hrest.trans (List.suffix_append v rest).isInfix

/-- There is no announcement in a token. -/
theorem replaceAll_bearer_token (before : Option Char) {t : List Char}
    (ht : AllOf isTokenChar t) : replaceAll matchBearer before 0 t = t := by
  refine masks_matchBearer.replaceAll_of_settled (settled_of_forall_none ?_)
  rintro b u v rfl
  cases h : matchBearer b v with
  | none => rfl
  | some r =>
    obtain ⟨-, opening, token, signs, ⟨word, gap, -, hne, hgap, rfl⟩, -, -, -, -, -, rfl, -⟩ :=
      matchBearer_sound h
    obtain ⟨g, gap, rfl⟩ := List.exists_cons_of_ne_nil hne
    have hg := isTokenChar_of_isBlank (hgap g List.mem_cons_self)
    exact absurd (ht g (by simp)) (ne_true_of_eq_false hg)

/-- A token that is not announced stays, but for the letters in which its end is written. -/
theorem exists_recased_of_replaceAll (before : Option Char) {t z : List Char}
    (ht : AllOf isTokenChar t) (hz : Stops isTokenChar z) :
    ∃ t' w, replaceAll matchBearer before 0 (t ++ z) = t' ++ w ∧ Recased t' t := by
  rcases masks_matchBearer.parts_or_crosses before t z with
    h | ⟨k, m, v, rep, rest, rfl, hm, rfl, -, hr, -, h⟩
  · exact ⟨t, _, by rw [h, replaceAll_bearer_token before ht], .refl t⟩
  -- the token ends with the word that announces another
  obtain ⟨htk, htm⟩ := List.forall_mem_append.mp ht
  obtain ⟨-, opening, token, signs, ⟨word, gap, hw, hne, hgap, rfl⟩, -, -, -, -, -, he, rfl⟩ :=
    matchBearer_sound hr
  have hstop : Stops isTokenChar (gap ++ (token ++ (signs ++ rest))) := by
    refine stops_append_left hne fun c hc => ?_
    exact isTokenChar_of_isBlank (hgap c (List.mem_of_head? hc))
  obtain ⟨rfl, -⟩ := append_inj_of_stops htm hw.isTokenChar hz hstop (he.trans (by simp))
  rw [← List.append_assoc] at hr
  refine ⟨k ++ bearerWord, ' ' :: mask.toList ++
    replaceAll matchBearer (lastRead (lastRead before k) (m ++ v)) 0 rest, ?_, ?_⟩
  · rw [List.append_assoc, h, replaceAll_bearer_token before htk, ← List.append_assoc m,
      replaceAll_append (List.append_ne_nil_of_left_ne_nil hm v) hr, bearerMask_eq]
    simp
  · refine ⟨k, bearerWord, m, rfl, rfl, List.prefix_rfl, hw.trans ?_⟩
    decide

/-! ### The word before a token -/

private theorem announces_bearerWord {b : Char} (hb : Text.isBlank b = true) :
    Announces (bearerWord ++ [b]) :=
  ⟨bearerWord, [b], isBearer_bearerWord, List.cons_ne_nil _ _,
    fun c hc => by rwa [List.mem_singleton.mp hc], rfl⟩

private theorem bearerWord_eq_concat : bearerWord = "Beare".toList ++ ['r'] := rfl

/-- An end of a text ends like the text. -/
theorem exists_concat_of_append {u k m : List Char} {c : Char} (h : u ++ [c] = k ++ m)
    (hm : m ≠ []) : ∃ n, m = n ++ [c] := by
  rcases List.eq_nil_or_concat m with rfl | ⟨n, d, rfl⟩
  · exact absurd rfl hm
  · rw [List.concat_eq_append, ← List.append_assoc] at h
    obtain ⟨-, h⟩ := List.append_inj' h rfl
    exact ⟨n, by rw [List.concat_eq_append, h]⟩

private theorem exists_concat_of_bearerWord {u k m : List Char} (h : u ++ bearerWord = k ++ m)
    (hm : m ≠ []) : ∃ n, m = n ++ ['r'] := by
  rw [bearerWord_eq_concat, ← List.append_assoc] at h
  exact exists_concat_of_append h hm

/-- No name of a secret ends like the word before a token. -/
theorem IsSecretName.ne_concat {name n : List Char} (h : IsSecretName name) :
    name ≠ n ++ ['r'] := by
  rintro rfl
  have hw : ∀ w ∈ secretWords, w.getLast? ≠ some 'r' := by decide
  exact hw _ h (by simp; decide)

/-- In an assignment up to its value, no blank follows the last letter of the word before a
token. -/
theorem Assigns.ne_append {name n o : List Char} {sign b : Char} {opening : List Char}
    (h : Assigns name sign opening) (hb : Text.isBlank b = true) :
    opening ≠ n ++ ['r'] ++ b :: o := by
  obtain ⟨hn, hs, gap, gap', hgap, hgap', rfl⟩ := h
  intro he
  have htail : ∀ d ∈ gap ++ sign :: gap', isTokenChar d = false := by
    intro d hd
    rcases List.mem_append.mp hd with hd | hd
    · exact isTokenChar_of_isBlank (hgap d hd)
    · rcases List.mem_cons.mp hd with rfl | hd
      · exact isTokenChar_of_isSign hs
      · exact isTokenChar_of_isBlank (hgap' d hd)
  rw [List.append_assoc name] at he
  rcases List.append_eq_append_iff.mp he with ⟨a, hr, ha⟩ | ⟨a, hr, ha⟩
  · by_cases hnil : a = []
    · exact hn.ne_concat (by rw [hr, hnil, List.append_nil])
    · obtain ⟨e, rfl⟩ := exists_concat_of_append hr hnil
      exact absurd (htail 'r' (by rw [ha]; simp)) (by decide)
  · cases a with
    | nil => exact hn.ne_concat (by rw [hr, List.append_nil])
    | cons c a =>
      obtain ⟨rfl, -⟩ := List.cons.inj ha
      have hc := hn.isTokenChar b (by rw [hr]; simp)
      exact absurd hc (ne_true_of_eq_false (isTokenChar_of_isBlank hb))

/-- Assignments are masked apart before and after the word and a blank. -/
theorem parts_assignment_bearerWord (before : Option Char) (u r : List Char) {b : Char}
    (hb : Text.isBlank b = true) : Parts matchAssignment before (u ++ bearerWord) (b :: r) := by
  rcases masks_matchAssignment.parts_or_crosses before (u ++ bearerWord) (b :: r) with
    h | ⟨k, m, v, rep, rest, hu, hm, hv, hv', hr, -, -⟩
  · exact h
  exfalso
  obtain ⟨n, rfl⟩ := exists_concat_of_bearerWord hu hm
  obtain ⟨c, v, rfl⟩ := List.exists_cons_of_ne_nil hv'
  obtain ⟨rfl, rfl⟩ := List.cons.inj hv
  obtain ⟨-, name, sign, opening, value, ho, -, hall, -, he, -⟩ := matchAssignment_sound hr
  have hnot : ∀ d ∈ value, d ≠ b := by
    rintro d hd rfl
    exact absurd hb (ne_true_of_eq_false (isBlank_of_isValueChar (hall d hd)))
  have he' : n ++ ['r'] ++ b :: v = opening ++ value := by
    have hrest : n ++ ['r'] ++ b :: v ++ rest = opening ++ value ++ rest := by simpa using he
    exact List.append_cancel_right hrest
  rcases List.append_eq_append_iff.mp he' with ⟨a, ha, hva⟩ | ⟨a, -, hva⟩
  · cases a with
    | nil => exact hnot b (by rw [← List.nil_append value, ← hva]; simp) rfl
    | cons d a =>
      obtain ⟨rfl, -⟩ := List.cons.inj hva
      exact ho.ne_append hb ha
  · exact hnot b (by rw [hva]; simp) rfl

/-- The word stays as it is when assignments are masked, unless it is a part of a value. -/
theorem replaceAll_assignment_bearerWord (before : Option Char) (u : List Char) :
    replaceAll matchAssignment before 0 (u ++ bearerWord) =
        replaceAll matchAssignment before 0 u ++ bearerWord ∨
      ∃ z, replaceAll matchAssignment before 0 (u ++ bearerWord) = z ++ mask.toList := by
  rcases masks_matchAssignment.parts_or_crosses before u bearerWord with
    h | ⟨k, m, v, rep, rest, rfl, hm, hv, -, hr, -, h⟩
  · refine .inl ?_
    rw [h, replaceAll_assignment_token _ isBearer_bearerWord.isTokenChar]
  refine .inr ?_
  obtain ⟨-, name, sign, opening, value, -, -, -, hstop, -, rfl⟩ := matchAssignment_sound hr
  -- nothing of the word is left behind the value
  obtain rfl : rest = [] := by
    cases rest with
    | nil => rfl
    | cons d rest =>
      have hd := isBearer_bearerWord.isTokenChar d (by rw [hv]; simp)
      exact absurd (isValueChar_of_isTokenChar hd) (ne_true_of_eq_false (hstop d rfl))
  rw [← List.append_nil (m ++ bearerWord)] at hr
  have hscan := replaceAll_append (List.append_ne_nil_of_left_ne_nil hm bearerWord) hr
  rw [List.append_nil, replaceAll_nil, List.append_nil] at hscan
  refine ⟨replaceAll matchAssignment before 0 k ++ (name ++ [sign]), ?_⟩
  rw [List.append_assoc, h, hscan]
  simp

/-- No bearer token has a star in it, or a blank behind its announcement. -/
theorem star_not_mem_of_matchBearer {before : Option Char} {u rep rest : List Char}
    (h : matchBearer before (u ++ rest) = some (rep, rest)) : '*' ∉ u := by
  obtain ⟨-, opening, token, signs, ⟨word, gap, hw, -, hgap, rfl⟩, -, hallt, halls, -, -, he, -⟩ :=
    matchBearer_sound h
  have hu : u = word ++ gap ++ token ++ signs :=
    List.append_cancel_right (he.trans (by simp))
  rw [hu]
  intro hstar
  simp only [List.mem_append] at hstar
  rcases hstar with ((hs | hs) | hs) | hs
  · exact absurd (hw.isTokenChar _ hs) (by decide)
  · exact absurd (hgap _ hs) (by decide)
  · exact absurd (hallt _ hs) (by decide)
  · exact absurd (halls _ hs) (by decide)

/-- Bearer tokens are masked apart before and after a star. -/
theorem parts_bearer_star (before : Option Char) (u v : List Char) :
    Parts matchBearer before (u ++ ['*']) v := by
  rcases masks_matchBearer.parts_or_crosses before (u ++ ['*']) v with
    h | ⟨k, m, w, rep, rest, hu, hm, rfl, -, hr, -, -⟩
  · exact h
  exfalso
  rw [← List.append_assoc] at hr
  obtain ⟨n, rfl⟩ := exists_concat_of_append hu hm
  exact star_not_mem_of_matchBearer hr (by simp)

private theorem replaceAll_bearer_star (before : Option Char) (u : List Char) :
    replaceAll matchBearer before 0 (u ++ ['*']) = replaceAll matchBearer before 0 u ++ ['*'] := by
  rcases masks_matchBearer.parts_or_crosses before u ['*'] with
    h | ⟨k, m, w, rep, rest, rfl, hm, hv, hw, hr, -, -⟩
  · rw [h]
    refine congrArg _ (replaceAll_of_none (masks_matchBearer.eq_none ?_))
    exact begins_of_not_isStart _ (by decide) []
  exfalso
  obtain ⟨c, w, rfl⟩ := List.exists_cons_of_ne_nil hw
  obtain ⟨rfl, -⟩ := List.cons.inj hv
  rw [hv, ← List.append_assoc] at hr
  exact star_not_mem_of_matchBearer hr (by simp)

/-- The word and the blank of an announcement, where it goes on behind a letter and a blank. -/
theorem eq_word_of_append {n v word gap tail : List Char} {b c : Char}
    (hw : AllOf isTokenChar word) (hgap : AllOf Text.isBlank gap)
    (htail : ∀ d ∈ tail, Text.isBlank d = false) (hc : isTokenChar c = true)
    (hb : Text.isBlank b = true) (he : n ++ [c] ++ b :: v = word ++ (gap ++ tail)) :
    n ++ [c] = word := by
  rcases List.append_eq_append_iff.mp he with ⟨a, rfl, ha⟩ | ⟨a, hn, ha⟩
  · cases a with
    | nil => rw [List.append_nil]
    | cons d a =>
      obtain ⟨rfl, -⟩ := List.cons.inj ha
      exact absurd (hw b (by simp)) (ne_true_of_eq_false (isTokenChar_of_isBlank hb))
  · by_cases hnil : a = []
    · rw [hn, hnil, List.append_nil]
    exfalso
    obtain ⟨e, rfl⟩ := exists_concat_of_append hn hnil
    -- the blank is in the gap, and then so is the letter before it
    rcases List.append_eq_append_iff.mp ha with ⟨x, -, ht⟩ | ⟨x, hg, -⟩
    · exact absurd hb (ne_true_of_eq_false (htail b (by rw [ht]; simp)))
    · have hg' := hgap c (by rw [hg]; simp)
      exact absurd hc (ne_true_of_eq_false (isTokenChar_of_isBlank hg'))

/-- Bearer tokens are masked apart before and after the word and a blank, unless the scan comes to
the word. Then it announces what follows the blank, and by itself it stays. -/
theorem parts_or_announced (before : Option Char) (u r : List Char) {b : Char}
    (hb : Text.isBlank b = true) :
    Parts matchBearer before (u ++ bearerWord) (b :: r) ∨
      replaceAll matchBearer before 0 (u ++ bearerWord) =
          replaceAll matchBearer before 0 u ++ bearerWord ∧
        ∃ b' rest, matchBearer (lastRead before u) (bearerWord ++ b :: r) =
            some (bearerMask, rest) ∧
          replaceAll matchBearer before 0 (u ++ bearerWord ++ b :: r) =
            replaceAll matchBearer before 0 u ++
              (bearerMask ++ replaceAll matchBearer b' 0 rest) := by
  rcases masks_matchBearer.parts_or_crosses before (u ++ bearerWord) (b :: r) with
    h | ⟨k, m, v, rep, rest, hu, hm, hv, hv', hr, hkm, hkv⟩
  · exact .inl h
  refine .inr ?_
  obtain ⟨n, rfl⟩ := exists_concat_of_bearerWord hu hm
  obtain ⟨c, v, rfl⟩ := List.exists_cons_of_ne_nil hv'
  obtain ⟨rfl, rfl⟩ := List.cons.inj hv
  obtain ⟨-, opening, token, signs, ⟨word, gap, hw, hne, hgap, rfl⟩, -, hallt, halls, -, -, he,
    rfl⟩ := matchBearer_sound hr
  have htail : ∀ d ∈ token ++ signs, Text.isBlank d = false := by
    intro d hd
    rcases List.mem_append.mp hd with hd | hd
    · exact isBlank_of_isTokenChar (hallt d hd)
    · rw [show d = '=' by simpa [isEquality] using halls d hd]
      decide
  have he' : n ++ ['r'] ++ b :: v = word ++ (gap ++ (token ++ signs)) := by
    have hrest : n ++ ['r'] ++ b :: v ++ rest = word ++ (gap ++ (token ++ signs)) ++ rest := by
      simpa using he
    exact List.append_cancel_right hrest
  obtain rfl := eq_word_of_append hw.isTokenChar hgap htail (by decide) hb he'
  have hlen : (n ++ ['r']).length = bearerWord.length := by
    rw [← List.length_map patternLetter, hw, ← isBearer_bearerWord, List.length_map]
  obtain ⟨rfl, hword⟩ := List.append_inj' hu hlen.symm
  rw [← hword] at hkm hkv hr
  have hr' : matchBearer (lastRead before u) (bearerWord ++ b :: v ++ rest) =
      some (bearerMask, rest) := by
    rw [List.append_assoc]
    exact hr
  refine ⟨?_, lastRead (lastRead before u) (bearerWord ++ b :: v), rest, hr, ?_⟩
  · rw [hkm, replaceAll_bearer_token _ isBearer_bearerWord.isTokenChar]
  · have hscan := replaceAll_append (by simp) hr'
    rw [List.append_assoc] at hscan
    rw [List.append_assoc, hkv]
    exact congrArg _ hscan

/-! ### Texts with a token -/

/-- The characters of a text with its secrets masked. -/
def redactChars (cs : List Char) : List Char :=
  replaceAll matchBearer none 0 (replaceAll matchAssignment none 0 cs)

private theorem toList_redactText (s : String) : (redactText s).toList = redactChars s.toList :=
  String.toList_ofList

private theorem begins_of_isBlank {b : Char} (hb : Text.isBlank b = true) (before : Option Char)
    (cs : List Char) : begins before (b :: cs) = false :=
  begins_of_not_isStart before (isStart_of_isBlank hb) cs

/-- A blank is read over. -/
theorem Masks.replaceAll_blank {pattern : Pattern} {Opens : List Char → Prop}
    {inSecret : Char → Bool} (hp : Masks pattern Opens inSecret) {b : Char}
    (hb : Text.isBlank b = true) (before : Option Char) (cs : List Char) :
    replaceAll pattern before 0 (b :: cs) = b :: replaceAll pattern (some b) 0 cs :=
  replaceAll_of_none (hp.eq_none (begins_of_isBlank hb before cs))

variable {p r : List Char} {b : Char}

/-- Assignments are masked in what goes before the token, the word included, and in what follows it.
-/
theorem replaceAll_assignment_append (p r : List Char) (hb : Text.isBlank b = true) :
    replaceAll matchAssignment none 0 (p ++ bearerWord ++ b :: r) =
      replaceAll matchAssignment none 0 (p ++ bearerWord) ++
        b :: replaceAll matchAssignment (some b) 0 r := by
  rw [parts_assignment_bearerWord none p r hb, masks_matchAssignment.replaceAll_blank hb]

/-- Where the word is taken for a secret, what follows it is redacted by itself. -/
theorem redactChars_of_taken (hb : Text.isBlank b = true)
    (h : redactChars (p ++ bearerWord) ≠ redactChars p ++ bearerWord) :
    redactChars (p ++ bearerWord ++ b :: r) =
      redactChars (p ++ bearerWord) ++ redactChars (b :: r) := by
  have hparts : Parts matchBearer none (replaceAll matchAssignment none 0 (p ++ bearerWord))
      (b :: replaceAll matchAssignment (some b) 0 r) := by
    rcases replaceAll_assignment_bearerWord none p with hw | ⟨z, hz⟩
    · rw [hw]
      refine (parts_or_announced none _ _ hb).resolve_right fun ha => h ?_
      rw [redactChars, hw]
      exact ha.1
    · rw [hz, mask_eq_concat, ← List.append_assoc]
      exact parts_bearer_star none _ _
  rw [redactChars, replaceAll_assignment_append p r hb, hparts, redactChars, redactChars,
    masks_matchAssignment.replaceAll_blank hb, masks_matchBearer.replaceAll_blank hb,
    masks_matchBearer.replaceAll_blank hb]

/-- In a text with masked bearer tokens, the word announces no token. -/
theorem not_announces_of_settled {before : Option Char} {d : Char} {w : List Char}
    (hb : Text.isBlank b = true) (hd : isTokenChar d = true)
    (hbefore : before.any Text.isWord = false)
    (hs : Settled matchBearer before (bearerWord ++ b :: d :: w)) : False := by
  have hword : bearerWord = 'B' :: "earer".toList := rfl
  have hbound : Text.isBoundary before (bearerWord ++ b :: d :: w).head? = true := by
    rw [hword, Text.isBoundary, hbefore]
    rfl
  have ho := announces_bearerWord hb
  have hsome := masks_matchBearer.isSome_iff.mpr ⟨hbound, _, d, w, by simp, ho, hd⟩
  obtain ⟨⟨rep, rest⟩, hm⟩ := Option.isSome_iff_exists.mp hsome
  have he : bearerWord ++ b :: d :: w = rep ++ rest := by
    rw [hword] at hs hm ⊢
    exact hs.1 rep rest hm
  obtain ⟨-, -, -, -, -, -, -, -, -, -, -, rfl⟩ := matchBearer_sound hm
  rw [bearerMask_eq, mask_eq_cons, List.append_assoc] at he
  obtain ⟨-, he⟩ := List.cons.inj (List.append_cancel_left he)
  obtain ⟨rfl, -⟩ := List.cons.inj he
  exact absurd hd (by decide)

/-- What a scan makes of a token begins with a character of a token. -/
theorem Masks.exists_replaceAll_token {pattern : Pattern} {Opens : List Char → Prop}
    {inSecret : Char → Bool} (hp : Masks pattern Opens inSecret) (before : Option Char) {c : Char}
    (hc : isTokenChar c = true) (cs : List Char) :
    ∃ d w, replaceAll pattern before 0 (c :: cs) = d :: w ∧ isTokenChar d = true := by
  obtain ⟨d, w, he, rfl | hd⟩ := hp.exists_replaceAll_cons before c cs
  · exact ⟨d, w, he, hc⟩
  · exact ⟨d, w, he, isTokenChar_of_isStart hd⟩

/-- No word character is read last in a redacted text if none is in the text. -/
theorem Masks.any_lastRead_replaceAll {pattern : Pattern} {Opens : List Char → Prop}
    {inSecret : Char → Bool} (hp : Masks pattern Opens inSecret) {before : Option Char}
    {cs : List Char} (h : (lastRead before cs).any Text.isWord = false) :
    (lastRead before (replaceAll pattern before 0 cs)).any Text.isWord = false := by
  rcases hp.lastRead_replaceAll before cs with he | he
  · rwa [he]
  · rw [he]
    decide

/-- Where the word is not taken for a secret, it announces the token. -/
theorem redactChars_of_not_taken {t q : List Char}
    (hp : (lastRead none p).any Text.isWord = false) (hb : Text.isBlank b = true) (hne : t ≠ [])
    (ht : AllOf isTokenChar t)
    (h : redactChars (p ++ bearerWord) = redactChars p ++ bearerWord) :
    ∃ before b' rest, matchBearer before
        (bearerWord ++ b :: replaceAll matchAssignment (some b) 0 (t ++ q)) =
          some (bearerMask, rest) ∧
      redactChars (p ++ bearerWord ++ b :: (t ++ q)) =
        redactChars p ++ (bearerMask ++ replaceAll matchBearer b' 0 rest) := by
  rcases replaceAll_assignment_bearerWord none p with hw | ⟨z, hz⟩
  · rcases parts_or_announced none (replaceAll matchAssignment none 0 p)
        (replaceAll matchAssignment (some b) 0 (t ++ q)) hb with hparts | ⟨-, b', rest, hm, he⟩
    · exfalso
      obtain ⟨c, t, rfl⟩ := List.exists_cons_of_ne_nil hne
      obtain ⟨d, w, hd, htd⟩ := masks_matchAssignment.exists_replaceAll_token (some b)
        (ht c List.mem_cons_self) (t ++ q)
      obtain ⟨e, x, he, hte⟩ := masks_matchBearer.exists_replaceAll_token (some b) htd w
      rw [List.cons_append, hd] at hparts
      have hs := settled_bearers none
        (replaceAll matchAssignment none 0 p ++ bearerWord ++ b :: d :: w)
      rw [redactChars, hw] at h
      rw [hparts, h, masks_matchBearer.replaceAll_blank hb, he, List.append_assoc] at hs
      exact not_announces_of_settled hb hte (masks_matchBearer.any_lastRead_replaceAll
        (masks_matchAssignment.any_lastRead_replaceAll hp)) hs.right
    · refine ⟨_, b', rest, hm, ?_⟩
      rw [redactChars, replaceAll_assignment_append p _ hb, hw]
      exact he
  · exfalso
    rw [redactChars, hz, mask_eq_concat, ← List.append_assoc, replaceAll_bearer_star,
      bearerWord_eq_concat, ← List.append_assoc] at h
    exact absurd (List.append_inj' h rfl).2 (by decide)

/-! ### Where a token survives -/

/-- A front of the word, in the letters in which redaction writes it, is a front of it in any
case. -/
theorem map_prefix_bearer {y : List Char} (h : y <+: bearerWord) :
    y.map patternLetter <+: "bearer".toList := by
  have hw : "bearer".toList = bearerWord.map patternLetter := isBearer_bearerWord.symm
  rw [hw]
  exact h.map patternLetter

/-- A plain word is plain also with its end written in other letters. -/
theorem Recased.isPlain {m m' : List Char} (h : Recased m m') (hm : IsPlain m) : IsPlain m' := by
  obtain ⟨x, y, y', rfl, rfl, hy, he⟩ := h
  have hletters : ∀ c ∈ y', patternLetter c ∈ "bearer".toList := by
    exact fun c hc => (map_prefix_bearer hy).subset (he ▸ List.mem_map_of_mem hc)
  have hnot : ∀ c, patternLetter c ∉ "bearer".toList → c ∉ x ++ y → c ∉ x ++ y' := by
    intro c hc hn hi
    rcases List.mem_append.mp hi with hi | hi
    · exact hn (List.mem_append_left y hi)
    · exact hc (hletters c hi)
  refine ⟨fun c hc => hnot c ?_ (hm.sign c hc), hnot '*' (by decide) hm.star, fun hi => ?_⟩
  · rcases isSign_cases hc with rfl | rfl <;> decide
  · cases y with
    | nil =>
      obtain rfl := List.map_eq_nil_iff.mp he
      exact hm.mask hi
    | cons c y =>
      -- the mask is without the letter with which the word begins
      obtain ⟨rfl, -⟩ : c = 'B' ∧ y <+: "earer".toList := List.cons_prefix_cons.mp hy
      obtain ⟨d, y', rfl, hd, -⟩ := List.map_eq_cons_iff.mp he
      have hb := noB_mask d (hi.subset (by simp))
      rw [isNoB, hd] at hb
      exact absurd hb (by decide)

private theorem isPlain_of_token {t : List Char} (ht : AllOf isTokenChar t)
    (hm : ¬ t <:+: mask.toList) :
    IsPlain t := by
  refine ⟨fun c hc hi => ?_, fun hi => absurd (ht '*' hi) (by decide), hm⟩
  exact absurd (ht c hi) (ne_true_of_eq_false (isTokenChar_of_isSign hc))

variable {t q : List Char}

/-- Where the word is taken for a secret, the token stays, but for the letters in which its end is
written. -/
theorem exists_recased_of_taken (p : List Char) (ht : AllOf isTokenChar t)
    (hq : Stops isValueChar q) (hb : Text.isBlank b = true)
    (h : redactChars (p ++ bearerWord) ≠ redactChars p ++ bearerWord) :
    ∃ t', Recased t' t ∧ t' <:+: redactChars (p ++ bearerWord ++ b :: (t ++ q)) := by
  obtain ⟨z, hz, hstop, -⟩ := replaceAll_token (some b) ht hq
  obtain ⟨t', w, hw, hr⟩ := exists_recased_of_replaceAll (some b) ht hstop
  have he : redactChars (b :: (t ++ q)) = b :: (t' ++ w) := by
    rw [redactChars, masks_matchAssignment.replaceAll_blank hb, hz,
      masks_matchBearer.replaceAll_blank hb, hw]
  rw [redactChars_of_taken hb h, he]
  exact ⟨t', hr, redactChars (p ++ bearerWord) ++ [b], w, by simp⟩

/-- What follows an announced token is left, up to signs of equality at its front. -/
theorem suffix_of_announced {before : Option Char} {z rest : List Char} (hne : t ≠ [])
    (ht : AllOf isTokenChar t) (hz : Stops isTokenChar z) (hb : Text.isBlank b = true)
    (h : matchBearer before (bearerWord ++ b :: (t ++ z)) = some (bearerMask, rest)) :
    rest <:+ z := by
  obtain ⟨he, halls, hstop⟩ := takeWhile_dropWhile isEquality z
  have ho := announces_bearerWord hb
  have hsplit : bearerWord ++ b :: (t ++ z) =
      bearerWord ++ [b] ++ (t ++ (z.takeWhile isEquality ++ z.dropWhile isEquality)) := by
    rw [← he]
    simp
  have hbound := (matchBearer_sound h).1
  rw [hsplit] at h hbound
  have hm := matchBearer_complete ho hne ht halls (he ▸ hz) hstop hbound
  obtain ⟨-, rfl⟩ := Prod.mk.inj (Option.some.inj (h.symm.trans hm))
  exact List.dropWhile_suffix isEquality

/-- Where the word is not taken for a secret, the token occurs only as far as it has occurred apart
from where it was announced, but for the letters in which its end was written. -/
theorem exists_recased_of_not_taken (hp : (lastRead none p).any Text.isWord = false)
    (hne : t ≠ []) (ht : AllOf isTokenChar t) (hm : ¬ t <:+: bearerMask) (hq : Stops isValueChar q)
    (hb : Text.isBlank b = true)
    (h : redactChars (p ++ bearerWord) = redactChars p ++ bearerWord)
    (hi : t <:+: redactChars (p ++ bearerWord ++ b :: (t ++ q))) :
    ∃ t', Recased t t' ∧ (t' <:+: p ++ bearerWord ∨ t' <:+: q) := by
  have hblank : ' ' ∉ t := fun hmem => absurd (ht ' ' hmem) (by decide)
  have hplain := isPlain_of_token ht fun hmask => hm (hmask.trans mask_suffix_bearerMask.isInfix)
  obtain ⟨z, hz, hstop, hwords⟩ := replaceAll_token (some b) ht hq
  obtain ⟨before, b', rest, hmatch, he⟩ := redactChars_of_not_taken (q := q) hp hb hne ht h
  rw [he, bearerMask_eq, List.append_assoc bearerWord, ← List.append_assoc, ← h,
    List.cons_append] at hi
  rcases infix_of_append_cons hblank hi with hi | hi
  · obtain ⟨t', hr, hi⟩ := exists_infix_of_bearers hblank hplain.star hm hi
    exact ⟨t', hr, .inl ((hr.isPlain hplain).infix_of_assignments hi)⟩
  · have hrest := infix_of_mask_append hplain.star hplain.mask hi
    obtain ⟨t', hr, hi⟩ := exists_infix_of_bearers hblank hplain.star hm hrest
    rw [hz] at hmatch
    have hsuffix := suffix_of_announced hne ht hstop hb hmatch
    exact ⟨t', hr, .inr (hwords t' (hr.isPlain hplain) (hi.trans hsuffix.isInfix))⟩

/-- A text occurs in another. -/
def Occurs (t s : String) : Prop := t.toList <:+: s.toList

/-- After a text, the word before a token is itself taken for a secret, or for a part of one. -/
def TakesWord (p : String) : Prop := redactText (p ++ "Bearer") ≠ redactText p ++ "Bearer"

/-- The end of a text is a front of the word before a token, in any case of letters. -/
def EndsLikeWord (t : String) : Prop :=
  ∃ x y, t.toList = x ++ y ∧ y ≠ [] ∧ y.map patternLetter <+: "bearer".toList

/-- A text that does not end like the word before a token is not written in another way. -/
theorem Recased.eq_of_not_endsLikeWord {t : String} (h : ¬ EndsLikeWord t) {m : List Char} :
    (Recased m t.toList → m = t.toList) ∧ (Recased t.toList m → m = t.toList) := by
  constructor
  · rintro ⟨x, y, y', rfl, ht, hy, he⟩
    have hnil : y' = [] := by
      refine Classical.not_not.mp fun hne => h ⟨x, y', ht, hne, ?_⟩
      rw [he]
      exact map_prefix_bearer hy
    subst hnil
    rw [ht, List.map_eq_nil_iff.mp he.symm]
  · rintro ⟨x, y, y', ht, rfl, hy, he⟩
    have hnil : y = [] := Classical.not_not.mp fun hne => h ⟨x, y, ht, hne, map_prefix_bearer hy⟩
    subst hnil
    rw [ht, List.map_eq_nil_iff.mp he]

/-- A text that does not end like the word occurs no more often with the word put behind. -/
theorem Occurs.of_append_word {t p : String} (h : Occurs t (p ++ "Bearer"))
    (htm : ¬ Occurs t "Bearer") (he : ¬ EndsLikeWord t) : Occurs t p := by
  rw [Occurs, String.toList_append] at h
  rcases infix_append_cases h with h | h | ⟨x, y, ht, hx, hy⟩
  · exact h
  · exact absurd h htm
  · have hnil : y = [] := Classical.not_not.mp fun hne => he ⟨x, y, ht, hne, map_prefix_bearer hy⟩
    rw [Occurs, ht, hnil, List.append_nil]
    exact hx.isInfix

private theorem takesWord_iff (p : String) :
    TakesWord p ↔ redactChars (p.toList ++ bearerWord) ≠ redactChars p.toList ++ bearerWord := by
  rw [TakesWord, ne_eq, ne_eq, ← String.toList_inj, String.toList_append, toList_redactText,
    toList_redactText, String.toList_append, bearerWord]

private theorem lastRead_none (cs : List Char) : lastRead none cs = cs.getLast? := by
  rcases List.eq_nil_or_concat cs with rfl | ⟨cs, c, rfl⟩
  · rfl
  · rw [List.concat_eq_append, lastRead_append, List.getLast?_concat]
    rfl

private theorem any_isWord_lastRead {p : String}
    (hp : ∀ c, p.toList.getLast? = some c → Text.isWord c = false) :
    (lastRead none p.toList).any Text.isWord = false := by
  rw [lastRead_none]
  cases h : p.toList.getLast? with
  | none => rfl
  | some c => exact hp c h

private theorem stops_isValueChar {q : String}
    (hq : ∀ c, q.toList.head? = some c → Text.isBlank c = true ∨ c = ',' ∨ c = ';') :
    Stops isValueChar q.toList := by
  intro c hc
  rcases hq c hc with hb | rfl | rfl
  · exact eq_false_of_excludes isBlank_of_isValueChar hb
  · decide
  · decide

/-- The characters of a text with an announced token. -/
theorem toList_announced (p t q : String) : (p ++ "Bearer " ++ t ++ q).toList =
    p.toList ++ bearerWord ++ ' ' :: (t.toList ++ q.toList) := by
  have hb : "Bearer ".toList = bearerWord ++ [' '] := rfl
  simp [hb]

/-- Where the word is taken for a secret, what follows it is redacted as if it stood alone. -/
theorem TakesWord.redactText_eq {p : String} (h : TakesWord p) (t q : String) :
    redactText (p ++ "Bearer " ++ t ++ q) =
      redactText (p ++ "Bearer") ++ redactText (" " ++ t ++ q) := by
  have hrest : (" " ++ t ++ q).toList = ' ' :: (t.toList ++ q.toList) := by simp
  rw [← String.toList_inj, String.toList_append, toList_redactText, toList_redactText,
    toList_redactText, toList_announced, hrest, String.toList_append]
  exact redactChars_of_taken (by decide) ((takesWord_iff p).mp h)

/-- Where the word is taken for a secret, the token stays, but for the letters in which its end is
written. -/
theorem TakesWord.exists_recased {p t q : String} (h : TakesWord p)
    (hq : Stops isValueChar q.toList) (ht : AllOf isTokenChar t.toList) :
    ∃ t', Recased t'.toList t.toList ∧ Occurs t' (redactText (p ++ "Bearer " ++ t ++ q)) := by
  obtain ⟨t', hr, hi⟩ :=
    exists_recased_of_taken p.toList ht hq (b := ' ') (by decide) ((takesWord_iff p).mp h)
  refine ⟨String.ofList t', ?_, ?_⟩
  · rwa [String.toList_ofList]
  · rwa [Occurs, toList_redactText, toList_announced, String.toList_ofList]

/-- Where the word is not taken for a secret, the token occurs only if it occurs before it or after
it as well, but for the letters in which its end is written. -/
theorem exists_recased_of_not_takesWord {p t q : String} (h : ¬ TakesWord p)
    (hp : (lastRead none p.toList).any Text.isWord = false) (hq : Stops isValueChar q.toList)
    (hne : t ≠ "") (ht : AllOf isTokenChar t.toList) (htm : ¬ Occurs t "Bearer ***REDACTED***")
    (hi : Occurs t (redactText (p ++ "Bearer " ++ t ++ q))) :
    ∃ t', Recased t.toList t'.toList ∧ (Occurs t' (p ++ "Bearer") ∨ Occurs t' q) := by
  have h' := Classical.not_not.mp (mt (takesWord_iff p).mpr h)
  have hnil : t.toList ≠ [] := fun he => hne (String.toList_inj.mp he)
  rw [Occurs, toList_redactText, toList_announced] at hi
  obtain ⟨t', hr, hi'⟩ := exists_recased_of_not_taken hp hnil ht htm hq (by decide) h' hi
  refine ⟨String.ofList t', ?_, ?_⟩
  · rwa [String.toList_ofList]
  · rwa [Occurs, Occurs, String.toList_ofList, String.toList_append]

/-- What becomes of a token after the word that announces it. Where the word is taken for a secret,
what follows it is redacted as if it stood alone, and the token is left, but for the letters in
which its end is written. Where it is not, the token occurs only if it occurs before it or after it
as well, but for the letters in which its end is written. So a token that does not end like the word
survives exactly where the word is taken for a secret. -/
theorem bearerToken_occurs_iff {p t q : String}
    (hp : ∀ c, p.toList.getLast? = some c → Text.isWord c = false)
    (hq : ∀ c, q.toList.head? = some c → Text.isBlank c = true ∨ c = ',' ∨ c = ';')
    (hne : t ≠ "") (ht : ∀ c ∈ t.toList, isTokenChar c = true) (htp : ¬ Occurs t p)
    (htq : ¬ Occurs t q) (htm : ¬ Occurs t "Bearer ***REDACTED***") :
    (TakesWord p →
      redactText (p ++ "Bearer " ++ t ++ q) =
          redactText (p ++ "Bearer") ++ redactText (" " ++ t ++ q) ∧
        ∃ t', Recased t'.toList t.toList ∧ Occurs t' (redactText (p ++ "Bearer " ++ t ++ q))) ∧
    (¬ TakesWord p → Occurs t (redactText (p ++ "Bearer " ++ t ++ q)) →
      ∃ t', Recased t.toList t'.toList ∧ (Occurs t' (p ++ "Bearer") ∨ Occurs t' q)) ∧
    (¬ EndsLikeWord t →
      (Occurs t (redactText (p ++ "Bearer " ++ t ++ q)) ↔ TakesWord p)) := by
  have hlast := any_isWord_lastRead hp
  have hstop := stops_isValueChar hq
  have hleft (h : ¬ TakesWord p) :=
    exists_recased_of_not_takesWord h hlast hstop hne ht htm
  refine ⟨fun h => ⟨h.redactText_eq t q, h.exists_recased hstop ht⟩, hleft, fun he => ?_⟩
  constructor
  · refine fun hi => Classical.not_not.mp fun h => ?_
    obtain ⟨t', hr, hi'⟩ := hleft h hi
    obtain rfl := String.toList_inj.mp ((Recased.eq_of_not_endsLikeWord he).2 hr)
    rcases hi' with hi' | hi'
    · have hword : ¬ Occurs t' "Bearer" := fun hw =>
        htm (hw.trans (List.prefix_append bearerWord _).isInfix)
      exact htp (hi'.of_append_word hword he)
    · exact htq hi'
  · intro h
    obtain ⟨t', hr, hi⟩ := h.exists_recased hstop ht
    obtain rfl := String.toList_inj.mp ((Recased.eq_of_not_endsLikeWord he).1 hr)
    exact hi

/-- The name of a header takes the word, and the token stays; with nothing before it, it is
masked. -/
theorem header_takes_word :
    (TakesWord "authorization: " ∧
      Occurs "abc123" (redactText "authorization: Bearer abc123")) ∧
    ¬ TakesWord "" ∧ ¬ Occurs "abc123" (redactText "Bearer abc123") := by
  have hstop : ∀ c, "".toList.head? = some c → Text.isBlank c = true ∨ c = ',' ∨ c = ';' := nofun
  have htoken : ∀ c ∈ "abc123".toList, isTokenChar c = true := List.all_eq_true.mp rfl
  have hblank : ∀ c, "authorization: ".toList.getLast? = some c → Text.isWord c = false := by
    intro c hc
    obtain rfl : ' ' = c := Option.some.inj hc
    decide
  have hend : ¬ EndsLikeWord "abc123" := by
    rintro ⟨x, y, he, hne, hy⟩
    have hlast : "abc123".toList = "abc12".toList ++ ['3'] := rfl
    obtain ⟨n, rfl⟩ := exists_concat_of_append (hlast.symm.trans he) hne
    have hmem : patternLetter '3' ∈ "bearer".toList :=
      hy.subset (List.mem_map_of_mem (by simp))
    exact absurd hmem (by decide)
  have hnot : ∀ {s}, occursIn "abc123".toList s.toList = false → ¬ Occurs "abc123" s :=
    fun h hi => absurd (occursIn_iff.mpr hi) (ne_true_of_eq_false h)
  have hmask := hnot (s := "Bearer ***REDACTED***") (by decide)
  have hnil := hnot (s := "") (by decide)
  have hheader := (bearerToken_occurs_iff (p := "authorization: ") (q := "") hblank
    hstop (by decide) htoken (hnot (by decide)) hnil hmask).2.2 hend
  have hbare := (bearerToken_occurs_iff (p := "") (q := "") nofun hstop (by decide) htoken hnil hnil
    hmask).2.2 hend
  have htakes : TakesWord "authorization: " := by
    unfold TakesWord
    decide
  have hleaves : ¬ TakesWord "" := by
    unfold TakesWord
    decide
  exact ⟨⟨htakes, hheader.mpr htakes⟩, hleaves, mt hbare.mp hleaves⟩

end SchemaBinding.Log
