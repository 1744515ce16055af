import SchemaBinding.Proofs.PatternLetters

/-!
# Scans for a pattern

Redaction reads a text from left to right and replaces the matches of a pattern as it comes to them.
The two patterns have much in common, which `Masks` states: a match begins at a word boundary, with
an opening in which no other match can begin, and goes on with at least one character of a secret.
From that follows what a scan leaves behind: no new match next to a replacement, and the same parts
wherever no match reaches across from one part into the other.
-/

namespace SchemaBinding.Log

/-- What a pattern makes of the front of a text, given the character before it: what takes the place
of the match, and what follows it. -/
abbrev Pattern := Option Char → List Char → Option (List Char × List Char)

/-! ### Where matches begin -/

/-- The character read last, once a text has been read. -/
def lastRead (before : Option Char) : List Char → Option Char
  | [] => before
  | c :: cs => lastRead (some c) cs

/-- The character read last of two texts is that of the second, once the first has been read. -/
theorem lastRead_append (before : Option Char) (u v : List Char) :
    lastRead before (u ++ v) = lastRead (lastRead before u) v := by
  induction u generalizing before with
  | nil => rfl
  | cons c u ih => exact ih (some c)

/-- Whether a match can begin at the front of a text. -/
def begins (before : Option Char) (cs : List Char) : Bool :=
  Text.isBoundary before cs.head? && cs.head?.any isStart

/-- No match begins with a character that begins none. -/
theorem begins_of_not_isStart {c : Char} (before : Option Char) (h : isStart c = false)
    (cs : List Char) : begins before (c :: cs) = false := by
  rw [begins, List.head?_cons, Option.any_some, h, Bool.and_false]

/-- Whether a match can begin shows in the letter that the first character is a form of. -/
theorem begins_congr {c d : Char} (h : patternLetter c = patternLetter d) (before : Option Char)
    (u v : List Char) : begins before (c :: u) = begins before (d :: v) := by
  have hw : Text.isWord c = Text.isWord d := by
    rw [← isWord_patternLetter c, h, isWord_patternLetter]
  simp only [begins, List.head?_cons, Option.any_some, Text.isBoundary, hw, isStart, h]

/-- Whether no match can begin anywhere in a text. -/
def quiet (before : Option Char) : List Char → Bool
  | [] => true
  | c :: cs => !begins before (c :: cs) && quiet (some c) cs

/-- No match begins in two texts if none begins in the first and then none in the second. -/
theorem quiet_append (before : Option Char) (u v : List Char) :
    quiet before (u ++ v) = (quiet before u && quiet (lastRead before u) v) := by
  induction u generalizing before with
  | nil => rfl
  | cons c u ih =>
    rw [List.cons_append, quiet, quiet, ih, lastRead, Bool.and_assoc]
    rfl

/-- No match begins in a text without characters that begin one. -/
theorem quiet_of_not_isStart (before : Option Char) {cs : List Char}
    (h : ∀ c ∈ cs, isStart c = false) : quiet before cs = true := by
  induction cs generalizing before with
  | nil => rfl
  | cons c cs ih =>
    obtain ⟨hc, hcs⟩ := List.forall_mem_cons.mp h
    rw [quiet, begins_of_not_isStart before hc, ih _ hcs]
    rfl

/-- No match begins anywhere in a quiet text, whatever follows there. -/
theorem begins_of_quiet {before : Option Char} {u v : List Char} {c : Char}
    (h : quiet before (u ++ c :: v) = true) (w : List Char) :
    begins (lastRead before u) (c :: w) = false := by
  rw [quiet_append, Bool.and_eq_true, quiet, Bool.and_eq_true, Bool.not_eq_true'] at h
  exact h.2.1

/-- Whether a text is quiet shows in the letters that its characters are forms of. -/
theorem quiet_map_patternLetter (c : Char) (cs : List Char) :
    quiet (some (patternLetter c)) (cs.map patternLetter) = quiet (some c) cs := by
  induction cs generalizing c with
  | nil => rfl
  | cons d cs ih =>
    simp only [List.map_cons, quiet, ih, begins, List.head?_cons, Text.isBoundary,
      Option.any_some, isWord_patternLetter, isStart_patternLetter]

/-! ### Patterns -/

/-- What the patterns of secrets have in common. -/
structure Masks (pattern : Pattern) (Opens : List Char → Prop) (inSecret : Char → Bool) :
    Prop where
  /-- A match is at a word boundary: an opening and a character of a secret. -/
  isSome_iff {before : Option Char} {cs : List Char} :
    (pattern before cs).isSome = true ↔ Text.isBoundary before cs.head? = true ∧
      ∃ u c v, cs = u ++ c :: v ∧ Opens u ∧ inSecret c = true
  /-- An opening begins like a match, and nothing else begins in it. -/
  opens {u : List Char} : Opens u →
    ∃ c v, u = c :: v ∧ isStart c = true ∧ quiet (some c) v = true
  /-- The secret can be the beginning of another match. -/
  inSecret_of_isStart {c : Char} : isStart c = true → inSecret c = true
  /-- Of what goes before it matters only whether there is a word boundary. -/
  congr {b b' : Option Char} {cs : List Char} :
    Text.isBoundary b cs.head? = Text.isBoundary b' cs.head? → pattern b cs = pattern b' cs
  /-- A match takes up a part of the text. What takes its place begins alike, ends with the mask and
  is quiet, and what follows begins a match after the mask if it does so after the match. -/
  takes {before : Option Char} {cs rep rest : List Char} : pattern before cs = some (rep, rest) →
    ∃ c m d w, cs = c :: m ++ rest ∧ rep = d :: w ∧ patternLetter d = patternLetter c ∧
      quiet (some d) w = true ∧ lastRead (some d) w = some '*' ∧
      begins (lastRead (some c) m) rest = begins (some '*') rest
  /-- What is not taken up does not matter from its second character on. -/
  cut {before : Option Char} {u v rep rest : List Char} :
    pattern before (u ++ v) = some (rep, rest ++ v) → pattern before u = some (rep, rest)

section Scan

variable {pattern : Pattern} {before b b' : Option Char} {c : Char} {cs m rep rest : List Char}

/-! ### One step of a scan -/

/-- There is nothing to replace in an empty text. -/
@[simp] theorem replaceAll_nil : replaceAll pattern before 0 [] = [] := rfl

/-- A character at which nothing matches is kept. -/
theorem replaceAll_of_none (h : pattern before (c :: cs) = none) :
    replaceAll pattern before 0 (c :: cs) = c :: replaceAll pattern (some c) 0 cs := by
  rw [replaceAll, h]

private theorem replaceAll_length (before : Option Char) (m rest : List Char) :
    replaceAll pattern before m.length (m ++ rest) =
      replaceAll pattern (lastRead before m) 0 rest := by
  induction m generalizing before with
  | nil => rfl
  | cons c m ih => exact ih (some c)

/-- A match at the front of a text is replaced, and the scan goes on behind it. -/
theorem replaceAll_of_some (h : pattern before (c :: m ++ rest) = some (rep, rest)) :
    replaceAll pattern before 0 (c :: m ++ rest) =
      rep ++ replaceAll pattern (lastRead (some c) m) 0 rest := by
  rw [List.cons_append] at h ⊢
  rw [replaceAll, h]
  dsimp only
  rw [List.length_append, Nat.add_sub_cancel, replaceAll_length]

/-- A match that is not empty is replaced, and the scan goes on behind it. -/
theorem replaceAll_append (hm : m ≠ []) (h : pattern before (m ++ rest) = some (rep, rest)) :
    replaceAll pattern before 0 (m ++ rest) =
      rep ++ replaceAll pattern (lastRead before m) 0 rest := by
  cases m with
  | nil => exact absurd rfl hm
  | cons c m => exact replaceAll_of_some h

namespace Masks

variable {Opens : List Char → Prop} {inSecret : Char → Bool}
  (hp : Masks pattern Opens inSecret)
include hp

/-- Where a pattern matches, a match can begin. -/
theorem begins_of_some {r : List Char × List Char} (h : pattern before cs = some r) :
    begins before cs = true := by
  obtain ⟨hb, u, d, v, rfl, hu, -⟩ := hp.isSome_iff.mp (Option.isSome_iff_exists.mpr ⟨r, h⟩)
  obtain ⟨c, w, rfl, hc, -⟩ := hp.opens hu
  rw [begins, hb]
  exact hc

/-- Where no match can begin, no pattern matches. -/
theorem eq_none (h : begins before cs = false) : pattern before cs = none := by
  cases hm : pattern before cs with
  | none => rfl
  | some r => exact absurd (hp.begins_of_some hm) (ne_true_of_eq_false h)

private theorem congr_begins (h : begins b cs = begins b' cs) : pattern b cs = pattern b' cs := by
  cases hb : begins b cs with
  | false => rw [hp.eq_none hb, hp.eq_none (h ▸ hb)]
  | true =>
    have hl := (Bool.and_eq_true_iff.mp hb).1
    have hr := (Bool.and_eq_true_iff.mp (h ▸ hb)).1
    exact hp.congr (hl.trans hr.symm)

/-- The scan of a text goes on from character to character, or past a match. -/
theorem scan_induction {motive : Option Char → List Char → Prop} (nil : ∀ b, motive b [])
    (keep : ∀ b c cs, pattern b (c :: cs) = none → motive (some c) cs → motive b (c :: cs))
    (replace : ∀ b c m rest rep, pattern b (c :: m ++ rest) = some (rep, rest) →
      motive (lastRead (some c) m) rest → motive b (c :: m ++ rest))
    (before : Option Char) (cs : List Char) : motive before cs := by
  match cs with
  | [] => exact nil before
  | c :: cs =>
    cases h : pattern before (c :: cs) with
    | none => exact keep before c cs h (scan_induction nil keep replace (some c) cs)
    | some r =>
      obtain ⟨rep, rest⟩ := r
      obtain ⟨d, m, -, -, he, -⟩ := hp.takes h
      have hlt : rest.length < cs.length + 1 := by
        rw [← List.length_cons (a := c), he, List.length_append]
        exact Nat.lt_add_of_pos_left (Nat.succ_pos _)
      rw [he] at h ⊢
      exact replace before d m rest rep h (scan_induction nil keep replace _ rest)
termination_by cs.length

/-- After a scan a match can begin where it could before. -/
theorem begins_replaceAll (b before : Option Char) (cs : List Char) :
    begins b (replaceAll pattern before 0 cs) = begins b cs := by
  cases cs with
  | nil => rfl
  | cons c cs =>
    cases h : pattern before (c :: cs) with
    | none =>
      rw [replaceAll_of_none h]
      rfl
    | some r =>
      obtain ⟨rep, rest⟩ := r
      obtain ⟨c', m, d, w, he, rfl, hd, -⟩ := hp.takes h
      rw [he] at h ⊢
      rw [replaceAll_of_some h]
      exact begins_congr hd b _ _

/-- A text at the front of which no match can begin keeps its first character. -/
theorem head?_replaceAll (h : begins before cs = false) :
    (replaceAll pattern before 0 cs).head? = cs.head? := by
  cases cs with
  | nil => rfl
  | cons c cs =>
    rw [replaceAll_of_none (hp.eq_none h)]
    rfl

/-! ### What a scan leaves behind -/

/-- A scan changes nothing before the first match, and puts there a form of its first character. -/
theorem replaceAll_eq_or (before : Option Char) (cs : List Char) :
    replaceAll pattern before 0 cs = cs ∨
      ∃ u c v d w r, cs = u ++ c :: v ∧ replaceAll pattern before 0 cs = u ++ d :: w ∧
        pattern (lastRead before u) (c :: v) = some r ∧ patternLetter d = patternLetter c := by
  induction before, cs using hp.scan_induction with
  | nil b => exact .inl rfl
  | keep b c cs h ih =>
    rw [replaceAll_of_none h]
    rcases ih with ih | ⟨u, x, v, y, w, r, rfl, he, hr, hxy⟩
    · exact .inl (congrArg (c :: ·) ih)
    · exact .inr ⟨c :: u, x, v, y, w, r, rfl, congrArg (c :: ·) he, hr, hxy⟩
  | replace b c m rest rep h ih =>
    obtain ⟨c', m', d, w, he, rfl, hd, -⟩ := hp.takes h
    obtain ⟨rfl, -⟩ := List.cons.inj (List.append_cancel_right he)
    rw [replaceAll_of_some h]
    exact .inr ⟨[], c, m ++ rest, d, _, _, rfl, rfl, h, hd⟩

/-- Where a match begins behind the first character of an opening, the opening has ended, and so has
the character of a secret after it, unless that is the one with which the match begins. -/
theorem opening_ends {o u t w : List Char} {y z : Char} (ho : Opens o)
    (he : c :: u ++ y :: w = o ++ z :: t) (hb : begins (lastRead (some c) u) (y :: w) = true) :
    (o = c :: u ∧ z = y) ∨ ∃ v, c :: u = o ++ z :: v := by
  rcases List.append_eq_append_iff.mp he with ⟨v, hv, hw⟩ | ⟨v, hv, ht⟩
  · cases v with
    | nil => exact .inl ⟨hv.trans (List.append_nil _), (List.cons.inj hw).1.symm⟩
    | cons a v =>
      exfalso
      obtain ⟨rfl, -⟩ := List.cons.inj hw
      obtain ⟨d, q, rfl, -, hq⟩ := hp.opens ho
      obtain ⟨rfl, rfl⟩ := List.cons.inj hv
      exact absurd hb (ne_true_of_eq_false (begins_of_quiet hq w))
  · cases v with
    | nil => exact .inl ⟨(hv.trans (List.append_nil _)).symm, (List.cons.inj ht).1⟩
    | cons a v =>
      obtain ⟨rfl, -⟩ := List.cons.inj ht
      exact .inr ⟨v, hv⟩

/-- Where a pattern does not match, it does not match either once the text behind has been scanned.
-/
theorem eq_none_cons_replaceAll (h : pattern before (c :: cs) = none) :
    pattern before (c :: replaceAll pattern (some c) 0 cs) = none := by
  rcases hp.replaceAll_eq_or (some c) cs with he | ⟨u, x, v, y, w, r, rfl, he, hr, hxy⟩
  · rw [he, h]
  rw [← Option.not_isSome_iff_eq_none] at h ⊢
  refine fun hm => h ?_
  rw [he] at hm
  obtain ⟨hbound, o, z, t, ho, hopens, hz⟩ := hp.isSome_iff.mp hm
  have hb := hp.begins_of_some hr
  have hx : inSecret x = true := hp.inSecret_of_isStart (Bool.and_eq_true_iff.mp hb).2
  rw [begins_congr hxy.symm _ v w] at hb
  refine hp.isSome_iff.mpr ⟨hbound, ?_⟩
  rcases hp.opening_ends hopens ho hb with ⟨rfl, -⟩ | ⟨q, hq⟩
  · exact ⟨c :: u, x, v, rfl, hopens, hx⟩
  · refine ⟨o, z, q ++ x :: v, ?_, hopens, hz⟩
    rw [← List.cons_append, hq, List.append_assoc, List.cons_append]

/-! ### Settled texts -/

end Masks

/-- What a pattern makes of the matches in a text is what stands there already. -/
def Settled (pattern : Pattern) (before : Option Char) : List Char → Prop
  | [] => True
  | c :: cs =>
    (∀ rep rest, pattern before (c :: cs) = some (rep, rest) → c :: cs = rep ++ rest) ∧
      Settled pattern (some c) cs

/-- The rest of a settled text is settled. -/
theorem Settled.right {u v : List Char} (h : Settled pattern before (u ++ v)) :
    Settled pattern (lastRead before u) v := by
  induction u generalizing before with
  | nil => exact h
  | cons c u ih => exact ih h.2

namespace Masks

variable {Opens : List Char → Prop} {inSecret : Char → Bool}
  (hp : Masks pattern Opens inSecret)
include hp

private theorem settled_congr (h : begins b cs = begins b' cs) (hs : Settled pattern b cs) :
    Settled pattern b' cs := by
  cases cs with
  | nil => trivial
  | cons c cs =>
    refine ⟨fun rep rest hm => hs.1 rep rest ?_, hs.2⟩
    rw [hp.congr_begins h, hm]

private theorem settled_quiet_append {u v : List Char} (hq : quiet before u = true)
    (hs : Settled pattern (lastRead before u) v) : Settled pattern before (u ++ v) := by
  induction u generalizing before with
  | nil => exact hs
  | cons c u ih =>
    rw [quiet, Bool.and_eq_true, Bool.not_eq_true'] at hq
    refine ⟨fun rep rest hm => ?_, ih hq.2 hs⟩
    have hn : begins before (c :: (u ++ v)) = false := hq.1
    cases (hp.eq_none hn).symm.trans hm

/-- A scan changes nothing in a settled text. -/
theorem replaceAll_of_settled (hs : Settled pattern before cs) :
    replaceAll pattern before 0 cs = cs := by
  induction before, cs using hp.scan_induction with
  | nil b => rfl
  | keep b c cs h ih => rw [replaceAll_of_none h, ih hs.2]
  | replace b c m rest rep h ih =>
    have he := hs.1 rep rest h
    rw [replaceAll_of_some h, ih (Settled.right (u := m) hs.2)]
    exact he.symm

/-- What takes the place of a match begins like it, and behind its first character another pattern
finds only what it finds in the rest of the text once that has been scanned. -/
theorem replacement (h : pattern before (c :: m ++ rest) = some (rep, rest)) {other : Pattern}
    {Opens' : List Char → Prop} {inSecret' : Char → Bool} (ho : Masks other Opens' inSecret')
    (hs : Settled other (lastRead (some c) m)
      (replaceAll pattern (lastRead (some c) m) 0 rest)) :
    ∃ d w, rep = d :: w ∧ patternLetter d = patternLetter c ∧
      Settled other (some d) (w ++ replaceAll pattern (lastRead (some c) m) 0 rest) := by
  obtain ⟨c', m', d, w, he, rfl, hd, hq, hlast, hb⟩ := hp.takes h
  obtain ⟨rfl, rfl⟩ := List.cons.inj (List.append_cancel_right he)
  refine ⟨d, w, rfl, hd, ho.settled_quiet_append hq (ho.settled_congr ?_ hs)⟩
  rw [hlast, hp.begins_replaceAll, hp.begins_replaceAll, hb]

/-- A scan settles a text if its replacements are settled where it puts them. -/
theorem settled_replaceAll
    (hs : ∀ {b c m rest rep}, pattern b (c :: m ++ rest) = some (rep, rest) →
      ∀ rep' rest', pattern b (rep ++ replaceAll pattern (lastRead (some c) m) 0 rest) =
        some (rep', rest') →
      rep ++ replaceAll pattern (lastRead (some c) m) 0 rest = rep' ++ rest')
    (before : Option Char) (cs : List Char) :
    Settled pattern before (replaceAll pattern before 0 cs) := by
  induction before, cs using hp.scan_induction with
  | nil b => trivial
  | keep b c cs h ih =>
    rw [replaceAll_of_none h]
    refine ⟨fun rep rest hm => ?_, ih⟩
    cases (hp.eq_none_cons_replaceAll h).symm.trans hm
  | replace b c m rest rep h ih =>
    have hstable := hs h
    obtain ⟨d, w, rfl, -, htail⟩ := hp.replacement h hp ih
    rw [replaceAll_of_some h]
    exact ⟨hstable, htail⟩

/-! ### Parts of a text -/

end Masks

/-- A text is scanned in two parts. -/
def Parts (pattern : Pattern) (before : Option Char) (u v : List Char) : Prop :=
  replaceAll pattern before 0 (u ++ v) =
    replaceAll pattern before 0 u ++ replaceAll pattern (lastRead before u) 0 v

/-- The scan of a text comes to a match that begins in its first part and reaches into the second.
-/
def Crosses (pattern : Pattern) (before : Option Char) (u v : List Char) : Prop :=
  ∃ k m v' rep rest, u = k ++ m ∧ m ≠ [] ∧ v = v' ++ rest ∧ v' ≠ [] ∧
    pattern (lastRead before k) (m ++ v) = some (rep, rest) ∧
    Parts pattern before k m ∧ Parts pattern before k (m ++ v)

/-- An empty text and another one are scanned apart. -/
theorem Parts.nil (pattern : Pattern) (before : Option Char) (v : List Char) :
    Parts pattern before [] v := rfl

namespace Masks

variable {Opens : List Char → Prop} {inSecret : Char → Bool} {u v : List Char}
  (hp : Masks pattern Opens inSecret)
include hp

/-- What does not match with more behind it does not match. -/
theorem eq_none_left (h : pattern before (c :: u ++ v) = none) :
    pattern before (c :: u) = none := by
  rw [← Option.not_isSome_iff_eq_none] at h ⊢
  refine fun hm => h ?_
  obtain ⟨hb, o, z, t, he, ho, hz⟩ := hp.isSome_iff.mp hm
  refine hp.isSome_iff.mpr ⟨hb, o, z, t ++ v, ?_, ho, hz⟩
  rw [he, List.append_assoc, List.cons_append]

private theorem parts_keep (huv : pattern before (c :: u ++ v) = none)
    (h : Parts pattern (some c) u v) :
    Parts pattern before (c :: u) v := by
  rw [List.cons_append] at huv
  rw [Parts, replaceAll_of_none (hp.eq_none_left huv), List.cons_append, replaceAll_of_none huv, h]
  rfl

private theorem parts_replace (huv : pattern before (c :: m ++ (u ++ v)) = some (rep, u ++ v))
    (h : Parts pattern (lastRead (some c) m) u v) : Parts pattern before (c :: m ++ u) v := by
  have hu : pattern before (c :: m ++ u) = some (rep, u) :=
    hp.cut (v := v) (by rw [List.append_assoc, huv])
  rw [Parts, List.append_assoc, replaceAll_of_some huv, replaceAll_of_some hu, h, lastRead_append,
    List.append_assoc]
  rfl

private theorem crosses_keep (huv : pattern before (c :: u ++ v) = none)
    (h : Crosses pattern (some c) u v) : Crosses pattern before (c :: u) v := by
  obtain ⟨k, n, v', rep, rest, rfl, hn, hv, hv', hr, hkn, hkv⟩ := h
  refine ⟨c :: k, n, v', rep, rest, rfl, hn, hv, hv', hr, hp.parts_keep ?_ hkn,
    hp.parts_keep ?_ hkv⟩
  · exact hp.eq_none_left huv
  · rwa [← List.cons_append, List.append_assoc] at huv

private theorem crosses_replace (huv : pattern before (c :: m ++ (u ++ v)) = some (rep, u ++ v))
    (h : Crosses pattern (lastRead (some c) m) u v) : Crosses pattern before (c :: m ++ u) v := by
  obtain ⟨k, n, v', rep', rest, rfl, hn, hv, hv', hr, hkn, hkv⟩ := h
  have hu : pattern before (c :: m ++ (k ++ n)) = some (rep, k ++ n) :=
    hp.cut (v := v) (by rw [List.append_assoc, huv])
  rw [List.append_assoc] at huv
  refine ⟨c :: m ++ k, n, v', rep', rest, (List.append_assoc ..).symm, hn, hv, hv', ?_,
    hp.parts_replace hu hkn, hp.parts_replace huv hkv⟩
  rwa [lastRead_append]

/-- A text is scanned in two parts unless the scan comes to a match in the first part that reaches
into the second. -/
theorem parts_or_crosses (before : Option Char) (u v : List Char) :
    Parts pattern before u v ∨ Crosses pattern before u v := by
  match u with
  | [] => exact .inl (.nil pattern before v)
  | c :: u =>
    cases h : pattern before (c :: u ++ v) with
    | none =>
      exact (parts_or_crosses (some c) u v).imp (hp.parts_keep h) (hp.crosses_keep h)
    | some r =>
      obtain ⟨rep, rest⟩ := r
      obtain ⟨c', m, -, -, he, -⟩ := hp.takes h
      rw [List.cons_append, List.cons_append, List.cons.injEq] at he
      obtain ⟨rfl, he⟩ := he
      -- the match ends in the second part, or it leaves an end of the first part
      by_cases hlt : ∃ u', u = m ++ u' ∧ rest = u' ++ v
      · obtain ⟨u', rfl, rfl⟩ := hlt
        rw [← List.cons_append, List.append_assoc] at h
        exact (parts_or_crosses (lastRead (some c) m) u' v).imp (hp.parts_replace h)
          (hp.crosses_replace h)
      · rcases List.append_eq_append_iff.mp he with ⟨v', hm, hv⟩ | hu
        · refine .inr ⟨[], c :: u, v', rep, rest, rfl, List.cons_ne_nil _ _, hv, ?_, h,
            .nil .., .nil ..⟩
          rintro rfl
          exact hlt ⟨[], by simp [hm], by simp [hv]⟩
        · exact absurd hu hlt
termination_by u.length

end Masks

end Scan

end SchemaBinding.Log
