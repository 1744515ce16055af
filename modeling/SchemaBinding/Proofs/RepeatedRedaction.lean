import SchemaBinding.Proofs.RedactedEvents
import SchemaBinding.Proofs.RedactedWords

/-!
# Redaction of what has been redacted

Redaction is done once and for all: an event that has been redacted stays the same when it is
redacted again. Masking assignments leaves no new assignment behind, masking bearer tokens leaves no
bearer token and does not bring about an assignment, and no key becomes one of a secret.
-/

namespace SchemaBinding.Log

/-! ### Texts -/

/-- A name and a sign with the mask after it are matched as an assignment, which changes nothing. -/
theorem matchAssignment_mask {before : Option Char} {name : List Char} {sign : Char}
    (hn : IsSecretName name) (hs : isSign sign = true)
    (hb : Text.isBoundary before name.head? = true) {rest : List Char}
    (hstop : Stops isValueChar rest) :
    matchAssignment before (name ++ sign :: mask.toList ++ rest) =
      some (name ++ sign :: mask.toList, rest) := by
  have hmask : AllOf isValueChar mask.toList := List.all_eq_true.mp rfl
  have ho : Assigns name sign (name ++ [sign]) :=
    ⟨hn, hs, [], [], nofun, nofun, by simp⟩
  have he : name ++ sign :: mask.toList ++ rest = name ++ [sign] ++ (mask.toList ++ rest) := by simp
  rw [he]
  refine matchAssignment_complete ho (by decide) hmask hstop ?_
  obtain ⟨c, v, rfl, -⟩ := hn.start
  exact hb

/-- Once assignments have been masked, all matches are masked assignments. -/
theorem settled_assignments (before : Option Char) (cs : List Char) :
    Settled matchAssignment before (replaceAll matchAssignment before 0 cs) := by
  refine masks_matchAssignment.settled_replaceAll ?_ before cs
  intro b c m rest rep h rep' rest' h'
  obtain ⟨hb, name, sign, opening, value, ⟨hn, hs, gap, gap', -, -, rfl⟩, -, -, hstop, he, rfl⟩ :=
    matchAssignment_sound h
  have hhead : (c :: m ++ rest).head? = name.head? := by
    obtain ⟨d, v, rfl, -⟩ := hn.start
    rw [he]
    rfl
  have hstop' : Stops isValueChar (replaceAll matchAssignment (lastRead (some c) m) 0 rest) := by
    intro d hd
    rw [masks_matchAssignment.head?_replaceAll
      (begins_of_stops isValueChar_of_isStart hstop _)] at hd
    exact hstop d hd
  rw [matchAssignment_mask hn hs (hhead ▸ hb) hstop'] at h'
  cases h'
  rfl

/-- No bearer token is found where one has been masked. -/
theorem matchBearer_mask (before : Option Char) (rest : List Char) :
    matchBearer before (bearerMask ++ rest) = none := by
  cases h : matchBearer before (bearerMask ++ rest) with
  | none => rfl
  | some r =>
    exfalso
    obtain ⟨-, opening, token, signs, ⟨word, gap, hw, hne, hgap, rfl⟩, ht, hall, -, -, -, he, -⟩ :=
      matchBearer_sound h
    have hlen : word.length = bearerWord.length := by
      rw [← List.length_map patternLetter, hw, ← isBearer_bearerWord, List.length_map]
    rw [bearerMask_eq, mask_eq_cons, List.append_assoc, List.append_assoc] at he
    obtain ⟨-, he⟩ := List.append_inj he hlen.symm
    -- the blank after the word is a gap, and neither a gap nor a token can go on with a star
    obtain ⟨g, gap, rfl⟩ := List.exists_cons_of_ne_nil hne
    obtain ⟨-, he⟩ := List.cons.inj he
    cases gap with
    | cons d gap =>
      obtain ⟨rfl, -⟩ := List.cons.inj he
      exact absurd (hgap '*' (by simp)) (by decide)
    | nil =>
      obtain ⟨d, token, rfl⟩ := List.exists_cons_of_ne_nil ht
      obtain ⟨rfl, -⟩ := List.cons.inj he
      exact absurd (hall '*' List.mem_cons_self) (by decide)

/-- Once bearer tokens have been masked, none is left. -/
theorem settled_bearers (before : Option Char) (cs : List Char) :
    Settled matchBearer before (replaceAll matchBearer before 0 cs) := by
  refine masks_matchBearer.settled_replaceAll ?_ before cs
  intro b c m rest rep h rep' rest' h'
  obtain ⟨-, -, -, -, -, -, -, -, -, -, -, rfl⟩ := matchBearer_sound h
  rw [matchBearer_mask] at h'
  cases h'

/-- A character is no form of the letter b. -/
def isNoB (c : Char) : Bool := patternLetter c != 'b'

private theorem IsSecretName.noB {name : List Char} (h : IsSecretName name) : AllOf isNoB name := by
  have hw : ∀ w ∈ secretWords, w.all (· != 'b') = true := by decide
  exact fun c hc => List.all_eq_true.mp (hw _ h) _ (List.mem_map_of_mem hc)

/-- There is no letter b in the mask. -/
theorem noB_mask : AllOf isNoB mask.toList := List.all_eq_true.mp rfl

/-- A masked assignment is without the letter with which a bearer token begins. -/
theorem noB_of_assignment {name : List Char} {sign : Char} (hn : IsSecretName name)
    (hs : isSign sign = true) : AllOf isNoB (name ++ sign :: mask.toList) := by
  intro c hc
  rcases List.mem_append.mp hc with hc | hc
  · exact hn.noB c hc
  rcases List.mem_cons.mp hc with rfl | hc
  · rcases isSign_cases hs with rfl | rfl <;> decide
  · exact noB_mask c hc

/-- No assignment begins where a bearer token has been masked. -/
theorem matchAssignment_bearerMask (before : Option Char) (rest : List Char) :
    matchAssignment before (bearerMask ++ rest) = none := by
  cases h : matchAssignment before (bearerMask ++ rest) with
  | none => rfl
  | some r =>
    exfalso
    obtain ⟨-, name, sign, opening, value, ⟨hn, -, gap, gap', -, -, rfl⟩, -, -, -, he, -⟩ :=
      matchAssignment_sound h
    obtain ⟨c, v, rfl, -⟩ := hn.start
    have hm : bearerMask = 'B' :: ("earer ".toList ++ mask.toList) := rfl
    rw [hm] at he
    obtain ⟨rfl, -⟩ := List.cons.inj he
    exact absurd (hn.noB 'B' List.mem_cons_self) (by decide)

/-- The letter with which a bearer token begins is not in a masked assignment. -/
theorem not_mem_of_matchBearer {before : Option Char} {c : Char} {cs name : List Char} {sign : Char}
    {r : List Char × List Char} (h : matchBearer before (c :: cs) = some r)
    (hn : IsSecretName name) (hs : isSign sign = true) : c ∉ name ++ sign :: mask.toList := by
  intro hc
  obtain ⟨-, opening, token, signs, ho, -, -, -, -, -, he, -⟩ := matchBearer_sound h
  obtain ⟨d, o, rfl, hd, -⟩ := ho.start
  obtain ⟨rfl, -⟩ := List.cons.inj he
  have hnb := noB_of_assignment hn hs c hc
  rw [isNoB, hd] at hnb
  cases hnb

/-- An assignment in front of a text that has masked assignments only is masked. -/
theorem Settled.eq_masked {before : Option Char} {c : Char} {cs name opening value rest : List Char}
    {sign : Char} (hs : Settled matchAssignment before (c :: cs))
    (hb : Text.isBoundary before (some c) = true) (ho : Assigns name sign opening) (hv : value ≠ [])
    (hall : AllOf isValueChar value) (hstop : Stops isValueChar rest)
    (he : c :: cs = opening ++ (value ++ rest)) :
    opening ++ value = name ++ sign :: mask.toList := by
  have hb' : Text.isBoundary before (opening ++ (value ++ rest)).head? = true := by
    rw [← he]
    exact hb
  have hm := matchAssignment_complete ho hv hall hstop hb'
  rw [← he] at hm
  have hmask := hs.1 _ _ hm
  rw [he, ← List.append_assoc] at hmask
  exact List.append_cancel_right hmask

/-- A match in front of a text that has masked assignments only is one of these, also once bearer
tokens have been masked in the text. -/
theorem matchAssignment_cons_bearers {before : Option Char} {c : Char} {cs rep rest : List Char}
    (hs : Settled matchAssignment before (c :: cs))
    (h : matchAssignment before (c :: replaceAll matchBearer (some c) 0 cs) = some (rep, rest)) :
    c :: replaceAll matchBearer (some c) 0 cs = rep ++ rest := by
  rcases masks_matchBearer.replaceAll_eq_or (some c) cs with
    he | ⟨u, x, v, y, w, r, rfl, he, hr, hxy⟩
  · rw [he] at h ⊢
    exact hs.1 rep rest h
  rw [he] at h ⊢
  obtain ⟨hbound, name, sign, opening, value, ho, hv, hall, hstop, heq, rfl⟩ :=
    matchAssignment_sound h
  have hbx := masks_matchBearer.begins_of_some hr
  have hby : begins (lastRead (some c) u) (y :: w) = true := by
    rw [← hbx]
    exact begins_congr hxy _ w v
  have hvx : isValueChar x = true := isValueChar_of_isStart (Bool.and_eq_true_iff.mp hbx).2
  have hvy : isValueChar y = true := isValueChar_of_isStart (Bool.and_eq_true_iff.mp hby).2
  -- the bearer token begins behind the opening of the assignment
  obtain ⟨p, hp⟩ : ∃ p, c :: u = opening ++ p := by
    obtain ⟨z, value, rfl⟩ := List.exists_cons_of_ne_nil hv
    rcases masks_matchAssignment.opening_ends ⟨name, sign, ho⟩ heq hby with ⟨rfl, -⟩ | ⟨q, hq⟩
    · exact ⟨[], (List.append_nil _).symm⟩
    · exact ⟨_, hq⟩
  have hbefore : c :: (u ++ x :: v) = opening ++ (p ++ x :: v) := by
    rw [← List.cons_append, hp, List.append_assoc]
  rw [← List.cons_append, hp, List.append_assoc] at heq ⊢
  have heq := List.append_cancel_left heq
  rcases List.append_eq_append_iff.mp heq with ⟨a, rfl, ha⟩ | ⟨a, rfl, ha⟩
  · -- the token is announced inside of the value, and so it was before: but that value is the mask
    exfalso
    obtain ⟨t, d, rfl, hallt, hstopd⟩ :
        ∃ t d, v = t ++ d ∧ AllOf isValueChar t ∧ Stops isValueChar d :=
      ⟨_, _, takeWhile_dropWhile isValueChar v⟩
    have hallx : AllOf isValueChar (p ++ x :: t) := by
      intro e hmem
      rcases List.mem_append.mp hmem with hmem | hmem
      · exact hall e (List.mem_append_left a hmem)
      · exact (List.mem_cons.mp hmem).elim (fun h => h ▸ hvx) (hallt e)
    have hmasked := hs.eq_masked hbound ho (by simp) hallx hstopd (by rw [hbefore]; simp)
    refine not_mem_of_matchBearer hr ho.1 ho.2.1 ?_
    rw [← hmasked]
    simp
  · cases a with
    | nil =>
      obtain rfl : rest = y :: w := ha
      exact absurd hvy (ne_true_of_eq_false (hstop y rfl))
    | cons d a =>
      have hstop' : Stops isValueChar (d :: a ++ x :: v) := by
        rw [ha] at hstop
        exact hstop
      have hmasked :=
        hs.eq_masked hbound ho hv hall hstop' (by rw [hbefore, List.append_assoc])
      rw [heq, ← List.append_assoc, hmasked]

/-- Masking bearer tokens leaves masked assignments alone and brings about no other. -/
theorem settled_assignments_bearers (before : Option Char) (cs : List Char)
    (hs : Settled matchAssignment before cs) :
    Settled matchAssignment before (replaceAll matchBearer before 0 cs) := by
  induction before, cs using masks_matchBearer.scan_induction with
  | nil b => exact hs
  | keep b c cs h ih =>
    rw [replaceAll_of_none h]
    exact ⟨fun rep rest hm => matchAssignment_cons_bearers hs hm, ih hs.2⟩
  | replace b c m rest rep h ih =>
    have htail := ih (Settled.right (u := m) hs.2)
    rw [replaceAll_of_some h]
    obtain ⟨-, -, -, -, -, -, -, -, -, -, -, rfl⟩ := matchBearer_sound h
    obtain ⟨d, w, hd, -, hw⟩ := masks_matchBearer.replacement h masks_matchAssignment htail
    have hn := matchAssignment_bearerMask b
      (replaceAll matchBearer (lastRead (some c) m) 0 rest)
    rw [hd] at hn ⊢
    exact ⟨fun rep' rest' hm => (nomatch hn.symm.trans hm), hw⟩

/-- Redaction of a text is done once and for all. -/
theorem redactText_redactText (s : String) : redactText (redactText s) = redactText s := by
  have ha := settled_assignments_bearers none _ (settled_assignments none s.toList)
  have hb := settled_bearers none (replaceAll matchAssignment none 0 s.toList)
  rw [redactText, redactText, String.toList_ofList,
    masks_matchAssignment.replaceAll_of_settled ha, masks_matchBearer.replaceAll_of_settled hb]

/-! ### Values -/

private theorem redactText_mask : redactText mask = mask := rfl

private theorem redactValue_redactValue (v : Value) :
    redactValue (redactValue v) = redactValue v := by
  induction v with
  | str s => simp only [redactValue, redactText_redactText]
  | list items label ih =>
    simp only [redactValue, redactItems_eq, List.map_map, Value.list.injEq, and_true]
    exact List.map_congr_left fun v hv => ih v hv
  | dict entries ih =>
    simp only [redactValue, redactEntries_eq, List.map_map, Value.dict.injEq]
    refine List.map_congr_left fun e he => ?_
    obtain ⟨k, v⟩ := e
    simp only [Function.comp_apply, redactEntry]
    split
    · rfl
    · rw [(ih (k, v) he).2]
  | _ => rfl

private theorem redactName_redactName (v : Value) : redactName (redactName v) = redactName v := by
  cases v with
  | str s => exact congrArg Value.str (redactText_redactText s)
  | _ => rfl

/-! ### Events -/

/-- What is a secret in an event that is about no sensitive field is one in any event. -/
theorem isSecretKey_of_imp {sensitiveField again : Bool} (h : again = true → sensitiveField = true)
    {key : Value} (hk : isSecretKey again key = true) : isSecretKey sensitiveField key = true := by
  cases key with
  | str k =>
    simp only [isSecretKey, Bool.or_eq_true, Bool.and_eq_true] at hk ⊢
    exact hk.imp_left fun hf => ⟨h hf.1, hf.2⟩
  | _ => cases hk

private theorem redactHead_redactHead {sensitiveField again : Bool}
    (h : again = true → sensitiveField = true)
    (e : Value × Value) :
    redactHead again (redactHead sensitiveField e) = redactHead sensitiveField e := by
  obtain ⟨k, v⟩ := e
  simp only [redactHead, Prod.mk.injEq, true_and]
  by_cases hname : isEventKey k
  · simp only [hname, if_true]
    exact redactName_redactName v
  simp only [hname, Bool.false_eq_true, if_false]
  by_cases hsecret : isSecretKey sensitiveField k
  · simp only [hsecret, if_true, redactValue, redactText_mask, ite_self]
  · have hagain : ¬ isSecretKey again k = true := mt (isSecretKey_of_imp h) hsecret
    simp only [hsecret, hagain, Bool.false_eq_true, if_false]
    exact redactValue_redactValue v

/-- The field that an event names is redacted like any other value. -/
theorem lookup?_redactHead (sensitiveField : Bool) (event : List (Value × Value)) :
    Value.lookup? "field" (event.map (redactHead sensitiveField)) =
      (Value.lookup? "field" event).map redactValue := by
  have hfield : isSecretKey sensitiveField (.str "field") = false := by
    cases sensitiveField <;> decide
  have hname : isEventKey (.str "field") = false := by decide
  induction event with
  | nil => rfl
  | cons e rest ih =>
    obtain ⟨k, v⟩ := e
    cases k with
    | str key =>
      simp only [List.map_cons, redactHead, Value.lookup?]
      by_cases hk : key == "field"
      · obtain rfl : key = "field" := by simpa using hk
        simp [hfield, hname]
      · simpa only [hk, Bool.false_eq_true, if_false] using ih
    | _ => exact ih

/-- A redacted event is about a sensitive field only if the event was. -/
theorem namesSensitiveField_of_redacted {sensitiveField : Bool} {event : List (Value × Value)}
    (h : namesSensitiveField (event.map (redactHead sensitiveField)) = true) :
    namesSensitiveField event = true := by
  rw [namesSensitiveField, lookup?_redactHead] at h
  rw [namesSensitiveField]
  cases hl : Value.lookup? "field" event with
  | none => rw [hl] at h; cases h
  | some v =>
    rw [hl] at h
    cases v with
    | str s => exact isSensitive_of_redactText h
    | _ => cases h

/-- Redaction is done once and for all: a text that has been redacted is left as it is, and so is an
event, which can always be redacted if its keys are texts. -/
theorem redactEvent_redactEvent :
    (∀ s : String, redactText (redactText s) = redactText s) ∧
      ∀ event, TextKeys event →
        ∃ redacted, redactEvent event = .ok redacted ∧ redactEvent redacted = .ok redacted := by
  refine ⟨redactText_redactText, fun event ht => ⟨_, redactAll_text _ ht, ?_⟩⟩
  have ht' : TextKeys (event.map (redactHead (namesSensitiveField event))) := by
    intro e he
    obtain ⟨d, hd, rfl⟩ := List.mem_map.mp he
    exact ht d hd
  rw [redactEvent, redactAll_text _ ht', List.map_map]
  refine congrArg Except.ok (List.map_congr_left fun e _ => ?_)
  exact redactHead_redactHead namesSensitiveField_of_redacted e

/-- A rejected field, told with an assignment and a bearer token. -/
def rejection : List (Value × Value) := [
  (.str "event", .str "rejected: api_key = 17, Bearer abc"),
  (.str "field", .str "token"),
  (.str "reason", .str "authorization: Bearer abc"),
  (.str "seen",
    .list [.dict [(.str "password", .str "hunter2"), (.str "at", .str "secret=x")]] none)]

/-- A rejection that has been redacted stays the same. -/
theorem rejection_redacted_once :
    ∃ redacted, redactEvent rejection = .ok redacted ∧ redactEvent redacted = .ok redacted :=
  redactEvent_redactEvent.2 rejection (by simp [TextKeys, rejection])

end SchemaBinding.Log
