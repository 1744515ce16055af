import SchemaBinding.Log.Redaction
import SchemaBinding.Proofs.Contents

/-!
# What a redacted event still tells

Two events differ in secrets only if leaving out what stands under sensitive keys, at any depth and
in any container, makes them the same. Redaction comes to such a key through lists and dictionaries;
it does not enter tuples, and what stands under `event` it reads only if it is a text. These parts
of an event are exposed: a redacted event tells nothing of the secrets beyond what they hold.
-/

namespace SchemaBinding.Log

open Value

mutual

/-- What a value holds apart from what stands under sensitive keys, at any depth. -/
def withoutSecrets (v : Value) : Value :=
  match v with
  | .list items _ => .list (itemsWithoutSecrets items) none
  | .tuple items => .tuple (itemsWithoutSecrets items)
  | .dict entries => .dict (entriesWithoutSecrets entries)
  | other => other.unlabelled
termination_by structural v

/-- What the items of a list or a tuple hold apart from secrets. -/
def itemsWithoutSecrets (vs : List Value) : List Value :=
  match vs with
  | [] => []
  | v :: vs => withoutSecrets v :: itemsWithoutSecrets vs
termination_by structural vs

/-- What an entry of a dictionary holds apart from secrets. -/
def entryWithoutSecrets (e : Value × Value) : Value × Value :=
  match e with
  | (k, v) => (k, if isSensitiveKey k then .null else withoutSecrets v)
termination_by structural e

/-- What the entries of a dictionary hold apart from secrets. -/
def entriesWithoutSecrets (es : List (Value × Value)) : List (Value × Value) :=
  match es with
  | [] => []
  | e :: es => entryWithoutSecrets e :: entriesWithoutSecrets es
termination_by structural es

end

mutual

/-- What redaction comes to in a value and leaves as it is, although there may be secrets in it: the
tuples, from left to right. -/
def exposed (v : Value) : List Value :=
  match v with
  | .list items _ => itemsExposed items
  | .tuple items => [(Value.tuple items).unlabelled]
  | .dict entries => entriesExposed entries
  | _ => []
termination_by structural v

/-- What is exposed in the items of a list. -/
def itemsExposed (vs : List Value) : List Value :=
  match vs with
  | [] => []
  | v :: vs => exposed v ++ itemsExposed vs
termination_by structural vs

/-- What is exposed in an entry of a dictionary. -/
def entryExposed (e : Value × Value) : List Value :=
  match e with
  | (k, v) => if isSensitiveKey k then [] else exposed v
termination_by structural e

/-- What is exposed in the entries of a dictionary. -/
def entriesExposed (es : List (Value × Value)) : List Value :=
  match es with
  | [] => []
  | e :: es => entryExposed e ++ entriesExposed es
termination_by structural es

end

/-! ### Values -/

/-- Items are redacted one by one. -/
theorem redactItems_eq (vs : List Value) : redactItems vs = vs.map redactValue := by
  induction vs with
  | nil => rfl
  | cons v vs ih => rw [redactItems, ih, List.map_cons]

/-- Entries are redacted one by one. -/
theorem redactEntries_eq (es : List (Value × Value)) :
    redactEntries es = es.map redactEntry := by
  induction es with
  | nil => rfl
  | cons e es ih => rw [redactEntries, ih, List.map_cons]

private theorem itemsWithoutSecrets_eq (vs : List Value) :
    itemsWithoutSecrets vs = vs.map withoutSecrets := by
  induction vs with
  | nil => rfl
  | cons v vs ih => rw [itemsWithoutSecrets, ih, List.map_cons]

private theorem entriesWithoutSecrets_eq (es : List (Value × Value)) :
    entriesWithoutSecrets es = es.map entryWithoutSecrets := by
  induction es with
  | nil => rfl
  | cons e es ih => rw [entriesWithoutSecrets, ih, List.map_cons]

private theorem itemsExposed_eq (vs : List Value) : itemsExposed vs = vs.flatMap exposed := by
  induction vs with
  | nil => rfl
  | cons v vs ih => rw [itemsExposed, ih, List.flatMap_cons]

private theorem entriesExposed_eq (es : List (Value × Value)) :
    entriesExposed es = es.flatMap entryExposed := by
  induction es with
  | nil => rfl
  | cons e es ih => rw [entriesExposed, ih, List.flatMap_cons]

/-- Two lists whose elements share what `f` keeps of them agree in what `r` makes of each element
exactly if they agree in the lists that `g` finds, in case that is so element by element and the
lengths of what `g` finds show in what `f` keeps. -/
private theorem map_eq_iff_flatMap_eq {α β γ δ : Type} {f : α → β} {g : α → List γ} {r : α → δ}
    (hg : ∀ u v, f u = f v → (g u).length = (g v).length) {us vs : List α}
    (h : ∀ u ∈ us, ∀ v, f u = f v → (r u = r v ↔ g u = g v)) (hf : us.map f = vs.map f) :
    us.map r = vs.map r ↔ us.flatMap g = vs.flatMap g := by
  induction us generalizing vs with
  | nil =>
    obtain rfl : vs = [] := by simpa using hf.symm
    simp
  | cons u us ih =>
    obtain ⟨v, vs, rfl, hv, hvs⟩ := List.map_eq_cons_iff.mp hf.symm
    have hu := h u List.mem_cons_self v hv.symm
    have hus := ih (fun w hw => h w (List.mem_cons_of_mem u hw)) hvs.symm
    rw [List.map_cons, List.map_cons, List.cons.injEq, hu, hus, List.flatMap_cons,
      List.flatMap_cons]
    refine ⟨fun ⟨h₁, h₂⟩ => by rw [h₁, h₂], fun happ => ?_⟩
    exact List.append_inj happ (hg u v hv.symm)

/-- How much of a value is exposed shows without its secrets. -/
theorem length_exposed_withoutSecrets (v : Value) :
    (exposed (withoutSecrets v)).length = (exposed v).length := by
  induction v with
  | list items label ih =>
    simp only [withoutSecrets, exposed, itemsExposed_eq, itemsWithoutSecrets_eq,
      List.length_flatMap, List.map_map]
    exact congrArg List.sum (List.map_congr_left fun v hv => ih v hv)
  | tuple items ih => rfl
  | dict entries ih =>
    simp only [withoutSecrets, exposed, entriesExposed_eq, entriesWithoutSecrets_eq,
      List.length_flatMap, List.map_map]
    refine congrArg List.sum (List.map_congr_left fun e he => ?_)
    obtain ⟨k, v⟩ := e
    simp only [Function.comp_apply, entryWithoutSecrets, entryExposed]
    split
    · rfl
    · exact (ih (k, v) he).2
  | record cls attrs ih => simp [withoutSecrets, exposed]
  | _ => rfl

private theorem length_exposed_eq {u v : Value} (h : withoutSecrets u = withoutSecrets v) :
    (exposed u).length = (exposed v).length := by
  rw [← length_exposed_withoutSecrets u, h, length_exposed_withoutSecrets]

private theorem length_entryExposed_eq {d e : Value × Value}
    (h : entryWithoutSecrets d = entryWithoutSecrets e) :
    (entryExposed d).length = (entryExposed e).length := by
  obtain ⟨k, u⟩ := d
  obtain ⟨k', v⟩ := e
  obtain ⟨rfl, h⟩ := Prod.mk.injEq .. ▸ h
  simp only [entryExposed]
  by_cases hk : isSensitiveKey k
  · simp [hk]
  · simp only [hk, Bool.false_eq_true, if_false] at h ⊢
    exact length_exposed_eq h

/-- Values that differ in secrets only are the same once redacted exactly if they expose the
same. -/
theorem redactValue_eq_iff {u v : Value} (h : withoutSecrets u = withoutSecrets v) :
    (redactValue u).unlabelled = (redactValue v).unlabelled ↔ exposed u = exposed v := by
  induction u generalizing v with
  | list items label ih =>
    cases v with
    | list others label' =>
      simp only [withoutSecrets, itemsWithoutSecrets_eq, list.injEq, and_true] at h
      simp only [redactValue, redactItems_eq, unlabelled_list, List.map_map, list.injEq, and_true,
        exposed, itemsExposed_eq]
      exact map_eq_iff_flatMap_eq (fun _ _ => length_exposed_eq) (fun u hu v => ih u hu) h
    | _ => simp [withoutSecrets] at h
  | tuple items ih =>
    cases v with
    | tuple others => simp only [redactValue, exposed, List.cons.injEq, and_true]
    | _ => simp [withoutSecrets] at h
  | dict entries ih =>
    cases v with
    | dict others =>
      simp only [withoutSecrets, entriesWithoutSecrets_eq, dict.injEq] at h
      simp only [redactValue, redactEntries_eq, unlabelled_dict, List.map_map, dict.injEq, exposed,
        entriesExposed_eq]
      refine map_eq_iff_flatMap_eq (fun _ _ => length_entryExposed_eq) ?_ h
      rintro ⟨k, u⟩ he ⟨k', v⟩ hkv
      obtain ⟨rfl, hkv⟩ := Prod.mk.injEq .. ▸ hkv
      simp only [Function.comp_apply, redactEntry, unlabelledEntry, entryExposed, Prod.mk.injEq,
        true_and]
      by_cases hk : isSensitiveKey k
      · simp [hk]
      · simp only [hk, Bool.false_eq_true, if_false] at hkv ⊢
        exact (ih (k, u) he).2 hkv
    | _ => simp [withoutSecrets] at h
  | str s =>
    cases v with
    | str s' =>
      obtain rfl : s = s' := by simpa [withoutSecrets] using h
      exact iff_of_true rfl rfl
    | _ => simp [withoutSecrets] at h
  | _ =>
    cases v with
    | str s => simp [withoutSecrets] at h
    | list others label => simp [withoutSecrets] at h
    | tuple others => simp [withoutSecrets] at h
    | dict others => simp [withoutSecrets] at h
    -- values without parts are what they are without secrets, and redaction leaves them
    | _ => exact iff_of_true h rfl

/-! ### Events -/

/-- The keys of an event are texts. -/
def TextKeys (event : List (Value × Value)) : Prop := ∀ e ∈ event, ∃ k, e.1 = .str k

/-- Whether what stands under a key of an event is a secret: the key speaks of one, or the event is
about a sensitive field and the key speaks about that field. -/
def isSecretKey (sensitiveField : Bool) : Value → Bool
  | .str key => (sensitiveField && fieldKeys.contains key) || isSensitive key
  | _ => false

/-- Whether a key is the one under which the name of an event stands. -/
def isEventKey : Value → Bool
  | .str key => key == "event"
  | _ => false

/-- What an entry of an event holds apart from secrets. -/
def headWithoutSecrets (sensitiveField : Bool) (e : Value × Value) : Value × Value :=
  (e.1, if isSecretKey sensitiveField e.1 then .null else withoutSecrets e.2)

/-- What an event holds apart from secrets. -/
def eventWithoutSecrets (event : List (Value × Value)) : List (Value × Value) :=
  event.map (headWithoutSecrets (namesSensitiveField event))

/-- Two events differ at most in what stands under sensitive keys, at any depth in dictionaries,
lists and tuples, and, where they are about a sensitive field, in its reason and its value. -/
def DifferInSecrets (event other : List (Value × Value)) : Prop :=
  eventWithoutSecrets event = eventWithoutSecrets other

/-- What redaction leaves as it is of the name of an event: all but a text. -/
def nameExposed : Value → List Value
  | .str _ => []
  | v => [v.unlabelled]

/-- What is exposed in an entry of an event. -/
def headExposed (sensitiveField : Bool) (e : Value × Value) : List Value :=
  if isEventKey e.1 then nameExposed e.2
  else if isSecretKey sensitiveField e.1 then [] else exposed e.2

/-- What is exposed in an event. -/
def eventExposed (event : List (Value × Value)) : List Value :=
  event.flatMap (headExposed (namesSensitiveField event))

/-- The name of an event with its secrets masked. -/
def redactName : Value → Value
  | .str s => .str (redactText s)
  | v => v

/-- The entry of an event under a text with its secrets masked. -/
def redactHead (sensitiveField : Bool) (e : Value × Value) : Value × Value :=
  (e.1, if isEventKey e.1 then redactName e.2
    else if isSecretKey sensitiveField e.1 then .str mask else redactValue e.2)

private theorem redactUnder_str (sensitiveField : Bool) (key : String) (v : Value) :
    redactUnder sensitiveField (.str key) v = .ok (redactHead sensitiveField (.str key, v)).2 := by
  unfold redactUnder redactHead
  split
  · next h =>
    obtain rfl : key = "event" := by simpa using h
    cases v <;> rfl
  · next k hk h =>
    obtain rfl : key = k := by simpa using h
    have hne : key ≠ "event" := fun he => hk (he ▸ rfl)
    simp only [isEventKey, beq_eq_false_iff_ne.mpr hne, Bool.false_eq_true, if_false, isSecretKey]
    by_cases hs : (sensitiveField && fieldKeys.contains key || isSensitive key) = true
    · simp only [hs, if_true]
    · simp only [hs, Bool.false_eq_true, if_false]
  all_goals simp_all

/-- An event with texts as keys is redacted entry by entry. -/
theorem redactAll_text (sensitiveField : Bool) {entries : List (Value × Value)}
    (h : TextKeys entries) :
    redactAll sensitiveField entries = .ok (entries.map (redactHead sensitiveField)) := by
  induction entries with
  | nil => rfl
  | cons e rest ih =>
    obtain ⟨⟨key, hk⟩, hrest⟩ := List.forall_mem_cons.mp h
    obtain ⟨k, v⟩ := e
    obtain rfl : k = .str key := hk
    rw [redactAll, redactUnder_str, ih hrest]
    rfl

/-- The name of an event is no secret. -/
theorem isSecretKey_of_isEventKey (sensitiveField : Bool) {key : Value} (h : isEventKey key) :
    isSecretKey sensitiveField key = false := by
  cases key with
  | str s =>
    obtain rfl : s = "event" := by simpa [isEventKey] using h
    cases sensitiveField <;> decide
  | _ => rfl

private theorem withoutSecrets_eq_str_iff {v : Value} {s : String} :
    withoutSecrets v = .str s ↔ v = .str s := by
  cases v <;> simp [withoutSecrets]

private theorem nameExposed_of_ne_str {v : Value} (h : ∀ s, v ≠ .str s) :
    nameExposed v = [v.unlabelled] := by
  cases v with
  | str s => exact absurd rfl (h s)
  | _ => rfl

private theorem redactName_of_ne_str {v : Value} (h : ∀ s, v ≠ .str s) : redactName v = v := by
  cases v with
  | str s => exact absurd rfl (h s)
  | _ => rfl

private theorem redactName_eq_iff {u v : Value} (h : withoutSecrets u = withoutSecrets v) :
    (nameExposed u).length = (nameExposed v).length ∧
      ((redactName u).unlabelled = (redactName v).unlabelled ↔ nameExposed u = nameExposed v) := by
  by_cases hu : ∃ s, u = .str s
  · obtain ⟨s, rfl⟩ := hu
    obtain rfl := withoutSecrets_eq_str_iff.mp h.symm
    exact ⟨rfl, iff_of_true rfl rfl⟩
  · have hu' : ∀ s, u ≠ .str s := not_exists.mp hu
    have hv : ∀ s, v ≠ .str s := fun s hv =>
      hu' s (withoutSecrets_eq_str_iff.mp (h.trans (withoutSecrets_eq_str_iff.mpr hv)))
    rw [nameExposed_of_ne_str hu', nameExposed_of_ne_str hv, redactName_of_ne_str hu',
      redactName_of_ne_str hv]
    exact ⟨rfl, by simp⟩

/-- Entries that differ in secrets only expose equally much, and are the same once redacted exactly
if they expose the same. -/
theorem redactHead_eq_iff {sensitiveField : Bool} {d e : Value × Value}
    (h : headWithoutSecrets sensitiveField d = headWithoutSecrets sensitiveField e) :
    (headExposed sensitiveField d).length = (headExposed sensitiveField e).length ∧
      (unlabelledEntry (redactHead sensitiveField d) =
          unlabelledEntry (redactHead sensitiveField e) ↔
        headExposed sensitiveField d = headExposed sensitiveField e) := by
  obtain ⟨k, u⟩ := d
  obtain ⟨k', v⟩ := e
  obtain ⟨rfl, h⟩ := Prod.mk.injEq .. ▸ h
  simp only [headExposed, redactHead, unlabelledEntry, Prod.mk.injEq, true_and]
  by_cases hname : isEventKey k
  · simp only [isSecretKey_of_isEventKey sensitiveField hname, Bool.false_eq_true, if_false] at h
    simp only [hname, if_true]
    exact redactName_eq_iff h
  · by_cases hsecret : isSecretKey sensitiveField k
    · simp [hname, hsecret]
    · simp only [hsecret, Bool.false_eq_true, if_false] at h
      simp only [hname, hsecret, Bool.false_eq_true, if_false]
      exact ⟨length_exposed_eq h, redactValue_eq_iff h⟩

/-! ### Two events -/

/-- The field that an event names is no secret, so that it stands in what the event holds apart from
secrets. -/
theorem lookup?_headWithoutSecrets (sensitiveField : Bool) (event : List (Value × Value)) :
    lookup? "field" (event.map (headWithoutSecrets sensitiveField)) =
      (lookup? "field" event).map withoutSecrets := by
  have hfield : isSecretKey sensitiveField (.str "field") = false := by
    cases sensitiveField <;> decide
  induction event with
  | nil => rfl
  | cons e rest ih =>
    obtain ⟨k, v⟩ := e
    cases k with
    | str key =>
      simp only [List.map_cons, headWithoutSecrets, lookup?]
      by_cases hk : key == "field"
      · obtain rfl : key = "field" := by simpa using hk
        simp [hfield]
      · simpa only [hk, Bool.false_eq_true, if_false] using ih
    | _ => exact ih

/-- Whether an event is about a sensitive field shows without its secrets. -/
theorem namesSensitiveField_eq (event : List (Value × Value)) :
    namesSensitiveField event = match (lookup? "field" event).map withoutSecrets with
      | some (.str name) => isSensitive name
      | _ => false := by
  unfold namesSensitiveField
  cases lookup? "field" event with
  | none => rfl
  | some v => cases v <;> simp [withoutSecrets]

/-- Events that differ in secrets are about a sensitive field alike. -/
theorem DifferInSecrets.namesSensitiveField {event other : List (Value × Value)}
    (h : DifferInSecrets event other) : namesSensitiveField event = namesSensitiveField other := by
  have hl := congrArg (lookup? "field") h
  simp only [eventWithoutSecrets, lookup?_headWithoutSecrets] at hl
  rw [namesSensitiveField_eq, namesSensitiveField_eq, hl]

/-- Events that differ in secrets have texts as keys alike. -/
theorem DifferInSecrets.textKeys {event other : List (Value × Value)}
    (h : DifferInSecrets event other) (ht : TextKeys event) : TextKeys other := by
  have hkeys : event.map Prod.fst = other.map Prod.fst := by
    simpa [eventWithoutSecrets, headWithoutSecrets, Function.comp_def] using
      congrArg (List.map Prod.fst) h
  intro e he
  obtain ⟨d, hd, hde⟩ := List.mem_map.mp (hkeys ▸ List.mem_map_of_mem (f := Prod.fst) he)
  exact hde ▸ ht d hd

/-- Events with texts as keys that differ in secrets only can both be redacted, and are then the
same exactly if they expose the same. -/
theorem redactEvent_eq_iff {event other : List (Value × Value)} (ht : TextKeys event)
    (h : DifferInSecrets event other) :
    ∃ redacted redacted', redactEvent event = .ok redacted ∧ redactEvent other = .ok redacted' ∧
      (redacted.map unlabelledEntry = redacted'.map unlabelledEntry ↔
        eventExposed event = eventExposed other) := by
  refine ⟨_, _, redactAll_text _ ht, redactAll_text _ (h.textKeys ht), ?_⟩
  unfold DifferInSecrets eventWithoutSecrets at h
  rw [eventExposed, eventExposed, ← DifferInSecrets.namesSensitiveField h] at *
  rw [List.map_map, List.map_map]
  exact map_eq_iff_flatMap_eq (fun d e he => (redactHead_eq_iff he).1)
    (fun d _ e he => (redactHead_eq_iff he).2) h

/-- Two attempts of a login: the passwords stand in a list, and in a tuple. -/
def logins (first second : String) : List (Value × Value) := [
  (.str "event", .str "login"),
  (.str "first", .list [.dict [(.str "password", .str first)]] none),
  (.str "second", .tuple [.dict [(.str "password", .str second)]])]

/-- A password in a tuple is told: logins that differ in the passwords only stay different. -/
theorem logins_told :
    ∃ redacted redacted', redactEvent (logins "hunter2" "hunter2") = .ok redacted ∧
      redactEvent (logins "swordfish" "swordfish") = .ok redacted' ∧
      redacted.map unlabelledEntry ≠ redacted'.map unlabelledEntry := by
  have hp : isSensitive "password" = true := by decide
  have ht : TextKeys (logins "hunter2" "hunter2") := by simp [TextKeys, logins]
  have hd : DifferInSecrets (logins "hunter2" "hunter2") (logins "swordfish" "swordfish") := by
    simp [DifferInSecrets, eventWithoutSecrets, logins, namesSensitiveField, lookup?,
      headWithoutSecrets, withoutSecrets, itemsWithoutSecrets, entriesWithoutSecrets,
      entryWithoutSecrets, isSensitiveKey, hp]
  obtain ⟨redacted, redacted', h, h', hiff⟩ := redactEvent_eq_iff ht hd
  refine ⟨redacted, redacted', h, h', fun he => ?_⟩
  have hsecond : isSensitive "second" = false := by decide
  have hfirst : isSensitive "first" = false := by decide
  simpa [eventExposed, logins, namesSensitiveField, lookup?, headExposed, isEventKey, nameExposed,
    isSecretKey, hfirst, hsecond, exposed, itemsExposed, entriesExposed, entryExposed,
    isSensitiveKey, hp, unlabelledEntry] using hiff.mp he

end SchemaBinding.Log
