import SchemaBinding.Proofs.ContentFunctions
import SchemaBinding.Proofs.Execution
import SchemaBinding.Settings.Validation

/-!
# The rules for settings

What a payload of settings may say is told key by key, without regard to the settings that it is
laid over. A valid payload changes the settings that it names, to their normalised values, and no
others. The values that come of it are normal: they obey the rules again and stand for themselves.
-/

namespace SchemaBinding.Settings

/-- The settings that are switched on or off. -/
def switches : List String := ["strict_requiredness", "redact_logs"]

/-- A key admits a value, which stands for a normalised one. -/
inductive Admits (key : String) : Value → Value → Prop
  /-- There is one version of the settings. -/
  | version (hk : key = "schema_version") : Admits key (.int schemaVersion) (.int schemaVersion)
  /-- A switch is on or off. -/
  | switch (hk : key ∈ switches) (b : Bool) : Admits key (.bool b) (.bool b)
  /-- At least one level is allowed. -/
  | depth (hk : key = "max_depth") {i : Int} (h : 1 ≤ i) : Admits key (.int i) (.int i)
  /-- A log level is named in any case, blanks around it aside. -/
  | level (hk : key = "log_level") {s : String} (h : Text.strip (Text.upper s) ∈ logLevels) :
      Admits key (.str s) (.str (Text.strip (Text.upper s)))
  /-- A log format is named, blanks around it aside. -/
  | format (hk : key = "log_format") {s : String} (h : Text.strip s ∈ logFormats) :
      Admits key (.str s) (.str (Text.strip s))

/-- A payload is valid: its keys mean something, and each admits its value. -/
structure Valid (entries : List (Value × Value)) : Prop where
  known : ∀ e ∈ entries, e.1.words ∈ keys
  admitted : ∀ key ∈ keys, ∀ v, Value.lookup? key entries = some v → ∃ u, Admits key v u

variable {key name : String} {u v : Value} {entries : List (Value × Value)} {base s t : Settings}

/-! ### Single keys -/

private theorem readBool_ok_iff (path : String) :
    readBool path v = .ok u ↔ ∃ b, v = .bool b ∧ u = .bool b := by
  cases v <;> simp [readBool, eq_comm]

private theorem readPositive_ok_iff (path : String) :
    readPositive path v = .ok u ↔ ∃ i, 1 ≤ i ∧ v = .int i ∧ u = .int i := by
  cases v with
  | int i => by_cases h : 1 ≤ i <;> grind [readPositive]
  | _ => simp [readPositive]

private theorem readChoice_ok_iff (path : String) (allowed : List String) :
    readChoice path allowed v = .ok u ↔
      ∃ s, Text.strip s ∈ allowed ∧ v = .str s ∧ u = .str (Text.strip s) := by
  cases v with
  | str s => by_cases h : Text.strip s ∈ allowed <;> grind [readChoice]
  | _ => simp [readChoice]

private theorem readVersion_ok_iff (path : String) :
    readVersion path v = .ok u ↔ v = .int schemaVersion ∧ u = .int schemaVersion := by
  cases v with
  | int i => grind [readVersion, readPositive, schemaVersion]
  | _ => simp [readVersion, readPositive]

/-- What is a text in upper case was a text. -/
theorem upperCase_eq_str_iff {s : String} :
    upperCase v = .str s ↔ ∃ r, v = .str r ∧ s = Text.upper r := by
  cases v <;> simp [upperCase, eq_comm]

/-- A key is read as it admits values. -/
theorem readKey_ok_iff (hk : key ∈ keys) : readKey key v = .ok u ↔ Admits key v u := by
  constructor
  · intro h
    rw [readKey] at h
    split at h
    · next hkey =>
      obtain ⟨rfl, rfl⟩ := (readVersion_ok_iff _).mp h
      exact .version (eq_of_beq hkey)
    · split at h
      · next hkey =>
        obtain ⟨b, rfl, rfl⟩ := (readBool_ok_iff _).mp h
        exact .switch (by simp [switches, eq_of_beq hkey]) b
      · split at h
        · next hkey =>
          obtain ⟨i, hi, rfl, rfl⟩ := (readPositive_ok_iff _).mp h
          exact .depth (eq_of_beq hkey) hi
        · split at h
          · next hkey =>
            obtain ⟨s, hs, hv, rfl⟩ := (readChoice_ok_iff _ _).mp h
            obtain ⟨r, rfl, rfl⟩ := upperCase_eq_str_iff.mp hv
            exact .level (eq_of_beq hkey) hs
          · split at h
            · next hkey =>
              obtain ⟨s, hs, rfl, rfl⟩ := (readChoice_ok_iff _ _).mp h
              exact .format (eq_of_beq hkey) hs
            · obtain ⟨b, rfl, rfl⟩ := (readBool_ok_iff _).mp h
              exact .switch (by simp_all [keys, names, switches]) b
  · intro h
    cases h with
    | version hk =>
      have hr : readKey key (.int schemaVersion) = readVersion key (.int schemaVersion) := by
        simp [readKey, hk]
      rw [hr, readVersion_ok_iff]
      exact ⟨rfl, rfl⟩
    | switch hk b =>
      have hr : readKey key (.bool b) = readBool key (.bool b) := by
        simp only [switches, List.mem_cons, List.not_mem_nil, or_false] at hk
        rcases hk with rfl | rfl <;> simp [readKey]
      rw [hr, readBool_ok_iff]
      exact ⟨b, rfl, rfl⟩
    | @depth hk i hi =>
      have hr : readKey key (.int i) = readPositive key (.int i) := by simp [readKey, hk]
      rw [hr, readPositive_ok_iff]
      exact ⟨i, hi, rfl, rfl⟩
    | @level hk s hs =>
      have hr : readKey key (.str s) = readChoice key logLevels (.str (Text.upper s)) := by
        simp [readKey, hk, upperCase]
      rw [hr, readChoice_ok_iff]
      exact ⟨_, hs, rfl, rfl⟩
    | @format hk s hs =>
      have hr : readKey key (.str s) = readChoice key logFormats (.str s) := by simp [readKey, hk]
      rw [hr, readChoice_ok_iff]
      exact ⟨_, hs, rfl, rfl⟩

private theorem Admits.mem_keys (h : Admits key v u) : key ∈ keys := by
  cases h with
  | switch hk b =>
    simp only [switches, List.mem_cons, List.not_mem_nil, or_false] at hk
    rcases hk with rfl | rfl <;> decide
  | version hk => simp [hk, keys]
  | depth hk => simp [hk, keys, names]
  | level hk => simp [hk, keys, names]
  | format hk => simp [hk, keys, names]

/-- A value stands for one normalised value. -/
theorem Admits.unique {w : Value} (h : Admits key v u) (g : Admits key v w) : u = w := by
  have hu := (readKey_ok_iff h.mem_keys).mpr h
  have hw := (readKey_ok_iff h.mem_keys).mpr g
  exact Except.ok.inj (hu.symm.trans hw)

private theorem strip_upper_of_mem {s : String} (h : s ∈ logLevels) :
    Text.strip (Text.upper s) = s := by
  revert s
  decide

private theorem strip_of_mem {s : String} (h : s ∈ logFormats) : Text.strip s = s := by
  revert s
  decide

/-- A log level stands for itself. -/
theorem Admits.of_mem_logLevels (hk : key = "log_level") {s : String} (h : s ∈ logLevels) :
    Admits key (.str s) (.str s) := by
  have he := strip_upper_of_mem h
  have ha : Admits key (.str s) (.str (Text.strip (Text.upper s))) := .level hk (he.symm ▸ h)
  rwa [he] at ha

/-- A log format stands for itself. -/
theorem Admits.of_mem_logFormats (hk : key = "log_format") {s : String} (h : s ∈ logFormats) :
    Admits key (.str s) (.str s) := by
  have he := strip_of_mem h
  have ha : Admits key (.str s) (.str (Text.strip s)) := .format hk (he.symm ▸ h)
  rwa [he] at ha

/-- A normalised value stands for itself. -/
theorem Admits.again (h : Admits key v u) : Admits key u u := by
  cases h with
  | version hk => exact .version hk
  | switch hk b => exact .switch hk b
  | depth hk hi => exact .depth hk hi
  | level hk hs => exact .of_mem_logLevels hk hs
  | format hk hs => exact .of_mem_logFormats hk hs

/-! ### Settings by their names -/

/-- Settings are what they are under their names. -/
theorem eq_of_get (h : ∀ name ∈ names, s.get name = t.get name) : s = t := by
  have h₁ := h "strict_requiredness" (by decide)
  have h₂ := h "max_depth" (by decide)
  have h₃ := h "log_level" (by decide)
  have h₄ := h "log_format" (by decide)
  have h₅ := h "redact_logs" (by decide)
  cases s
  cases t
  simp_all [get, toEntries]

/-- Setting the value of a key changes no other. -/
theorem get_set (hn : name ∈ names) (key : String) (v : Value) :
    (s.set key v).get name = if name = key then v else s.get name := by
  have hget : ∀ t : Settings, t.get "strict_requiredness" = t.strictRequiredness ∧
      t.get "max_depth" = t.maxDepth ∧ t.get "log_level" = t.logLevel ∧
      t.get "log_format" = t.logFormat ∧ t.get "redact_logs" = t.redactLogs := by
    intro t
    simp [get, toEntries]
  simp only [names, List.mem_cons, List.not_mem_nil, or_false] at hn
  unfold set
  rcases hn with rfl | rfl | rfl | rfl | rfl <;> simp only [hget] <;> grind

/-! ### Laying a payload over settings -/

/-- The normalised value that a payload gives for a key. -/
def normal? (entries : List (Value × Value)) (key : String) : Option Value :=
  (Value.lookup? key entries).bind fun v => (readKey key v).toOption

/-- What is wrong with the value that a payload gives for a key. -/
def issue? (entries : List (Value × Value)) (key : String) : Option Issue :=
  (Value.lookup? key entries).bind fun v =>
    match readKey key v with
    | .ok _ => none
    | .error issue => some issue

/-- A key has a normalised value if it admits what stands under it. -/
theorem normal?_eq_some_iff (hk : key ∈ keys) : normal? entries key = some u ↔
    ∃ v, Value.lookup? key entries = some v ∧ Admits key v u := by
  rw [normal?, Option.bind_eq_some_iff]
  apply exists_congr
  intro v
  rw [← readKey_ok_iff hk]
  cases readKey key v <;> simp [Except.toOption]

private theorem issue?_eq_none_iff (hk : key ∈ keys) : issue? entries key = none ↔
    ∀ v, Value.lookup? key entries = some v → ∃ u, Admits key v u := by
  rw [issue?, Option.bind_eq_none_iff]
  apply forall_congr'
  intro v
  simp only [← readKey_ok_iff hk]
  cases readKey key v <;> simp

/-- Settings and issues once the value of one more key has been laid over. -/
def layKey (entries : List (Value × Value)) (acc : Settings × List Issue) (key : String) :
    Settings × List Issue :=
  match Value.lookup? key entries with
  | none => acc
  | some v =>
    match readKey key v with
    | .ok v => (acc.1.set key v, acc.2)
    | .error issue => (acc.1, acc.2 ++ [issue])

private theorem layKey_eq (entries : List (Value × Value)) (acc : Settings × List Issue)
    (key : String) :
    layKey entries acc key =
      (((normal? entries key).map (acc.1.set key)).getD acc.1,
        acc.2 ++ (issue? entries key).toList) := by
  unfold layKey normal? issue?
  cases Value.lookup? key entries with
  | none => simp
  | some v => cases h : readKey key v <;> simp [Except.toOption, h]

/-- The issues do not depend on the settings that a payload is laid over. -/
theorem issues_overlay (entries : List (Value × Value)) (ks : List String) (base : Settings) :
    (overlay entries ks base).2 = ks.filterMap (issue? entries) := by
  have hgather : ∀ acc : Settings × List Issue,
      (ks.foldl (layKey entries) acc).2 = acc.2 ++ ks.filterMap (issue? entries) := by
    induction ks with
    | nil => simp
    | cons k ks ih =>
      intro acc
      rw [List.foldl_cons, ih, layKey_eq, List.filterMap_cons]
      cases issue? entries k <;> simp
  exact hgather (base, [])

/-- A setting has the value that the payload gives for it, or else the one that it had. -/
theorem get_overlay (hn : name ∈ names) (entries : List (Value × Value)) (ks : List String)
    (base : Settings) : (overlay entries ks base).1.get name =
      if name ∈ ks then (normal? entries name).getD (base.get name) else base.get name := by
  have hlay : ∀ acc : Settings × List Issue, (ks.foldl (layKey entries) acc).1.get name =
      if name ∈ ks then (normal? entries name).getD (acc.1.get name) else acc.1.get name := by
    induction ks with
    | nil => simp
    | cons k ks ih =>
      intro acc
      have hstep : (layKey entries acc k).1.get name =
          if name = k then (normal? entries name).getD (acc.1.get name) else acc.1.get name := by
        rw [layKey_eq]
        by_cases hk : name = k
        · subst hk
          cases normal? entries name <;> simp [get_set hn]
        · cases normal? entries k <;> simp [get_set hn, hk]
      rw [List.foldl_cons, ih, hstep]
      by_cases hk : name = k
      · subst hk
        cases normal? entries name <;> simp
      · simp [hk]
  exact hlay (base, [])

/-! ### Validating -/

private theorem perm_insertSorted (s : String) (ts : List String) :
    (Text.insertSorted s ts).Perm (s :: ts) := by
  induction ts with
  | nil => exact .refl _
  | cons t ts ih =>
    rw [Text.insertSorted]
    split
    · exact (ih.cons t).trans (.swap s t ts)
    · exact .refl _

/-- Sorting changes the order of texts only. -/
theorem perm_sorted (ts : List String) : (Text.sorted ts).Perm ts := by
  induction ts with
  | nil => exact .refl _
  | cons t ts ih => exact (perm_insertSorted t _).trans (ih.cons t)

/-- Sorted texts are those that were sorted. -/
theorem mem_sorted {s : String} {ts : List String} : s ∈ Text.sorted ts ↔ s ∈ ts :=
  (perm_sorted ts).mem_iff

private theorem unknownKeys_eq_nil_iff :
    unknownKeys entries = [] ↔ ∀ e ∈ entries, e.1.words ∈ keys := by
  simp only [unknownKeys, List.map_eq_nil_iff, List.filter_eq_nil_iff, mem_sorted, List.mem_map,
    Bool.not_eq_true', List.contains_eq_mem, decide_eq_false_iff_not, Decidable.not_not,
    forall_exists_index, and_imp, forall_apply_eq_imp_iff₂]

/-- A payload is valid if it has no issues, whatever it is laid over. -/
theorem valid_iff (entries : List (Value × Value)) (base : Settings) :
    Valid entries ↔ unknownKeys entries ++ (overlay entries keys base).2 = [] := by
  rw [List.append_eq_nil_iff, unknownKeys_eq_nil_iff, issues_overlay, List.filterMap_eq_nil_iff]
  constructor
  · intro h
    exact ⟨h.known, fun key hk => (issue?_eq_none_iff hk).mpr (h.admitted key hk)⟩
  · rintro ⟨hknown, hissue⟩
    exact ⟨hknown, fun key hk => (issue?_eq_none_iff hk).mp (hissue key hk)⟩

/-- The words of every issue can be written if the payload can be shown. -/
theorem showable_of_printable (h : (Value.dict entries).printable = true) :
    showable entries = true := by
  rw [showable, Bool.and_eq_true]
  constructor
  · rw [List.all_eq_true]
    intro e he
    exact (Value.printable_of_mem h he).1
  · cases hl : Value.lookup? "schema_version" entries with
    | none => rfl
    | some v =>
      obtain ⟨k, hm⟩ := Value.mem_of_lookup? hl
      have hp := (Value.printable_of_mem h hm).2
      cases v with
      | int i =>
        rw [Option.all_some, Bool.or_eq_true]
        exact .inr hp
      | _ => rfl

/-- A valid payload makes settings. -/
theorem validate_of_valid (hs : showable entries = true) (h : Valid entries) (base : Settings) :
    validate base (.dict entries) = .ok ⟨some (overlay entries keys base).1, []⟩ := by
  have hn := (valid_iff entries base).mp h
  simp [validate, hs, hn]

/-- A payload that is not valid makes none. -/
theorem validate_of_not_valid (hs : showable entries = true) (h : ¬ Valid entries)
    (base : Settings) : ∃ issues, validate base (.dict entries) = .ok ⟨none, issues⟩ := by
  rw [valid_iff entries base] at h
  simp [validate, hs, h]

/-- A valid payload is laid over settings. -/
theorem require_of_valid (hs : showable entries = true) (h : Valid entries) (base : Settings) :
    require base (.dict entries) = .ok (overlay entries keys base).1 := by
  rw [require, validate_of_valid hs h]
  rfl

/-- A payload that is not valid is refused with its issues. -/
theorem require_of_not_valid (hs : showable entries = true) (h : ¬ Valid entries)
    (base : Settings) : ∃ issues, require base (.dict entries) = .error (.settings issues) := by
  obtain ⟨issues, hv⟩ := validate_of_not_valid hs h base
  refine ⟨issues, ?_⟩
  rw [require, hv]
  rfl

/-- Nothing but a dictionary makes settings. -/
theorem require_of_ne_dict (h : ∀ entries, v ≠ .dict entries) (base : Settings) :
    ∃ issues, require base v = .error (.settings issues) := by
  cases v with
  | dict entries => exact absurd rfl (h entries)
  | _ => exact ⟨_, rfl⟩

/-! ### Normal settings -/

/-- Every setting obeys the rules and is normalised. -/
def Normal (s : Settings) : Prop := ∀ name ∈ names, Admits name (s.get name) (s.get name)

/-- The names of settings are keys. -/
theorem mem_keys_of_mem_names (h : name ∈ names) : name ∈ keys := List.mem_cons_of_mem _ h

/-- The defaults are normal. -/
theorem normal_default : default.Normal := by
  intro name hn
  simp only [names, List.mem_cons, List.not_mem_nil, or_false] at hn
  rcases hn with rfl | rfl | rfl | rfl | rfl
  · exact .switch (by decide) false
  · exact .depth rfl (by decide)
  · exact .of_mem_logLevels rfl (by decide)
  · exact .of_mem_logFormats rfl (by decide)
  · exact .switch (by decide) true

/-- What a payload makes of normal settings is normal. -/
theorem Normal.overlay (h : base.Normal) (entries : List (Value × Value)) :
    (Settings.overlay entries keys base).1.Normal := by
  intro name hn
  rw [get_overlay hn, if_pos (mem_keys_of_mem_names hn)]
  cases hv : normal? entries name with
  | none => exact h name hn
  | some u =>
    obtain ⟨v, -, ha⟩ := (normal?_eq_some_iff (mem_keys_of_mem_names hn)).mp hv
    exact ha.again

/-- What settings are as a payload. -/
theorem lookup?_toEntries (hn : name ∈ names) (s : Settings) :
    Value.lookup? name (s.toEntries.map fun e => (.str e.1, e.2)) = some (s.get name) := by
  simp only [names, List.mem_cons, List.not_mem_nil, or_false] at hn
  rcases hn with rfl | rfl | rfl | rfl | rfl <;> simp [toEntries, Value.lookup?, get]

private theorem lookup?_version_toEntries (s : Settings) :
    Value.lookup? "schema_version" (s.toEntries.map fun e => (.str e.1, e.2)) = none := by
  simp [toEntries, Value.lookup?]

/-- Normal settings are a valid payload, which makes them of any others. -/
theorem Normal.validate_toValue (h : s.Normal) (base : Settings) :
    validate base s.toValue = .ok ⟨some s, []⟩ := by
  have hs : showable (s.toEntries.map fun e => (.str e.1, e.2)) = true := by
    rw [showable, lookup?_version_toEntries]
    simp [toEntries, Value.printable]
  have hv : Valid (s.toEntries.map fun e => (.str e.1, e.2)) := by
    constructor
    · simp [toEntries, Value.words, keys, names]
    · intro key hk v hl
      rcases List.mem_cons.mp hk with rfl | hn
      · rw [lookup?_version_toEntries] at hl
        cases hl
      · rw [lookup?_toEntries hn] at hl
        cases hl
        exact ⟨_, h key hn⟩
  rw [toValue, validate_of_valid hs hv]
  suffices he : (Settings.overlay (s.toEntries.map fun e => (.str e.1, e.2)) keys base).1 = s by
    rw [he]
  apply eq_of_get
  intro name hn
  have hk := mem_keys_of_mem_names hn
  have hnormal : normal? (s.toEntries.map fun e => (.str e.1, e.2)) name = some (s.get name) :=
    (normal?_eq_some_iff hk).mpr ⟨_, lookup?_toEntries hn s, h name hn⟩
  rw [get_overlay hn, if_pos hk, hnormal, Option.getD_some]

end SchemaBinding.Settings
