import Mathlib
import SchemaBinding.Proofs.MadeCalls
import SchemaBinding.Proofs.SettingsRules
import SchemaBinding.Settings.Layers

/-!
# The precedence of settings

Settings come in layers: a file, the variables of the environment, and what a caller gives. Each
layer is judged on its own. If all are valid, every setting has the normalised value of the last
layer that gives one, or else its default, and the settings can be applied; otherwise there are
none.
-/

namespace SchemaBinding.Settings

variable {key name setting text : String} {u v : Value} {environ : List (String × String)}
  {file given : List (Value × Value)}

/-! ### Variables of the environment -/

/-- The text of the variable that gives a setting. -/
def textOf? (environ : List (String × String)) (setting : String) : Option String :=
  (environ.find? fun v => v.1 == variableOf setting).map Prod.snd

/-- The text of a variable reads as a value of the type that its setting has. -/
inductive Reads (setting text : String) : Value → Prop
  /-- A switch is on. -/
  | on (hs : setting ∈ switches) (h : Text.lower (Text.strip text) ∈ trueWords) :
      Reads setting text (.bool true)
  /-- A switch is off. -/
  | off (hs : setting ∈ switches) (h : Text.lower (Text.strip text) ∈ falseWords) :
      Reads setting text (.bool false)
  /-- A number of levels. -/
  | number (hs : setting = "max_depth") {i : Int} (h : Numeral.int? (Text.strip text) = some i) :
      Reads setting text (.int i)
  /-- A level or a format of the log. -/
  | word (hs : setting = "log_level" ∨ setting = "log_format") :
      Reads setting text (.str (Text.strip text))

private theorem not_mem_trueWords {word : String} (h : word ∈ falseWords) : word ∉ trueWords := by
  revert word
  decide

private theorem readVariable_bool_ok_iff (shown : String) (b : Bool) :
    readVariable shown (.bool b) text = .ok v ↔
      (Text.lower (Text.strip text) ∈ trueWords ∧ v = .bool true) ∨
        (Text.lower (Text.strip text) ∈ falseWords ∧ v = .bool false) := by
  by_cases ht : Text.lower (Text.strip text) ∈ trueWords
  · have hf : Text.lower (Text.strip text) ∉ falseWords := fun hf => not_mem_trueWords hf ht
    simp [readVariable, ht, hf, eq_comm]
  · by_cases hf : Text.lower (Text.strip text) ∈ falseWords <;>
      simp [readVariable, ht, hf, eq_comm]

private theorem readVariable_int_ok_iff (shown : String) (n : Int) :
    readVariable shown (.int n) text = .ok v ↔
      ∃ i, Numeral.int? (Text.strip text) = some i ∧ v = .int i := by
  cases h : Numeral.int? (Text.strip text) <;> simp [readVariable, h, eq_comm]

private theorem readVariable_str_ok_iff (shown s : String) :
    readVariable shown (.str s) text = .ok v ↔ v = .str (Text.strip text) := by
  simp [readVariable, eq_comm]

/-- The text of a variable is read in the type of the default of its setting. -/
theorem readVariable_ok_iff (hs : setting ∈ names) (shown : String) :
    readVariable shown (default.get setting) text = .ok v ↔ Reads setting text v := by
  have hswitch : setting ∈ switches → ((Text.lower (Text.strip text) ∈ trueWords ∧ v = .bool true) ∨
      (Text.lower (Text.strip text) ∈ falseWords ∧ v = .bool false) ↔ Reads setting text v) := by
    intro hs
    constructor
    · rintro (⟨h, rfl⟩ | ⟨h, rfl⟩)
      · exact .on hs h
      · exact .off hs h
    · intro h
      cases h with
      | on _ h => exact .inl ⟨h, rfl⟩
      | off _ h => exact .inr ⟨h, rfl⟩
      | number hn =>
        subst hn
        exact absurd hs (by decide)
      | word hw => rcases hw with rfl | rfl <;> exact absurd hs (by decide)
  have hword : (setting = "log_level" ∨ setting = "log_format") →
      (v = .str (Text.strip text) ↔ Reads setting text v) := by
    intro hw
    constructor
    · rintro rfl
      exact .word hw
    · intro h
      cases h with
      | word => rfl
      | number hn =>
        subst hn
        exact absurd hw (by decide)
      | _ hs => rcases hw with rfl | rfl <;> exact absurd hs (by decide)
  simp only [names, List.mem_cons, List.not_mem_nil, or_false] at hs
  rcases hs with rfl | rfl | rfl | rfl | rfl
  · exact (readVariable_bool_ok_iff shown false).trans (hswitch (by decide))
  · rw [show default.get "max_depth" = .int 64 from rfl, readVariable_int_ok_iff]
    constructor
    · rintro ⟨i, h, rfl⟩
      exact .number rfl h
    · intro h
      cases h with
      | number _ h => exact ⟨_, h, rfl⟩
      | word hw => exact absurd hw (by decide)
      | _ hs => exact absurd hs (by decide)
  · exact (readVariable_str_ok_iff shown "WARNING").trans (hword (.inl rfl))
  · exact (readVariable_str_ok_iff shown "text").trans (hword (.inr rfl))
  · exact (readVariable_bool_ok_iff shown true).trans (hswitch (by decide))

/-- The environment is valid: every variable of a setting can be read, and its setting admits it. -/
def EnvironmentValid (environ : List (String × String)) : Prop :=
  ∀ setting ∈ names, ∀ text, textOf? environ setting = some text →
    ∃ v u, Reads setting text v ∧ Admits setting v u

/-- Every variable of a setting can be read. -/
def Readable (environ : List (String × String)) (settings : List String) : Prop :=
  ∀ setting ∈ settings, ∀ text, textOf? environ setting = some text → ∃ v, Reads setting text v

/-- What the variable of a setting gives. -/
def given? (environ : List (String × String)) (setting : String) : Option Value :=
  (textOf? environ setting).bind fun text =>
    (readVariable (variableOf setting) (default.get setting) text).toOption

private theorem given?_eq_some_iff (hs : setting ∈ names) : given? environ setting = some v ↔
    ∃ text, textOf? environ setting = some text ∧ Reads setting text v := by
  rw [given?, Option.bind_eq_some_iff]
  apply exists_congr
  intro text
  rw [← readVariable_ok_iff hs (variableOf setting)]
  cases readVariable (variableOf setting) (default.get setting) text <;> simp [Except.toOption]

/-- The layer of some settings once what the variable of one more gives has been added. -/
def layVariable (environ : List (String × String)) (layer : List (Value × Value))
    (setting : String) : Except Issue (List (Value × Value)) :=
  match environ.find? fun v => v.1 == variableOf setting with
  | none => .ok layer
  | some (_, text) => do
    let v ← readVariable (variableOf setting) (default.get setting) text
    return layer ++ [(.str setting, v)]

private theorem environmentLayer_eq_foldlM (environ : List (String × String)) :
    environmentLayer environ = (Text.sorted names).foldlM (layVariable environ) [] := rfl

/-- The layer of the variables that can be read. -/
def layerOf (environ : List (String × String)) (settings : List String) : List (Value × Value) :=
  settings.filterMap fun setting => (given? environ setting).map (Value.str setting, ·)

private theorem layVariable_eq (environ : List (String × String)) (layer : List (Value × Value))
    (setting : String) : layVariable environ layer setting =
      match (textOf? environ setting).map
        (readVariable (variableOf setting) (default.get setting)) with
      | none => .ok layer
      | some (.ok v) => .ok (layer ++ [(.str setting, v)])
      | some (.error issue) => .error issue := by
  rw [layVariable, textOf?]
  cases environ.find? fun v => v.1 == variableOf setting with
  | none => rfl
  | some found =>
    obtain ⟨_, text⟩ := found
    dsimp only [Option.map_some]
    cases readVariable (variableOf setting) (default.get setting) text <;> rfl

private theorem layerOf_cons (environ : List (String × String)) (setting : String)
    (rest : List String) :
    layerOf environ (setting :: rest) =
      ((given? environ setting).map (Value.str setting, ·)).toList ++ layerOf environ rest := by
  rw [layerOf, List.filterMap_cons]
  cases given? environ setting <;> rfl

/-- The variables make a layer if all of them can be read, and else there is an issue. -/
theorem foldlM_layVariable {settings : List String} (hn : ∀ setting ∈ settings, setting ∈ names)
    (layer : List (Value × Value)) :
    (Readable environ settings ∧
      settings.foldlM (layVariable environ) layer = .ok (layer ++ layerOf environ settings)) ∨
    ¬ Readable environ settings ∧
      ∃ issue, settings.foldlM (layVariable environ) layer = .error issue := by
  induction settings generalizing layer with
  | nil =>
    left
    constructor
    · intro _ hs
      cases hs
    · rw [layerOf, List.filterMap_nil, List.append_nil]
      rfl
  | cons setting rest ih =>
    have hs := hn setting (List.mem_cons_self ..)
    have hrest := ih fun setting hr => hn setting (List.mem_cons_of_mem _ hr)
    have hreadable : Readable environ (setting :: rest) ↔
        (∀ text, textOf? environ setting = some text → ∃ v, Reads setting text v) ∧
          Readable environ rest := List.forall_mem_cons
    have hnext :
      ∀ layer, (Except.ok layer >>= fun layer => rest.foldlM (layVariable environ) layer) =
        rest.foldlM (layVariable environ) layer := fun _ => rfl
    rw [List.foldlM_cons, layVariable_eq, hreadable, layerOf_cons, given?]
    cases ht : textOf? environ setting with
    | none => simpa [hnext] using hrest layer
    | some text =>
      simp only [← readVariable_ok_iff hs (variableOf setting)]
      cases hv : readVariable (variableOf setting) (default.get setting) text with
      | ok v =>
        have hlay := hrest (layer ++ [(.str setting, v)])
        rw [List.append_assoc] at hlay
        simpa [hv, hnext, Except.toOption] using hlay
      | error issue =>
        right
        constructor
        · rintro ⟨h, -⟩
          obtain ⟨v, h⟩ := h text rfl
          rw [hv] at h
          cases h
        · exact ⟨issue, by simp [hv, bind, Except.bind]⟩

/-- What the layer of variables has under the name of one of the settings. -/
theorem lookup?_layerOf {settings : List String} (setting : String) :
    Value.lookup? setting (layerOf environ settings) =
      if setting ∈ settings then given? environ setting else none := by
  induction settings with
  | nil => rfl
  | cons other rest ih =>
    rw [layerOf_cons]
    by_cases he : other = setting
    · subst he
      cases hg : given? environ other with
      | none => simp [ih, hg]
      | some v => simp [Value.lookup?]
    · cases hg : given? environ other with
      | none => simp [ih, Ne.symm he]
      | some v => simp [Value.lookup?, ih, he, Ne.symm he]

/-- The layer of all variables. -/
def environmentEntries (environ : List (String × String)) : List (Value × Value) :=
  layerOf environ (Text.sorted names)

private theorem lookup?_environment (hs : setting ∈ names) :
    Value.lookup? setting (environmentEntries environ) = given? environ setting := by
  rw [environmentEntries, lookup?_layerOf, if_pos (mem_sorted.mpr hs)]

private theorem lookup?_version_environment (environ : List (String × String)) :
    Value.lookup? "schema_version" (environmentEntries environ) = none := by
  rw [environmentEntries, lookup?_layerOf, if_neg fun h => absurd (mem_sorted.mp h) (by decide)]

private theorem exists_of_mem_environment {e : Value × Value}
    (he : e ∈ environmentEntries environ) :
    ∃ setting ∈ names, e.1 = .str setting := by
  obtain ⟨setting, hs, he⟩ := List.mem_filterMap.mp he
  obtain ⟨v, -, rfl⟩ := Option.map_eq_some_iff.mp he
  exact ⟨setting, mem_sorted.mp hs, rfl⟩

private theorem showable_environment (environ : List (String × String)) :
    showable (environmentEntries environ) = true := by
  rw [showable, lookup?_version_environment, Bool.and_eq_true, List.all_eq_true]
  constructor
  · intro e he
    obtain ⟨setting, -, hk⟩ := exists_of_mem_environment he
    rw [hk]
    rfl
  · rfl

/-- The environment is valid if its variables can be read and make a valid layer. -/
theorem environmentValid_iff (environ : List (String × String)) :
    EnvironmentValid environ ↔
      Readable environ (Text.sorted names) ∧ Valid (environmentEntries environ) := by
  constructor
  · intro h
    have hr : Readable environ (Text.sorted names) := by
      intro setting hs text ht
      obtain ⟨v, -, hv, -⟩ := h setting (mem_sorted.mp hs) text ht
      exact ⟨v, hv⟩
    refine ⟨hr, ?_, ?_⟩
    · intro e he
      obtain ⟨setting, hs, hk⟩ := exists_of_mem_environment he
      rw [hk]
      exact mem_keys_of_mem_names hs
    · intro key hk v hl
      rcases List.mem_cons.mp hk with rfl | hn
      · rw [lookup?_version_environment] at hl
        cases hl
      · rw [lookup?_environment hn, given?_eq_some_iff hn] at hl
        obtain ⟨text, ht, hv⟩ := hl
        obtain ⟨w, u, hw, ha⟩ := h key hn text ht
        have he : v = w := Except.ok.inj (((readVariable_ok_iff hn "").mpr hv).symm.trans
          ((readVariable_ok_iff hn "").mpr hw))
        exact ⟨u, he ▸ ha⟩
  · rintro ⟨hr, hv⟩ setting hs text ht
    obtain ⟨v, h⟩ := hr setting (mem_sorted.mpr hs) text ht
    have hl : Value.lookup? setting (environmentEntries environ) = some v := by
      rw [lookup?_environment hs, given?_eq_some_iff hs]
      exact ⟨text, ht, h⟩
    obtain ⟨u, ha⟩ := hv.admitted setting (mem_keys_of_mem_names hs) v hl
    exact ⟨v, u, h, ha⟩

private theorem environmentLayer_cases (environ : List (String × String)) :
    (Readable environ (Text.sorted names) ∧
      environmentLayer environ = .ok (environmentEntries environ)) ∨
      ¬ Readable environ (Text.sorted names) ∧
        ∃ issue, environmentLayer environ = .error issue := by
  rw [environmentLayer_eq_foldlM]
  exact foldlM_layVariable (fun _ hs => mem_sorted.mp hs) []

/-! ### Files -/

/-- The document at a place, with the name of its file. -/
def documentAt (d : Directory) (path : List String) : Except Fault (String × Value) :=
  let shown := d.shown path
  match d.read path with
  | .error f => .error (issueAt shown ("unable to read settings file: " ++ f.message shown))
  | .ok bytes => (documentOf shown bytes).map (path.getLastD d.name, ·)

/-- The document that settings are read from, with the name of its file: the one at a path, which
must be there, or the first that is found. -/
def document (d : Directory) (path : Option String) : Except Fault (Option (String × Value)) :=
  match path with
  | some path =>
    let path := Directory.resolved (Directory.components path)
    if d.holds path then (documentAt d path).map some
    else .error (issueAt (d.shown path) "settings file not found")
  | none =>
    match [fileName, projectFileName].find? fun name => (d.file? [name]).isSome with
    | some name => (documentAt d [name]).map some
    | none => .ok none

/-- The settings in a document that was found. -/
def settingsIn : Option (String × Value) → Except Fault Value
  | none => .ok (.dict [])
  | some (name, document) => payloadOf name document

/-- The layer of the file is made of the settings in the document. -/
theorem fileLayer_eq (d : Directory) (path : Option String) :
    fileLayer d path = document d path >>= settingsIn := by
  have hat : ∀ path, readFile d path = (documentAt d path).map some >>= settingsIn := by
    intro path
    rw [readFile, documentAt]
    cases d.read path with
    | error f => rfl
    | ok bytes =>
      dsimp only
      cases documentOf (d.shown path) bytes <;> rfl
  unfold fileLayer document
  cases path with
  | none =>
    dsimp only
    cases [fileName, projectFileName].find? fun name => (d.file? [name]).isSome with
    | none => rfl
    | some name => exact hat [name]
  | some path =>
    dsimp only
    split
    · exact hat _
    · rfl

/-- The settings that a document holds: all of it, or its section if it describes a whole project; a
project without the section has none, and neither has a directory without a document. -/
inductive Holds : Option (String × Value) → List (Value × Value) → Prop
  | none : Holds none []
  | whole {name : String} (hn : name ≠ projectFileName) (entries : List (Value × Value)) :
      Holds (some (name, .dict entries)) entries
  | part {document : Value} {entries : List (Value × Value)}
      (h : below? sectionPath document = some (.dict entries)) :
      Holds (some (projectFileName, document)) entries
  | noPart {document : Value} (h : below? sectionPath document = none) :
      Holds (some (projectFileName, document)) []

/-- The layer of the file is valid: the document holds settings, and they are valid. -/
def FileValid (found : Option (String × Value)) : Prop :=
  ∃ entries, Holds found entries ∧ Valid entries

variable {found : Option (String × Value)}

private theorem Holds.settingsIn (h : Holds found file) :
    Settings.settingsIn found = .ok (.dict file) := by
  cases h with
  | none => rfl
  | whole hn entries => simp [Settings.settingsIn, payloadOf, hn]
  | part h => simp [Settings.settingsIn, payloadOf, h]
  | noPart h => simp [Settings.settingsIn, payloadOf, h]

/-- What no settings can be taken from is refused, or is no dictionary. -/
theorem settingsIn_of_not_holds (h : ∀ entries, ¬ Holds found entries) :
    (∃ issues, settingsIn found = .error (.settings issues)) ∨
      ∃ v, settingsIn found = .ok v ∧ ∀ entries, v ≠ .dict entries := by
  cases found with
  | none => exact absurd .none (h [])
  | some found =>
    obtain ⟨name, document⟩ := found
    by_cases hn : name = projectFileName
    · subst hn
      left
      cases hb : below? sectionPath document with
      | none => exact absurd (.noPart hb) (h [])
      | some v =>
        cases v with
        | dict entries => exact absurd (.part hb) (h entries)
        | _ => exact ⟨_, by simp [settingsIn, payloadOf, hb, issueAt]; rfl⟩
    · right
      refine ⟨document, by simp [settingsIn, payloadOf, hn], ?_⟩
      rintro entries rfl
      exact h entries (.whole hn entries)

/-- What names lead to in a value that can be shown can be shown. -/
theorem printable_of_below? {path : List String} (h : v.printable = true)
    (hb : below? path v = some u) : u.printable = true := by
  induction path generalizing v with
  | nil =>
    cases hb
    exact h
  | cons name path ih =>
    cases v with
    | dict entries =>
      obtain ⟨w, hw, hb⟩ := Option.bind_eq_some_iff.mp hb
      obtain ⟨k, hm⟩ := Value.mem_of_lookup? hw
      exact ih (Value.printable_of_mem h hm).2 hb
    | _ => cases hb

/-- The settings that a document holds can be shown if the document can. -/
theorem Holds.printable (h : Holds found file)
    (hp : ∀ name document, found = some (name, document) → document.printable = true) :
    (Value.dict file).printable = true := by
  cases h with
  | none => rfl
  | whole hn entries => exact hp _ _ rfl
  | part h => exact printable_of_below? (hp _ _ rfl) h
  | noPart h => rfl

/-! ### All layers -/

/-- The value that a setting has in the end: the normalised value of the last layer that gives one,
and else its default. -/
inductive Effective (file : List (Value × Value)) (environ : List (String × String))
    (given : List (Value × Value)) (name : String) : Value → Prop
  /-- The caller gives a value. -/
  | given {v u : Value} (hg : Value.lookup? name given = some v) (ha : Admits name v u) :
      Effective file environ given name u
  /-- The environment has the variable, and the caller gives nothing. -/
  | environment {text : String} {v u : Value} (hg : Value.lookup? name given = none)
      (he : textOf? environ name = some text) (hr : Reads name text v) (ha : Admits name v u) :
      Effective file environ given name u
  /-- The file gives a value, and neither the environment nor the caller does. -/
  | file {v u : Value} (hg : Value.lookup? name given = none) (he : textOf? environ name = none)
      (hf : Value.lookup? name file = some v) (ha : Admits name v u) :
      Effective file environ given name u
  /-- Nothing is given. -/
  | default (hg : Value.lookup? name given = none) (he : textOf? environ name = none)
      (hf : Value.lookup? name file = none) :
      Effective file environ given name (Settings.default.get name)

/-- A text reads as one value. -/
theorem Reads.unique {w : Value} (h : Reads setting text v) (g : Reads setting text w) : v = w := by
  cases h with
  | on hs h =>
    cases g with
    | on => rfl
    | off _ hf => exact absurd h (not_mem_trueWords hf)
    | number hd => exact absurd hs (by rw [hd]; decide)
    | word hw => exact absurd hs (by rcases hw with rfl | rfl <;> decide)
  | off hs h =>
    cases g with
    | on _ ht => exact absurd ht (not_mem_trueWords h)
    | off => rfl
    | number hd => exact absurd hs (by rw [hd]; decide)
    | word hw => exact absurd hs (by rcases hw with rfl | rfl <;> decide)
  | number hd h =>
    cases g with
    | number _ hi => rw [Option.some.inj (h.symm.trans hi)]
    | word hw => exact absurd hw (by rw [hd]; decide)
    | _ hs => exact absurd hs (by rw [hd]; decide)
  | word hw =>
    cases g with
    | word => rfl
    | number hd => exact absurd hw (by rw [hd]; decide)
    | _ hs => exact absurd hs (by rcases hw with rfl | rfl <;> decide)

/-- A setting has one value in the end. -/
theorem Effective.unique (h : Effective file environ given name u)
    (g : Effective file environ given name v) : u = v := by
  cases h with
  | given hg ha =>
    cases g with
    | given hg' ha' =>
      obtain rfl := Option.some.inj (hg.symm.trans hg')
      exact ha.unique ha'
    | _ hg' => exact absurd (hg.symm.trans hg') (by simp)
  | environment hg he hr ha =>
    cases g with
    | given hg' => exact absurd (hg.symm.trans hg') (by simp)
    | environment _ he' hr' ha' =>
      obtain rfl := Option.some.inj (he.symm.trans he')
      obtain rfl := hr.unique hr'
      exact ha.unique ha'
    | _ _ he' => exact absurd (he.symm.trans he') (by simp)
  | file hg he hf ha =>
    cases g with
    | given hg' => exact absurd (hg.symm.trans hg') (by simp)
    | environment _ he' => exact absurd (he.symm.trans he') (by simp)
    | file _ _ hf' ha' =>
      obtain rfl := Option.some.inj (hf.symm.trans hf')
      exact ha.unique ha'
    | default _ _ hf' => exact absurd (hf.symm.trans hf') (by simp)
  | default hg he hf =>
    cases g with
    | given hg' => exact absurd (hg.symm.trans hg') (by simp)
    | environment _ he' => exact absurd (he.symm.trans he') (by simp)
    | file _ _ hf' => exact absurd (hf.symm.trans hf') (by simp)
    | default => rfl

/-- A valid payload that has a key gives the normalised value for it. -/
theorem Valid.normal? {entries : List (Value × Value)} (h : Valid entries) (hk : key ∈ keys)
    (hl : Value.lookup? key entries = some v) :
    ∃ u, Settings.normal? entries key = some u ∧ Admits key v u := by
  obtain ⟨u, ha⟩ := h.admitted key hk v hl
  exact ⟨u, (normal?_eq_some_iff hk).mpr ⟨v, hl, ha⟩, ha⟩

private theorem normal?_of_lookup?_eq_none {entries : List (Value × Value)}
    (hl : Value.lookup? key entries = none) : normal? entries key = none := by
  rw [normal?, hl]
  rfl

/-- Settings that are laid over one another have the value of the last layer that gives one. -/
theorem effective_overlay (hf : Valid file) (he : EnvironmentValid environ) (hg : Valid given)
    (hn : name ∈ names) :
    Effective file environ given name
      ((overlay given keys (overlay (environmentEntries environ) keys
        (overlay file keys default).1).1).1.get name) := by
  have hk := mem_keys_of_mem_names hn
  obtain ⟨-, hv⟩ := (environmentValid_iff environ).mp he
  rw [get_overlay hn, get_overlay hn, get_overlay hn, if_pos hk, if_pos hk, if_pos hk]
  cases hlg : Value.lookup? name given with
  | some v =>
    obtain ⟨u, hu, ha⟩ := hg.normal? hk hlg
    rw [hu]
    exact .given hlg ha
  | none =>
    rw [normal?_of_lookup?_eq_none hlg, Option.getD_none]
    cases hle : Value.lookup? name (environmentEntries environ) with
    | some v =>
      obtain ⟨u, hu, ha⟩ := hv.normal? hk hle
      rw [lookup?_environment hn, given?_eq_some_iff hn] at hle
      obtain ⟨text, ht, hr⟩ := hle
      rw [hu]
      exact .environment hlg ht hr ha
    | none =>
      rw [normal?_of_lookup?_eq_none hle, Option.getD_none]
      have ht : textOf? environ name = none := by
        cases ht : textOf? environ name with
        | none => rfl
        | some text =>
          obtain ⟨v, u, hr, -⟩ := he name hn text ht
          rw [lookup?_environment hn, (given?_eq_some_iff hn).mpr ⟨text, ht, hr⟩] at hle
          cases hle
      cases hlf : Value.lookup? name file with
      | some v =>
        obtain ⟨u, hu, ha⟩ := hf.normal? hk hlf
        rw [hu]
        exact .file hlg ht hlf ha
      | none =>
        rw [normal?_of_lookup?_eq_none hlf, Option.getD_none]
        exact .default hlg ht hlf

/-- Valid layers make settings. -/
theorem combine_of_valid (hf : Valid file) (he : EnvironmentValid environ) (hg : Valid given)
    (hpf : showable file = true) (hpg : showable given = true) :
    combine (.dict file) environ given =
      .ok (overlay given keys (overlay (environmentEntries environ) keys
        (overlay file keys default).1).1).1 := by
  obtain ⟨hr, hv⟩ := (environmentValid_iff environ).mp he
  have hlayer : environmentLayer environ = .ok (environmentEntries environ) := by
    rcases environmentLayer_cases environ with ⟨-, h⟩ | ⟨h, -⟩
    · exact h
    · exact absurd hr h
  have hbind : ∀ (s : Settings) (f : Settings → Except Fault Settings), (.ok s >>= f) = f s :=
    fun _ _ => rfl
  rw [combine, require_of_valid hpf hf, hbind, hlayer]
  dsimp only
  rw [require_of_valid (showable_environment environ) hv, hbind, require_of_valid hpg hg]

/-- Layers of which one is not valid make none. -/
theorem combine_of_not_valid (h : ¬ (Valid file ∧ EnvironmentValid environ ∧ Valid given))
    (hpf : showable file = true) (hpg : showable given = true) :
    ∃ issues, combine (.dict file) environ given = .error (.settings issues) := by
  have hbind : ∀ (s : Settings) (f : Settings → Except Fault Settings), (.ok s >>= f) = f s :=
    fun _ _ => rfl
  by_cases hf : Valid file
  · rw [combine, require_of_valid hpf hf, hbind]
    rcases environmentLayer_cases environ with ⟨hr, he⟩ | ⟨-, issue, he⟩
    · rw [he]
      dsimp only
      by_cases hv : Valid (environmentEntries environ)
      · have hg : ¬ Valid given := fun hg => h ⟨hf, (environmentValid_iff environ).mpr ⟨hr, hv⟩, hg⟩
        rw [require_of_valid (showable_environment environ) hv, hbind]
        exact require_of_not_valid hpg hg _
      · obtain ⟨issues, hi⟩ := require_of_not_valid (showable_environment environ) hv
          (overlay file keys default).1
        exact ⟨issues, by rw [hi]; rfl⟩
    · rw [he]
      exact ⟨[issue], rfl⟩
  · obtain ⟨issues, hi⟩ := require_of_not_valid hpf hf default
    exact ⟨issues, by rw [combine, hi]; rfl⟩

/-! ### Applying settings -/

private theorem Admits.exists_bool (h : Admits "strict_requiredness" v u) : ∃ b, u = .bool b := by
  cases h with
  | switch hk b => exact ⟨b, rfl⟩
  | _ hk => exact absurd hk (by decide)

private theorem Admits.exists_int (h : Admits "max_depth" v u) : ∃ i, 1 ≤ i ∧ u = .int i := by
  cases h with
  | depth hk hi => exact ⟨_, hi, rfl⟩
  | _ hk => exact absurd hk (by decide)

private theorem Admits.exists_level (h : Admits "log_level" v u) : ∃ l ∈ logLevels, u = .str l := by
  cases h with
  | level hk hs => exact ⟨_, hs, rfl⟩
  | _ hk => exact absurd hk (by decide)

private theorem Admits.exists_format (h : Admits "log_format" v u) :
    ∃ f ∈ logFormats, u = .str f := by
  cases h with
  | format hk hs => exact ⟨_, hs, rfl⟩
  | _ hk => exact absurd hk (by decide)

/-- A log can be configured with all levels and formats that settings may have. -/
theorem isOk_configure : ∀ l ∈ logLevels, ∀ f ∈ logFormats, ∀ redact : Bool,
    (Log.configure (.str l) (.str f) redact).isOk = true := by
  decide

private theorem exec_setStrict (w : World) (b : Bool) :
    exec (Session.setStrict 0 (.bool b)) w =
      (.ok (), w.setRegistry 0 { w.registry 0 with strict := b }) := rfl

private theorem exec_setMaxDepth (w : World) {i : Int} (hi : 1 ≤ i) :
    ∃ b : Binder, exec (Session.setMaxDepth 0 (.int i)) w = (.ok (), w.setBinder 0 b) ∧
      (b.maxDepth : Int) = i := by
  have hpos : 0 < i.toNat := by omega
  refine ⟨⟨(w.binder 0).registry, i.toNat, hpos⟩, ?_, by dsimp only; omega⟩
  rw [Session.setMaxDepth, Session.depthOf, dif_pos hpos]
  rfl

private theorem binder_setBinder {w : World} (h : 0 < w.binders.length) (b : Binder) :
    (w.setBinder 0 b).binder 0 = b := by
  rw [World.binder, World.setBinder, List.getElem?_set_self h]
  rfl

/-- Normal settings can be applied, and then the default registry and the default binder have
them. -/
theorem Normal.exec_configure {s : Settings} (h : s.Normal) {w : World}
    (hr : 0 < w.registries.length) (hb : 0 < w.binders.length) :
    ∃ v, exec (Session.configure s) w = (.ok (), v) ∧
      .bool (v.registry 0).strict = s.strictRequiredness ∧
      .int (v.binder 0).maxDepth = s.maxDepth := by
  obtain ⟨b, hs⟩ := (h "strict_requiredness" (by decide)).exists_bool
  obtain ⟨i, hi, hm⟩ := (h "max_depth" (by decide)).exists_int
  obtain ⟨l, hl, hlevel⟩ := (h "log_level" (by decide)).exists_level
  obtain ⟨f, hf, hformat⟩ := (h "log_format" (by decide)).exists_format
  have hlog := isOk_configure l hl f hf (Session.truth s.redactLogs)
  change s.strictRequiredness = _ at hs
  change s.maxDepth = _ at hm
  change s.logLevel = _ at hlevel
  change s.logFormat = _ at hformat
  obtain ⟨binder, hd, hbi⟩ :=
    exec_setMaxDepth (w.setRegistry 0 { w.registry 0 with strict := b }) hi
  rw [Session.configure, hs, hm, hlevel, hformat, exec_bind_of_ok (exec_setStrict w b),
    exec_bind_of_ok hd]
  cases hc : Log.configure (.str l) (.str f) (Session.truth s.redactLogs) with
  | error e =>
    rw [hc] at hlog
    cases hlog
  | ok config =>
    refine ⟨_, rfl, ?_, ?_⟩
    · change Value.bool ((w.setRegistry 0 { w.registry 0 with strict := b }).registry 0).strict = _
      rw [World.registry_setRegistry, if_pos ⟨rfl, hr⟩]
    · rw [binder_setBinder (w := w.setRegistry 0 { w.registry 0 with strict := b }) hb, hbi]

/-- Loading settings is combining the layers, once the document has been read. -/
theorem load_eq {d : Directory} {path : Option String} (environ : List (String × String))
    (given : List (Value × Value)) (hd : document d path = .ok found) :
    load d path environ given = settingsIn found >>= fun file => combine file environ given := by
  rw [load, fileLayer_eq, hd]
  rfl

/-- Loading settings is refused exactly if one of the layers is invalid, each judged on its own.
Otherwise each setting has the normalised value of the last layer that gives one, or else its
default; the settings obey the rules again, whatever they are laid over, and they can be applied in
every session: the default registry and the default binder then have them. -/
theorem load_by_precedence {d : Directory} {path : Option String} (environ : List (String × String))
    {given : List (Value × Value)} (hd : document d path = .ok found)
    (hf : ∀ name document, found = some (name, document) → document.printable = true)
    (hg : (Value.dict given).printable = true) :
    ((∃ issues, load d path environ given = .error (.settings issues)) ↔
      ¬ (FileValid found ∧ EnvironmentValid environ ∧ Valid given)) ∧
    (FileValid found → EnvironmentValid environ → Valid given →
      ∃ file s, Holds found file ∧ load d path environ given = .ok s ∧
        (∀ name ∈ names, Effective file environ given name (s.get name)) ∧
        (∀ base, validate base s.toValue = .ok ⟨some s, []⟩) ∧
        ∀ t : Session, t.Reachable →
          let r := t.step (.configure s)
          r.1 = .ok (.settings s) ∧
            .bool (r.2.world.registry 0).strict = s.strictRequiredness ∧
            .int (r.2.world.binder 0).maxDepth = s.maxDepth) := by
  have hsg := showable_of_printable hg
  have hvalid : ∀ {file}, Holds found file → Valid file → EnvironmentValid environ → Valid given →
      load d path environ given = .ok (overlay given keys (overlay (environmentEntries environ) keys
        (overlay file keys default).1).1).1 := by
    intro file hh hv he hg
    rw [load_eq environ given hd, hh.settingsIn]
    exact combine_of_valid hv he hg (showable_of_printable (hh.printable hf)) hsg
  constructor
  · constructor
    · rintro ⟨issues, hl⟩ ⟨⟨file, hh, hv⟩, he, hg⟩
      rw [hvalid hh hv he hg] at hl
      cases hl
    · intro h
      rw [load_eq environ given hd]
      by_cases hh : ∃ file, Holds found file
      · obtain ⟨file, hh⟩ := hh
        rw [hh.settingsIn]
        refine combine_of_not_valid (fun hv => h ⟨⟨file, hh, hv.1⟩, hv.2⟩) ?_ hsg
        exact showable_of_printable (hh.printable hf)
      · rcases settingsIn_of_not_holds (fun file hf => hh ⟨file, hf⟩) with ⟨issues, hi⟩ |
          ⟨v, hv, hn⟩
        · exact ⟨issues, by rw [hi]; rfl⟩
        · obtain ⟨issues, hr⟩ := require_of_ne_dict hn default
          exact ⟨issues, by rw [hv]; change combine v environ given = _; rw [combine, hr]; rfl⟩
  · rintro ⟨file, hh, hv⟩ he hg
    have hnormal :=
      ((normal_default.overlay file).overlay (environmentEntries environ)).overlay given
    refine ⟨file, _, hh, hvalid hh hv he hg, fun name hn => effective_overlay hv he hg hn,
      hnormal.validate_toValue, fun t ht => ?_⟩
    obtain ⟨hr, hb⟩ := ht.has_defaults
    obtain ⟨w, hw, hstrict, hdepth⟩ := hnormal.exec_configure (w := t.fresh.world) hr hb
    dsimp only
    rw [Session.step_eq, Session.run, Session.exec_bind_act, hw]
    exact ⟨rfl, hstrict, hdepth⟩

/-- The text of a document that describes a project, with a section of settings. -/
def projectText : String :=
  "[tool.jsonbind]\nmax_depth = 8\nlog_level = \"debug\"\nlog_format = \" json \"\n"

/-- A directory with nothing but that document. -/
def project : Directory := ⟨"project", [([projectFileName], projectText.toUTF8.toList)]⟩

/-- The section of settings. -/
def projectSection : List (Value × Value) :=
  [(.str "max_depth", .int 8), (.str "log_level", .str "debug"), (.str "log_format", .str " json ")]

/-- The document. -/
def projectDocument : Value :=
  .dict [(.str "tool", .dict [(.str "jsonbind", .dict projectSection)])]

/-- Variables of two settings, and one that is of none. -/
def projectVariables : List (String × String) :=
  [("HOME", "/root"), ("JSONBIND_MAX_DEPTH", " 16 "), ("JSONBIND_REDACT_LOGS", "No")]

/-- The settings of the project, if the caller asks for another log level. -/
def projectSettings : Settings := ⟨.bool false, .int 16, .str "INFO", .str "json", .bool false⟩

private theorem document_project :
    document project none = .ok (some (projectFileName, projectDocument)) := by
  cbv

/-- What the caller gives. -/
def projectGiven : List (Value × Value) := [(.str "log_level", .str " info ")]

private theorem valid_projectSection : Valid projectSection := by
  refine ⟨by decide, fun key hk v hl => ?_⟩
  simp only [keys, names, List.mem_cons, List.not_mem_nil, or_false] at hk
  rcases hk with rfl | rfl | rfl | rfl | rfl | rfl <;> cases hl
  · exact ⟨_, .depth rfl (by decide)⟩
  · exact ⟨_, .level rfl (by decide)⟩
  · exact ⟨_, .format rfl (by decide)⟩

private theorem valid_projectGiven : Valid projectGiven := by
  refine ⟨by decide, fun key hk v hl => ?_⟩
  simp only [keys, names, List.mem_cons, List.not_mem_nil, or_false] at hk
  rcases hk with rfl | rfl | rfl | rfl | rfl | rfl <;> cases hl
  exact ⟨_, .level rfl (by decide)⟩

private theorem texts_project : names.map (textOf? projectVariables) =
    [none, some " 16 ", none, none, some "No"] := by
  decide

private theorem reads_sixteen : Reads "max_depth" " 16 " (.int 16) := .number rfl (by decide)

private theorem reads_no : Reads "redact_logs" "No" (.bool false) :=
  .off (by decide) (by decide)

private theorem environmentValid_project : EnvironmentValid projectVariables := by
  have ht := texts_project
  simp only [names, List.map_cons, List.map_nil, List.cons.injEq] at ht
  obtain ⟨h₁, h₂, h₃, h₄, h₅, -⟩ := ht
  intro setting hs text ht
  simp only [names, List.mem_cons, List.not_mem_nil, or_false] at hs
  rcases hs with rfl | rfl | rfl | rfl | rfl
  · cases h₁.symm.trans ht
  · cases h₂.symm.trans ht
    exact ⟨_, _, reads_sixteen, .depth rfl (by decide)⟩
  · cases h₃.symm.trans ht
  · cases h₄.symm.trans ht
  · cases h₅.symm.trans ht
    exact ⟨_, _, reads_no, .switch (by decide) _⟩

private theorem effective_project : ∀ name ∈ names,
    Effective projectSection projectVariables projectGiven name (projectSettings.get name) := by
  have ht := texts_project
  simp only [names, List.map_cons, List.map_nil, List.cons.injEq] at ht
  obtain ⟨h₁, h₂, h₃, h₄, h₅, -⟩ := ht
  have hupper : Text.strip (Text.upper " info ") = "INFO" := by decide
  have hstrip : Text.strip " json " = "json" := by decide
  have hlevel : Admits "log_level" (.str " info ") (.str "INFO") := by
    rw [← hupper]
    exact .level rfl (by rw [hupper]; decide)
  have hformat : Admits "log_format" (.str " json ") (.str "json") := by
    rw [← hstrip]
    exact .format rfl (by rw [hstrip]; decide)
  intro name hn
  simp only [names, List.mem_cons, List.not_mem_nil, or_false] at hn
  rcases hn with rfl | rfl | rfl | rfl | rfl
  · exact .default rfl h₁ rfl
  · exact .environment rfl h₂ reads_sixteen (.depth rfl (by decide))
  · exact .given rfl hlevel
  · exact .file rfl h₄ rfl hformat
  · exact .environment rfl h₅ reads_no (.switch (by decide) false)

/-- The caller goes before the environment, the environment before the file, and the file before the
defaults. A caller who forbids all nesting gets no settings. -/
theorem project_loaded :
    (∃ issues, load project none projectVariables [(.str "max_depth", .int 0)] =
      .error (.settings issues)) ∧
    load project none projectVariables projectGiven = .ok projectSettings ∧
    (∀ base, validate base projectSettings.toValue = .ok ⟨some projectSettings, []⟩) ∧
    ((Session.initial.step (.configure projectSettings)).2.world.binder 0).maxDepth = 16 := by
  have hf : ∀ name document, some (projectFileName, projectDocument) = some (name, document) →
      document.printable = true := by
    rintro name document ⟨⟩
    decide +kernel
  have hflat : ¬ Valid [(.str "max_depth", .int 0)] := by
    intro h
    obtain ⟨u, ha⟩ := h.admitted "max_depth" (by decide) (.int 0) rfl
    obtain ⟨i, hi, rfl⟩ := ha.exists_int
    cases ha
    omega
  constructor
  · exact (load_by_precedence projectVariables document_project hf (by decide +kernel)).1.mpr
      fun h => hflat h.2.2
  · obtain ⟨file, s, hh, hl, he, hv, hs⟩ := (load_by_precedence projectVariables document_project hf
      (by decide)).2 ⟨_, .part rfl, valid_projectSection⟩ environmentValid_project
      valid_projectGiven
    have hfile : file = projectSection := by
      have h := hh.settingsIn
      cases (Holds.part rfl : Holds (some (projectFileName, projectDocument))
        _).settingsIn.symm.trans h
      rfl
    subst hfile
    have hsame : s = projectSettings :=
      eq_of_get fun name hn => (he name hn).unique (effective_project name hn)
    subst hsame
    have hd := (hs .initial .initial).2.2
    exact ⟨hl, hv, by cases hd; rfl⟩

end SchemaBinding.Settings
