import SchemaBinding.Proofs.RelatedPayloads
import SchemaBinding.Proofs.SettingsRules
import SchemaBinding.Proofs.TableSpecs
import SchemaBinding.Proofs.ValueWords

/-!
# The issues of a payload of settings

What is wrong with an entry of a payload is told by its key and its value alone. Validation reports
just that, entry by entry, under the key: it gathers the entries whose keys mean nothing and those
whose keys do in two rounds, and between them they come to every entry once.
-/

namespace SchemaBinding.Settings

/-- The settings that are whole numbers, and the version. -/
def numbers : List String := ["schema_version", "max_depth"]

/-- The settings that are chosen from texts. -/
def choices : List String := ["log_level", "log_format"]

/-- The key and the value of an entry offend against the rules, which a message says. -/
inductive Offends : Value → Value → String → Prop
  /-- No setting has the key. -/
  | unknown {k v : Value} (hk : ∀ key ∈ keys, k ≠ .str key) : Offends k v "unknown field"
  | notBoolean {key : String} {v : Value} (hk : key ∈ switches) (hv : ∀ b, v ≠ .bool b) :
    Offends (.str key) v ("expected boolean, got " ++ v.typeName)
  | notInteger {key : String} {v : Value} (hk : key ∈ numbers) (hv : ∀ i, v ≠ .int i) :
    Offends (.str key) v ("expected integer, got " ++ v.typeName)
  | notString {key : String} {v : Value} (hk : key ∈ choices) (hv : ∀ s, v ≠ .str s) :
    Offends (.str key) v ("expected string, got " ++ v.typeName)
  /-- The number is out of range. -/
  | notPositive {key : String} {i : Int} (hk : key ∈ numbers) (hi : i < 1) :
    Offends (.str key) (.int i) "must be >= 1"
  /-- The version is not the one that is understood. -/
  | version {i : Int} (hi : 1 ≤ i) (hn : i ≠ schemaVersion) :
    Offends (.str "schema_version") (.int i)
      ("unsupported schema version " ++ toString i ++ "; expected " ++ toString schemaVersion)
  /-- The text is no log level, in any case and with any blanks around it. -/
  | level {s : String} (hs : Text.strip (Text.upper s) ∉ logLevels) :
    Offends (.str "log_level") (.str s)
      ("invalid value " ++ Text.quoted (Text.strip (Text.upper s)) ++
        "; expected one of: " ++ ", ".intercalate logLevels)
  /-- The text is no log format, with any blanks around it. -/
  | format {s : String} (hs : Text.strip s ∉ logFormats) :
    Offends (.str "log_format") (.str s)
      ("invalid value " ++ Text.quoted (Text.strip s) ++
        "; expected one of: " ++ ", ".intercalate logFormats)

/-- What is wrong with an entry of a payload, if anything is. -/
def offence? (e : Value × Value) : Option Issue :=
  match e.1 with
  | .str key =>
    if key ∈ keys then
      match readKey key e.2 with
      | .ok _ => none
      | .error issue => some issue
    else some ⟨key, "unknown field"⟩
  | k => some ⟨k.words, "unknown field"⟩

variable {key : String} {v : Value} {issue : Issue} {entries : List (Value × Value)}

/-! ### One entry -/

private theorem readBool_error_iff (path : String) : readBool path v = .error issue ↔
    (∀ b, v ≠ .bool b) ∧ issue = wrongType path "boolean" v := by
  cases v <;> simp [readBool, eq_comm]

private theorem readPositive_error_iff (path : String) : readPositive path v = .error issue ↔
    ((∀ i, v ≠ .int i) ∧ issue = wrongType path "integer" v) ∨
      ∃ i < 1, v = .int i ∧ issue = ⟨path, "must be >= 1"⟩ := by
  cases v with
  | int i =>
    by_cases h : 1 ≤ i
    · have hn : ¬ i < 1 := Int.not_lt.mpr h
      simp [readPositive, h, hn]
    · simp [readPositive, h, Int.lt_of_not_ge h, eq_comm]
  | _ => simp [readPositive, eq_comm]

private theorem readChoice_error_iff (path : String) (allowed : List String) :
    readChoice path allowed v = .error issue ↔
      ((∀ s, v ≠ .str s) ∧ issue = wrongType path "string" v) ∨
        ∃ s, Text.strip s ∉ allowed ∧ v = .str s ∧
          issue = ⟨path, "invalid value " ++ Text.quoted (Text.strip s) ++ "; expected one of: " ++
            ", ".intercalate allowed⟩ := by
  cases v with
  | str s => by_cases h : Text.strip s ∈ allowed <;> simp [readChoice, h, eq_comm]
  | _ => simp [readChoice, eq_comm]

private theorem readVersion_error_iff (path : String) : readVersion path v = .error issue ↔
    readPositive path v = .error issue ∨
      ∃ i, 1 ≤ i ∧ i ≠ schemaVersion ∧ v = .int i ∧ issue =
        ⟨path, "unsupported schema version " ++ toString i ++ "; expected " ++
          toString schemaVersion⟩ := by
  cases v with
  | int i =>
    by_cases h : 1 ≤ i
    · have hr : readPositive path (.int i) = .ok (.int i) := by simp [readPositive, h]
      rw [readVersion, hr]
      dsimp only
      by_cases hi : i = schemaVersion
      · simp [hi]
      · simp [hi, h, eq_comm]
    · simp [readVersion, readPositive, h]
  | _ => simp [readVersion, readPositive]

private theorem upperCase_of_ne_str (h : ∀ s, v ≠ .str s) : upperCase v = v := by
  cases v with
  | str s => exact absurd rfl (h s)
  | _ => rfl

private theorem readKey_switch (hk : key ∈ switches) (v : Value) :
    readKey key v = readBool key v := by
  simp only [switches, List.mem_cons, List.not_mem_nil, or_false] at hk
  rcases hk with rfl | rfl <;> simp [readKey]

private theorem readKey_version (v : Value) :
    readKey "schema_version" v = readVersion "schema_version" v := by simp [readKey]

private theorem readKey_depth (v : Value) : readKey "max_depth" v = readPositive "max_depth" v := by
  simp [readKey]

private theorem readKey_level (v : Value) :
    readKey "log_level" v = readChoice "log_level" logLevels (upperCase v) := by simp [readKey]

private theorem readKey_format (v : Value) :
    readKey "log_format" v = readChoice "log_format" logFormats v := by simp [readKey]

/-- A value that cannot be read offends against the rules, under its key. -/
theorem offends_of_readKey (hk : key ∈ keys) (h : readKey key v = .error issue) :
    issue.path = key ∧ Offends (.str key) v issue.message := by
  have hnumber : key ∈ numbers → readPositive key v = .error issue →
      issue.path = key ∧ Offends (.str key) v issue.message := by
    intro hkey hr
    rcases (readPositive_error_iff key).mp hr with ⟨hv, rfl⟩ | ⟨i, hi, rfl, rfl⟩
    · exact ⟨rfl, .notInteger hkey hv⟩
    · exact ⟨rfl, .notPositive hkey hi⟩
  have hswitch : key ∈ switches → issue.path = key ∧ Offends (.str key) v issue.message := by
    intro hkey
    rw [readKey_switch hkey] at h
    obtain ⟨hv, rfl⟩ := (readBool_error_iff key).mp h
    exact ⟨rfl, .notBoolean hkey hv⟩
  simp only [keys, names, List.mem_cons, List.not_mem_nil, or_false] at hk
  rcases hk with rfl | rfl | rfl | rfl | rfl | rfl
  · rw [readKey_version] at h
    rcases (readVersion_error_iff _).mp h with hp | ⟨i, hi, hn, rfl, rfl⟩
    · exact hnumber (by decide) hp
    · exact ⟨rfl, .version hi hn⟩
  · exact hswitch (by decide)
  · rw [readKey_depth] at h
    exact hnumber (by decide) h
  · rw [readKey_level] at h
    rcases (readChoice_error_iff _ _).mp h with ⟨hv, rfl⟩ | ⟨s, hs, hv, rfl⟩
    · have hu : upperCase v = v := upperCase_of_ne_str fun s hs => hv (Text.upper s) (hs ▸ rfl)
      rw [hu] at hv ⊢
      exact ⟨rfl, .notString (by decide) hv⟩
    · obtain ⟨r, rfl, rfl⟩ := upperCase_eq_str_iff.mp hv
      exact ⟨rfl, .level hs⟩
  · rw [readKey_format] at h
    rcases (readChoice_error_iff _ _).mp h with ⟨hv, rfl⟩ | ⟨s, hs, rfl, rfl⟩
    · exact ⟨rfl, .notString (by decide) hv⟩
    · exact ⟨rfl, .format hs⟩
  · exact hswitch (by decide)

/-- A value that offends against the rules cannot be read. -/
theorem Offends.readKey_eq {message : String} (h : Offends (.str key) v message)
    (hk : key ∈ keys) : readKey key v = .error ⟨key, message⟩ := by
  have hnumber : key ∈ numbers → readPositive key v = .error ⟨key, message⟩ →
      readKey key v = .error ⟨key, message⟩ := by
    intro hkey hr
    simp only [numbers, List.mem_cons, List.not_mem_nil, or_false] at hkey
    rcases hkey with rfl | rfl
    · rw [readKey_version]
      exact (readVersion_error_iff _).mpr (.inl hr)
    · rw [readKey_depth]
      exact hr
  have hchoice : key ∈ choices → (∀ s, v ≠ .str s) →
      readKey key v = .error (wrongType key "string" v) := by
    intro hkey hv
    simp only [choices, List.mem_cons, List.not_mem_nil, or_false] at hkey
    rcases hkey with rfl | rfl
    · rw [readKey_level, upperCase_of_ne_str hv]
      exact (readChoice_error_iff _ _).mpr (.inl ⟨hv, rfl⟩)
    · rw [readKey_format]
      exact (readChoice_error_iff _ _).mpr (.inl ⟨hv, rfl⟩)
  cases h with
  | unknown hn => exact absurd rfl (hn key hk)
  | notBoolean hs hv =>
    rw [readKey_switch hs]
    exact (readBool_error_iff key).mpr ⟨hv, rfl⟩
  | notInteger hn hv => exact hnumber hn ((readPositive_error_iff key).mpr (.inl ⟨hv, rfl⟩))
  | notString hc hv => exact hchoice hc hv
  | notPositive hn hi =>
    exact hnumber hn ((readPositive_error_iff key).mpr (.inr ⟨_, hi, rfl, rfl⟩))
  | version hi hn =>
    rw [readKey_version]
    exact (readVersion_error_iff _).mpr (.inr ⟨_, hi, hn, rfl, rfl⟩)
  | level hs =>
    rw [readKey_level]
    exact (readChoice_error_iff _ _).mpr (.inr ⟨_, hs, rfl, rfl⟩)
  | format hs =>
    rw [readKey_format]
    exact (readChoice_error_iff _ _).mpr (.inr ⟨_, hs, rfl, rfl⟩)

/-- The words of a key are a known key only if it is the text of it. -/
theorem words_mem_keys_iff (k : Value) : k.words ∈ keys ↔ ∃ key ∈ keys, k = .str key := by
  constructor
  · intro h
    have hall : keys.all (fun key => key.toList.all Text.isNameChar) = true := by decide +kernel
    have hplain : ¬ Text.Marked k.words := by
      rintro ⟨c, hc, hn⟩
      have hname := List.all_eq_true.mp (List.all_eq_true.mp hall _ h) c hc
      rw [hn] at hname
      cases hname
    rcases Value.cases_of_not_marked hplain with ⟨s, rfl⟩ | ⟨origin, rfl⟩ | rfl
    · exact ⟨s, h, rfl⟩
    · exact absurd h (by decide : "nan" ∉ keys)
    · exact absurd h (by decide : "inf" ∉ keys)
  · rintro ⟨key, hk, rfl⟩
    exact hk

private theorem offence?_known (hk : key ∈ keys) (v : Value) : offence? (.str key, v) = some issue ↔
    readKey key v = .error issue := by
  rw [offence?]
  dsimp only
  rw [if_pos hk]
  cases readKey key v <;> simp

private theorem offence?_unknown {k : Value} (hk : ∀ key ∈ keys, k ≠ .str key) (v : Value) :
    offence? (k, v) = some ⟨k.words, "unknown field"⟩ := by
  cases k with
  | str s => exact if_neg fun hs => hk s hs rfl
  | _ => rfl

/-- Of an entry whose key means nothing, nothing more is said. -/
theorem Offends.eq_unknown {k : Value} {message : String} (h : Offends k v message)
    (hk : ∀ key ∈ keys, k ≠ .str key) : message = "unknown field" := by
  have hswitches : ∀ key ∈ switches, key ∈ keys := by decide
  have hnumbers : ∀ key ∈ numbers, key ∈ keys := by decide
  have hchoices : ∀ key ∈ choices, key ∈ keys := by decide
  cases h with
  | unknown => rfl
  | notBoolean hs => exact absurd rfl (hk _ (hswitches _ hs))
  | notInteger hn => exact absurd rfl (hk _ (hnumbers _ hn))
  | notString hc => exact absurd rfl (hk _ (hchoices _ hc))
  | notPositive hn => exact absurd rfl (hk _ (hnumbers _ hn))
  | version => exact absurd rfl (hk "schema_version" (by decide))
  | level => exact absurd rfl (hk "log_level" (by decide))
  | format => exact absurd rfl (hk "log_format" (by decide))

/-- An entry is said to offend, under its key, exactly if it does. -/
theorem offence?_eq_some_iff (e : Value × Value) : offence? e = some issue ↔
    issue.path = e.1.words ∧ Offends e.1 e.2 issue.message := by
  obtain ⟨k, v⟩ := e
  by_cases hk : ∃ key ∈ keys, k = .str key
  · obtain ⟨key, hkey, rfl⟩ := hk
    rw [offence?_known hkey]
    constructor
    · exact offends_of_readKey hkey
    · rintro ⟨hp, ho⟩
      rw [ho.readKey_eq hkey]
      exact congrArg _ (congrArg (Issue.mk · issue.message) hp.symm)
  · have hn : ∀ key ∈ keys, k ≠ .str key := fun key hkey he => hk ⟨key, hkey, he⟩
    rw [offence?_unknown hn, Option.some.injEq]
    constructor
    · rintro rfl
      exact ⟨rfl, .unknown hn⟩
    · rintro ⟨hp, ho⟩
      rw [← ho.eq_unknown hn, ← hp]

/-! ### All entries -/

/-- Without two entries under one text, what a payload has under a text is in its entry. -/
theorem lookup?_eq_some_iff (hn : (Table.textKeys entries).Nodup) :
    Value.lookup? key entries = some v ↔ (.str key, v) ∈ entries := by
  induction entries with
  | nil => simp [Value.lookup?]
  | cons e rest ih =>
    obtain ⟨k, u⟩ := e
    by_cases hk : k = .str key
    · subst hk
      obtain ⟨hkey, hrest⟩ := List.nodup_cons.mp (show (key :: Table.textKeys rest).Nodup from hn)
      have hnot : (.str key, v) ∉ rest := fun hm =>
        hkey (List.mem_filterMap.mpr ⟨_, hm, rfl⟩)
      rw [Value.lookup?_cons_self, List.mem_cons]
      simp [hnot, eq_comm]
    · have hrest : (Table.textKeys rest).Nodup :=
        hn.sublist ((List.sublist_cons_self _ rest).filterMap _)
      rw [Value.lookup?_cons_of_ne hk, ih hrest, List.mem_cons]
      simp [Ne.symm hk]

private theorem issue?_eq_some_iff : issue? entries key = some issue ↔
    ∃ v, Value.lookup? key entries = some v ∧ readKey key v = .error issue := by
  rw [issue?, Option.bind_eq_some_iff]
  apply exists_congr
  intro v
  cases readKey key v <;> simp

/-- The entries whose keys mean nothing are found in the first round. -/
theorem unknownKeys_perm (entries : List (Value × Value)) : (unknownKeys entries).Perm
    ((entries.filter fun e => !keys.contains e.1.words).filterMap offence?) := by
  have hmap : ∀ es : List (Value × Value),
      (es.filter fun e => !keys.contains e.1.words).filterMap offence? =
        ((es.map fun e => e.1.words).filter fun k => !keys.contains k).map
          fun k => ⟨k, "unknown field"⟩ := by
    intro es
    rw [List.filter_map, List.map_map, ← List.filterMap_eq_map]
    refine List.filterMap_congr fun e he => ?_
    obtain ⟨k, v⟩ := e
    have hk : k.words ∉ keys := by simpa using (List.mem_filter.mp he).2
    exact offence?_unknown (fun key hkey hs => hk ((words_mem_keys_iff k).mpr ⟨key, hkey, hs⟩)) v
  rw [hmap]
  exact ((perm_sorted _).filter _).map _

/-- The entries whose keys mean something are found in the second round, in the order of the
keys. -/
theorem knownIssues_perm (hn : (Table.textKeys entries).Nodup) :
    (keys.filterMap (issue? entries)).Perm
    ((entries.filter fun e => keys.contains e.1.words).filterMap offence?) := by
  have hpath : ∀ {key i}, key ∈ keys → issue? entries key = some i → i.path = key := by
    intro key i hk hi
    obtain ⟨v, -, hr⟩ := issue?_eq_some_iff.mp hi
    exact (offends_of_readKey hk hr).1
  -- Either list has no issue twice, since there is one at most under each key.
  rw [List.perm_ext_iff_of_nodup]
  · intro i
    simp only [List.mem_filterMap, List.mem_filter, issue?_eq_some_iff, lookup?_eq_some_iff hn]
    constructor
    · rintro ⟨key, hk, v, hm, hr⟩
      exact ⟨(.str key, v), ⟨hm, by simpa [Value.words] using hk⟩, (offence?_known hk v).mpr hr⟩
    · rintro ⟨⟨k, v⟩, ⟨hm, hk⟩, ho⟩
      obtain ⟨key, hkey, rfl⟩ := (words_mem_keys_iff k).mp (by simpa using hk)
      exact ⟨key, hkey, v, hm, (offence?_known hkey v).mp ho⟩
  · have hkeys : keys.Nodup := by decide
    refine List.pairwise_filterMap.mpr (hkeys.imp_of_mem fun {a b} ha hb hne => ?_)
    rintro i hi _ hj rfl
    exact hne ((hpath ha hi).symm.trans (hpath hb hj))
  · have hp : entries.Pairwise fun e f => ∀ s ∈ e.1.asText?, ∀ t ∈ f.1.asText?, s ≠ t :=
      List.pairwise_filterMap.mp hn
    have hknown : ∀ {e : Value × Value}, e ∈ entries.filter (fun e => keys.contains e.1.words) →
        e.1 = .str e.1.words := by
      intro e he
      have hk : e.1.words ∈ keys := by simpa using (List.mem_filter.mp he).2
      obtain ⟨key, -, hs⟩ := (words_mem_keys_iff e.1).mp hk
      rw [hs]
      rfl
    refine List.pairwise_filterMap.mpr ((hp.filter _).imp_of_mem fun {e f} he hf hne => ?_)
    rintro i hi _ hj rfl
    have hwords := ((offence?_eq_some_iff e).mp hi).1.symm.trans ((offence?_eq_some_iff f).mp hj).1
    exact hne e.1.words (by rw [hknown he]; rfl) f.1.words (by rw [hknown hf]; rfl) hwords

/-- All issues are found, each once. -/
theorem issues_perm (hn : (Table.textKeys entries).Nodup) (base : Settings) :
    (unknownKeys entries ++ (overlay entries keys base).2).Perm (entries.filterMap offence?) := by
  have hsplit : ((entries.filter fun e => keys.contains e.1.words) ++
      entries.filter fun e => !keys.contains e.1.words).Perm entries :=
    List.filter_append_perm _ entries
  rw [issues_overlay]
  calc
    (unknownKeys entries ++ keys.filterMap (issue? entries)).Perm
        ((entries.filter fun e => !keys.contains e.1.words).filterMap offence? ++
          (entries.filter fun e => keys.contains e.1.words).filterMap offence?) :=
      (unknownKeys_perm entries).append (knownIssues_perm hn)
    List.Perm _ ((entries.filter fun e => keys.contains e.1.words).filterMap offence? ++
          (entries.filter fun e => !keys.contains e.1.words).filterMap offence?) :=
      List.perm_append_comm
    List.Perm _ (entries.filterMap offence?) := by
      rw [← List.filterMap_append]
      exact hsplit.filterMap offence?

/-- A payload is laid over settings as its entries say: there is one issue for each entry that
offends, and settings if there are none. -/
structure Exact (base : Settings) (entries : List (Value × Value)) (found : Validation) :
    Prop where
  /-- Each entry that offends has an issue under its key, and there are no others. -/
  issues : found.issues.Perm (entries.filterMap offence?)
  /-- There is no issue under the key of an entry that does not offend. -/
  silent : ∀ e ∈ entries, (∀ message, ¬ Offends e.1 e.2 message) →
    ∀ issue ∈ found.issues, issue.path ≠ e.1.words
  settings_iff : found.settings.isSome = true ↔ found.issues = []
  /-- A setting that the payload gives has the normalised value. -/
  present : ∀ s ∈ found.settings, ∀ name ∈ names, ∀ v, (.str name, v) ∈ entries →
    Admits name v (s.get name)
  /-- A setting that the payload leaves out is as it was. -/
  absent : ∀ s ∈ found.settings, ∀ name ∈ names, (∀ v, (.str name, v) ∉ entries) →
    s.get name = base.get name
  /-- The settings as a payload make themselves of any others. -/
  again : ∀ s ∈ found.settings, ∀ other, validate other s.toValue = .ok ⟨some s, []⟩

/-- An entry that does not offend has a key that means something. -/
theorem exists_key_of_not_offends {e : Value × Value}
    (h : ∀ message, ¬ Offends e.1 e.2 message) : ∃ key ∈ keys, e.1 = .str key := by
  by_contra hn
  exact h _ (.unknown fun key hk he => hn ⟨key, hk, he⟩)

/-- Under the key of an entry that does not offend there is no issue. -/
theorem path_ne_of_not_offends (hn : (Table.textKeys entries).Nodup) {e : Value × Value}
    (he : e ∈ entries) (h : ∀ message, ¬ Offends e.1 e.2 message)
    (hi : issue ∈ entries.filterMap offence?) : issue.path ≠ e.1.words := by
  intro hp
  obtain ⟨f, hf, ho⟩ := List.mem_filterMap.mp hi
  obtain ⟨hpath, hoff⟩ := (offence?_eq_some_iff f).mp ho
  obtain ⟨key, hkey, hek⟩ := exists_key_of_not_offends h
  have hwords : f.1.words = key := by rw [← hpath, hp, hek]; rfl
  obtain ⟨other, -, hfk⟩ := (words_mem_keys_iff f.1).mp (hwords ▸ hkey)
  obtain rfl : other = key := by rw [← hwords, hfk]; rfl
  -- The two entries have the same text as their key, so they are one.
  obtain ⟨k, v⟩ := e
  obtain ⟨l, u⟩ := f
  obtain rfl : k = .str other := hek
  obtain rfl : l = .str other := hfk
  have hu := (lookup?_eq_some_iff hn).mpr hf
  rw [(lookup?_eq_some_iff hn).mpr he] at hu
  cases hu
  exact h _ hoff

/-- Every payload that is a mapping is validated by the rules, entry by entry, over any normal
settings: what offends is reported once, under its key, and nothing else is; there are settings
exactly if nothing is reported, which have the normalised values of the payload and else those that
they are laid over; and these settings as a payload are valid and make themselves. -/
theorem validate_exact {base : Settings} (hb : base.Normal)
    (hp : (Value.dict entries).printable = true) (hn : (Table.textKeys entries).Nodup) :
    (∀ e issue, offence? e = some issue ↔ issue.path = e.1.words ∧ Offends e.1 e.2 issue.message) ∧
      ∃ found, validate base (.dict entries) = .ok found ∧ Exact base entries found := by
  refine ⟨fun e issue => offence?_eq_some_iff e, ?_⟩
  have hperm := issues_perm hn base
  have hvalid := valid_iff entries base
  generalize hall : unknownKeys entries ++ (overlay entries keys base).2 = all at hperm hvalid
  have hv : validate base (.dict entries) =
      .ok ⟨if all.isEmpty then some (overlay entries keys base).1 else none, all⟩ := by
    simp [validate, showable_of_printable hp, ← hall]
  have hsome : ∀ s, (if all.isEmpty then some (overlay entries keys base).1 else none) = some s →
      Valid entries ∧ s = (overlay entries keys base).1 := by
    intro s hs
    rw [Option.ite_none_right_eq_some, List.isEmpty_iff, Option.some.injEq] at hs
    exact ⟨hvalid.mpr hs.1, hs.2.symm⟩
  have hget : ∀ {name}, name ∈ names → (overlay entries keys base).1.get name =
      (normal? entries name).getD (base.get name) := by
    intro name hname
    rw [get_overlay hname, if_pos (mem_keys_of_mem_names hname)]
  refine ⟨_, hv, {
    issues := hperm
    silent := fun e he hoff issue hi => path_ne_of_not_offends hn he hoff (hperm.subset hi)
    settings_iff := by cases all <;> simp
    present := fun s hs name hname v hm => ?_
    absent := fun s hs name hname hm => ?_
    again := fun s hs other => ?_ }⟩
  · obtain ⟨hval, rfl⟩ := hsome s hs
    have hk := mem_keys_of_mem_names hname
    have hl := (lookup?_eq_some_iff hn).mpr hm
    obtain ⟨u, ha⟩ := hval.admitted name hk v hl
    rw [hget hname, (normal?_eq_some_iff hk).mpr ⟨v, hl, ha⟩]
    exact ha
  · obtain ⟨-, rfl⟩ := hsome s hs
    have hl : Value.lookup? name entries = none := by
      rw [Option.eq_none_iff_forall_ne_some]
      exact fun v hv => hm v ((lookup?_eq_some_iff hn).mp hv)
    rw [hget hname, normal?, hl]
    rfl
  · obtain ⟨-, rfl⟩ := hsome s hs
    exact (hb.overlay entries).validate_toValue other

/-- A payload with an entry of each sort that offends, and one that does not. -/
def offending : List (Value × Value) := [
  (.str "schema_version", .int 2), (.str "redact_logs", .bool false), (.int 1, .null),
  (.str "max_depth", .bool true), (.str "log_level", .str " loud "), (.str "Max_depth", .int 3),
  (.str "log_format", .str "JSON"), (.str "strict_requiredness", .int 0)]

/-- A payload in which nothing offends. -/
def accepted : List (Value × Value) := [
  (.str "log_level", .str " debug "), (.str "schema_version", .int 1), (.str "max_depth", .int 3)]

/-- All that offends is reported; and a payload in which nothing does gives settings. -/
theorem offending_reported :
    (∃ found, validate default (.dict offending) = .ok found ∧ Exact default offending found ∧
      found.issues.map Issue.path = ["1", "Max_depth", "schema_version", "strict_requiredness",
        "max_depth", "log_level", "log_format"]) ∧
    ∃ found, validate default (.dict accepted) = .ok found ∧ Exact default accepted found ∧
      found.settings.map (fun s => s.toEntries.map fun e => e.2.text) =
        some ["False", "3", "'DEBUG'", "'text'", "True"] := by
  have hp : (Value.dict offending).printable = true := by decide +kernel
  have hp' : (Value.dict accepted).printable = true := by decide +kernel
  obtain ⟨-, found, hv, he⟩ := validate_exact normal_default hp (by decide)
  obtain ⟨-, found', hv', he'⟩ := validate_exact normal_default hp' (by decide)
  refine ⟨⟨found, hv, he, ?_⟩, found', hv', he', ?_⟩
  · have hd : (validate default (.dict offending)).toOption.map (fun f => f.issues.map Issue.path) =
        some ["1", "Max_depth", "schema_version", "strict_requiredness", "max_depth", "log_level",
          "log_format"] := by decide +kernel
    rw [hv] at hd
    exact Option.some.inj hd
  · have hd : (validate default (.dict accepted)).toOption.map (fun f =>
        f.settings.map fun s => s.toEntries.map fun e => e.2.text) =
          some (some ["False", "3", "'DEBUG'", "'text'", "True"]) := by decide +kernel
    rw [hv'] at hd
    exact Option.some.inj hd

end SchemaBinding.Settings
