import Mathlib.Data.List.Perm.Basic
import SchemaBinding.Proofs.TableBuild

/-!
# Tables in another order

A table describes a set of schemas, and a schema a set of fields. What is read of a field depends on
the other entries only through which names are those of schemas. So a table in another order has the
same issues, and describes the same schemas, in another order.
-/

namespace SchemaBinding

namespace Table

/-- An entry of a table with the fields of its schema in any order. -/
inductive ShuffledSchema : Value × Value → Value × Value → Prop
  | same (e : Value × Value) : ShuffledSchema e e
  | fields (key : Value) {fields others : List (Value × Value)} (h : fields.Perm others) :
    ShuffledSchema (key, .dict fields) (key, .dict others)

/-- A table with its schemas in any order, and the fields of each schema too. -/
def Shuffled (entries others : List (Value × Value)) : Prop :=
  ∃ middle, entries.Perm middle ∧ List.Forall₂ ShuffledSchema middle others

/-- A schema with its fields shuffled has the same name. -/
theorem ShuffledSchema.key {e f : Value × Value} (h : ShuffledSchema e f) : e.1 = f.1 := by
  cases h <;> rfl

/-- A schema with its fields shuffled has the same fields. -/
theorem ShuffledSchema.entriesOf {e f : Value × Value} (h : ShuffledSchema e f) :
    (entriesOf e.2).Perm (entriesOf f.2) := by
  cases h with
  | same => exact .refl _
  | fields key h => exact h

namespace Shuffled

variable {entries others : List (Value × Value)} (h : Shuffled entries others)

include h

/-- What comes of each entry in any order comes of the table in any order. -/
theorem flatMap {α : Type} {g : Value × Value → List α}
    (hg : ∀ e f, ShuffledSchema e f → (g e).Perm (g f)) :
    (entries.flatMap g).Perm (others.flatMap g) := by
  obtain ⟨middle, hperm, hall⟩ := h
  apply (hperm.flatMap_right g).trans
  clear hperm
  induction hall with
  | nil => exact .refl _
  | cons hef _ ih =>
    rw [List.flatMap_cons, List.flatMap_cons]
    exact (hg _ _ hef).append ih

/-- What is said of the key of an entry, if anything is. -/
theorem filterMap_key {α : Type} (g : Value → Option α) :
    (entries.filterMap fun e => g e.1).Perm (others.filterMap fun e => g e.1) := by
  rw [List.filterMap_eq_flatMap_toList, List.filterMap_eq_flatMap_toList]
  apply h.flatMap
  intro e f hef
  rw [hef.key]

/-- Shuffling does not change whether keys can be shown. -/
theorem keysPrintable : keysPrintable entries = keysPrintable others := by
  have hk : ∀ es : List (Value × Value), Table.keysPrintable es =
      (es.filterMap fun e => some e.1).all Value.printable := by
    intro es
    rw [List.filterMap_eq_map', List.all_map]
    rfl
  rw [hk, hk]
  exact (h.filterMap_key some).all_eq

/-- The keys of both tables can be shown, or those of neither. -/
theorem printable : printable entries = printable others := by
  let named := fun (e : Value × Value) =>
    if (validName? e.1).isSome then Table.entriesOf e.2 else []
  have hfields : (entries.flatMap named).Perm (others.flatMap named) := by
    apply h.flatMap
    intro e f hef
    dsimp only [named]
    rw [hef.key]
    split
    · exact hef.entriesOf
    · exact .refl _
  have hrules := hfields.flatMap_right named
  rw [Table.printable, Table.printable, h.keysPrintable]
  exact congrArg₂ and (congrArg₂ and rfl hfields.all_eq) hrules.all_eq

/-- Shuffling does not make keys occur twice. -/
theorem distinctKeys (hk : DistinctKeys entries) : DistinctKeys others := by
  have hkeys : ∀ {es fs : List (Value × Value)}, es.Perm fs → (textKeys es).Nodup →
      (textKeys fs).Nodup := fun hp hn => (hp.filterMap _).nodup_iff.mp hn
  constructor
  · exact (h.filterMap_key Value.asText?).nodup_iff.mp hk.schemas
  · intro f hf
    obtain ⟨middle, hperm, hall⟩ := h
    obtain ⟨e, he, hef⟩ := exists_of_mem_forall₂ hall hf
    exact hkeys hef.entriesOf (hk.fields e (hperm.mem_iff.mpr he))

end Shuffled

/-! ### Reading in terms of single entries -/

/-- What is read of an entry of a schema. -/
def readEntry (schemas : List String) (path : String) (e : Value × Value) :
    Found (Option FieldSpec) :=
  match validName? e.1 with
  | none => ⟨none, nameIssues (Issue.join path e.1.words) e.1, []⟩
  | some name => readField schemas (Issue.join path e.1.words) name e.2

private theorem readFields_eq (schemas : List String) (path : String)
    (entries : List (Value × Value)) :
    readFields schemas path entries =
      ⟨entries.filterMap fun e => (readEntry schemas path e).result,
        entries.flatMap fun e => (readEntry schemas path e).issues,
        entries.flatMap fun e => (readEntry schemas path e).faults⟩ := by
  induction entries with
  | nil => rfl
  | cons e rest ih =>
    obtain ⟨key, v⟩ := e
    rw [readFields, ih, List.filterMap_cons, List.flatMap_cons, List.flatMap_cons, readEntry]
    cases validName? key with
    | none => rfl
    | some name =>
      dsimp only
      cases (readField schemas (Issue.join path key.words) name v).result <;> rfl

/-- What is read of an entry of a table. -/
def readNamed (schemas : List String) (e : Value × Value) : Found (Option SchemaSpec) :=
  match validName? e.1 with
  | none => .clean none
  | some name =>
    let schema := readSchema schemas name e.2
    ⟨some schema.result, schema.issues, schema.faults⟩

private theorem readSchemas_eq (schemas : List String) (entries : List (Value × Value)) :
    readSchemas schemas entries =
      ⟨entries.filterMap fun e => (readNamed schemas e).result,
        entries.flatMap fun e => (readNamed schemas e).issues,
        entries.flatMap fun e => (readNamed schemas e).faults⟩ := by
  induction entries with
  | nil => rfl
  | cons e rest ih =>
    obtain ⟨key, v⟩ := e
    rw [readSchemas, ih, List.filterMap_cons, List.flatMap_cons, List.flatMap_cons, readNamed]
    cases validName? key <;> rfl

/-! ### Names of schemas in another order -/

section Names

variable {schemas others : List String} (h : schemas.Perm others)

include h

/-- Types are read with the names of schemas in any order. -/
theorem readType_congr : readType schemas = readType others := by
  funext path v
  cases v with
  | str name => rw [readType, readType, h.contains_eq]
  | _ => rfl

private theorem readItems_congr : readItems schemas = readItems others := by
  funext path typeName entries
  rw [readItems, readItems, readType_congr h]

private theorem readField_congr : readField schemas = readField others := by
  funext path name v
  rw [readField, readField, readType_congr h, readItems_congr h]

private theorem readEntry_congr : readEntry schemas = readEntry others := by
  funext path e
  rw [readEntry, readEntry, readField_congr h]

private theorem readSchema_congr : readSchema schemas = readSchema others := by
  funext name v
  cases v with
  | dict entries => rw [readSchema, readSchema, readFields_eq, readFields_eq, readEntry_congr h]
  | _ => rfl

private theorem readNamed_congr : readNamed schemas = readNamed others := by
  funext e
  rw [readNamed, readNamed, readSchema_congr h]

end Names

/-! ### Reading a table in another order -/

/-- A schema with its fields in any order. -/
structure ShuffledSpec (s t : SchemaSpec) : Prop where
  name : s.name = t.name
  fields : s.fields.Perm t.fields

/-- Schemas in any order, the fields of each too. -/
def ShuffledSpecs (specs others : List SchemaSpec) : Prop :=
  ∃ middle, specs.Perm middle ∧ List.Forall₂ ShuffledSpec middle others

/-- Shuffled schemas have the same names. -/
theorem ShuffledSpecs.map_name {specs others : List SchemaSpec} (h : ShuffledSpecs specs others) :
    (specs.map SchemaSpec.name).Perm (others.map SchemaSpec.name) := by
  obtain ⟨middle, hp, hall⟩ := h
  have hn : middle.map SchemaSpec.name = others.map SchemaSpec.name := by
    rw [← List.forall₂_eq_eq_eq, List.forall₂_map_left_iff, List.forall₂_map_right_iff]
    exact hall.imp fun s t hst => hst.name
  rw [← hn]
  exact hp.map _

/-- Each of the shuffled schemas is one of the others with its fields shuffled. -/
theorem ShuffledSpecs.exists_left {specs others : List SchemaSpec} (h : ShuffledSpecs specs others)
    {t : SchemaSpec} (ht : t ∈ others) : ∃ s ∈ specs, ShuffledSpec s t := by
  obtain ⟨middle, hp, hall⟩ := h
  obtain ⟨s, hs, hst⟩ := exists_of_mem_forall₂ hall ht
  exact ⟨s, hp.mem_iff.mpr hs, hst⟩

/-- A schema is itself with no field moved. -/
theorem ShuffledSpec.refl (s : SchemaSpec) : ShuffledSpec s s := ⟨rfl, .refl _⟩

section Shuffled

variable (schemas : List String)

/-- The fields of a schema are read in any order. -/
theorem readSchema_perm (name : String) {fields others : List (Value × Value)}
    (h : fields.Perm others) :
    ShuffledSpec (readSchema schemas name (.dict fields)).result
        (readSchema schemas name (.dict others)).result ∧
      (readSchema schemas name (.dict fields)).issues.Perm
        (readSchema schemas name (.dict others)).issues := by
  rw [readSchema, readSchema, readFields_eq, readFields_eq]
  exact ⟨⟨rfl, h.filterMap _⟩, h.flatMap_right _⟩

private theorem readNamed_shuffled {e f : Value × Value} (h : ShuffledSchema e f) :
    Option.Rel ShuffledSpec (readNamed schemas e).result (readNamed schemas f).result ∧
      (readNamed schemas e).issues.Perm (readNamed schemas f).issues := by
  cases h with
  | same =>
    refine ⟨?_, .refl _⟩
    cases (readNamed schemas e).result with
    | none => exact .none
    | some s => exact .some (.refl s)
  | fields key h =>
    rw [readNamed, readNamed]
    cases validName? key with
    | none => exact ⟨.none, .refl _⟩
    | some name =>
      obtain ⟨hresult, hissues⟩ := readSchema_perm schemas name h
      exact ⟨.some hresult, hissues⟩

end Shuffled

/-- The schemas of a table in another order are read in that order, and so are its issues. -/
theorem Shuffled.read {entries others : List (Value × Value)} (h : Shuffled entries others) :
    ShuffledSpecs (read entries).result (read others).result ∧
      (read entries).issues.Perm (read others).issues := by
  have hnames : (schemaNames entries).Perm (schemaNames others) := h.filterMap_key validName?
  rw [Table.read, Table.read, readSchemas_eq, readSchemas_eq, readNamed_congr hnames]
  constructor
  · obtain ⟨middle, hperm, hall⟩ := h
    refine ⟨_, hperm.filterMap _, List.rel_filterMap ?_ hall⟩
    exact fun e f hef => (readNamed_shuffled _ hef).1
  · apply List.Perm.append
    · apply h.flatMap
      intro e f hef
      rw [hef.key]
    · exact h.flatMap fun e f hef => (readNamed_shuffled _ hef).2

end Table

end SchemaBinding
