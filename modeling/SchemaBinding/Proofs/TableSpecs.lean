import SchemaBinding.Proofs.Compilation

/-!
# What a table without issues describes

Reading a table finds all that is wrong with it. What is read of a table without issues is sound:
every name may be that of a schema or a field, every type is builtin or a schema of the table, a
field says at most once whether it must be there, and its elements are no arrays unless its value is
kept as it is.
-/

namespace SchemaBinding

/-- A value as a text, if it is one. -/
def Value.asText? : Value → Option String
  | .str s => some s
  | _ => none

/-- A rule has a function of the caller. -/
def Fragment.calls : Fragment → Bool
  | .transform _ => true
  | .check (.custom _) => true
  | _ => false

namespace Table

namespace Found

variable {α : Type} (result : α) (issue : Issue)

/-- A clean result is the result. -/
@[simp] theorem clean_result : (clean result).result = result := rfl

/-- A clean result has no issues. -/
@[simp] theorem clean_issues : (clean result).issues = [] := rfl

/-- A clean result has no faults. -/
@[simp] theorem clean_faults : (clean result).faults = [] := rfl

/-- A flawed result is the result. -/
@[simp] theorem flawed_result : (flawed result issue).result = result := rfl

/-- A flawed result has its issue. -/
@[simp] theorem flawed_issues : (flawed result issue).issues = [issue] := rfl

/-- A flawed result has no faults. -/
@[simp] theorem flawed_faults : (flawed result issue).faults = [] := rfl

end Found

variable {schemas : List String} {path name : String} {v : Value}
  {entries : List (Value × Value)}

/-! ### Names -/

/-- A text that may name a schema or a field: an identifier that is not reserved. -/
def ValidName (s : String) : Prop := Text.isIdentifier s = true ∧ Text.isReserved s = false

private theorem nameIssues_eq_nil_iff : nameIssues path v = [] ↔ ∃ s, v = .str s ∧ ValidName s := by
  cases v with
  | str s =>
    simp only [nameIssues, ValidName, Value.str.injEq, exists_eq_left']
    cases Text.isIdentifier s with
    | false => simp
    | true => cases Text.isReserved s <;> simp
  | _ => simp [nameIssues]

private theorem validName?_eq_some_iff {s : String} :
    validName? v = some s ↔ v = .str s ∧ ValidName s := by
  cases v with
  | str t =>
    have hn : nameIssues "" (.str t) = [] ↔ ValidName t := by
      rw [nameIssues_eq_nil_iff]
      simp
    rw [validName?]
    by_cases hv : ValidName t
    · rw [if_pos (List.isEmpty_iff.mpr (hn.mpr hv)), Option.some.injEq, Value.str.injEq]
      constructor
      · rintro rfl
        exact ⟨rfl, hv⟩
      · exact And.left
    · rw [if_neg (mt (fun h => hn.mp (List.isEmpty_iff.mp h)) hv), Value.str.injEq]
      constructor
      · intro h
        cases h
      · rintro ⟨rfl, h⟩
        exact absurd h hv
  | _ => simp [validName?]

/-- A class may have a field of a valid name. -/
theorem ValidName.checkFieldName {s : String} (h : ValidName s) (owner : String) :
    checkFieldName owner (.str s) = .ok s := by
  simp [SchemaBinding.checkFieldName, h.1, h.2]

/-! ### Types -/

/-- A type is builtin, or one of some schemas. -/
def TypeRef.In (schemas : List String) : TypeRef → Prop
  | .builtin t => ∃ b ∈ builtinTypes, t = .basic b.2
  | .schema name => name ∈ schemas

/-- Only the names of arrays stand for the builtin array type. -/
theorem isArrayName_of_builtin :
    ∀ b ∈ builtinTypes, b.2 = .list → isArrayName (.str b.1) = true := by
  decide

/-- A type that is read without issues is known. It is no builtin array unless it has the name of
one. -/
theorem exists_readType (h : (readType schemas path v).issues = []) :
    ∃ t, (readType schemas path v).result = some t ∧ t.In schemas ∧
      (isArrayName v = false → t ≠ .builtin (.basic .list)) := by
  cases v with
  | str name =>
    unfold readType at h ⊢
    by_cases hm : schemas.contains name = true
    · simp only [hm, if_true]
      exact ⟨.schema name, rfl, by simpa [TypeRef.In] using hm, fun _ => by simp⟩
    · simp only [hm, if_false, Bool.false_eq_true] at h ⊢
      cases hf : builtinTypes.find? fun b => b.1 == name with
      | none =>
        rw [hf] at h
        cases h
      | some b =>
        have hb := List.mem_of_find?_eq_some hf
        have hn : b.1 = name := by simpa using List.find?_some hf
        refine ⟨.builtin (.basic b.2), rfl, ⟨b, hb, rfl⟩, fun ha he => ?_⟩
        have hl : b.2 = .list := by simpa using he
        rw [← hn, isArrayName_of_builtin b hb hl] at ha
        cases ha
  | _ => cases h

/-! ### Rules -/

/-- A rule says whether the field must be there. -/
def SpecRule.requires : SpecRule → Bool
  | .rule (.requirement _) => true
  | _ => false

/-- A rule says something of the element type. -/
def SpecRule.ofElements : SpecRule → Bool
  | .rule (.arrayOf _) => true
  | .arrayOf _ => true
  | _ => false

/-- A rule has a function of the caller. -/
def SpecRule.calls : SpecRule → Bool
  | .rule f => f.calls
  | .arrayOf _ => false

/-- A rule that says neither whether the field must be there nor what its elements are, and has no
function of the caller. -/
structure SpecRule.Neutral (r : SpecRule) : Prop where
  requires : r.requires = false
  ofElements : r.ofElements = false
  calls : r.calls = false

/-- A field says at most once whether it must be there, if nothing is wrong with that. -/
theorem readRequirement_cases (h : (readRequirement path entries).issues = []) :
    (readRequirement path entries).result = [] ∨
      ∃ q, (readRequirement path entries).result = [.rule (.requirement q)] := by
  unfold readRequirement at h ⊢
  cases hd : Value.lookup? "default" entries with
  | none =>
    cases hr : Value.lookup? "required" entries with
    | none => exact .inl rfl
    | some v =>
      cases hf : (readFlag (Issue.join path "required") v).result with
      | none => simp [hf]
      | some b => cases b <;> simp [hf]
  | some d =>
    cases hr : Value.lookup? "required" entries with
    | none => exact .inr ⟨_, rfl⟩
    | some v =>
      cases hf : (readFlag (Issue.join path "required") v).result with
      | none => simp [hf]
      | some b =>
        cases b with
        | false => simp [hf]
        | true => simp [hd, hr, hf] at h

/-! ### Making fragments

A rule is tested when it is read and again when its fragment is made. Whatever passes the first test
passes the second, so that reading a table has issues but never a fault. -/

private theorem exists_mapFrom (h : isFilledText v = true) :
    ∃ key, Fragment.mapFrom v = .ok (.sourceKey key) := by
  cases v with
  | str s =>
    have hs : s ≠ "" := by simpa [isFilledText] using h
    exact ⟨⟨s, hs⟩, dif_pos hs⟩
  | _ => cases h

private theorem exists_unionOf (h : isFilledList v = true) :
    ∃ members, Fragment.unionOf v = .ok (.union members) := by
  cases v with
  | list items label =>
    have hi : items ≠ [] := by simpa [isFilledList] using h
    refine ⟨⟨items, hi⟩, ?_⟩
    have hm : Fragment.members (.list items label) = .ok ⟨items, hi⟩ := dif_pos hi
    rw [Fragment.unionOf, hm]
    rfl
  | _ => cases h

/-- A value is a number for the kinds of JSON values just if its type is one of real numbers and not
the boolean one. -/
theorem isNumber_eq (v : Value) : v.isNumber = (!isBoolean v && isReal v) := by
  cases v <;> rfl

/-- A bound that an ordering is read with is one that the ordering takes. -/
theorem exists_comparing {relation : Relation}
    (h : (relation.isNumeric && (isBoolean v || !isReal v)) = false) :
    ∃ c, Fragment.comparing relation v = .ok (.check (.comparison c)) := by
  have hb : relation.isNumeric = true → v.isNumber = true := by
    intro hr
    rw [hr, Bool.true_and, Bool.or_eq_false_iff] at h
    simp [isNumber_eq, h.1, by simpa using h.2]
  refine ⟨⟨relation, v, hb⟩, ?_⟩
  have hc : Comparison.of relation v = .ok ⟨relation, v, hb⟩ := dif_pos hb
  rw [Fragment.comparing, hc]
  rfl

/-- What is found by reading one rule of a field: an issue, nothing, or a rule that has to do
neither with whether the field must be there nor with its elements. -/
inductive ReadsNeutral : Found (List SpecRule) → Prop
  | none : ReadsNeutral (.clean [])
  | flawed (issue : Issue) : ReadsNeutral (.flawed [] issue)
  | rule {r : SpecRule} (h : r.Neutral) : ReadsNeutral (.clean [r])

namespace ReadsNeutral

variable {found : Found (List SpecRule)}

private theorem neutral (h : ReadsNeutral found) : ∀ r ∈ found.result, r.Neutral := by
  cases h with
  | rule hr => exact List.forall_mem_singleton.mpr hr
  | _ => exact fun r hr => absurd hr List.not_mem_nil

/-- Reading such a rule ends with no fault. -/
theorem faults (h : ReadsNeutral found) : found.faults = [] := by
  cases h <;> rfl

/-- What a rule says that could be made is found as such. -/
theorem made {f : Fragment} (h : (SpecRule.rule f).Neutral) {made : Except Fault Fragment}
    (hm : made = .ok f) : ReadsNeutral (madeRule made) := by
  rw [hm]
  exact .rule h

end ReadsNeutral

private theorem readsNeutral_readMap : ReadsNeutral (readMap path entries) := by
  unfold readMap
  split
  · exact .none
  · next v _ =>
    cases hv : isFilledText v with
    | true =>
      obtain ⟨key, hk⟩ := exists_mapFrom hv
      exact .made ⟨rfl, rfl, rfl⟩ hk
    | false => exact .flawed _

private theorem readsNeutral_readUnion : ReadsNeutral (readUnion path entries) := by
  unfold readUnion
  split
  · exact .none
  · next v _ =>
    cases hv : isFilledList v with
    | true =>
      obtain ⟨members, hm⟩ := exists_unionOf hv
      exact .made ⟨rfl, rfl, rfl⟩ hm
    | false => exact .flawed _

private theorem readsNeutral_readComparison (key : String) (relation : Relation) :
    ReadsNeutral (readComparison path entries key relation) := by
  unfold readComparison
  split
  · exact .none
  · next bound _ =>
    cases hb : relation.isNumeric && (isBoolean bound || !isReal bound) with
    | true => exact .flawed _
    | false =>
      obtain ⟨c, hc⟩ := exists_comparing hb
      exact .made ⟨rfl, rfl, rfl⟩ hc

private theorem readFlag_faults (path : String) (v : Value) : (readFlag path v).faults = [] := by
  cases v <;> rfl

private theorem readRule_faults (key : String) (f : Fragment) :
    (readRule path entries key f).faults = [] := by
  unfold readRule
  split
  · rfl
  · exact readFlag_faults _ _

private theorem readType_faults : (readType schemas path v).faults = [] := by
  unfold readType
  split
  · split
    · rfl
    · split <;> rfl
  · rfl

private theorem readItems_faults (typeName : Value) :
    (readItems schemas path typeName entries).faults = [] := by
  unfold readItems
  split
  · rfl
  · dsimp only
    split
    · rfl
    · split
      · rfl
      · exact readType_faults

private theorem readRequirement_faults : (readRequirement path entries).faults = [] := by
  have hown : ∀ v, (readFlag (Issue.join path "required") v).faults = [] := readFlag_faults _
  unfold readRequirement
  cases Value.lookup? "default" entries <;>
    cases Value.lookup? "required" entries with
    | none => rfl
    | some v =>
      dsimp only
      split <;> exact hown v

private theorem neutral_readRule (key : String) {f : Fragment} (hf : (SpecRule.rule f).Neutral) :
    ∀ r ∈ (readRule path entries key f).result, r.Neutral := by
  unfold readRule
  split
  · simp
  · intro r hr
    dsimp only at hr
    split at hr
    · rw [List.mem_singleton.mp hr]
      exact hf
    · cases hr

/-- A field whose value is kept as it is has the rule that says so. -/
theorem passthrough_of_isTrue (path : String) (h : isTrue "passthrough" entries = true) :
    .rule .passthrough ∈ (readRule path entries "passthrough" .passthrough).result := by
  unfold isTrue at h
  unfold readRule
  cases hl : Value.lookup? "passthrough" entries with
  | none =>
    rw [hl] at h
    cases h
  | some v =>
    rw [hl] at h
    split at h
    · next he =>
      cases he
      simp [readFlag]
    · cases h

/-- The elements of a field are of a known type. They are no arrays unless its value is kept as it
is. -/
theorem readItems_cases {typeName : Value}
    (h : (readItems schemas path typeName entries).issues = []) :
    (readItems schemas path typeName entries).result = [] ∨
      ∃ e : TypeRef, (readItems schemas path typeName entries).result = [.arrayOf e] ∧
        e.In schemas ∧ (isTrue "passthrough" entries = true ∨ e ≠ .builtin (.basic .list)) := by
  unfold readItems at h ⊢
  cases hl : Value.lookup? "items" entries with
  | none => exact .inl rfl
  | some v =>
    right
    rw [hl] at h
    dsimp only at h ⊢
    by_cases hn : isArrayName typeName = true
    · rw [hn] at h ⊢
      cases hb : !isTrue "passthrough" entries && isArrayName v with
      | true =>
        rw [hb] at h
        cases h
      | false =>
        rw [hb] at h
        obtain ⟨t, ht, hin, hlist⟩ := exists_readType h
        refine ⟨t, ?_, hin, ?_⟩
        · rw [ht]
          rfl
        · by_cases hp : isTrue "passthrough" entries = true
          · exact .inl hp
          · exact .inr (hlist (by simpa [hp] using hb))
    · simp [hn] at h

/-! ### Fields -/

/-- What the keys of a field say after whether it must be there. -/
def laterParts (schemas : List String) (path : String) (typeName : Value)
    (entries : List (Value × Value)) : List (Found (List SpecRule)) :=
  [readMap path entries, readItems schemas path typeName entries, readUnion path entries] ++
    comparisonKeys.map (fun k => readComparison path entries k.1 k.2) ++
    [readRule path entries "integer" .integer, readRule path entries "passthrough" .passthrough]

/-- What the keys of a field say. -/
def fieldParts (schemas : List String) (path : String) (typeName : Value)
    (entries : List (Value × Value)) : List (Found (List SpecRule)) :=
  readRequirement path entries :: laterParts schemas path typeName entries

section FieldParts

variable {typeName : Value} {r : SpecRule}

private theorem fieldParts_faults :
    (fieldParts schemas path typeName entries).flatMap Found.faults = [] := by
  rw [List.flatMap_eq_nil_iff]
  intro part hp
  simp only [fieldParts, laterParts, List.mem_append, List.mem_cons, List.not_mem_nil, or_false,
    List.mem_map] at hp
  obtain rfl | ((rfl | rfl | rfl) | ⟨k, -, rfl⟩) | rfl | rfl := hp
  · exact readRequirement_faults
  · exact readsNeutral_readMap.faults
  · exact readItems_faults _
  · exact readsNeutral_readUnion.faults
  · exact (readsNeutral_readComparison k.1 k.2).faults
  · exact readRule_faults _ _
  · exact readRule_faults _ _

/-- The later rules are that of the elements and neutral ones. -/
theorem neutral_or_mem_readItems
    (hr : r ∈ (laterParts schemas path typeName entries).flatMap Found.result) :
    r.Neutral ∨ r ∈ (readItems schemas path typeName entries).result := by
  obtain ⟨part, hp, hr⟩ := List.mem_flatMap.mp hr
  simp only [laterParts, List.mem_append, List.mem_cons, List.not_mem_nil, or_false,
    List.mem_map] at hp
  obtain ((rfl | rfl | rfl) | ⟨k, -, rfl⟩) | rfl | rfl := hp
  · exact .inl (readsNeutral_readMap.neutral r hr)
  · exact .inr hr
  · exact .inl (readsNeutral_readUnion.neutral r hr)
  · exact .inl ((readsNeutral_readComparison k.1 k.2).neutral r hr)
  · exact .inl (neutral_readRule "integer" ⟨rfl, rfl, rfl⟩ r hr)
  · exact .inl (neutral_readRule "passthrough" ⟨rfl, rfl, rfl⟩ r hr)

variable (h : ∀ part ∈ fieldParts schemas path typeName entries, part.issues = [])

include h

private theorem readRequirement_fieldParts : (readRequirement path entries).result = [] ∨
    ∃ q, (readRequirement path entries).result = [.rule (.requirement q)] :=
  readRequirement_cases (h _ (List.mem_cons_self ..))

private theorem readItems_fieldParts : (readItems schemas path typeName entries).result = [] ∨
    ∃ e : TypeRef, (readItems schemas path typeName entries).result = [.arrayOf e] ∧
      e.In schemas ∧ (isTrue "passthrough" entries = true ∨ e ≠ .builtin (.basic .list)) := by
  have hmem :
    readItems schemas path typeName entries ∈ fieldParts schemas path typeName entries := by
    simp [fieldParts, laterParts]
  exact readItems_cases (h _ hmem)

/-- It is said at most once whether the field must be there. -/
theorem countP_requires_fieldParts :
    ((fieldParts schemas path typeName entries).flatMap Found.result).countP
      SpecRule.requires ≤ 1 := by
  have hlater : ((laterParts schemas path typeName entries).flatMap Found.result).countP
      SpecRule.requires = 0 := by
    rw [List.countP_eq_zero]
    intro r hr
    rcases neutral_or_mem_readItems hr with hn | hi
    · simp [hn.requires]
    · rcases readItems_fieldParts h with hnil | ⟨e, hone, -⟩
      · rw [hnil] at hi
        cases hi
      · rw [hone] at hi
        rw [List.mem_singleton.mp hi]
        simp [SpecRule.requires]
  have hlen : (readRequirement path entries).result.length ≤ 1 := by
    rcases readRequirement_fieldParts h with hnil | ⟨q, hq⟩
    · simp [hnil]
    · simp [hq]
  rw [fieldParts, List.flatMap_cons, List.countP_append, hlater]
  exact Nat.le_trans List.countP_le_length hlen

/-- What is said of the elements is their type. -/
theorem elements_fieldParts
    (hr : r ∈ (fieldParts schemas path typeName entries).flatMap Found.result)
    (he : r.ofElements = true) : ∃ e : TypeRef, r = .arrayOf e ∧ e.In schemas ∧
      (.rule .passthrough ∈ (fieldParts schemas path typeName entries).flatMap Found.result ∨
        e ≠ .builtin (.basic .list)) := by
  rw [fieldParts, List.flatMap_cons, List.mem_append] at hr
  rcases hr with hr | hr
  · rcases readRequirement_fieldParts h with hnil | ⟨q, hq⟩
    · rw [hnil] at hr
      cases hr
    · rw [hq] at hr
      rw [List.mem_singleton.mp hr] at he
      cases he
  · rcases neutral_or_mem_readItems hr with hn | hi
    · rw [hn.ofElements] at he
      cases he
    · rcases readItems_fieldParts h with hnil | ⟨e, hone, hin, hlist⟩
      · rw [hnil] at hi
        cases hi
      · rw [hone] at hi
        refine ⟨e, List.mem_singleton.mp hi, hin, hlist.imp_left fun hp => ?_⟩
        refine List.mem_flatMap.mpr ⟨_, ?_, passthrough_of_isTrue path hp⟩
        simp [fieldParts, laterParts]

/-- Nothing that is said has a function of the caller. -/
theorem calls_fieldParts
    (hr : r ∈ (fieldParts schemas path typeName entries).flatMap Found.result) :
    r.calls = false := by
  rw [fieldParts, List.flatMap_cons, List.mem_append] at hr
  rcases hr with hr | hr
  · rcases readRequirement_fieldParts h with hnil | ⟨q, hq⟩
    · rw [hnil] at hr
      cases hr
    · rw [hq] at hr
      rw [List.mem_singleton.mp hr]
      rfl
  · rcases neutral_or_mem_readItems hr with hn | hi
    · exact hn.calls
    · rcases readItems_fieldParts h with hnil | ⟨e, hone, -⟩
      · rw [hnil] at hi
        cases hi
      · rw [hone] at hi
        rw [List.mem_singleton.mp hi]
        rfl

end FieldParts

/-- A field that can be declared, and whose type has a kind. -/
structure FieldSpec.Sound (schemas : List String) (f : FieldSpec) : Prop where
  /-- A class may have a field of the name. -/
  name : ValidName f.name
  /-- It is said at most once whether the field must be there. -/
  requires : f.rules.countP SpecRule.requires ≤ 1
  /-- The type is known. -/
  declared : f.declared.In schemas
  /-- What is said of elements is their type, which is known, and is no array unless the value is
  kept as it is. -/
  elements : ∀ r ∈ f.rules, r.ofElements = true → ∃ e : TypeRef, r = .arrayOf e ∧ e.In schemas ∧
    (.rule .passthrough ∈ f.rules ∨ e ≠ .builtin (.basic .list))
  /-- A table has no functions of the caller. -/
  calls : ∀ r ∈ f.rules, r.calls = false

/-- A field that is read without issues is sound. -/
theorem exists_readField (hn : ValidName name)
    (h : (readField schemas path name v).issues = []) :
    ∃ f, (readField schemas path name v).result = some f ∧ f.name = name ∧ f.Sound schemas := by
  unfold readField at h ⊢
  cases he : fieldEntries? v with
  | none =>
    rw [he] at h
    cases h
  | some entries =>
    rw [he] at h
    let typeName := (Value.lookup? "type" entries).getD (.str "any")
    let parts := fieldParts schemas path typeName entries
    let found := readType schemas (Issue.join path "type") typeName
    change unknownKeys path entries ++ found.issues ++ parts.flatMap Found.issues = [] at h
    simp only [List.append_eq_nil_iff, List.flatMap_eq_nil_iff] at h
    obtain ⟨⟨-, htype⟩, hparts⟩ := h
    obtain ⟨t, ht, hin, -⟩ := exists_readType htype
    refine ⟨⟨name, t, parts.flatMap Found.result⟩, ?_, rfl, hn,
      countP_requires_fieldParts hparts, hin, fun r => elements_fieldParts hparts,
      fun r => calls_fieldParts hparts⟩
    change found.result.map _ = _
    rw [ht]
    rfl

private theorem readField_faults : (readField schemas path name v).faults = [] := by
  unfold readField
  split
  · rfl
  · exact List.append_eq_nil_iff.mpr ⟨readType_faults, fieldParts_faults⟩

/-! ### Schemas -/

private theorem readFields_faults : (readFields schemas path entries).faults = [] := by
  induction entries with
  | nil => rfl
  | cons e rest ih =>
    obtain ⟨key, v⟩ := e
    unfold readFields
    dsimp only
    split
    · exact ih
    · exact List.append_eq_nil_iff.mpr ⟨readField_faults, ih⟩

private theorem readSchema_faults : (readSchema schemas name v).faults = [] := by
  cases v with
  | dict entries => exact readFields_faults
  | _ => rfl

private theorem readSchemas_faults : (readSchemas schemas entries).faults = [] := by
  induction entries with
  | nil => rfl
  | cons e rest ih =>
    obtain ⟨key, v⟩ := e
    unfold readSchemas
    dsimp only
    split
    · exact ih
    · exact List.append_eq_nil_iff.mpr ⟨readSchema_faults, ih⟩

/-- No fragment that the validation of a table makes is refused. -/
theorem read_faults (entries : List (Value × Value)) : (read entries).faults = [] :=
  readSchemas_faults

/-- So a table is accepted just if it has no issues, and is refused for its issues only. -/
theorem accepted_read (entries : List (Value × Value)) :
    (read entries).accepted = if (read entries).issues = [] then .ok (read entries).result
      else .error (.table (read entries).issues) := by
  rw [Found.accepted, read_faults]
  cases (read entries).issues <;> rfl

/-- The texts among the keys of a dictionary. -/
def textKeys (entries : List (Value × Value)) : List String :=
  entries.filterMap fun e => e.1.asText?

/-- A sound field, described by an entry. -/
def Describes (schemas : List String) (e : Value × Value) (f : FieldSpec) : Prop :=
  e.1 = .str f.name ∧ f.Sound schemas

/-- What is read of fields without issues are the fields, in order. -/
theorem forall₂_readFields (h : (readFields schemas path entries).issues = []) :
    List.Forall₂ (Describes schemas) entries (readFields schemas path entries).result := by
  induction entries with
  | nil => exact .nil
  | cons e rest ih =>
    obtain ⟨key, v⟩ := e
    unfold readFields at h ⊢
    dsimp only at h ⊢
    cases hk : validName? key with
    | none =>
      rw [hk] at h
      obtain ⟨s, rfl, hs⟩ := nameIssues_eq_nil_iff.mp (List.append_eq_nil_iff.mp h).1
      rw [validName?_eq_some_iff.mpr ⟨rfl, hs⟩] at hk
      cases hk
    | some name =>
      rw [hk] at h
      obtain ⟨rfl, hn⟩ := validName?_eq_some_iff.mp hk
      obtain ⟨hfield, hrest⟩ := List.append_eq_nil_iff.mp h
      obtain ⟨f, hf, rfl, hs⟩ := exists_readField hn hfield
      dsimp only
      rw [hf]
      exact .cons ⟨rfl, hs⟩ (ih hrest)

/-- A schema whose name may be that of a schema and whose fields are sound, described by an
entry. -/
structure SchemaSpec.Sound (schemas : List String) (e : Value × Value) (s : SchemaSpec) : Prop where
  key : e.1 = .str s.name
  name : ValidName s.name
  fields : List.Forall₂ (Describes schemas) (entriesOf e.2) s.fields

private theorem sound_readSchema (hn : ValidName name)
    (h : (readSchema schemas name v).issues = []) :
    (readSchema schemas name v).result.Sound schemas (.str name, v) := by
  cases v with
  | null => exact ⟨rfl, hn, .nil⟩
  | dict entries => exact ⟨rfl, hn, forall₂_readFields h⟩
  | _ => cases h

/-- What is read of schemas without issues are the schemas, in order. -/
theorem forall₂_readSchemas (hn : ∀ e ∈ entries, nameIssues e.1.words e.1 = [])
    (h : (readSchemas schemas entries).issues = []) :
    List.Forall₂ (SchemaSpec.Sound schemas) entries (readSchemas schemas entries).result := by
  induction entries with
  | nil => exact .nil
  | cons e rest ih =>
    obtain ⟨key, v⟩ := e
    obtain ⟨hkey, hkeys⟩ := List.forall_mem_cons.mp hn
    obtain ⟨name, rfl, hname⟩ := nameIssues_eq_nil_iff.mp hkey
    unfold readSchemas at h ⊢
    rw [validName?_eq_some_iff.mpr ⟨rfl, hname⟩] at h ⊢
    obtain ⟨hschema, hrest⟩ := List.append_eq_nil_iff.mp h
    exact .cons (sound_readSchema hname hschema) (ih hkeys hrest)

/-- What is read of a table without issues are its schemas, in order. -/
theorem forall₂_read (h : (read entries).issues = []) :
    List.Forall₂ (SchemaSpec.Sound (schemaNames entries)) entries (read entries).result := by
  obtain ⟨hnames, hschemas⟩ := List.append_eq_nil_iff.mp h
  exact forall₂_readSchemas (List.flatMap_eq_nil_iff.mp hnames) hschemas

/-- The names of schemas are the keys that describe them. -/
theorem map_name_eq_of_sound {specs : List SchemaSpec}
    (h : List.Forall₂ (SchemaSpec.Sound schemas) entries specs) :
    specs.map SchemaSpec.name = schemaNames entries ∧
      specs.map SchemaSpec.name = textKeys entries := by
  induction h with
  | nil => exact ⟨rfl, rfl⟩
  | @cons e s entries specs hs _ ih =>
    have hv : validName? e.1 = some s.name := validName?_eq_some_iff.mpr ⟨hs.key, hs.name⟩
    have ht : e.1.asText? = some s.name := by rw [hs.key, Value.asText?]
    rw [List.map_cons, schemaNames, textKeys, List.filterMap_cons, List.filterMap_cons, hv, ht]
    exact ⟨congrArg (s.name :: ·) ih.1, congrArg (s.name :: ·) ih.2⟩

/-- The names of fields are the keys that describe them. -/
theorem map_name_eq_of_describes {fields : List FieldSpec}
    (h : List.Forall₂ (Describes schemas) entries fields) :
    fields.map FieldSpec.name = textKeys entries := by
  induction h with
  | nil => rfl
  | @cons e f entries fields hf _ ih =>
    have ht : e.1.asText? = some f.name := by rw [hf.1, Value.asText?]
    rw [List.map_cons, textKeys, List.filterMap_cons, ht]
    exact congrArg (f.name :: ·) ih

end Table

end SchemaBinding
