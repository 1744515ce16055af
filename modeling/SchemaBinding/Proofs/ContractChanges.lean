import Mathlib.Data.List.Induction
import Mathlib.Data.List.Nodup
import SchemaBinding.Proofs.WorldInvariant

/-!
# Changes of contracts

The contracts that a class has of its own follow from the changes made to a registry: fields are
declared, one class is forgotten, or all are. This module says what each change does to them, and
what they are after any number of changes: the fields declared since the class was last forgotten,
in the order of their first declarations, each with the rules of all its declarations merged.
-/

namespace SchemaBinding

/-! ### Merging rules -/

namespace FieldContract

/-- A contract with one more rule merged into it, whatever was declared before. -/
def merge (c : FieldContract) (f : Fragment) : FieldContract := (c.add false f).toOption.getD c

variable {once : Bool} {c d : FieldContract}

/-- Where requiredness may be declared again, every rule can be added. -/
theorem add_false (c : FieldContract) (f : Fragment) : c.add false f = .ok (c.merge f) := by
  cases f <;> rfl

/-- A rule that can be added is merged. -/
theorem add_eq_merge {f : Fragment} (h : c.add once f = .ok d) : d = c.merge f := by
  cases f with
  | requirement r =>
    simp only [add] at h
    split at h
    · contradiction
    · cases h
      rfl
  | _ =>
    cases h
    rfl

/-- Rules that can be added are merged from left to right. -/
theorem addAll_eq_foldl_merge {fs : List Fragment} (h : c.addAll once fs = .ok d) :
    d = fs.foldl merge c := by
  induction fs generalizing c with
  | nil =>
    cases h
    rfl
  | cons f fs ih =>
    simp only [addAll] at h
    split at h
    · next e he =>
      rw [ih h, add_eq_merge he]
      rfl
    · contradiction

/-- Where requiredness may be declared again, no rules conflict. -/
theorem addAll_false (c : FieldContract) (fs : List Fragment) :
    c.addAll false fs = .ok (fs.foldl merge c) := by
  induction fs generalizing c with
  | nil => rfl
  | cons f fs ih => rw [addAll, add_false, List.foldl_cons, ← ih]

/-- No rule asks for the declared type. -/
theorem merge_declared (c : FieldContract) (t : DeclaredType) (f : Fragment) :
    ({ c with declared := t } : FieldContract).merge f = { c.merge f with declared := t } := by
  cases f <;> rfl

/-- Merging rules into a contract leaves its type. -/
theorem foldl_merge_declared (c : FieldContract) (t : DeclaredType) (fs : List Fragment) :
    fs.foldl merge { c with declared := t } = { fs.foldl merge c with declared := t } := by
  induction fs generalizing c with
  | nil => rfl
  | cons f fs ih => rw [List.foldl_cons, List.foldl_cons, merge_declared, ih]

/-- Merging a rule into a contract leaves its name. -/
@[simp]
theorem name_merge (c : FieldContract) (f : Fragment) : (c.merge f).name = c.name := by
  cases f <;> rfl

/-- Merging rules into a contract leaves its name. -/
@[simp]
theorem name_foldl_merge (c : FieldContract) (fs : List Fragment) :
    (fs.foldl merge c).name = c.name := by
  induction fs generalizing c with
  | nil => rfl
  | cons f fs ih => rw [List.foldl_cons, ih, name_merge]

/-- The contract found under a name, or an empty one, has that name. -/
theorem name_getD_find? (fields : List FieldContract) (name : String) :
    ((fields.find? fun f => f.name == name).getD (.empty name)).name = name := by
  cases hf : fields.find? fun f => f.name == name with
  | none => rfl
  | some f =>
    have hs := List.find?_some hf
    simpa using hs

end FieldContract

/-- Putting in a contract changes what its name stands for, and adds the name if it is new. -/
theorem Registry.putContract_map {F : String → FieldContract} (hF : ∀ n, (F n).name = n)
    {names : List String} (hn : names.Nodup) (f : FieldContract) :
    putContract (names.map F) f =
      (if f.name ∈ names then names else names ++ [f.name]).map (Function.update F f.name f) := by
  have hmap : ∀ rest : List String, f.name ∉ rest →
      rest.map (Function.update F f.name f) = rest.map F := by
    intro rest hf
    refine List.map_congr_left fun n hm => Function.update_of_ne ?_ f F
    exact fun he => hf (he ▸ hm)
  induction names with
  | nil => simp [putContract]
  | cons n rest ih =>
    obtain ⟨hnr, hrest⟩ := List.nodup_cons.mp hn
    rw [List.map_cons, putContract, hF, ih hrest]
    by_cases he : n = f.name
    · subst he
      simp [hmap rest hnr]
    · have hne : f.name ≠ n := Ne.symm he
      by_cases hf : f.name ∈ rest <;> simp [he, hne, hf]

/-! ### Declarations -/

/-- A declaration that succeeded. -/
structure Declaration where
  /-- The class. -/
  cls : ClassRef
  /-- The name of the field. -/
  field : String
  /-- The rules. -/
  fragments : List Fragment
  /-- The declared type, if one was given. -/
  declared : Option DeclaredType

namespace Declaration

/-- The contract of a field with a declaration merged into it. -/
def mergeInto (d : Declaration) (f : FieldContract) : FieldContract :=
  let merged := d.fragments.foldl FieldContract.merge f
  { merged with declared := d.declared.getD merged.declared }

/-- The contracts of a class with a declaration merged into the one of its field, which starts
empty. -/
def putInto (d : Declaration) (fields : List FieldContract) : List FieldContract :=
  Registry.putContract fields
    (d.mergeInto ((fields.find? fun f => f.name == d.field).getD (.empty d.field)))

/-- The names of the fields that are declared, in the order of their first declarations. -/
def names (ds : List Declaration) : List String := (ds.map field).eraseDups

/-- The contract of a field after declarations: the rules of all that declare it, applied to an
empty contract from left to right, with the type that was given last. -/
def contract (ds : List Declaration) (name : String) : FieldContract :=
  let own := ds.filter fun d => d.field == name
  { (own.flatMap fragments).foldl FieldContract.merge (.empty name) with
    declared := (own.filterMap declared).getLast?.getD (FieldContract.empty name).declared }

/-- The contracts of a class after declarations. -/
def contracts (ds : List Declaration) : List FieldContract := (names ds).map (contract ds)

variable (ds : List Declaration) (d : Declaration)

/-- The fields that are declared are those of the declarations. -/
theorem mem_names {name : String} : name ∈ names ds ↔ ∃ d ∈ ds, d.field = name := by
  rw [names, List.mem_eraseDups, List.mem_map]

private theorem names_concat :
    names (ds ++ [d]) = if d.field ∈ names ds then names ds else names ds ++ [d.field] := by
  have hr : [d.field].removeAll (ds.map field) =
      if d.field ∈ names ds then [] else [d.field] := by
    simp [List.removeAll, List.filter_singleton, names]
  rw [names, List.map_append, List.map_singleton, List.eraseDups_append, hr, ← names]
  split
  · exact List.append_nil _
  · rfl

/-- Every field that is declared is listed once. -/
theorem nodup_names : (names ds).Nodup := by
  induction ds using List.reverseRecOn with
  | nil => exact List.nodup_nil
  | append_singleton ds d ih =>
    rw [names_concat]
    split
    · exact ih
    · next h => exact List.concat_eq_append ▸ ih.concat h

/-- The contract of a field bears its name. -/
@[simp]
theorem name_contract (name : String) : (contract ds name).name = name := by
  simp [contract, FieldContract.empty]

private theorem contract_of_not_mem {name : String} (h : name ∉ names ds) :
    contract ds name = .empty name := by
  have hf : ds.filter (fun d => d.field == name) = [] := by
    refine List.filter_eq_nil_iff.mpr fun d hd he => h ?_
    exact (mem_names ds).mpr ⟨d, hd, eq_of_beq he⟩
  rw [contract, hf]
  rfl

private theorem contract_concat :
    contract (ds ++ [d]) =
      Function.update (contract ds) d.field (d.mergeInto (contract ds d.field)) := by
  funext name
  by_cases h : name = d.field
  · rw [h, Function.update_self]
    simp only [contract, mergeInto, FieldContract.foldl_merge_declared, List.filter_append,
      List.filter_singleton, beq_self_eq_true, List.flatMap_append, List.foldl_append,
      List.filterMap_append, List.getLast?_append]
    cases hd : d.declared <;> simp [hd]
  · have hf : (d.field == name) = false := beq_false_of_ne (Ne.symm h)
    rw [Function.update_of_ne h]
    simp [contract, List.filter_append, hf]

/-- Among the contracts of fields, that under a name is the contract of the field. -/
theorem find?_map_contract {names : List String} {name : String} :
    (names.map (contract ds)).find? (fun f => f.name == name) =
      if name ∈ names then some (contract ds name) else none := by
  induction names with
  | nil => rfl
  | cons n names ih =>
    rw [List.map_cons, List.find?_cons, name_contract, ih]
    by_cases hn : n = name
    · simp [hn]
    · simp [beq_false_of_ne hn, Ne.symm hn]

private theorem getD_find?_contracts (name : String) :
    ((contracts ds).find? fun f => f.name == name).getD (.empty name) = contract ds name := by
  rw [contracts, find?_map_contract]
  split
  · rfl
  · next h => exact (contract_of_not_mem ds h).symm

/-- The contract of a field that is declared; none of one that is not. -/
def contract? (ds : List Declaration) (name : String) : Option FieldContract :=
  if name ∈ names ds then some (contract ds name) else none

/-- The contract of a field follows from the declarations of the field. -/
theorem contract?_congr {es : List Declaration} {name : String}
    (h : ds.filter (fun d => d.field == name) = es.filter fun d => d.field == name) :
    contract? ds name = contract? es name := by
  have hm : ∀ ds : List Declaration,
      name ∈ names ds ↔ ds.filter (fun d => d.field == name) ≠ [] := by
    intro ds
    simp [mem_names]
  have hc : contract ds name = contract es name := by rw [contract, contract, h]
  rw [contract?, contract?, hc]
  simp only [hm, h]

/-- One more declaration is merged into the contract of its field. -/
theorem contracts_concat : contracts (ds ++ [d]) = d.putInto (contracts ds) := by
  have hm : (d.mergeInto (contract ds d.field)).name = d.field := by simp [mergeInto]
  rw [putInto, getD_find?_contracts, contracts, contracts,
    Registry.putContract_map (name_contract ds) (nodup_names ds), names_concat, contract_concat,
    hm]

end Declaration

/-! ### Changes -/

/-- A change of the contracts in a registry. -/
inductive ContractChange where
  /-- A field is declared. -/
  | declared (d : Declaration)
  /-- A class is forgotten. -/
  | forgotten (c : ClassRef)
  /-- All classes are forgotten. -/
  | cleared

namespace ContractChange

/-- The contracts of a class after a change. -/
def effect (c : ClassRef) (fields : List FieldContract) : ContractChange → List FieldContract
  | .declared d => if d.cls = c then d.putInto fields else fields
  | .forgotten k => if k = c then [] else fields
  | .cleared => []

/-- The declarations on a class since it was last forgotten, after one more change. -/
def remember (c : ClassRef) (ds : List Declaration) : ContractChange → List Declaration
  | .declared d => if d.cls = c then ds ++ [d] else ds
  | .forgotten k => if k = c then [] else ds
  | .cleared => []

/-- The declarations on a class since it was last forgotten, in order. -/
def latest (c : ClassRef) (changes : List ContractChange) : List Declaration :=
  changes.foldl (remember c) []

/-- The contracts of a class follow from the declarations since it was last forgotten. -/
theorem effect_contracts (c : ClassRef) (ds : List Declaration) (change : ContractChange) :
    effect c (Declaration.contracts ds) change =
      Declaration.contracts (remember c ds change) := by
  cases change with
  | declared d =>
    simp only [effect, remember]
    split
    · exact (Declaration.contracts_concat ds d).symm
    · rfl
  | forgotten k =>
    simp only [effect, remember]
    split <;> rfl
  | cleared => rfl

/-- Whether a change has to do with a field of a class. -/
def concerns (c : ClassRef) (name : String) : ContractChange → Bool
  | .declared d => d.cls == c && d.field == name
  | .forgotten k => k == c
  | .cleared => true

/-- Changes that have nothing to do with a field of a class leave the declarations of the field. -/
theorem filter_remember {c : ClassRef} {name : String} {change : ContractChange}
    (h : change.concerns c name = false) (ds : List Declaration) :
    (remember c ds change).filter (fun d => d.field == name) =
      ds.filter fun d => d.field == name := by
  cases change with
  | declared d =>
    simp only [remember]
    split
    · next hc =>
      have hf : (d.field == name) = false := by simpa [concerns, hc] using h
      simp [hf]
    · rfl
  | forgotten k =>
    have hk : k ≠ c := by simpa [concerns] using h
    rw [remember, if_neg hk]
  | cleared => cases h

/-- Changes that do not concern a field leave its declarations. -/
theorem filter_foldl_remember {c : ClassRef} {name : String} {changes : List ContractChange}
    (h : ∀ change ∈ changes, change.concerns c name = false) (ds : List Declaration) :
    (changes.foldl (remember c) ds).filter (fun d => d.field == name) =
      ds.filter fun d => d.field == name := by
  induction changes generalizing ds with
  | nil => rfl
  | cons change rest ih =>
    obtain ⟨hc, hr⟩ := List.forall_mem_cons.mp h
    rw [List.foldl_cons, ih hr, filter_remember hc]

/-- Changes of contracts, one after the other, leave the contracts of the declarations that stand.
-/
theorem foldl_effect (c : ClassRef) (changes : List ContractChange) :
    changes.foldl (effect c) [] = Declaration.contracts (latest c changes) := by
  induction changes using List.reverseRecOn with
  | nil => rfl
  | append_singleton changes change ih =>
    rw [latest, List.foldl_concat, List.foldl_concat, ih, effect_contracts]
    rfl

end ContractChange

end SchemaBinding
