import SchemaBinding.Proofs.DeclaredFields
import SchemaBinding.Proofs.FailedDeclarations
import SchemaBinding.Proofs.MergedRules

/-!
# Well-formed plans

Every plan of a class comes of the declarations of one field, on the class or on a class that it
inherits from. Whatever these declare, in whatever order and over whatever was declared or forgotten
before, merging their rules and compiling the contract makes a plan that a bind can follow.
-/

namespace SchemaBinding

/-- The names that a class may have for a field. -/
theorem checkFieldName_ok_iff {owner s : String} :
    checkFieldName owner (.str s) = .ok s ↔
      Text.isIdentifier s = true ∧ s ∉ Text.reservedWords ∧ s.startsWith "__" = false := by
  have hr : Text.isReserved s = false ↔ s ∉ Text.reservedWords ∧ s.startsWith "__" = false := by
    simp [Text.isReserved]
  rw [← hr, checkFieldName]
  cases Text.isIdentifier s <;> cases Text.isReserved s <;> simp

private theorem Text.ne_empty_of_isIdentifier {s : String} (h : isIdentifier s = true) :
    s ≠ "" := by
  rintro rfl
  cases h

/-! ### Elements of arrays -/

namespace DeclaredType

/-- The type that a list or a tuple says its elements to have. -/
def item? : DeclaredType → Option DeclaredType
  | .listOf item => some item
  | .tupleOf [item, .ellipsis] => some item
  | .anyList => some (.basic .object)
  | _ => none

variable {accepts : ClassRef → Bool} {t : DeclaredType} {e : ScalarKind}

/-- The elements of an array have the kind of their type, which is no array. -/
theorem arrayKind_eq_array {kind : ValueKind} (h : t.arrayKind accepts = .ok kind) :
    ∃ e, kind = .array (some e) ∧ t.isListType = false ∧ t.scalarKind accepts = .ok e := by
  rw [arrayKind] at h
  cases hl : t.isListType with
  | true =>
    rw [hl] at h
    cases h
  | false =>
    rw [hl] at h
    obtain ⟨e, he, hk⟩ := map_eq_ok_iff.mp h
    exact ⟨e, hk.symm, rfl, he⟩

/-- Elements that have a kind were declared to have a type, which is no array. -/
theorem exists_item_of_kind {element : Option DeclaredType}
    (h : t.kind accepts element = .ok (.array (some e))) :
    ∃ item, element.or t.item? = some item ∧ item.isListType = false ∧
      item.scalarKind accepts = .ok e := by
  have hitem : ∀ {item : DeclaredType}, item.arrayKind accepts = .ok (.array (some e)) →
      item.isListType = false ∧ item.scalarKind accepts = .ok e := by
    intro item hi
    obtain ⟨k, hk, hl, hs⟩ := arrayKind_eq_array hi
    cases hk
    exact ⟨hl, hs⟩
  have hscalar : (t.scalarKind accepts).map ValueKind.scalar ≠ .ok (.array (some e)) := by
    intro hs
    obtain ⟨k, -, hk⟩ := map_eq_ok_iff.mp hs
    cases hk
  unfold kind at h
  split at h
  · exact ⟨_, rfl, hitem h⟩
  · exact ⟨_, rfl, hitem h⟩
  · exact ⟨_, rfl, hitem h⟩
  · exact ⟨_, rfl, hitem h⟩
  · cases h
  · cases h
  · cases h
  · exact absurd h hscalar

end DeclaredType

/-! ### Contracts and plans -/

namespace Declaration

/-- The rules that declarations give a field, in order. -/
def rules (ds : List Declaration) (name : String) : List Fragment :=
  (ds.filter fun d => d.field == name).flatMap fragments

/-- The type that declarations give the elements of a field: one that was declared for them, or else
one that the type of the field says. -/
def elementType? (ds : List Declaration) (name : String) : Option DeclaredType :=
  ((rules ds name).filterMap Fragment.element?).getLast?.or (contract ds name).declared.item?

variable (ds : List Declaration) (name : String)

/-- The contract of a field, apart from its type, is an empty one into which its rules are
merged. -/
theorem contract_eq_merged :
    contract ds name = { (FieldContract.empty name).merged (rules ds name) with
      declared := (contract ds name).declared } := by
  rw [← FieldContract.foldl_merge_eq_merged]
  rfl

private theorem requirement_contract :
    (contract ds name).requirement = (Fragment.requirements (rules ds name)).getLast? := by
  rw [contract_eq_merged]
  exact Option.or_none

private theorem element_contract :
    (contract ds name).element = ((rules ds name).filterMap Fragment.element?).getLast? := by
  rw [contract_eq_merged]
  exact Option.or_none

private theorem passthrough_contract :
    (contract ds name).passthrough = true ↔ Fragment.passthrough ∈ rules ds name := by
  have hf : ∀ f : Fragment, f.isPassthrough = true ↔ f = .passthrough := by
    intro f
    cases f <;> simp [Fragment.isPassthrough]
  rw [contract_eq_merged]
  simp [FieldContract.merged, FieldContract.empty, List.any_eq_true, hf]

end Declaration

/-- A plan that a bind can follow, of a field that was declared by the given declarations; `accepts`
tells which classes may be nested. -/
structure FieldPlan.WellFormed (accepts : ClassRef → Bool) (ds : List Declaration)
    (p : FieldPlan) : Prop where
  declared : p.name ∈ Declaration.names ds
  isIdentifier : Text.isIdentifier p.name = true
  not_keyword : p.name ∉ Text.reservedWords
  not_dunder : p.name.startsWith "__" = false
  sourceKey_ne : p.sourceKey ≠ ""
  not_both : ¬ (p.requirement.isRequired = true ∧ p.requirement.default?.isSome = true)
  /-- The field is required if it was last declared to be. -/
  required_iff : p.requirement.isRequired = true ↔
    (Fragment.requirements (Declaration.rules ds p.name)).getLast?.map Requirement.name =
      some "required"
  /-- The field has a default if it was last declared to be optional with one. -/
  default_iff : p.requirement.default?.isSome = true ↔
    (Fragment.requirements (Declaration.rules ds p.name)).getLast?.map Requirement.name =
      some "optional-with-default"
  union_ne : ∀ members ∈ p.union, members.values ≠ []
  kind_eq_none_iff : p.kind = none ↔ Fragment.passthrough ∈ Declaration.rules ds p.name
  /-- Elements of an array that have a kind have that of their type, which is no array. -/
  element : ∀ e, p.kind = some (.array (some e)) → ∃ item,
    Declaration.elementType? ds p.name = some item ∧ item.isListType = false ∧
      item.scalarKind accepts = .ok e

namespace Requirement

/-- A field is required if that was declared. -/
theorem isRequired_getD_iff (r : Option Requirement) :
    (r.getD .optional).isRequired = true ↔ r.map name = some "required" := by
  rcases r with _ | _ | _ | v <;> simp [isRequired, name]

/-- A field has a default if it was declared to be optional with one. -/
theorem isSome_default?_getD_iff (r : Option Requirement) :
    (r.getD .optional).default?.isSome = true ↔ r.map name = some "optional-with-default" := by
  rcases r with _ | _ | _ | v <;> simp [default?, name]

end Requirement

namespace FieldPlan

variable {accepts : ClassRef → Bool} {ds : List Declaration} {p : FieldPlan}

/-- What valid declarations of a field compile to is well formed. -/
theorem wellFormed_of_plan {name : String} (hv : ∀ d ∈ ds, d.Valid)
    (hn : name ∈ Declaration.names ds) (h : (Declaration.contract ds name).plan accepts = .ok p) :
    p.WellFormed accepts ds := by
  obtain ⟨d, hd, hfield⟩ := (Declaration.mem_names ds).mp hn
  obtain ⟨hi, hkey, hdunder⟩ := checkFieldName_ok_iff.mp (hv d hd)
  rw [hfield] at hi hkey hdunder
  obtain ⟨kind, hk, rfl⟩ := (Registry.plan_ok_iff _ _ _).mp h
  have hname := Declaration.name_contract ds name
  have hreq := Declaration.requirement_contract ds name
  have hpass := Declaration.passthrough_contract ds name
  have helement := Declaration.element_contract ds name
  generalize hf : Declaration.contract ds name = f at *
  subst hname
  refine {
    declared := hn
    isIdentifier := hi
    not_keyword := hkey
    not_dunder := hdunder
    sourceKey_ne := ?_
    not_both := ?_
    required_iff := ?_
    default_iff := ?_
    union_ne := fun members _ => members.values_ne
    kind_eq_none_iff := ?_
    element := ?_ }
  · cases f.sourceKey with
    | none => exact Text.ne_empty_of_isIdentifier hi
    | some key => exact key.key_ne
  · rcases f.requirement with _ | _ | _ | v <;> simp [Requirement.isRequired, Requirement.default?]
  · rw [← hreq]
    exact Requirement.isRequired_getD_iff f.requirement
  · rw [← hreq]
    exact Requirement.isSome_default?_getD_iff f.requirement
  · rw [← hpass]
    split at hk
    · next hp => simp [hp, Except.ok.inj hk]
    · next hp =>
      obtain ⟨k, -, rfl⟩ := map_eq_ok_iff.mp hk
      simp [hp]
  · rintro e rfl
    split at hk
    · cases hk
    · obtain ⟨k, hkind, hke⟩ := map_eq_ok_iff.mp hk
      cases hke
      rw [Declaration.elementType?, hf, ← helement]
      exact DeclaredType.exists_item_of_kind hkind

end FieldPlan

namespace Session

/-- The declarations on a class that stand after operations: those that succeeded since the class
was last forgotten, in order. -/
def declarations (ops : List Operation) (i : Nat) (c : ClassRef) : List Declaration :=
  ContractChange.latest c (history i initial ops)

private theorem valid_of_mem_declarations {ops : List Operation} {i : Nat} {c : ClassRef}
    {d : Declaration}
    (h : d ∈ declarations ops i c) : d.Valid :=
  valid_of_mem_history (ContractChange.mem_of_mem_latest h)

/-- The contract of a class for a field is that of the first class, in the order of inheritance,
with declarations of the field that stand. -/
theorem exists_declarations_of_mem_fields (ops : List Operation) (i : Nat) {c : ClassRef}
    {f : FieldContract}
    (h : f ∈ ((initial.after ops).world.registry i).fields (initial.after ops).world.classes c) :
    ∃ before k behind, (initial.after ops).world.classes.order c = before ++ k :: behind ∧
      (∀ j ∈ before, f.name ∉ Declaration.names (declarations ops i j)) ∧
      f.name ∈ Declaration.names (declarations ops i k) ∧
      f = Declaration.contract (declarations ops i k) f.name := by
  have hd := (reachable_after .initial ops).distinct i
  have hf := Registry.field?_of_mem h
  rw [Registry.field?_eq_findSome? hd, List.findSome?_eq_some_iff] at hf
  obtain ⟨before, k, behind, ho, hk, hbefore⟩ := hf
  have hiff : ∀ j g, ((initial.after ops).world.registry i).ownField? j f.name = some g ↔
      f.name ∈ Declaration.names (declarations ops i j) ∧
        g = Declaration.contract (declarations ops i j) f.name := by
    intro j g
    rw [ownField?_after, Declaration.contract?, Option.ite_none_right_eq_some, Option.some.injEq,
      eq_comm (b := g)]
    rfl
  obtain ⟨hn, he⟩ := (hiff k f).mp hk
  refine ⟨before, k, behind, ho, fun j hj hm => ?_, hn, he⟩
  have hnone := hbefore j hj
  rw [(hiff j _).mpr ⟨hm, rfl⟩] at hnone
  cases hnone

/-- Whatever was declared, cleared, set and built before, and whether it succeeded or failed: if the
plans of a class compile, then they are of different fields, and each is well formed, by the
declarations on the first class that declares the field. -/
theorem plans_wellFormed (ops : List Operation) {i : Nat} {c : ClassRef} {plans : List FieldPlan}
    (h : ((initial.after ops).step (.plan i (.cls c))).1 = .ok (.plans plans)) :
    (plans.map FieldPlan.name).Nodup ∧ ∀ p ∈ plans, ∃ before k behind,
      (initial.after ops).world.classes.order c = before ++ k :: behind ∧
      (∀ j ∈ before, p.name ∉ Declaration.names (declarations ops i j)) ∧
      p.WellFormed (((initial.after ops).world.registry i).acceptsNested
        (initial.after ops).world.classes) (declarations ops i k) := by
  rw [fst_step_plan (reachable_after .initial ops).consistent] at h
  obtain ⟨ps, hc, he⟩ := map_eq_ok_iff.mp h
  cases he
  refine ⟨Registry.nodup_plans hc, fun p hp => ?_⟩
  obtain ⟨f, hf, hplan⟩ := (Registry.mem_plans_iff hc p).mp hp
  have hname : p.name = f.name := by
    obtain ⟨kind, -, rfl⟩ := (Registry.plan_ok_iff _ f p).mp hplan
    rfl
  obtain ⟨before, k, behind, ho, hbefore, hn, he⟩ := exists_declarations_of_mem_fields ops i hf
  rw [he] at hplan
  rw [hname]
  exact ⟨before, k, behind, ho, hbefore,
    FieldPlan.wellFormed_of_plan (fun _ => valid_of_mem_declarations) hn hplan⟩

/-- The plans that a step gives, if it does. -/
def plans? : Except Fault Outcome → Option (List FieldPlan)
  | .ok (.plans ps) => some ps
  | _ => none

private theorem eq_of_plans? {r : Except Fault Outcome} {ps : List FieldPlan}
    (h : plans? r = some ps) :
    r = .ok (.plans ps) := by
  unfold plans? at h
  split at h
  · cases h
    rfl
  · cases h

/-- A class of badges. -/
def badge : ClassRef := ⟨5, "Badge", true⟩

/-- A class of badges that are handed to guests. -/
def guestBadge : ClassRef := ⟨6, "GuestBadge", true⟩

/-- Declarations on badges, before and after requiredness may be declared only once. Two of them
fail: one declares requiredness again, and one is of a reserved word. -/
def badgeRules : List Operation := [
  .newClass "Badge" [.schemaBase] none
    [("holder", ⟨.basic .str, [.requirement .required]⟩), ("rooms", ⟨.listOf (.basic .str), []⟩)],
  .newClass "GuestBadge" [badge] none
    [("holder", ⟨.basic .str, [.requirement (.defaulted (.str "guest")),
      .sourceKey ⟨"name", by decide⟩]⟩)],
  .setStrict 0 (.bool true),
  .declare 0 (.cls guestBadge) (.str "holder") [.fragment (.requirement .required)] none,
  .declare 0 (.cls guestBadge) (.str "class") [.fragment .integer] none,
  .declare 0 (.cls guestBadge) (.str "photo") [.fragment .passthrough] none,
  .declare 0 (.cls badge) (.str "level") [.fragment (.union ⟨[.int 1, .int 2], by decide⟩)]
    (some (.basic .int))]

/-- The plans of a badge for guests are well formed. The holder may be left out, and a photo is
taken as it is. -/
theorem guestBadge_wellFormed : ∃ plans,
    ((initial.after badgeRules).step (.plan 0 (.cls guestBadge))).1 = .ok (.plans plans) ∧
    plans.map (fun p => (p.name, p.sourceKey, p.requirement.name, World.planKindName p)) = [
      ("holder", "name", "optional-with-default", "str"),
      ("rooms", "rooms", "optional", "array[str]"),
      ("level", "level", "optional", "int"),
      ("photo", "photo", "optional", "passthrough")] ∧
    (plans.map FieldPlan.name).Nodup ∧ ∀ p ∈ plans, ∃ before k behind,
      (initial.after badgeRules).world.classes.order guestBadge = before ++ k :: behind ∧
      (∀ j ∈ before, p.name ∉ Declaration.names (declarations badgeRules 0 j)) ∧
      p.WellFormed (((initial.after badgeRules).world.registry 0).acceptsNested
        (initial.after badgeRules).world.classes) (declarations badgeRules 0 k) := by
  have hd : (plans? ((initial.after badgeRules).step (.plan 0 (.cls guestBadge))).1).map
      (List.map fun p => (p.name, p.sourceKey, p.requirement.name, World.planKindName p)) = some [
        ("holder", "name", "optional-with-default", "str"),
        ("rooms", "rooms", "optional", "array[str]"),
        ("level", "level", "optional", "int"),
        ("photo", "photo", "optional", "passthrough")] := by decide +kernel
  obtain ⟨plans, hp, he⟩ := Option.map_eq_some_iff.mp hd
  exact ⟨plans, eq_of_plans? hp, he, plans_wellFormed badgeRules (eq_of_plans? hp)⟩

end Session

end SchemaBinding
