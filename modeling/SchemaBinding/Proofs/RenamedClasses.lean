import SchemaBinding.Proofs.TableContracts

/-!
# Contracts with other classes

Renaming the classes that a contract names renames those in its plan and changes nothing else of it,
if the new classes may be nested just as the old ones may. Contracts that come of one declaration,
made at different times, differ only in the labels of their defaults, and so do their plans.
-/

namespace SchemaBinding

/-! ### Types with other classes -/

namespace DeclaredType

mutual

/-- The classes that a declared type names. -/
def classes (t : DeclaredType) : List ClassRef :=
  match t with
  | .cls c => [c]
  | .listOf item => classes item
  | .tupleOf items => classesOf items
  | .dictOf key item => classes key ++ classes item
  | .mappingOf key item => classes key ++ classes item
  | _ => []
termination_by structural t

/-- The classes that declared types name. -/
def classesOf (ts : List DeclaredType) : List ClassRef :=
  match ts with
  | [] => []
  | t :: ts => classes t ++ classesOf ts
termination_by structural ts

end

mutual

/-- A declared type with other classes. -/
def rename (σ : ClassRef → ClassRef) (t : DeclaredType) : DeclaredType :=
  match t with
  | .cls c => .cls (σ c)
  | .listOf item => .listOf (rename σ item)
  | .tupleOf items => .tupleOf (renameAll σ items)
  | .dictOf key item => .dictOf (rename σ key) (rename σ item)
  | .mappingOf key item => .mappingOf (rename σ key) (rename σ item)
  | t => t
termination_by structural t

/-- Declared types with other classes. -/
def renameAll (σ : ClassRef → ClassRef) (ts : List DeclaredType) : List DeclaredType :=
  match ts with
  | [] => []
  | t :: ts => rename σ t :: renameAll σ ts
termination_by structural ts

end

variable {σ : ClassRef → ClassRef}

mutual

/-- A type stays as it is if the classes that it names do. -/
theorem rename_eq_self (t : DeclaredType) (h : ∀ c ∈ t.classes, σ c = c) : t.rename σ = t := by
  match t with
  | .cls c => simp [rename, h c (by simp [classes])]
  | .listOf item => rw [rename, rename_eq_self item h]
  | .tupleOf items => rw [rename, renameAll_eq_self items h]
  | .dictOf key item =>
    simp only [classes, List.mem_append] at h
    rw [rename, rename_eq_self key fun c hc => h c (.inl hc),
      rename_eq_self item fun c hc => h c (.inr hc)]
  | .mappingOf key item =>
    simp only [classes, List.mem_append] at h
    rw [rename, rename_eq_self key fun c hc => h c (.inl hc),
      rename_eq_self item fun c hc => h c (.inr hc)]
  | .basic _ | .anyList | .anyDict | .ellipsis | .quoted _ | .foreign _ => rfl
termination_by structural t

private theorem renameAll_eq_self (ts : List DeclaredType) (h : ∀ c ∈ classesOf ts, σ c = c) :
    renameAll σ ts = ts := by
  match ts with
  | [] => rfl
  | t :: ts =>
    simp only [classesOf, List.mem_append] at h
    rw [renameAll, rename_eq_self t fun c hc => h c (.inl hc),
      renameAll_eq_self ts fun c hc => h c (.inr hc)]
termination_by structural ts

end

private theorem isListType_rename (t : DeclaredType) : (t.rename σ).isListType = t.isListType := by
  cases t <;> rfl

end DeclaredType

/-! ### Kinds with other classes -/

/-- A scalar kind with another schema. -/
def ScalarKind.rename (σ : ClassRef → ClassRef) : ScalarKind → ScalarKind
  | .schema c => .schema (σ c)
  | k => k

/-- A kind with other schemas. -/
def ValueKind.rename (σ : ClassRef → ClassRef) : ValueKind → ValueKind
  | .scalar k => .scalar (k.rename σ)
  | .array element => .array (element.map (ScalarKind.rename σ))

namespace DeclaredType

variable {σ : ClassRef → ClassRef} {p q : ClassRef → Bool}

private theorem scalarKind_rename (t : DeclaredType) (h : ∀ c ∈ t.classes, q (σ c) = p c) :
    ((t.rename σ).scalarKind q).toOption =
      (t.scalarKind p).toOption.map (ScalarKind.rename σ) := by
  cases t with
  | basic b => cases b <;> rfl
  | cls c =>
    have hc : q (σ c) = p c := h c (List.mem_singleton_self c)
    change (if q (σ c) then Except.ok (ScalarKind.schema (σ c)) else .error _).toOption =
      (if p c then Except.ok (ScalarKind.schema c) else .error _).toOption.map _
    rw [hc]
    cases p c <;> rfl
  | _ => rfl

private theorem arrayKind_rename (t : DeclaredType) (h : ∀ c ∈ t.classes, q (σ c) = p c) :
    ((t.rename σ).arrayKind q).toOption =
      (t.arrayKind p).toOption.map (ValueKind.rename σ) := by
  have hk := t.scalarKind_rename h
  rw [arrayKind, arrayKind, isListType_rename]
  cases t.isListType with
  | true => rfl
  | false =>
    simp only [Bool.false_eq_true, if_false]
    cases hp : t.scalarKind p <;> cases hq : (t.rename σ).scalarKind q <;> rw [hp, hq] at hk <;>
      cases hk <;> rfl

/-- A type has the kind with other schemas if those may be nested just as the old ones may. -/
theorem kind_rename (element : Option DeclaredType) (t : DeclaredType)
    (ht : ∀ c ∈ t.classes, q (σ c) = p c)
    (he : ∀ e, element = some e → ∀ c ∈ e.classes, q (σ c) = p c) :
    ((t.rename σ).kind q (element.map (rename σ))).toOption =
      (t.kind p element).toOption.map (ValueKind.rename σ) := by
  cases element with
  | some e => exact arrayKind_rename e (he e rfl)
  | none =>
    cases t with
    | listOf item => exact arrayKind_rename item ht
    | basic b => cases b <;> rfl
    | cls c =>
      have hk := scalarKind_rename (.cls c) ht
      change (((DeclaredType.cls c).rename σ |>.scalarKind q).map ValueKind.scalar).toOption =
        (((DeclaredType.cls c).scalarKind p).map ValueKind.scalar).toOption.map _
      cases hp : (DeclaredType.cls c).scalarKind p <;>
        cases hq : ((DeclaredType.cls c).rename σ).scalarKind q <;> rw [hp, hq] at hk <;>
        cases hk <;> rfl
    | tupleOf items =>
      match items, ht with
      | [], _ => rfl
      | [_], _ => rfl
      | [item, second], ht =>
        have hi : ∀ c ∈ item.classes, q (σ c) = p c :=
          fun c hc => ht c (List.mem_append_left _ hc)
        cases second with
        | ellipsis => exact arrayKind_rename item hi
        | _ => rfl
      | _ :: second :: _ :: _, _ => cases second <;> rfl
    | _ => rfl

end DeclaredType

namespace FieldContract

/-- The classes that a contract names. -/
def classes (f : FieldContract) : List ClassRef :=
  f.declared.classes ++ (f.element.map DeclaredType.classes).getD []

/-- A contract with other classes. -/
def rename (σ : ClassRef → ClassRef) (f : FieldContract) : FieldContract :=
  { f with
    declared := f.declared.rename σ
    element := f.element.map (DeclaredType.rename σ) }

end FieldContract

/-- A plan with other schemas. -/
def FieldPlan.rename (σ : ClassRef → ClassRef) (p : FieldPlan) : FieldPlan :=
  { p with kind := p.kind.map (ValueKind.rename σ) }

namespace FieldContract

variable {σ : ClassRef → ClassRef} {p q : ClassRef → Bool}

/-- A contract stays as it is if the classes that it names do. -/
theorem rename_eq_self {f : FieldContract} (h : ∀ c ∈ f.classes, σ c = c) : f.rename σ = f := by
  have hd : f.declared.rename σ = f.declared :=
    f.declared.rename_eq_self fun c hc => h c (List.mem_append_left _ hc)
  have he : f.element.map (DeclaredType.rename σ) = f.element := by
    cases hf : f.element with
    | none => rfl
    | some e =>
      rw [Option.map_some, e.rename_eq_self]
      intro c hc
      apply h c
      rw [classes, hf]
      exact List.mem_append_right _ hc
  rw [rename, hd, he]

/-- A contract has the plan with other schemas if those may be nested just as the old ones may. -/
theorem plan_rename (f : FieldContract) (h : ∀ c ∈ f.classes, q (σ c) = p c) :
    ((f.rename σ).plan q).toOption = (f.plan p).toOption.map (FieldPlan.rename σ) := by
  have hk : ((f.rename σ).declared.kind q (f.rename σ).element).toOption =
      (f.declared.kind p f.element).toOption.map (ValueKind.rename σ) := by
    apply DeclaredType.kind_rename
    · exact fun c hc => h c (List.mem_append_left _ hc)
    · intro e he c hc
      apply h c
      rw [classes, he]
      exact List.mem_append_right _ hc
  rw [Registry.plan_eq_map, Registry.plan_eq_map]
  change (Except.map _ (if f.passthrough then .ok none else _)).toOption = _
  cases hpass : f.passthrough with
  | true => rfl
  | false =>
    simp only [Bool.false_eq_true, if_false]
    cases hp : f.declared.kind p f.element <;>
      cases hq : (f.rename σ).declared.kind q (f.rename σ).element <;>
      rw [hp, hq] at hk <;> cases hk <;> rfl

end FieldContract

/-! ### Contracts declared at different times -/

/-- Requirements whose defaults are one value, told apart from all others at different times. -/
inductive Requirement.Twins : Requirement → Requirement → Prop
  | same (r : Requirement) : Twins r r
  | told (v : Value) (n m : Supply) :
    Twins (.defaulted (v.labelled.run n).1) (.defaulted (v.labelled.run m).1)

/-- A rule with other classes. -/
def Fragment.rename (σ : ClassRef → ClassRef) : Fragment → Fragment
  | .arrayOf element => .arrayOf (element.rename σ)
  | f => f

/-- Rules that are one rule, declared at different times. -/
inductive Fragment.Twins : Fragment → Fragment → Prop
  | same (f : Fragment) : Twins f f
  | requirement {r q : Requirement} (h : r.Twins q) : Twins (.requirement r) (.requirement q)

/-- Contracts that differ at most in what their defaults were told apart as. -/
structure FieldContract.Twins (f g : FieldContract) : Prop where
  requirement : Option.Rel Requirement.Twins f.requirement g.requirement
  others : { f with requirement := g.requirement } = g

/-- Plans that differ at most in what their defaults were told apart as. -/
structure FieldPlan.Twins (p q : FieldPlan) : Prop where
  requirement : p.requirement.Twins q.requirement
  others : { p with requirement := q.requirement } = q

/-- A requirement differs in nothing from itself. -/
theorem Requirement.Twins.refl (r : Option Requirement) : Option.Rel Requirement.Twins r r := by
  cases r with
  | none => exact .none
  | some r => exact .some (.same r)

namespace FieldContract

variable {σ : ClassRef → ClassRef} {f g : FieldContract} {a b : Fragment}

/-- A contract differs in nothing from itself. -/
theorem Twins.refl (f : FieldContract) : f.Twins f := ⟨Requirement.Twins.refl _, rfl⟩

/-- Plans of contracts that were declared at different times. -/
theorem Twins.plan (h : f.Twins g) (p : ClassRef → Bool) :
    Option.Rel FieldPlan.Twins (f.plan p).toOption (g.plan p).toOption := by
  obtain ⟨hr, ho⟩ := h
  have hreq : (f.requirement.getD .optional).Twins (g.requirement.getD .optional) := by
    generalize f.requirement = r at hr
    generalize g.requirement = q at hr
    cases hr with
    | none => exact .same _
    | some h => exact h
  rw [← ho, Registry.plan_eq_map, Registry.plan_eq_map]
  dsimp only
  cases (if f.passthrough then (Except.ok none : Except KindFault (Option ValueKind))
    else (f.declared.kind p f.element).map some) with
  | error e => exact .none
  | ok k => exact .some ⟨hreq, rfl⟩

/-- Merging a rule into contracts at different times. -/
theorem Twins.merge (h : f.Twins g) (hab : a.Twins b) : (f.merge a).Twins (g.merge b) := by
  obtain ⟨hr, ho⟩ := h
  rw [← ho]
  cases hab with
  | requirement h => exact ⟨.some h, rfl⟩
  | same =>
    cases a with
    | requirement q => exact ⟨.some (.same q), rfl⟩
    | _ => exact ⟨hr, rfl⟩

private theorem rename_merge (f : FieldContract) (a : Fragment) :
    (f.merge a).rename σ = (f.rename σ).merge (a.rename σ) := by
  cases a <;> rfl

/-- Merging rules into contracts at different times, with the classes of one of them renamed. -/
theorem Twins.foldl_merge {as bs : List Fragment} (h : (f.rename σ).Twins g)
    (hab : List.Forall₂ (fun a b => (a.rename σ).Twins b) as bs) :
    ((as.foldl FieldContract.merge f).rename σ).Twins (bs.foldl FieldContract.merge g) := by
  induction hab generalizing f g with
  | nil => exact h
  | cons hab _ ih =>
    apply ih
    rw [rename_merge]
    exact h.merge hab

end FieldContract

namespace World

variable (σ : ClassRef → ClassRef) (w v : World)

/-- Telling a rule apart at different times. -/
theorem exists_adoptFragment_twins {f : Fragment} (h : f.calls = false) :
    ∃ a b n m, exec (adoptFragment f) w = (.ok a, { w with supply := n }) ∧
      exec (adoptFragment (f.rename σ)) v = (.ok b, { v with supply := m }) ∧
      (a.rename σ).Twins b := by
  cases f with
  | requirement r =>
    cases r with
    | defaulted x =>
      exact ⟨_, _, _, _, rfl, rfl, .requirement (.told x w.supply v.supply)⟩
    | _ => exact ⟨_, _, w.supply, v.supply, rfl, rfl, .same _⟩
  | transform f => cases h
  | check c =>
    cases c with
    | custom f => cases h
    | comparison c => exact ⟨_, _, w.supply, v.supply, rfl, rfl, .same _⟩
  | _ => exact ⟨_, _, w.supply, v.supply, rfl, rfl, .same _⟩

private theorem exists_adoptFragments_twins {fs : List Fragment} (h : ∀ f ∈ fs, f.calls = false) :
    ∃ as bs n m, exec (fs.mapM adoptFragment) w = (.ok as, { w with supply := n }) ∧
      exec ((fs.map (Fragment.rename σ)).mapM adoptFragment) v =
        (.ok bs, { v with supply := m }) ∧
      List.Forall₂ (fun a b => (a.rename σ).Twins b) as bs := by
  induction fs generalizing w v with
  | nil => exact ⟨[], [], w.supply, v.supply, rfl, rfl, .nil⟩
  | cons f fs ih =>
    obtain ⟨hf, hfs⟩ := List.forall_mem_cons.mp h
    obtain ⟨a, b, n, m, ha, hb, hab⟩ := exists_adoptFragment_twins σ w v hf
    obtain ⟨as, bs, n', m', has, hbs, habs⟩ :=
      ih { w with supply := n } { v with supply := m } hfs
    refine ⟨a :: as, b :: bs, n', m', ?_, ?_, .cons hab habs⟩
    · rw [List.mapM_cons, exec_bind_of_ok ha, exec_bind_of_ok has, exec_pure]
    · rw [List.map_cons, List.mapM_cons, exec_bind_of_ok hb, exec_bind_of_ok hbs, exec_pure]

private theorem adoptedFragments_twins {fs : List Fragment} (h : ∀ f ∈ fs, f.calls = false) :
    List.Forall₂ (fun a b => (a.rename σ).Twins b) (w.adoptedFragments fs)
      (v.adoptedFragments (fs.map (Fragment.rename σ))) := by
  obtain ⟨as, bs, n, m, ha, hb, hab⟩ := exists_adoptFragments_twins σ w v h
  rw [adoptedFragments, adoptedFragments, ha, hb]
  exact hab

end World

/-! ### Fields of tables -/

namespace Table

variable {cs ds : List ClassRef} {schemas : List String}

/-- The class that has the name of a class of a table in another order of it; any other class is
itself. -/
def counterpart (cs ds : List ClassRef) (c : ClassRef) : ClassRef :=
  if c ∈ cs then classOf ds c.name else c

/-- The type that a type of a table stands for when the table has other classes. -/
theorem TypeRef.rename_counterpart {t : TypeRef} (ht : t.In (cs.map ClassRef.name)) :
    (t.resolve cs).rename (counterpart cs ds) = t.resolve ds := by
  cases t with
  | builtin t =>
    obtain ⟨b, -, rfl⟩ := ht
    rfl
  | schema name =>
    obtain ⟨hm, hn⟩ := classOf_mem_and_name ht
    change DeclaredType.cls (counterpart cs ds (classOf cs name)) = _
    rw [counterpart, if_pos hm, hn]
    rfl

private theorem TypeRef.classes_resolve {t : TypeRef} (ht : t.In (cs.map ClassRef.name)) :
    ∀ c ∈ (t.resolve cs).classes, c ∈ cs := by
  intro c hc
  cases t with
  | builtin t =>
    obtain ⟨b, -, rfl⟩ := ht
    cases hc
  | schema name =>
    rw [List.mem_singleton.mp hc]
    exact classOf_mem ht

namespace FieldSpec.Sound

variable {f : FieldSpec} (h : f.Sound (cs.map ClassRef.name))

include h

private theorem map_rename_fragments :
    (f.fragments cs).map (Fragment.rename (counterpart cs ds)) = f.fragments ds := by
  rw [FieldSpec.fragments, FieldSpec.fragments, List.map_map]
  apply List.map_congr_left
  intro r hr
  cases r with
  | rule g =>
    cases g with
    | arrayOf e =>
      obtain ⟨t, ht, -⟩ := h.elements _ hr rfl
      cases ht
    | _ => rfl
  | arrayOf t =>
    obtain ⟨u, hu, hin, -⟩ := h.elements _ hr rfl
    cases hu
    exact congrArg Fragment.arrayOf (TypeRef.rename_counterpart hin)

/-- What a field becomes when the table has other classes. -/
theorem contract_twins (w v : World) :
    ((f.contract cs w).rename (counterpart cs ds)).Twins (f.contract ds v) := by
  have hcalls : ∀ g ∈ f.fragments cs, g.calls = false := by
    intro g hg
    obtain ⟨r, hr, rfl⟩ := List.mem_map.mp hg
    cases r with
    | rule g => exact h.calls _ hr
    | arrayOf t => rfl
  have hab := World.adoptedFragments_twins (counterpart cs ds) w v hcalls
  rw [h.map_rename_fragments] at hab
  have hempty : ((FieldContract.empty f.name).rename (counterpart cs ds)).Twins (.empty f.name) :=
    .refl _
  obtain ⟨hr, ho⟩ := hempty.foldl_merge hab
  refine ⟨hr, Eq.trans ?_
    (congrArg (fun g : FieldContract => { g with declared := f.declared.resolve ds }) ho)⟩
  rw [← TypeRef.rename_counterpart h.declared]
  rfl

/-- What a field becomes names classes of the table only. -/
theorem classes_contract (w : World) : ∀ c ∈ (f.contract cs w).classes, c ∈ cs := by
  intro c hc
  rcases List.mem_append.mp hc with hc | hc
  · exact TypeRef.classes_resolve h.declared c hc
  · cases he : (f.contract cs w).element with
    | none =>
      rw [he] at hc
      cases hc
    | some e =>
      obtain ⟨t, rfl, hin, -⟩ := h.exists_element_contract he
      rw [he] at hc
      exact TypeRef.classes_resolve hin c hc

end FieldSpec.Sound

end Table

end SchemaBinding
