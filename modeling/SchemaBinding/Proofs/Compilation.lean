import Mathlib.Data.List.Forall2
import SchemaBinding.Proofs.Execution

/-!
# Compiled plans

What can be said of the plans of a schema without running anything. The names of its fields are
different from one another. Plans that compile keep compiling to the same plans while classes are
added and classes become known: which classes may be nested only grows, and a kind that a declared
type has once resolved to stays its kind.
-/

namespace SchemaBinding

/-! ### Kinds as more classes may be nested -/

namespace DeclaredType

variable {p q : ClassRef → Bool} (hpq : ∀ c, p c = true → q c = true)

include hpq

private theorem scalarKind_mono {t : DeclaredType} {k : ScalarKind} (h : t.scalarKind p = .ok k) :
    t.scalarKind q = .ok k := by
  cases t with
  | basic b => cases b <;> exact h
  | cls c =>
    simp only [scalarKind] at h ⊢
    split at h
    · next hc => rw [if_pos (hpq c hc)]; exact h
    · contradiction
  | _ => exact h

private theorem scalarKind_map_mono {t : DeclaredType} {f : ScalarKind → ValueKind} {k : ValueKind}
    (h : (t.scalarKind p).map f = .ok k) : (t.scalarKind q).map f = .ok k := by
  cases hs : t.scalarKind p with
  | error e => rw [hs] at h; contradiction
  | ok s => rw [scalarKind_mono hpq hs]; rw [hs] at h; exact h

private theorem arrayKind_mono {t : DeclaredType} {k : ValueKind} (h : t.arrayKind p = .ok k) :
    t.arrayKind q = .ok k := by
  simp only [arrayKind] at h ⊢
  split at h
  · contradiction
  · next hl =>
    rw [if_neg hl]
    exact scalarKind_map_mono hpq h

/-- A declared type that has a kind keeps it as more classes may be nested. -/
theorem kind_mono {element : Option DeclaredType} {t : DeclaredType} {k : ValueKind}
    (h : t.kind p element = .ok k) : t.kind q element = .ok k := by
  cases element with
  | some e => exact arrayKind_mono hpq h
  | none =>
    cases t with
    | listOf item => exact arrayKind_mono hpq h
    | anyList => exact arrayKind_mono hpq h
    | tupleOf items =>
      unfold kind at h ⊢
      split at h <;> try contradiction
      · next item heq =>
        cases heq
        exact arrayKind_mono hpq h
    | basic b => cases b <;> exact h
    | cls c => exact scalarKind_map_mono hpq (t := .cls c) (f := .scalar) h
    | _ => exact h

end DeclaredType

/-! ### The table of classes as it grows -/

namespace ClassInfo

/-- What a table says of a class when one of its classes has got an absent attribute. -/
def putNull (c : ClassRef) (name : String) (i : ClassInfo) : ClassInfo :=
  if i.ref == c then
    { i with attributes := i.attributes.filter (fun a => a.1 != name) ++ [(name, .null)] }
  else i

/-- An absent attribute changes nothing but the attributes of a class. -/
theorem putNull_eq {β : Type} (π : ClassInfo → β)
    (hπ : ∀ i as, π { i with attributes := as } = π i) (c : ClassRef) (name : String)
    (i : ClassInfo) : π (i.putNull c name) = π i := by
  rw [putNull]
  split
  · exact hπ i _
  · rfl

variable (c : ClassRef) (name : String) (i : ClassInfo)

/-- A class stays the same one. -/
@[simp]
theorem ref_putNull : (i.putNull c name).ref = i.ref := putNull_eq ref (fun _ _ => rfl) ..

/-- A class goes on inheriting what it inherited. -/
@[simp]
theorem order_putNull : (i.putNull c name).order = i.order := putNull_eq order (fun _ _ => rfl) ..

/-- A class keeps the binder that it was given. -/
@[simp]
theorem binder_putNull : (i.putNull c name).binder = i.binder :=
  putNull_eq binder (fun _ _ => rfl) ..

/-- The instances of a class have attributes if they had them before. -/
@[simp]
theorem hasAttributes_putNull : (i.putNull c name).hasAttributes = i.hasAttributes :=
  putNull_eq hasAttributes (fun _ _ => rfl) ..

/-- Nothing happens to any other class. -/
theorem putNull_of_ne (h : i.ref ≠ c) : i.putNull c name = i := if_neg (mt eq_of_beq h)

/-- What a class has under a name when one of the classes has got an absent attribute. -/
theorem find?_putNull (other : String) :
    ((i.putNull c name).attributes.find? fun a => a.1 == other).map Prod.snd =
      if i.ref = c ∧ other = name then some .null
      else (i.attributes.find? fun a => a.1 == other).map Prod.snd := by
  by_cases hc : i.ref = c
  · rw [putNull, if_pos (beq_iff_eq.mpr hc), List.find?_append, List.find?_filter]
    by_cases h : other = name
    · subst h
      have hn : i.attributes.find?
          (fun a => decide ((a.1 != other) = true ∧ (a.1 == other) = true)) = none := by
        simp
      rw [hn, if_pos ⟨hc, rfl⟩]
      simp
    · have hf : (fun a : String × ClassAttribute =>
          decide ((a.1 != name) = true ∧ (a.1 == other) = true)) = fun a => a.1 == other := by
        funext a
        by_cases ha : a.1 = other
        · simp [ha, h]
        · simp [ha]
      rw [hf, if_neg (mt And.right h), List.find?_singleton, if_neg (by simp [Ne.symm h]),
        Option.or_none]
  · rw [putNull_of_ne c name i hc, if_neg (mt And.left hc)]

end ClassInfo

namespace ClassTable

/-- What a table says of a class it says as well when it grows. -/
theorem info?_append {t more : ClassTable} {c : ClassRef} {info : ClassInfo}
    (h : t.info? c = some info) : info? (t ++ more) c = some info := by
  simp only [info?] at h ⊢
  rw [List.find?_append, h, Option.some_or]

/-- The order of a class stays when the table grows. -/
theorem order_append {t more : ClassTable} {c : ClassRef} (h : t.order c ≠ []) :
    order (t ++ more) c = t.order c := by
  cases hi : t.info? c with
  | none => exact absurd (by rw [order, hi]; rfl) h
  | some info => rw [order, order, info?_append hi, hi]

/-- A change of the classes of a table that keeps a part of each keeps what the table says of it. -/
theorem find?_map_ref {β : Type} (π : ClassInfo → β) {g : ClassInfo → ClassInfo}
    (hr : ∀ i, (g i).ref = i.ref) (hπ : ∀ i, π (g i) = π i) (t : ClassTable) (d : ClassRef) :
    (info? (t.map g) d).map π = (t.info? d).map π := by
  unfold info?
  induction t with
  | nil => rfl
  | cons i t ih =>
    rw [List.map_cons, List.find?_cons, List.find?_cons, hr]
    cases i.ref == d with
    | true => exact congrArg some (hπ i)
    | false => exact ih

/-- Setting an attribute of a class to the absent value does it to each class of the table. -/
theorem setNull_eq_map (t : ClassTable) (c : ClassRef) (name : String) :
    t.setNull c name = t.map (ClassInfo.putNull c name) := rfl

/-- Setting an attribute of a class to the absent value changes nothing but attributes. -/
theorem info?_setNull {β : Type} (π : ClassInfo → β)
    (hπ : ∀ i as, π { i with attributes := as } = π i) (t : ClassTable) (c d : ClassRef)
    (name : String) : ((t.setNull c name).info? d).map π = (t.info? d).map π :=
  find?_map_ref π (ClassInfo.ref_putNull c name) (ClassInfo.putNull_eq π hπ c name) t d

/-- Setting an attribute of a class to the absent value changes no order. -/
theorem order_setNull (t : ClassTable) (c d : ClassRef) (name : String) :
    (t.setNull c name).order d = t.order d := by
  rw [order, order, info?_setNull _ (fun _ _ => rfl)]

end ClassTable

/-! ### Plans as classes are added and become known -/

namespace Registry

/-- A registry that gets to know a class knows it and what it knew before. -/
theorem knows_know (r : Registry) (c d : ClassRef) :
    (r.know c).knows d = (r.knows d || c == d) := by
  unfold know
  split
  · next h =>
    cases hd : c == d with
    | false => rw [Bool.or_false]
    | true => rw [← eq_of_beq hd, h, Bool.or_true]
  · simp only [knows, List.any_append, List.any_cons, List.any_nil, Bool.or_false]

/-- A registry that gets to know a class has the contracts that it had. -/
theorem own_know (r : Registry) (c d : ClassRef) : (r.know c).own d = r.own d := by
  unfold know
  split
  · rfl
  · simp only [own, List.find?_append, List.find?_singleton]
    cases List.find? (fun e => e.1 == d) r.contracts with
    | some e => rfl
    | none => split <;> rfl

/-- The table and the registry have more classes than before, but what was declared on a class and
what a class inherits from are as before. -/
structure Grows (t : ClassTable) (r : Registry) (u : ClassTable) (q : Registry) : Prop where
  /-- A class inherits from the same classes. -/
  order : ∀ c, t.order c ≠ [] → u.order c = t.order c
  /-- The same contracts are declared on each class. -/
  own : ∀ c, q.own c = r.own c
  /-- The known classes are still known. -/
  knows : ∀ c, r.knows c = true → q.knows c = true

variable {t u : ClassTable} {r q : Registry}

/-- A class that is a schema stays one as registries and tables grow. -/
theorem Grows.isSchema (h : Grows t r u q) {c : ClassRef} (hc : r.isSchema t c = true) :
    q.isSchema u c = true := by
  obtain ⟨k, hk, hr⟩ := List.any_eq_true.mp hc
  rw [Registry.isSchema, h.order c (List.ne_nil_of_mem hk)]
  exact List.any_eq_true.mpr ⟨k, hk, h.knows k hr⟩

/-- A class that may be nested stays so as registries and tables grow. -/
theorem Grows.acceptsNested (h : Grows t r u q) (c : ClassRef)
    (hc : r.acceptsNested t c = true) : q.acceptsNested u c = true := by
  rw [Registry.acceptsNested, Bool.or_eq_true] at hc ⊢
  rcases hc with hs | hb
  · exact .inl (h.isSchema hs)
  · right
    rw [ClassTable.isSchemaClass] at hb ⊢
    rw [h.order c (by intro he; rw [he] at hb; exact Bool.noConfusion hb)]
    exact hb

/-- Which classes a registry knows is told by its contracts. -/
theorem knows_congr {r q : Registry} (h : q.contracts = r.contracts) : q.knows = r.knows := by
  funext c
  rw [knows, knows, h]

/-- The own contracts of a class are told by the contracts of the registry. -/
theorem own_congr {r q : Registry} (h : q.contracts = r.contracts) : q.own = r.own := by
  funext c
  rw [own, own, h]

/-- Whether a class is a schema is told by the contracts of the registry. -/
theorem isSchema_congr (t : ClassTable) {r q : Registry} (h : q.contracts = r.contracts) :
    q.isSchema t = r.isSchema t := by
  funext c
  rw [isSchema, isSchema, knows_congr h]

/-- Whether a class may be nested is told by the contracts of the registry. -/
theorem acceptsNested_congr (t : ClassTable) {r q : Registry} (h : q.contracts = r.contracts) :
    q.acceptsNested t = r.acceptsNested t := by
  funext c
  rw [acceptsNested, acceptsNested, isSchema_congr t h]

/-- The fields of a class are told by the contracts of the registry. -/
theorem fields_congr (t : ClassTable) {r q : Registry} (h : q.contracts = r.contracts) :
    q.fields t = r.fields t := by
  funext c
  rw [fields, fields, own_congr h]

/-- Compiling looks at nothing but the contracts of a registry. -/
theorem compile_congr (t : ClassTable) {r q : Registry} (h : q.contracts = r.contracts)
    (c : ClassRef) : q.compile t c = r.compile t c := by
  have hc : ∀ fields, compileFields t q c fields = compileFields t r c fields := by
    intro fields
    induction fields with
    | nil => rfl
    | cons f fs ih =>
      rw [compileFields, compileFields, compileField, compileField, acceptsNested_congr t h, ih]
  rw [compile, compile, isSchema_congr t h, hc, fields_congr t h]

/-- A registry with the same contracts has grown, if by nothing. -/
theorem Grows.of_contracts (t : ClassTable) {r q : Registry} (h : q.contracts = r.contracts) :
    Grows t r t q :=
  ⟨fun _ _ => rfl, congrFun (own_congr h), fun _ hc => by rw [knows_congr h]; exact hc⟩

/-- A registry grows when it gets to know a class. -/
theorem Grows.know (t : ClassTable) (r : Registry) (c : ClassRef) : Grows t r t (r.know c) :=
  ⟨fun _ _ => rfl, own_know r c, fun d hd => by rw [knows_know, hd, Bool.true_or]⟩

/-- A table grows when classes are added. -/
theorem Grows.append (t more : ClassTable) (r : Registry) : Grows t r (t ++ more) r :=
  ⟨fun _ => ClassTable.order_append, fun _ => rfl, fun _ => id⟩

/-- A table grows when an attribute of a class is set to the absent value. -/
theorem Grows.setNull (t : ClassTable) (c : ClassRef) (name : String) (r : Registry) :
    Grows t r (t.setNull c name) r :=
  ⟨fun d _ => ClassTable.order_setNull t c d name, fun _ => rfl, fun _ => id⟩

/-- The plan of a contract, taken apart: its kind, and the rules that are carried over. -/
theorem plan_eq_map (p : ClassRef → Bool) (f : FieldContract) : f.plan p =
    (if f.passthrough then .ok none else (f.declared.kind p f.element).map some).map fun kind =>
      ⟨f.name, (f.sourceKey.map SourceKey.key).getD f.name, f.requirement.getD .optional, kind,
        f.union, f.transforms, f.checks, f.integer⟩ := by
  unfold FieldContract.plan
  cases f.passthrough <;> rfl

/-- The plan of a field, read off its contract (specification §3.1). -/
theorem plan_ok_iff (p : ClassRef → Bool) (f : FieldContract) (plan : FieldPlan) :
    f.plan p = .ok plan ↔ ∃ kind,
      (if f.passthrough then .ok none else (f.declared.kind p f.element).map some) = .ok kind ∧
        plan = ⟨f.name, (f.sourceKey.map SourceKey.key).getD f.name,
          f.requirement.getD .optional, kind, f.union, f.transforms, f.checks, f.integer⟩ := by
  rw [plan_eq_map]
  cases (if f.passthrough then Except.ok none else (f.declared.kind p f.element).map some) with
  | error e => simp [Except.map]
  | ok kind => simp [Except.map, eq_comm]

private theorem plan_mono {p q : ClassRef → Bool} (hpq : ∀ c, p c = true → q c = true)
    {f : FieldContract} {plan : FieldPlan} (h : f.plan p = .ok plan) : f.plan q = .ok plan := by
  obtain ⟨kind, hk, hp⟩ := (plan_ok_iff p f plan).mp h
  refine (plan_ok_iff q f plan).mpr ⟨kind, ?_, hp⟩
  split at hk
  · next hpass => rw [if_pos hpass]; exact hk
  · next hpass =>
    rw [if_neg hpass]
    cases hd : f.declared.kind p f.element with
    | error e => rw [hd] at hk; contradiction
    | ok k => rw [DeclaredType.kind_mono hpq hd]; rw [hd] at hk; exact hk

private theorem compileField_ok_iff (t : ClassTable) (r : Registry) (c : ClassRef)
    (f : FieldContract)
    (plan : FieldPlan) :
    compileField t r c f = .ok plan ↔ f.plan (r.acceptsNested t) = .ok plan := by
  unfold compileField
  split <;> simp_all

/-- The plans of contracts are those of each contract in turn. -/
theorem compileFields_ok_iff (t : ClassTable) (r : Registry) (c : ClassRef)
    (fields : List FieldContract) (plans : List FieldPlan) :
    compileFields t r c fields = .ok plans ↔
      List.Forall₂ (fun f plan => f.plan (r.acceptsNested t) = .ok plan) fields plans := by
  induction fields generalizing plans with
  | nil => cases plans <;> simp [compileFields]
  | cons f fs ih =>
    have hc : compileFields t r c (f :: fs) =
        (compileField t r c f).bind fun plan =>
          (compileFields t r c fs).bind fun plans => .ok (plan :: plans) := rfl
    rw [hc, List.forall₂_cons_left_iff]
    simp only [← compileField_ok_iff t r c f, ← ih]
    cases compileField t r c f with
    | error e => simp [Except.bind]
    | ok plan =>
      cases compileFields t r c fs with
      | error e => simp [Except.bind]
      | ok rest => simp [Except.bind, eq_comm]

/-- The plans of a schema are those of its contracts in turn. -/
theorem compile_ok_iff (t : ClassTable) (r : Registry) (c : ClassRef) (plans : List FieldPlan) :
    r.compile t c = .ok plans ↔ r.isSchema t c = true ∧
      List.Forall₂ (fun f plan => f.plan (r.acceptsNested t) = .ok plan)
        (r.fields t c) plans := by
  rw [compile, ← compileFields_ok_iff t r c]
  split
  · next h => simp only [h, true_and]
  · next h => simp only [h, false_and, reduceCtorEq, Bool.false_eq_true]

/-- The plans of a schema are those of its contracts, in whatever order these come. -/
theorem mem_plans_iff {c : ClassRef} {plans : List FieldPlan} (h : r.compile t c = .ok plans)
    (plan : FieldPlan) :
    plan ∈ plans ↔ ∃ f ∈ r.fields t c, f.plan (r.acceptsNested t) = .ok plan := by
  replace h := ((compile_ok_iff t r c plans).mp h).2
  generalize r.fields t c = fields at h ⊢
  induction h with
  | nil => simp
  | @cons f q fs qs hq _ ih =>
    have he : plan = q ↔ f.plan (r.acceptsNested t) = .ok plan := by
      rw [hq, Except.ok.injEq, eq_comm]
    simp only [List.mem_cons, ih, he, exists_eq_or_imp]

/-- A schema compiles exactly if each of its contracts has a plan. -/
theorem exists_compile_iff (t : ClassTable) (r : Registry) (c : ClassRef) :
    (∃ plans, r.compile t c = .ok plans) ↔ r.isSchema t c = true ∧
      ∀ f ∈ r.fields t c, ∃ plan, f.plan (r.acceptsNested t) = .ok plan := by
  simp only [compile_ok_iff, exists_and_left]
  apply and_congr_right'
  induction r.fields t c with
  | nil => simp
  | cons f fs ih =>
    simp only [List.forall_mem_cons, ← ih, List.forall₂_cons_left_iff]
    constructor
    · rintro ⟨_, plan, plans, hp, hps, rfl⟩
      exact ⟨⟨plan, hp⟩, plans, hps⟩
    · rintro ⟨⟨plan, hp⟩, plans, hps⟩
      exact ⟨_, plan, plans, hp, hps, rfl⟩

/-- Growing leaves the fields of a class that there was. -/
theorem Grows.fields (h : Grows t r u q) {c : ClassRef} (hc : t.order c ≠ []) :
    q.fields u c = r.fields t c := by
  rw [Registry.fields, Registry.fields, h.order c hc]
  simp only [h.own]

/-- Plans that compile keep compiling to the same plans as classes are added and become known. -/
theorem Grows.compile (h : Grows t r u q) {c : ClassRef} {plans : List FieldPlan}
    (hc : r.compile t c = .ok plans) : q.compile u c = .ok plans := by
  obtain ⟨hs, hf⟩ := (compile_ok_iff t r c plans).mp hc
  have ho : t.order c ≠ [] := by
    obtain ⟨k, hk, -⟩ := List.any_eq_true.mp hs
    exact List.ne_nil_of_mem hk
  refine (compile_ok_iff u q c plans).mpr ⟨h.isSchema hs, ?_⟩
  rw [h.fields ho]
  exact hf.imp fun f plan hp => plan_mono h.acceptsNested hp

/-! ### The names of fields -/

/-- Putting a contract keeps its name in its place, or appends it. -/
theorem map_name_putContract (fields : List FieldContract) (f : FieldContract) :
    (putContract fields f).map FieldContract.name =
      if f.name ∈ fields.map FieldContract.name then fields.map FieldContract.name
      else fields.map FieldContract.name ++ [f.name] := by
  induction fields with
  | nil => rfl
  | cons g rest ih =>
    simp only [putContract]
    split
    · next h =>
      have hg : g.name = f.name := eq_of_beq h
      simp [hg]
    · next h =>
      have hg : ¬ f.name = g.name := fun he => h (by rw [he]; exact beq_self_eq_true _)
      simp only [List.map_cons, ih, List.mem_cons, hg, false_or]
      split <;> rfl

private theorem nodup_putContract {fields : List FieldContract} (f : FieldContract)
    (h : (fields.map FieldContract.name).Nodup) :
    ((putContract fields f).map FieldContract.name).Nodup := by
  rw [map_name_putContract]
  split
  · exact h
  · next hf => exact List.nodup_append.mpr ⟨h, List.pairwise_singleton _ _, by simpa using hf⟩

/-- Fields laid over others have one name each. -/
theorem nodup_overlay {fields : List FieldContract} (own : List FieldContract)
    (h : (fields.map FieldContract.name).Nodup) :
    ((overlay fields own).map FieldContract.name).Nodup := by
  induction own generalizing fields with
  | nil => exact h
  | cons f own ih => exact ih (nodup_putContract f h)

/-- The fields of a class have different names. -/
theorem nodup_fields (t : ClassTable) (r : Registry) (c : ClassRef) :
    ((r.fields t c).map FieldContract.name).Nodup := by
  have h : ∀ (ks : List ClassRef) (fields : List FieldContract),
      (fields.map FieldContract.name).Nodup →
        ((ks.foldl (fun fields k => overlay fields (r.own k)) fields).map
          FieldContract.name).Nodup := by
    intro ks
    induction ks with
    | nil => intro fields hf; exact hf
    | cons k ks ih => intro fields hf; exact ih _ (nodup_overlay (r.own k) hf)
  exact h _ [] List.nodup_nil

/-- The plans of a class are those of its fields, in order. -/
theorem map_name_plans {c : ClassRef} {plans : List FieldPlan} (h : r.compile t c = .ok plans) :
    plans.map FieldPlan.name = (r.fields t c).map FieldContract.name := by
  have hf := ((compile_ok_iff t r c plans).mp h).2
  rw [eq_comm, ← List.forall₂_eq_eq_eq, List.forall₂_map_left_iff, List.forall₂_map_right_iff]
  refine hf.imp fun f plan hp => ?_
  obtain ⟨kind, -, rfl⟩ := (plan_ok_iff _ f plan).mp hp
  rfl

/-- The fields of a plan have different names. -/
theorem nodup_plans {c : ClassRef} {plans : List FieldPlan}
    (h : r.compile t c = .ok plans) : (plans.map FieldPlan.name).Nodup := by
  rw [map_name_plans h]
  exact nodup_fields t r c

end Registry

end SchemaBinding
