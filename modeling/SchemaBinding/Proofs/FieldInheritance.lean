import SchemaBinding.Proofs.DeclaredFields
import SchemaBinding.Proofs.DeclaredKeys
import SchemaBinding.Proofs.GroundedSessions
import SchemaBinding.Proofs.NestingDepth

/-!
# Inherited fields

In one registry, a class has every field of a class that it inherits from. It has the same contract
for the field, unless another class declares the field that comes before the one from which it is
inherited. A registry knows nothing of what is declared in others: a class whose binder has another
registry than that of its base has none of the contracts of the base.
-/

namespace SchemaBinding

namespace Registry

variable {t : ClassTable} {r : Registry} {b c k : ClassRef} {name : String}

/-- The class from which a class has a field: the first that it inherits from on which the field is
declared. -/
def declarer? (t : ClassTable) (r : Registry) (c : ClassRef) (name : String) : Option ClassRef :=
  (t.order c).find? fun k => (r.ownField? k name).isSome

private theorem field?_eq_declarer? (hr : r.Distinct) (c : ClassRef) (name : String) :
    r.field? t c name = (r.declarer? t c name).bind fun k => r.ownField? k name := by
  rw [field?_eq_findSome? hr, declarer?]
  induction t.order c with
  | nil => rfl
  | cons k ks ih =>
    rw [List.findSome?_cons, List.find?_cons]
    cases ho : r.ownField? k name with
    | none => exact ih
    | some f => exact ho.symm

/-- A field of a class is one of every class that inherits from it. -/
theorem exists_field?_of_subset (hr : r.Distinct) (hs : t.order b ⊆ t.order c)
    (h : ∃ f, r.field? t b name = some f) : ∃ f, r.field? t c name = some f := by
  obtain ⟨f, hf⟩ := h
  rw [field?_eq_findSome? hr] at hf
  obtain ⟨k, hk, hown⟩ := List.exists_of_findSome?_eq_some hf
  have hc : ((t.order c).findSome? fun k => r.ownField? k name).isSome := by
    rw [List.findSome?_isSome_iff]
    exact ⟨k, hs hk, by rw [hown]; rfl⟩
  rw [← field?_eq_findSome? hr] at hc
  exact Option.isSome_iff_exists.mp hc

/-- A class has a field from one that it inherits from if none before that one declares the
field. -/
theorem declarer?_eq (hk : k ∈ t.order c) (ho : (r.ownField? k name).isSome)
    (hn : ∀ d ∈ (t.order c).takeWhile (· != k), r.ownField? d name = none) :
    r.declarer? t c name = some k := by
  rw [declarer?]
  generalize t.order c = ks at hk hn
  induction ks with
  | nil => cases hk
  | cons d ds ih =>
    rw [List.find?_cons]
    by_cases hd : d = k
    · subst hd
      rw [ho]
    · have htake : (d :: ds).takeWhile (· != k) = d :: ds.takeWhile (· != k) := by
        rw [List.takeWhile_cons, if_pos (by simpa using hd)]
      rw [htake] at hn
      have hkd : k ∈ ds := (List.mem_cons.mp hk).resolve_left fun h => hd h.symm
      rw [hn d (List.mem_cons_self ..)]
      exact ih hkd fun e he => hn e (List.mem_cons_of_mem d he)

end Registry

/-- The text under which a payload has the value of a field. -/
def FieldContract.key (f : FieldContract) : String := (f.sourceKey.map SourceKey.key).getD f.name

/-- The plan of a required field is one of a field that must be there, under the same key. -/
theorem FieldContract.exists_plan {p : ClassRef → Bool} {fields : List FieldContract}
    {plans : List FieldPlan} (h : List.Forall₂ (fun f plan => f.plan p = .ok plan) fields plans)
    {f : FieldContract} (hf : f ∈ fields) (hr : f.isRequired = true) :
    ∃ plan ∈ plans, plan.requirement.isRequired = true ∧ plan.sourceKey = f.key := by
  induction h with
  | nil => cases hf
  | @cons g plan fields plans hg _ ih =>
    rcases List.mem_cons.mp hf with rfl | hf
    · obtain ⟨kind, -, rfl⟩ := (Registry.plan_ok_iff p f plan).mp hg
      refine ⟨_, List.mem_cons_self .., ?_, rfl⟩
      unfold isRequired at hr
      cases hq : f.requirement with
      | none =>
        rw [hq] at hr
        cases hr
      | some requirement =>
        rw [hq] at hr
        exact hr
    · obtain ⟨other, ho, hreq⟩ := ih hf
      exact ⟨other, List.mem_cons_of_mem plan ho, hreq⟩

namespace Binding

open World

variable {enter : Enter} {cls : ClassRef} {entries : List (Value × Value)} {w v : World}

/-- Fields are bound only if every one that must be there is. -/
theorem rawValue_ne_null_of_bindFields {plans : List FieldPlan}
    {attrs bound : List (String × Value)}
    (h : exec (bindFields enter cls entries plans attrs) w = (.ok bound, v)) {plan : FieldPlan}
    (hp : plan ∈ plans) (hr : plan.requirement.isRequired = true) :
    rawValue plan entries ≠ .null := by
  induction plans generalizing attrs w with
  | nil => cases hp
  | cons other plans ih =>
    obtain ⟨attrs', u, hx, hrest⟩ := exec_bind_eq_ok_iff.mp h
    rcases List.mem_cons.mp hp with rfl | hp
    · intro hn
      rw [bindField_null hn, if_pos hr] at hx
      cases hx
    · exact ih hrest hp

/-- The raw value of a field that must be there is in the payload. -/
theorem given_ne_null {plan : FieldPlan} (hr : plan.requirement.isRequired = true)
    (h : rawValue plan entries ≠ .null) : Value.given plan.sourceKey entries ≠ .null := by
  intro hg
  rw [rawValue_of_null hg, defaultCopy] at h
  cases hq : plan.requirement with
  | required =>
    rw [hq] at h
    exact h rfl
  | optional =>
    rw [hq] at hr
    cases hr
  | defaulted v =>
    rw [hq] at hr
    cases hr

/-- A run that succeeds binds a mapping, and binds the fields of its schema. -/
theorem Entry.exists_bound_of_run {e : Entry} {attrs : List (String × Value)}
    (h : e.run.1 = .ok attrs) :
    ∃ entries plans u bound v, e.data = .dict entries ∧
      (exec (planOf (e.world.binder e.binder).registry e.cls) e.world) = (.ok plans, u) ∧
      exec (bindFields e.enter e.cls entries plans []) u = (.ok bound, v) := by
  obtain ⟨w, binder, depth, cls, data⟩ := e
  by_cases hd : (w.binder binder).maxDepth < depth
  · rw [Entry.run_tooDeep hd] at h
    cases h
  · cases data with
    | dict entries =>
      rw [Entry.run_dict cls entries (Nat.le_of_not_lt hd)] at h
      obtain ⟨plans, u, hp, hb⟩ := exec_bind_eq_ok_iff.mp (Prod.ext h rfl)
      exact ⟨entries, plans, u, attrs, _, rfl, hp, hb⟩
    | _ =>
      rw [Entry.run_other (Nat.le_of_not_lt hd) (by simp)] at h
      cases h

/-- A payload that is a mapping, once it has been told apart from all other values, was one with
values under the same texts. -/
theorem exists_rootPayload {w : World} {data : Value} {told : List (Value × Value)}
    (h : rootPayload (w.adopted data) = .dict told) :
    ∃ entries, rootPayload data = .dict entries ∧
      ∀ key, Value.given key told = .null ↔ Value.given key entries = .null := by
  cases data with
  | null =>
    cases h
    exact ⟨[], rfl, fun _ => Iff.rfl⟩
  | dict entries => exact ⟨entries, rfl, Value.given_labelled h⟩
  | list items label =>
    cases label <;> cases h
  | float x =>
    cases x with
    | nan origin => cases origin <;> cases h
    | _ => cases h
  | _ => cases h

/-- A payload that could be bound is a mapping, and has every field that must be there. -/
theorem given_of_bind (hw : w.Consistent) {binder : Nat} {data o : Value}
    (h : (exec (bind binder cls data) w).1 = .ok o) {f : FieldContract}
    (hf : f ∈ (w.registry (w.binder binder).registry).fields w.classes cls)
    (hr : f.isRequired = true) :
    ∃ entries, rootPayload data = .dict entries ∧ Value.given f.key entries ≠ .null := by
  rw [Entry.bind_eq_run] at h
  obtain ⟨attrs, hrun, -⟩ := map_eq_ok_iff.mp h
  obtain ⟨told, plans, u, bound, v, hd, hp, hb⟩ := Entry.exists_bound_of_run hrun
  have hc : (Entry.root w binder cls data).world.Consistent := hw.adopting data
  have hcompile : (w.registry (w.binder binder).registry).compile w.classes cls = .ok plans :=
    (fst_exec_planOf hc _ cls).symm.trans (congrArg Prod.fst hp)
  obtain ⟨-, hplans⟩ := (Registry.compile_ok_iff ..).mp hcompile
  obtain ⟨plan, hmem, hreq, hkey⟩ := FieldContract.exists_plan hplans hf hr
  have hg := given_ne_null hreq (rawValue_ne_null_of_bindFields hb hmem hreq)
  rw [hkey] at hg
  obtain ⟨entries, hroot, hiff⟩ := exists_rootPayload hd
  exact ⟨entries, hroot, mt (hiff f.key).mpr hg⟩

end Binding

namespace Registry

/-- In the order of a class, none that comes before the one from which another class has a field
declares the field. -/
def Unshadowed (t : ClassTable) (r : Registry) (b c : ClassRef) (name : String) : Prop :=
  ∀ k, r.declarer? t b name = some k →
    ∀ d ∈ (t.order c).takeWhile (· != k), r.ownField? d name = none

/-- A field that is not declared again is inherited with its contract. -/
theorem Unshadowed.mem_fields {t : ClassTable} {r : Registry} {b c : ClassRef} {f : FieldContract}
    (hr : r.Distinct) (hs : t.order b ⊆ t.order c) (hf : f ∈ r.fields t b)
    (h : r.Unshadowed t b c f.name) : f ∈ r.fields t c := by
  have hb := field?_of_mem hf
  rw [field?_eq_declarer? hr] at hb
  obtain ⟨k, hk, hown⟩ := Option.bind_eq_some_iff.mp hb
  have hc : r.declarer? t c f.name = some k := by
    apply declarer?_eq (hs (List.mem_of_find?_eq_some hk))
    · rw [hown]
      rfl
    · exact h k hk
  have hfc : r.field? t c f.name = some f := by
    rw [field?_eq_declarer? hr, hc]
    exact hown
  exact List.mem_of_find?_eq_some hfc

end Registry

/-- The binder that a way to bind makes a record of a class with. -/
def BindWay.binderFor (w : World) (c : ClassRef) : BindWay → Nat
  | .binder i => i
  | _ => w.binderOf c

namespace Session

open World

/-- The contracts of a schema class are those in the registry of its binder. -/
theorem contracts_of_fieldsOf {s : Session} {c : ClassRef} {fs : List FieldContract}
    (hc : s.world.classes.isSchemaClass c = true)
    (h : (s.step (.fieldsOf (.cls c))).1 = .ok (.contracts fs)) :
    (s.world.registry (s.world.registryOf c)).fields s.world.classes c = fs := by
  change (exec (act (fieldsOf (.cls c)) >>= fun cs => pure (Outcome.contracts cs)) s.fresh).1 =
    .ok (.contracts fs) at h
  rw [fst_exec_bind_pure] at h
  obtain ⟨cs, hcs, he⟩ := map_eq_ok_iff.mp h
  cases he
  have hrun : exec (fieldsOf (.cls c)) s.fresh.world =
      (.ok fs, (exec (fieldsOf (.cls c)) s.fresh.world).2) := Prod.ext hcs rfl
  obtain ⟨w, v, hw, hf⟩ := exec_bind_eq_ok_iff.mp hrun
  cases hw
  obtain ⟨d, v, hd, hf⟩ := exec_bind_eq_ok_iff.mp hf
  cases hd
  have hfresh : s.fresh.world.classes.isSchemaClass c = true := hc
  rw [if_pos hfresh] at hf
  obtain ⟨_, v, hm, hf⟩ := exec_bind_eq_ok_iff.mp hf
  cases hf
  rfl

/-- A bind of a class succeeds only if the binder could bind it. -/
theorem exists_bind_of_step {s : Session} {way : BindWay} {c : ClassRef} {data : Value}
    {kept : Bool} {o : Outcome} (h : (s.step (.bind way (.cls c) data kept)).1 = .ok o) :
    ∃ v, (exec (Binding.bind (way.binderFor s.world c) c data) s.fresh.world).1 = .ok v := by
  change (exec (run planOf (.bind way (.cls c) data kept)) s.fresh).1 = .ok o at h
  obtain ⟨k, t, hk, -⟩ := exec_bind_eq_ok_iff.mp (Prod.ext h rfl)
  have hattrs : ∃ attrs v, exec (Binding.bindAttrs planOf (way.binderFor s.world c) c data)
      s.fresh.world = (.ok attrs, v) := by
    have hb : (exec (bindTarget planOf way (.cls c) data) s.fresh.world).1 = .ok k :=
      congrArg Prod.fst hk
    have hrun : exec (bindTarget planOf way (.cls c) data) s.fresh.world =
        (.ok k, (exec (bindTarget planOf way (.cls c) data) s.fresh.world).2) := Prod.ext hb rfl
    cases way with
    | call =>
      obtain ⟨w, u, hw, hrun⟩ := exec_bind_eq_ok_iff.mp hrun
      cases hw
      split at hrun
      · obtain ⟨_, u, hm, hrun⟩ := exec_bind_eq_ok_iff.mp hrun
        obtain ⟨-, rfl⟩ := Prod.mk.inj hm
        obtain ⟨_, _, ha, -⟩ := exec_bind_eq_ok_iff.mp hrun
        obtain ⟨attrs, v, ha, -⟩ := exec_bind_eq_ok_iff.mp ha
        exact ⟨attrs, v, ha⟩
      · cases hrun
    | fromDict =>
      obtain ⟨w, u, hw, hrun⟩ := exec_bind_eq_ok_iff.mp hrun
      cases hw
      obtain ⟨_, u, hm, hrun⟩ := exec_bind_eq_ok_iff.mp hrun
      obtain ⟨-, rfl⟩ := Prod.mk.inj hm
      obtain ⟨attrs, v, ha, -⟩ := exec_bind_eq_ok_iff.mp hrun
      exact ⟨attrs, v, ha⟩
    | binder i =>
      obtain ⟨d, u, hd, hrun⟩ := exec_bind_eq_ok_iff.mp hrun
      cases hd
      obtain ⟨attrs, v, ha, -⟩ := exec_bind_eq_ok_iff.mp hrun
      exact ⟨attrs, v, ha⟩
  obtain ⟨attrs, v, hattrs⟩ := hattrs
  refine ⟨Binding.instanceOf c attrs, ?_⟩
  rw [Binding.bind, fst_exec_bind_pure, hattrs]
  rfl

/-- A class whose binder shares its registry with the binder of a schema class that it inherits from
has all the fields of that class. It has the same contract for a field that no class declares again
before the one from which the field is inherited. If such a field is required, a payload without it
is never bound to the class with a binder of that registry. -/
theorem Grounded.inherits {s : Session} (h : s.Grounded) {b c : ClassRef}
    (hbc : b ∈ s.world.classes.order c) (hb : s.world.classes.isSchemaClass b = true)
    (hc : s.world.classes.isSchemaClass c = true)
    (hr : s.world.registryOf b = s.world.registryOf c) {fs gs : List FieldContract}
    (hfs : (s.step (.fieldsOf (.cls b))).1 = .ok (.contracts fs))
    (hgs : (s.step (.fieldsOf (.cls c))).1 = .ok (.contracts gs)) :
    (∀ name ∈ fs.map FieldContract.name, name ∈ gs.map FieldContract.name) ∧
      ∀ f ∈ fs,
        (s.world.registry (s.world.registryOf b)).Unshadowed s.world.classes b c f.name →
        f ∈ gs ∧
          (f.isRequired = true → ∀ way data kept o,
            (s.world.binder (way.binderFor s.world c)).registry = s.world.registryOf c →
            (s.step (.bind way (.cls c) data kept)).1 = .ok o →
            ∃ entries, Binding.rootPayload data = .dict entries ∧
              Value.given f.key entries ≠ .null) := by
  have hd := h.reachable.distinct (s.world.registryOf c)
  have hsub := h.established.lawful.order_subset hbc
  have hfs' := contracts_of_fieldsOf hb hfs
  have hgs' := contracts_of_fieldsOf hc hgs
  rw [hr] at hfs'
  subst hfs' hgs'
  constructor
  · intro name hname
    rw [Registry.mem_names_iff] at hname ⊢
    exact Registry.exists_field?_of_subset hd hsub hname
  · intro f hf hun
    rw [hr] at hun
    have hfc := hun.mem_fields hd hsub hf
    refine ⟨hfc, fun hreq way data kept o hreg ho => ?_⟩
    obtain ⟨v, hv⟩ := exists_bind_of_step ho
    rw [← hreg] at hfc
    have hw : s.fresh.world.Consistent := h.reachable.consistent.clearJournal
    exact Binding.given_of_bind hw hv hfc hreq

/-! ### Classes that do not have the fields of their bases -/

/-- A class with a required field. -/
def base : ClassRef := ⟨5, "Base", true⟩

/-- A class that inherits from `base`, with a binder of another registry. -/
def child : ClassRef := ⟨6, "Child", true⟩

/-- A class that inherits from `base`. -/
def left : ClassRef := ⟨7, "Left", true⟩

/-- A class that inherits from `base` and declares the field of `base` again, as one that may be
absent. -/
def right : ClassRef := ⟨8, "Right", true⟩

/-- A class that inherits from `left` and from `right`. -/
def both : ClassRef := ⟨9, "Both", true⟩

/-- The operations that create these classes. -/
def hierarchyOps : List Operation := [
  .newRegistry false, .newBinder 1 none,
  .newClass "Base" [.schemaBase] none [("x", ⟨.basic .int, [.requirement .required]⟩)],
  .newClass "Child" [base] (some 1) [],
  .newClass "Left" [base] none [],
  .newClass "Right" [base] none [("x", ⟨.basic .str, [.requirement .optional]⟩)],
  .newClass "Both" [left, right] none []]

/-- The session in which these classes have been created. -/
def hierarchy : Session := initial.after hierarchyOps

private theorem hierarchy_grounded :
    hierarchy.Grounded := Grounded.initial.after (by decide +kernel)

/-- The contracts that an operation gives. -/
def contracts? : Except Fault Outcome → Option (List FieldContract)
  | .ok (.contracts fs) => some fs
  | _ => none

private theorem eq_of_contracts? {r : Except Fault Outcome} {fs : List FieldContract}
    (h : contracts? r = some fs) : r = .ok (.contracts fs) := by
  unfold contracts? at h
  split at h
  · cases h
    rfl
  · cases h

/-- The registry of the binder of `child` knows nothing of `base`: `child` has no fields, and is
bound to a payload without the field that `base` requires. In the order of `both`, no class before
`left` declares the field, but `right` comes before `base`, from which `left` has it: `both` has the
contract of `right`, and is bound to a payload without the field that `left` requires. -/
theorem fields_of_bases_lost :
    let s := hierarchy
    let requires (c : ClassRef) := (contracts? (s.step (.fieldsOf (.cls c))).1).map fun fs =>
      fs.map fun f => (f.name, f.isRequired)
    (base ∈ s.world.classes.order child ∧ requires base = some [("x", true)] ∧
        requires child = some [] ∧
        (s.step (.bind .call (.cls child) (.dict []) false)).1.isOk = true) ∧
      left ∈ s.world.classes.order both ∧
        s.world.registryOf left = s.world.registryOf both ∧
        (∀ d ∈ (s.world.classes.order both).takeWhile (· != left),
          (s.world.registry (s.world.registryOf both)).ownField? d "x" = none) ∧
        requires left = some [("x", true)] ∧ requires both = some [("x", false)] ∧
        (s.step (.bind .call (.cls both) (.dict []) false)).1.isOk = true := by
  decide +kernel

/-- A class inherits the field of its base as it is, and is never bound to a payload without it. -/
theorem left_inherits_base : ∃ fs gs f,
    (hierarchy.step (.fieldsOf (.cls base))).1 = .ok (.contracts fs) ∧
      (hierarchy.step (.fieldsOf (.cls left))).1 = .ok (.contracts gs) ∧
      (f ∈ fs ∧ f.name = "x" ∧ f.isRequired = true ∧ f ∈ gs) ∧
      (hierarchy.step (.bind .call (.cls left) (.dict [(.str "x", .int 1)]) false)).1.isOk = true ∧
      ∀ o, (hierarchy.step (.bind .call (.cls left) (.dict []) false)).1 ≠ .ok o := by
  let t := hierarchy.world.classes
  let r := hierarchy.world.registry (hierarchy.world.registryOf base)
  have hfs : (contracts? (hierarchy.step (.fieldsOf (.cls base))).1).isSome := by decide +kernel
  have hgs : (contracts? (hierarchy.step (.fieldsOf (.cls left))).1).isSome := by decide +kernel
  obtain ⟨fs, hfs⟩ := Option.isSome_iff_exists.mp hfs
  obtain ⟨gs, hgs⟩ := Option.isSome_iff_exists.mp hgs
  have hf : (fs.find? fun f => f.name == "x" && f.isRequired).isSome := by
    have hd : (((contracts? (hierarchy.step (.fieldsOf (.cls base))).1).getD []).find?
        fun f => f.name == "x" && f.isRequired).isSome := by decide +kernel
    rwa [hfs] at hd
  obtain ⟨f, hf⟩ := Option.isSome_iff_exists.mp hf
  have hboth : (f.name == "x" && f.isRequired) = true := by simpa using List.find?_some hf
  obtain ⟨hname, hreq⟩ := Bool.and_eq_true_iff.mp hboth
  have hx : f.name = "x" := eq_of_beq hname
  have hmem := List.mem_of_find?_eq_some hf
  have hun : r.Unshadowed t base left f.name := by
    intro k hk
    rw [hx] at hk ⊢
    have hd : r.declarer? t base "x" = some base := by decide +kernel
    cases hd.symm.trans hk
    decide +kernel
  obtain ⟨-, hinherits⟩ := hierarchy_grounded.inherits (b := base) (c := left) (by decide +kernel)
    (by decide +kernel) (by decide +kernel) (by decide +kernel) (eq_of_contracts? hfs)
    (eq_of_contracts? hgs)
  obtain ⟨hg, hbind⟩ := hinherits f hmem hun
  refine ⟨fs, gs, f, eq_of_contracts? hfs, eq_of_contracts? hgs, ⟨hmem, hx, hreq, hg⟩,
    by decide +kernel, fun o ho => ?_⟩
  obtain ⟨entries, he, hgiven⟩ := hbind hreq .call (.dict []) false o (by decide +kernel) ho
  cases he
  exact hgiven rfl

end Session

end SchemaBinding
