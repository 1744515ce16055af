import SchemaBinding.Proofs.Compilation
import SchemaBinding.Proofs.Contents

/-!
# What holds of every world

A world is consistent if every plan that a registry keeps is the one that compiling would give, and
every default in its contracts is named. A change of a world is calm if it leaves classes, binders
and contracts as they are and keeps a plan exactly when it logs that it compiled one. Two worlds are
alike if they differ only in the plans that are kept and in the events that were logged.
-/

namespace SchemaBinding

/-! ### Registries -/

/-- The default of a requirement, if it has one, is named. -/
def Requirement.Named (r : Requirement) : Prop := ∀ v, r = .defaulted v → v.Named

/-- The default that a rule declares, if it does, is named. -/
def Fragment.Named (f : Fragment) : Prop := ∀ r, f = .requirement r → r.Named

/-- The default of a contract, if it has one, is named. -/
def FieldContract.Named (f : FieldContract) : Prop := ∀ r, f.requirement = some r → r.Named

private theorem FieldContract.named_empty (name : String) : (FieldContract.empty name).Named :=
  fun _ h => by cases h

private theorem FieldContract.named_add {once : Bool} {c d : FieldContract} {f : Fragment}
    (hc : c.Named) (hf : f.Named) (h : c.add once f = .ok d) : d.Named := by
  cases f with
  | requirement r =>
    simp only [FieldContract.add] at h
    split at h
    · contradiction
    · cases h
      intro q hq
      cases hq
      exact hf r rfl
  | _ => cases h; exact hc

private theorem FieldContract.named_addAll {once : Bool} {c d : FieldContract} {fs : List Fragment}
    (hc : c.Named) (hf : ∀ f ∈ fs, f.Named) (h : c.addAll once fs = .ok d) : d.Named := by
  induction fs generalizing c with
  | nil => cases h; exact hc
  | cons f fs ih =>
    simp only [FieldContract.addAll] at h
    split at h
    · next e he =>
      exact ih (named_add hc (hf f (List.mem_cons_self ..)) he)
        (fun g hg => hf g (List.mem_cons_of_mem f hg)) h
    · contradiction

namespace Registry

/-- Every plan that a registry keeps is the one that compiling would give. -/
def Faithful (t : ClassTable) (r : Registry) : Prop :=
  ∀ c plans, r.cached? c = some plans → r.compile t c = .ok plans

/-- Every default in the contracts of a registry is named. -/
def Named (r : Registry) : Prop := ∀ e ∈ r.contracts, ∀ f ∈ e.2, f.Named

variable {t u : ClassTable} {r q : Registry}

/-- Registries that differ in their plans only have the same contracts. -/
theorem contracts_of_dropPlans (h : r.dropPlans = q.dropPlans) : r.contracts = q.contracts := by
  have hc := congrArg Registry.contracts h
  exact hc

/-- Registries that differ in their plans only are strict alike. -/
theorem strict_of_dropPlans (h : r.dropPlans = q.dropPlans) : r.strict = q.strict := by
  have hs := congrArg Registry.strict h
  exact hs

/-- A registry without plans is faithful. -/
theorem Faithful.dropPlans (t : ClassTable) (r : Registry) : r.dropPlans.Faithful t :=
  fun _ _ h => by cases h

/-- A faithful registry stays so as tables and registries grow. -/
theorem Faithful.of_grows (h : r.Faithful t) (hg : Grows t r u q) (hp : q.plans = r.plans) :
    q.Faithful u := by
  intro c plans hc
  rw [cached?, hp] at hc
  exact hg.compile (h c plans hc)

private theorem cached?_keep (r : Registry) (c d : ClassRef) (plans : List FieldPlan) :
    (r.keep c plans).cached? d = if c == d then some plans else r.cached? d := by
  simp only [cached?, keep, List.find?_cons]
  split <;> simp_all

/-- A faithful registry may keep a plan that it compiled. -/
theorem Faithful.keep (h : r.Faithful t) {c : ClassRef} {plans : List FieldPlan}
    (hc : r.compile t c = .ok plans) : (r.keep c plans).Faithful t := by
  intro d found hd
  rw [compile_congr t (r := r) (q := r.keep c plans) rfl]
  rw [cached?_keep] at hd
  split at hd
  · next he =>
    cases hd
    rw [← eq_of_beq he]
    exact hc
  · exact h d found hd

/-- An empty registry has no defaults. -/
theorem Named.empty (strict : Bool) : (Registry.empty strict).Named := fun _ h => by cases h

/-- Getting to know a class adds no defaults. -/
theorem Named.know (h : r.Named) (c : ClassRef) : (r.know c).Named := by
  unfold Registry.know
  split
  · exact h
  · intro e he f hf
    rcases List.mem_append.mp he with he | he
    · exact h e he f hf
    · rw [List.mem_singleton.mp he] at hf
      cases hf

/-- Forgetting a class adds no defaults. -/
theorem Named.forget (h : r.Named) (c : ClassRef) : (r.forget c).Named :=
  fun e he => h e (List.mem_of_mem_filter he)

section Overlay

variable {P : FieldContract → Prop}

/-- What all contracts have, and the one that is put, all have afterwards. -/
theorem forall_mem_putContract {fields : List FieldContract} {f : FieldContract}
    (h : ∀ g ∈ fields, P g) (hf : P f) : ∀ g ∈ putContract fields f, P g := by
  induction fields with
  | nil =>
    intro g hg
    rw [List.mem_singleton.mp hg]
    exact hf
  | cons g rest ih =>
    obtain ⟨hg, hrest⟩ := List.forall_mem_cons.mp h
    unfold putContract
    split
    · exact List.forall_mem_cons.mpr ⟨hf, hrest⟩
    · exact List.forall_mem_cons.mpr ⟨hg, ih hrest⟩

/-- What contracts have and those that are laid over them all have together. -/
theorem forall_mem_overlay {fields own : List FieldContract} (h : ∀ f ∈ fields, P f)
    (ho : ∀ f ∈ own, P f) : ∀ f ∈ overlay fields own, P f := by
  induction own generalizing fields with
  | nil => exact h
  | cons f own ih =>
    obtain ⟨hf, hown⟩ := List.forall_mem_cons.mp ho
    exact ih (forall_mem_putContract h hf) hown

/-- What holds of all contracts that are declared on the classes that a class inherits from holds of
all its fields. -/
theorem forall_mem_fields {c : ClassRef} (h : ∀ k ∈ t.order c, ∀ f ∈ r.own k, P f) :
    ∀ f ∈ r.fields t c, P f := by
  have hk : ∀ (ks : List ClassRef) (fields : List FieldContract),
      (∀ k ∈ ks, ∀ f ∈ r.own k, P f) → (∀ f ∈ fields, P f) →
        ∀ f ∈ ks.foldl (fun fields k => Registry.overlay fields (r.own k)) fields, P f := by
    intro ks
    induction ks with
    | nil => intro fields _ hf; exact hf
    | cons k ks ih =>
      intro fields hks hf
      obtain ⟨hk, hks⟩ := List.forall_mem_cons.mp hks
      exact ih _ hks (forall_mem_overlay hf hk)
  refine hk _ [] (fun k hm => h k (List.mem_reverse.mp hm)) fun f hf => ?_
  cases hf

end Overlay

/-- A contract whose default is named may be put. -/
theorem Named.put (h : r.Named) (c : ClassRef) {f : FieldContract} (hf : f.Named) :
    (r.put c f).Named := by
  intro e he
  obtain ⟨e, hm, rfl⟩ := List.mem_map.mp he
  split
  · exact forall_mem_putContract (h e hm) hf
  · exact h e hm

/-- The defaults in the own contracts of a class are named. -/
theorem Named.own (h : r.Named) (c : ClassRef) : ∀ f ∈ r.own c, f.Named := by
  unfold Registry.own
  cases hc : r.contracts.find? (fun e => e.1 == c) with
  | none => intro f hf; cases hf
  | some e => exact h e (List.mem_of_find?_eq_some hc)

private theorem named_ownField? (h : r.Named) (c : ClassRef) (name : String) :
    ((r.ownField? c name).getD (.empty name)).Named := by
  cases ho : r.ownField? c name with
  | none => exact FieldContract.named_empty name
  | some f => exact h.own c f (List.mem_of_find?_eq_some ho)

/-- Getting to know a class has nothing to do with plans. -/
theorem know_dropPlans (r : Registry) (c : ClassRef) :
    (r.know c).dropPlans = r.dropPlans.know c := by
  unfold know
  split
  · next h => rw [if_pos (by rw [knows_congr (r := r) (q := r.dropPlans) rfl]; exact h)]
  · next h =>
    rw [if_neg (by rw [knows_congr (r := r) (q := r.dropPlans) rfl]; exact h)]
    rfl

private theorem plans_know (r : Registry) (c : ClassRef) : (r.know c).plans = r.plans := by
  unfold know
  split <;> rfl

/-- The defaults of the fields of a class are named. -/
theorem Named.fields (h : r.Named) (t : ClassTable) (c : ClassRef) :
    ∀ f ∈ r.fields t c, f.Named := forall_mem_fields fun k _ => h.own k

/-- The defaults of plans are those of contracts. -/
theorem Named.plans (h : r.Named) {c : ClassRef} {plans : List FieldPlan}
    (hc : r.compile t c = .ok plans) : ∀ plan ∈ plans, plan.requirement.Named := by
  have hf := ((compile_ok_iff t r c plans).mp hc).2
  have hn := h.fields t c
  generalize r.fields t c = fields at hf hn
  clear hc
  intro plan hp
  induction hf with
  | nil => cases hp
  | @cons f p fs ps hfp _ ih =>
    obtain ⟨hfn, hfs⟩ := List.forall_mem_cons.mp hn
    rcases List.mem_cons.mp hp with rfl | hp
    · obtain ⟨kind, -, rfl⟩ := (plan_ok_iff _ f _).mp hfp
      intro v hv
      cases hr : f.requirement with
      | none => rw [hr] at hv; cases hv
      | some q => rw [hr] at hv; exact hfn q hr v hv
    · exact ih hfs hp

/-- What declaring fragments does to a registry. The class becomes known; if the fragments conflict
with what was declared that is all, and otherwise the plans are dropped. -/
theorem declare_cases (r : Registry) (c : ClassRef) (name : String) (fragments : List Fragment)
    (declared : Option DeclaredType) :
    (∃ existing, r.declare c name fragments declared = (r.know c, .error existing)) ∨
      ∃ merged, (((r.know c).ownField? c name).getD (.empty name)).addAll r.strict fragments =
          .ok merged ∧
        r.declare c name fragments declared =
          (((r.know c).put c { merged with declared := declared.getD merged.declared }).dropPlans,
            .ok ({ merged with declared := declared.getD merged.declared },
              ((r.know c).ownField? c name).isNone)) := by
  unfold declare
  dsimp only
  split
  · next existing he => exact .inl ⟨existing, rfl⟩
  · next merged he => exact .inr ⟨merged, he, rfl⟩

/-- Declaring fragments whose defaults are named leaves a registry faithful and named. -/
theorem declare_sound (hf : r.Faithful t) (hn : r.Named) (c : ClassRef) (name : String)
    {fragments : List Fragment} (hfs : ∀ f ∈ fragments, f.Named)
    (declared : Option DeclaredType) :
    (r.declare c name fragments declared).1.Faithful t ∧
      (r.declare c name fragments declared).1.Named := by
  have hk := hn.know c
  rcases declare_cases r c name fragments declared with ⟨existing, he⟩ | ⟨merged, hm, he⟩
  · rw [he]
    exact ⟨hf.of_grows (Grows.know t r c) (plans_know r c), hk⟩
  · rw [he]
    refine ⟨Faithful.dropPlans t _, hk.put c fun q hq => ?_⟩
    exact FieldContract.named_addAll (named_ownField? hk c name) hfs hm q hq

/-- Declaring looks at no plan that is kept. -/
theorem declare_congr (h : r.dropPlans = q.dropPlans) (c : ClassRef) (name : String)
    (fragments : List Fragment) (declared : Option DeclaredType) :
    (r.declare c name fragments declared).1.dropPlans =
        (q.declare c name fragments declared).1.dropPlans ∧
      (r.declare c name fragments declared).2 = (q.declare c name fragments declared).2 := by
  have hk : (r.know c).dropPlans = (q.know c).dropPlans := by
    rw [know_dropPlans, know_dropPlans, h]
  have ho : (r.know c).ownField? c name = (q.know c).ownField? c name := by
    rw [ownField?, ownField?, own_congr (contracts_of_dropPlans hk)]
  have hp : ∀ f, ((r.know c).put c f).dropPlans = ((q.know c).put c f).dropPlans :=
    fun f => congrArg (fun x => put x c f) hk
  unfold declare
  dsimp only
  rw [ho, strict_of_dropPlans h]
  split
  · exact ⟨hk, rfl⟩
  · exact ⟨hp _, rfl⟩

/-- A declaration leaves the plans of a registry or drops them all. -/
theorem plans_declare (r : Registry) (c : ClassRef) (name : String) (fragments : List Fragment)
    (declared : Option DeclaredType) :
    (r.declare c name fragments declared).1.plans = r.plans ∨
      (r.declare c name fragments declared).1.plans = [] := by
  rcases declare_cases r c name fragments declared with ⟨existing, he⟩ | ⟨merged, -, he⟩
  · rw [he]
    exact .inl (plans_know r c)
  · rw [he]
    exact .inr rfl

end Registry

/-! ### Worlds -/

/-- Whether an event says that a registry compiled the plan of a class. -/
def Event.compiles (i : Nat) (c : ClassRef) : Event → Bool
  | .planCompiled j d _ => j == i && d == c
  | _ => false

namespace World

/-- Every plan that is kept is the one that compiling would give, every default is named, and bytes
cannot be given attributes. -/
structure Consistent (w : World) : Prop where
  faithful : ∀ i, (w.registry i).Faithful w.classes
  named : ∀ i, (w.registry i).Named
  bytes : (w.classes.info? .bytes).map ClassInfo.hasAttributes = some false

/-- Only the classes and the registries of a world make it consistent. -/
theorem Consistent.congr {w u : World} (h : w.Consistent) (hc : u.classes = w.classes)
    (hr : u.registries = w.registries) : u.Consistent := by
  have hreg : ∀ i, u.registry i = w.registry i := fun i => by rw [registry, hr, registry]
  exact ⟨fun i => by rw [hreg, hc]; exact h.faithful i, fun i => by rw [hreg]; exact h.named i,
    by rw [hc]; exact h.bytes⟩

/-- The journal tells nothing of plans, defaults or classes. -/
theorem Consistent.clearJournal {w : World} (h : w.Consistent) : w.clearJournal.Consistent :=
  h.congr rfl rfl

/-- Telling a value apart changes no plans, defaults or classes. -/
theorem Consistent.adopting {w : World} (h : w.Consistent) (v : Value) :
    (w.adopting v).Consistent :=
  h.congr rfl rfl

/-- Bytes cannot be given attributes. -/
theorem Consistent.hasAttributes_bytes {w : World} (h : w.Consistent) :
    w.classes.hasAttributes .bytes = false := by
  obtain ⟨info, hi, hf⟩ := Option.map_eq_some_iff.mp h.bytes
  rw [ClassTable.hasAttributes, hi]
  exact hf

/-- How many times a registry has logged that it compiled the plan of a class. -/
def compilations (w : World) (i : Nat) (c : ClassRef) : Nat := w.events.countP (Event.compiles i c)

/-- One if a registry keeps the plan of a class, and zero if it does not. -/
def kept (w : World) (i : Nat) (c : ClassRef) : Nat :=
  if ((w.registry i).cached? c).isSome then 1 else 0

/-- A registry keeps one more plan of a class than before exactly if it logged once more that it
compiled it. -/
def Accounts (i : Nat) (c : ClassRef) (w v : World) : Prop :=
  v.compilations i c + w.kept i c = w.compilations i c + v.kept i c

/-- A change that leaves classes, binders, contracts and what lists hold as they are. A plan is kept
exactly when it is logged that it was compiled. -/
structure Calm (w v : World) : Prop where
  classes : v.classes = w.classes
  binders : v.binders = w.binders
  growth : v.growth = w.growth
  registries : v.registries.map Registry.dropPlans = w.registries.map Registry.dropPlans
  accounts : ∀ i c, Accounts i c w v

/-- The two worlds differ only in the plans that are kept and in the events that were logged. The
first is consistent. -/
structure Alike (w v : World) : Prop where
  consistent : w.Consistent
  classes : w.classes = v.classes
  registries : w.registries.map Registry.dropPlans = v.registries.map Registry.dropPlans
  binders : w.binders = v.binders
  calls : w.calls = v.calls
  growth : w.growth = v.growth
  supply : w.supply = v.supply

/-- A change that compiles nothing: a registry keeps the plans that it kept, or drops them all. -/
structure Quiet (w v : World) : Prop where
  compilations : ∀ i c, v.compilations i c = w.compilations i c
  plans : ∀ i, (v.registry i).plans = (w.registry i).plans ∨ (v.registry i).plans = []

variable {w v x : World}

/-- A change that leaves contracts as they are, and keeps one more plan of a class exactly when it
logs once more that it compiled it, whatever the registry and the class. -/
structure Keeps (w v : World) : Prop where
  accounts : ∀ i c, Accounts i c w v
  contracts : ∀ i, (v.registry i).contracts = (w.registry i).contracts

/-- What changes neither events nor plans nor contracts keeps them. -/
theorem Keeps.of_plans (he : v.events = w.events)
    (hp : ∀ i, (v.registry i).plans = (w.registry i).plans)
    (hc : ∀ i, (v.registry i).contracts = (w.registry i).contracts) : Keeps w v := by
  refine ⟨fun i c => ?_, hc⟩
  have hk : v.kept i c = w.kept i c := by
    rw [kept, kept, Registry.cached?, Registry.cached?, hp]
  rw [Accounts, hk, compilations, compilations, he]

/-- A world keeps what it has. -/
theorem Keeps.refl (w : World) : Keeps w w := ⟨fun _ _ => rfl, fun _ => rfl⟩

/-- What is kept twice is kept. -/
theorem Keeps.trans (h : Keeps w v) (g : Keeps v x) : Keeps w x := by
  refine ⟨fun i c => ?_, fun i => (g.contracts i).trans (h.contracts i)⟩
  have hi := h.accounts i c
  have gi := g.accounts i c
  unfold Accounts at *
  omega

/-- Nothing is compiled by doing nothing. -/
theorem Quiet.refl (w : World) : Quiet w w := ⟨fun _ _ => rfl, fun _ => .inl rfl⟩

/-- Quiet changes one after the other are a quiet change. -/
theorem Quiet.trans (h : Quiet w v) (g : Quiet v x) : Quiet w x := by
  refine ⟨fun i c => (g.compilations i c).trans (h.compilations i c), fun i => ?_⟩
  rcases g.plans i with hg | hg
  · rw [hg]
    exact h.plans i
  · exact .inr hg

/-- A consistent world is like itself. -/
theorem Consistent.refl_alike (h : w.Consistent) : w.Alike w := ⟨h, rfl, rfl, rfl, rfl, rfl, rfl⟩

/-- Doing nothing is a calm change. -/
theorem Calm.refl (w : World) : Calm w w := ⟨rfl, rfl, rfl, rfl, fun _ _ => rfl⟩

/-- Registries that differ only in their plans have the same contracts under each number. -/
theorem registry_dropPlans_congr
    (h : w.registries.map Registry.dropPlans = v.registries.map Registry.dropPlans) (i : Nat) :
    (w.registry i).dropPlans = (v.registry i).dropPlans := by
  have hi := congrArg (fun l : List Registry => l[i]?) h
  simp only [List.getElem?_map] at hi
  unfold registry
  cases hw : w.registries[i]? <;> cases hv : v.registries[i]? <;> simp_all

/-- A calm change leaves contracts as they are. -/
theorem Calm.keeps (h : Calm w v) : Keeps w v :=
  ⟨h.accounts, fun i => Registry.contracts_of_dropPlans (registry_dropPlans_congr h.registries i)⟩

/-- Calm changes one after the other are a calm change. -/
theorem Calm.trans (h : Calm w v) (g : Calm v x) : Calm w x := by
  exact ⟨g.classes.trans h.classes, g.binders.trans h.binders, g.growth.trans h.growth,
    g.registries.trans h.registries, (h.keeps.trans g.keeps).accounts⟩

/-- Alike worlds have the same registries but for their plans. -/
theorem Alike.dropPlans (h : Alike w v) (i : Nat) :
    (w.registry i).dropPlans = (v.registry i).dropPlans := registry_dropPlans_congr h.registries i

/-- Alike worlds have the same contracts. -/
theorem Alike.contracts (h : Alike w v) (i : Nat) :
    (w.registry i).contracts = (v.registry i).contracts :=
  Registry.contracts_of_dropPlans (h.dropPlans i)

/-- Alike worlds compile the same plans. -/
theorem Alike.compile (h : Alike w v) (i : Nat) (c : ClassRef) :
    (w.registry i).compile w.classes c = (v.registry i).compile v.classes c := by
  rw [Registry.compile_congr w.classes (h.contracts i) c, h.classes]

/-- Alike worlds have the same binders. -/
theorem Alike.binder (h : Alike w v) (i : Nat) : w.binder i = v.binder i := by
  rw [World.binder, World.binder, h.binders]

/-- Alike worlds have the same binder for a class. -/
theorem Alike.binderOf (h : Alike w v) (c : ClassRef) : w.binderOf c = v.binderOf c := by
  rw [World.binderOf, World.binderOf, h.classes]

/-- Alike worlds bind a nested schema with the same binder. -/
theorem Alike.nestedBinder (h : Alike w v) (binder : Nat) (c : ClassRef) :
    w.nestedBinder binder c = v.nestedBinder binder c := by
  rw [World.nestedBinder, World.nestedBinder, h.classes, h.binderOf]

/-- Alike worlds have the same registry for a class. -/
theorem Alike.registryOf (h : Alike w v) (c : ClassRef) : w.registryOf c = v.registryOf c := by
  rw [World.registryOf, World.registryOf, h.binderOf, h.binder]

/-- A calm change leaves the plan that is compiled for a class. -/
theorem Calm.compile (h : Calm w v) (i : Nat) (c : ClassRef) :
    (v.registry i).compile v.classes c = (w.registry i).compile w.classes c := by
  rw [Registry.compile_congr v.classes (h.keeps.contracts i) c, h.classes]

/-- A calm change leaves binders. -/
theorem Calm.binder (h : Calm w v) (i : Nat) : v.binder i = w.binder i := by
  rw [World.binder, World.binder, h.binders]

/-- A calm change leaves which binder a nested schema is bound with. -/
theorem Calm.nestedBinder (h : Calm w v) (binder : Nat) (c : ClassRef) :
    v.nestedBinder binder c = w.nestedBinder binder c := by
  rw [World.nestedBinder, World.nestedBinder, World.binderOf, World.binderOf, h.classes]

/-! ### Changes of a world -/

/-- A registry that is set is there afterwards, and all others are as before. -/
theorem registry_setRegistry (w : World) (i j : Nat) (r : Registry) :
    (w.setRegistry i r).registry j =
      if i = j ∧ i < w.registries.length then r else w.registry j := by
  unfold registry setRegistry
  rw [List.getElem?_set]
  split
  · next h =>
    split
    · next hl => rw [if_pos ⟨h, hl⟩]; rfl
    · next hl =>
      rw [if_neg (fun hc => hl hc.2), ← h, List.getElem?_eq_none (by omega)]
  · next h => rw [if_neg (fun hc => h hc.1)]

/-- A registry that is added is there behind the others. -/
theorem registry_append (w : World) (strict : Bool) (i : Nat) :
    World.registry { w with registries := w.registries ++ [.empty strict] } i =
      if i = w.registries.length then .empty strict else w.registry i := by
  unfold registry
  rw [List.getElem?_append]
  by_cases hl : i < w.registries.length
  · rw [if_pos hl, if_neg (by omega)]
  · rw [if_neg hl, List.getElem?_eq_none (l := w.registries) (by omega)]
    by_cases he : i = w.registries.length
    · rw [if_pos he, he, Nat.sub_self]
      rfl
    · rw [if_neg he, List.getElem?_eq_none (by simp only [List.length_singleton]; omega)]

/-- Setting a registry to one that differs in its plans only changes plans only. -/
theorem map_dropPlans_setRegistry (w : World) (i : Nat) (r : Registry)
    (h : r.dropPlans = (w.registry i).dropPlans) :
    (w.setRegistry i r).registries.map Registry.dropPlans =
      w.registries.map Registry.dropPlans := by
  apply List.ext_getElem?
  intro j
  unfold setRegistry registry at *
  simp only [List.getElem?_map, List.getElem?_set]
  split
  · next hij =>
    subst hij
    split
    · next hl => simp_all
    · next hl => rw [List.getElem?_eq_none (by omega)]
  · rfl

/-- Telling a value apart is a calm change. -/
theorem calm_adopting (w : World) (v : Value) : Calm w (w.adopting v) :=
  ⟨rfl, rfl, rfl, rfl, fun _ _ => rfl⟩

/-- Logging anything but a compiled plan is a calm change. -/
theorem calm_log (w : World) {e : Event} (h : ∀ i c, e.compiles i c = false) :
    Calm w (w.log e) := by
  refine ⟨rfl, rfl, rfl, rfl, fun i c => ?_⟩
  have hc : (w.log e).compilations i c = w.compilations i c := by
    simp [compilations, World.log, List.countP_append, h i c]
  rw [Accounts, hc]
  rfl

/-- Logging anything but a compiled plan is a quiet change. -/
theorem quiet_log (w : World) {e : Event} (h : ∀ i c, e.compiles i c = false) :
    Quiet w (w.log e) := by
  refine ⟨fun i c => ?_, fun _ => .inl rfl⟩
  simp [compilations, World.log, List.countP_append, h i c]

/-- Changing a registry is quiet if its plans stay or are dropped. -/
theorem quiet_setRegistry (w : World) (i : Nat) {r : Registry}
    (h : r.plans = (w.registry i).plans ∨ r.plans = []) : Quiet w (w.setRegistry i r) := by
  refine ⟨fun _ _ => rfl, fun j => ?_⟩
  rw [registry_setRegistry]
  split
  · next hij =>
    rw [← hij.1]
    exact h
  · exact .inl rfl

private theorem lt_of_compile_ok {i : Nat} {c : ClassRef} {plans : List FieldPlan}
    (h : (w.registry i).compile w.classes c = .ok plans) : i < w.registries.length := by
  by_contra hl
  have hr : w.registry i = .empty false := by
    rw [registry, List.getElem?_eq_none (by omega), Option.getD_none]
  obtain ⟨hs, -⟩ := (Registry.compile_ok_iff _ _ _ _).mp h
  rw [hr, Registry.isSchema] at hs
  obtain ⟨k, -, hk⟩ := List.any_eq_true.mp hs
  cases hk

/-- Keeping plans that have just been compiled, and logging it, is a calm change. -/
theorem calm_keep {i : Nat} {c : ClassRef} {plans : List FieldPlan}
    (hn : (w.registry i).cached? c = none)
    (hc : (w.registry i).compile w.classes c = .ok plans) (names : List (String × String)) :
    Calm w ((w.setRegistry i ((w.registry i).keep c plans)).log (.planCompiled i c names)) := by
  refine ⟨rfl, rfl, rfl, map_dropPlans_setRegistry w i _ rfl, fun j d => ?_⟩
  have hl := lt_of_compile_ok hc
  have he : ∀ u : World, (u.log (.planCompiled i c names)).compilations j d =
      u.compilations j d + if i == j && c == d then 1 else 0 := by
    intro u
    simp [compilations, World.log, List.countP_append, Event.compiles, List.countP_singleton]
  have hk : ((w.setRegistry i ((w.registry i).keep c plans)).log
      (.planCompiled i c names)).kept j d = if i == j && c == d then 1 else w.kept j d := by
    change (w.setRegistry i ((w.registry i).keep c plans)).kept j d = _
    simp only [kept, registry_setRegistry]
    by_cases hij : i = j
    · subst hij
      simp only [hl, and_self, if_true, Registry.cached?_keep, beq_self_eq_true, Bool.true_and]
      cases c == d <;> rfl
    · simp [hij]
  rw [Accounts, he, hk]
  change w.compilations j d + _ + _ = _
  split
  · next h =>
    obtain ⟨hij, hcd⟩ := Bool.and_eq_true_iff.mp h
    rw [← eq_of_beq hij, ← eq_of_beq hcd, kept, hn]
    rfl
  · omega

/-- A world stays consistent when a registry is set that is faithful and named. -/
theorem Consistent.setRegistry (h : w.Consistent) (i : Nat) {r : Registry}
    (hf : r.Faithful w.classes) (hn : r.Named) : (w.setRegistry i r).Consistent := by
  refine ⟨fun j => ?_, fun j => ?_, h.bytes⟩
  · rw [registry_setRegistry]
    split
    · exact hf
    · exact h.faithful j
  · rw [registry_setRegistry]
    split
    · exact hn
    · exact h.named j

/-- A world stays consistent when a plan is kept that was compiled. -/
theorem Consistent.keep (h : w.Consistent) {i : Nat} {c : ClassRef} {plans : List FieldPlan}
    (hc : (w.registry i).compile w.classes c = .ok plans) :
    (w.setRegistry i ((w.registry i).keep c plans)).Consistent :=
  h.setRegistry i ((h.faithful i).keep hc) (h.named i)

/-- A world stays consistent as its table of classes grows. -/
theorem Consistent.setClasses (h : w.Consistent) {t : ClassTable}
    (hg : ∀ r, Registry.Grows w.classes r t r)
    (hb : (t.info? .bytes).map ClassInfo.hasAttributes = some false) :
    ({ w with classes := t } : World).Consistent :=
  ⟨fun i => (h.faithful i).of_grows (hg _) rfl, h.named, hb⟩

/-- A world stays consistent when classes are added. -/
theorem Consistent.append (h : w.Consistent) (more : ClassTable) :
    ({ w with classes := w.classes ++ more } : World).Consistent := by
  refine h.setClasses (Registry.Grows.append w.classes more) ?_
  obtain ⟨info, hi, ha⟩ := Option.map_eq_some_iff.mp h.bytes
  rw [ClassTable.info?_append hi, Option.map_some, ha]

/-- A world stays consistent when a class gets an absent attribute. -/
theorem Consistent.setNull (h : w.Consistent) (c : ClassRef) (name : String) :
    ({ w with classes := w.classes.setNull c name } : World).Consistent := by
  refine h.setClasses (Registry.Grows.setNull w.classes c name) ?_
  rw [ClassTable.info?_setNull _ (fun _ _ => rfl), h.bytes]

/-- Alike worlds stay alike as a registry is replaced, up to the plans that it keeps. -/
theorem Alike.setRegistry (h : Alike w v) (i : Nat) {r q : Registry}
    (hrq : r.dropPlans = q.dropPlans) (hf : r.Faithful w.classes) (hn : r.Named) :
    Alike (w.setRegistry i r) (v.setRegistry i q) := by
  refine ⟨h.consistent.setRegistry i hf hn, h.classes, ?_, h.binders, h.calls, h.growth,
    h.supply⟩
  simp only [World.setRegistry, List.map_set, h.registries, hrq]

/-- The world at the start is consistent. -/
theorem consistent_initial : World.initial.Consistent := by
  have hr : ∀ i, World.initial.registry i = .empty false := by
    intro i
    cases i <;> rfl
  refine ⟨fun i => ?_, fun i => ?_, by decide⟩
  · rw [hr]
    exact fun _ _ h => by cases h
  · rw [hr]
    exact Registry.Named.empty false

end World

end SchemaBinding
