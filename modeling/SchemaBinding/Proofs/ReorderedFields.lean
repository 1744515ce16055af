import SchemaBinding.Proofs.DeclaredFields
import SchemaBinding.Proofs.EstablishedWorlds
import SchemaBinding.Proofs.Labels

/-!
# Fields declared in another order

Two worlds that have the same contract for each field of each class may have them in another order.
Declaring fields in another order leads to such a world.
-/

namespace SchemaBinding

/-! ### Contracts but for labels -/

/-- A function with what it keeps not told apart from other values. -/
def UserFunction.unlabelled (f : UserFunction) : UserFunction :=
  { f with kept := f.kept.unlabelled }

/-- A check with what its function keeps not told apart from other values. -/
def Check.unlabelled : Check → Check
  | .comparison c => .comparison c
  | .custom f => .custom f.unlabelled

/-- A requirement with its default not told apart from other values. -/
def Requirement.unlabelled : Requirement → Requirement
  | .defaulted v => .defaulted v.unlabelled
  | r => r

/-- A contract with its values not told apart from others. -/
def FieldContract.unlabelled (f : FieldContract) : FieldContract :=
  { f with
    requirement := f.requirement.map Requirement.unlabelled
    transforms := f.transforms.map UserFunction.unlabelled
    checks := f.checks.map Check.unlabelled }

/-- A rule with its values not told apart from others. -/
def Fragment.unlabelled : Fragment → Fragment
  | .requirement r => .requirement r.unlabelled
  | .transform f => .transform f.unlabelled
  | .check c => .check c.unlabelled
  | f => f

/-- The not-a-numbers in the values of a rule are known. -/
def Fragment.Told : Fragment → Prop
  | .requirement r => r.Named
  | .transform f => f.kept.Named
  | .check (.custom f) => f.kept.Named
  | _ => True

/-- A declaration with its values not told apart from others. -/
def Declaration.unlabelled (d : Declaration) : Declaration :=
  { d with fragments := d.fragments.map Fragment.unlabelled }

private theorem FieldContract.merge_unlabelled (c : FieldContract) (f : Fragment) :
    (c.merge f).unlabelled = c.unlabelled.merge f.unlabelled := by
  cases f with
  | transform f => simp [merge, add, Except.toOption, FieldContract.unlabelled, Fragment.unlabelled]
  | check c => simp [merge, add, Except.toOption, FieldContract.unlabelled, Fragment.unlabelled]
  | _ => rfl

private theorem FieldContract.foldl_merge_unlabelled (c : FieldContract) (fs : List Fragment) :
    (fs.foldl merge c).unlabelled = (fs.map Fragment.unlabelled).foldl merge c.unlabelled := by
  induction fs generalizing c with
  | nil => rfl
  | cons f fs ih => rw [List.foldl_cons, ih, merge_unlabelled, List.map_cons, List.foldl_cons]

private theorem Declaration.mergeInto_unlabelled (d : Declaration) (f : FieldContract) :
    (d.mergeInto f).unlabelled = d.unlabelled.mergeInto f.unlabelled := by
  have hm := f.foldl_merge_unlabelled d.fragments
  have hd : (d.fragments.foldl FieldContract.merge f).declared =
      ((d.fragments.map Fragment.unlabelled).foldl FieldContract.merge f.unlabelled).declared := by
    rw [← hm]
    rfl
  unfold mergeInto
  change { (d.fragments.foldl FieldContract.merge f).unlabelled with
    declared := d.declared.getD (d.fragments.foldl FieldContract.merge f).declared } = _
  rw [hm, hd]
  rfl

/-! ### Worlds but for the order of fields -/

/-- What a table says of a class besides its own attributes, which come in the order of the fields
that were declared. -/
def ClassInfo.bare (i : ClassInfo) : ClassInfo := { i with attributes := [] }

namespace World

/-- The contract that a class has of its own for a field in a registry, up to labels. -/
def contractsIn (w : World) (i : Nat) (k : ClassRef × String) : Option FieldContract :=
  ((w.registry i).ownField? k.1 k.2).map FieldContract.unlabelled

/-- The two worlds have the same classes and binders, and each class has the same contract for each
field, up to labels. The order of the contracts and the attributes of classes are left out of
account. -/
structure Reordered (w u : World) : Prop where
  classes : w.classes.map ClassInfo.bare = u.classes.map ClassInfo.bare
  binders : w.binders = u.binders
  knows : ∀ i c, (w.registry i).knows c = (u.registry i).knows c
  contracts : ∀ i, w.contractsIn i = u.contractsIn i
  origin : w.supply.origin = u.supply.origin

variable {w u : World}

/-- If one world is another reordered, so is the other. -/
theorem Reordered.symm (h : w.Reordered u) : u.Reordered w :=
  ⟨h.classes.symm, h.binders.symm, fun i c => (h.knows i c).symm,
    fun i => (h.contracts i).symm, h.origin.symm⟩

section Reordered

variable (h : w.Reordered u)

include h

/-- Reordered worlds say the same of a class, its attributes aside. -/
theorem Reordered.info? {β : Type} (π : ClassInfo → β) (hπ : ∀ i, π i.bare = π i) (c : ClassRef) :
    (w.classes.info? c).map π = (u.classes.info? c).map π := by
  have hb : ∀ t : ClassTable, (ClassTable.info? (t.map ClassInfo.bare) c).map π =
      (t.info? c).map π :=
    fun t => ClassTable.find?_map_ref (g := ClassInfo.bare) π (fun _ => rfl) hπ t c
  rw [← hb, h.classes, hb]

/-- Reordered worlds have the same orders of classes. -/
theorem Reordered.order (c : ClassRef) : w.classes.order c = u.classes.order c := by
  rw [ClassTable.order, ClassTable.order, h.info? ClassInfo.order fun _ => rfl]

/-- In reordered worlds the instances of the same classes can be given attributes. -/
theorem Reordered.hasAttributes (c : ClassRef) :
    w.classes.hasAttributes c = u.classes.hasAttributes c := by
  have ha : ∀ t : ClassTable, t.hasAttributes c =
      ((t.info? c).map ClassInfo.hasAttributes).any id := by
    intro t
    rw [ClassTable.hasAttributes, Option.any_map]
    rfl
  rw [ha, ha, h.info? ClassInfo.hasAttributes fun _ => rfl]

/-- Reordered worlds have the same binders. -/
theorem Reordered.binder (i : Nat) : w.binder i = u.binder i := by
  rw [World.binder, World.binder, h.binders]

/-- Reordered worlds have the same bound of the recursion. -/
theorem Reordered.depthBound : w.depthBound = u.depthBound := by
  rw [World.depthBound, World.depthBound, h.binders]

/-- Reordered worlds bind a nested schema with the same binder. -/
theorem Reordered.nestedBinder (binder : Nat) (c : ClassRef) :
    w.nestedBinder binder c = u.nestedBinder binder c := by
  have hb : ∀ k, (w.classes.info? k).bind ClassInfo.binder =
      (u.classes.info? k).bind ClassInfo.binder := by
    intro k
    have hj := congrArg (Option.bind · id) (h.info? ClassInfo.binder (fun _ => rfl) k)
    simpa [Option.bind_map] using hj
  rw [World.nestedBinder, World.nestedBinder, World.binderOf, World.binderOf, ClassTable.binder?,
    ClassTable.binder?, ClassTable.isSchemaClass, ClassTable.isSchemaClass, h.order, funext hb]

/-- Reordered worlds have the same schemas. -/
theorem Reordered.isSchema (i : Nat) (c : ClassRef) :
    (w.registry i).isSchema w.classes c = (u.registry i).isSchema u.classes c := by
  rw [Registry.isSchema, Registry.isSchema, h.order, funext (h.knows i)]

/-- In reordered worlds the same classes may be nested. -/
theorem Reordered.acceptsNested (i : Nat) :
    (w.registry i).acceptsNested w.classes = (u.registry i).acceptsNested u.classes := by
  funext c
  rw [Registry.acceptsNested, Registry.acceptsNested, h.isSchema, ClassTable.isSchemaClass,
    ClassTable.isSchemaClass, h.order]

/-! ### Fields -/

variable (hw : ∀ i, (w.registry i).Distinct) (hu : ∀ i, (u.registry i).Distinct)

include hw hu

/-- A class has the same contract for a field, up to labels. -/
theorem Reordered.field? (i : Nat) (c : ClassRef) (name : String) :
    ((w.registry i).field? w.classes c name).map FieldContract.unlabelled =
      ((u.registry i).field? u.classes c name).map FieldContract.unlabelled := by
  rw [Registry.field?_eq_findSome? (hw i), Registry.field?_eq_findSome? (hu i),
    List.map_findSome?, List.map_findSome?, h.order]
  congr 1
  funext k
  exact congrFun (h.contracts i) (k, name)

/-- A class has a contract for each that it has in the other world, the same up to labels. -/
theorem Reordered.exists_field {i : Nat} {c : ClassRef} {f : FieldContract}
    (hf : f ∈ (w.registry i).fields w.classes c) :
    ∃ g ∈ (u.registry i).fields u.classes c, g.unlabelled = f.unlabelled := by
  have hn := h.field? hw hu i c f.name
  rw [Registry.field?_of_mem hf] at hn
  obtain ⟨g, hg, he⟩ := Option.map_eq_some_iff.mp hn.symm
  exact ⟨g, List.mem_of_find?_eq_some hg, he⟩

end Reordered

/-! ### What declarations make of a world -/

/-- Contracts with a declaration merged into that of its field. -/
def declaring (contracts : ClassRef × String → Option FieldContract) (d : Declaration) :
    ClassRef × String → Option FieldContract :=
  Function.update contracts (d.cls, d.field)
    (some (d.unlabelled.mergeInto ((contracts (d.cls, d.field)).getD (.empty d.field))))

/-- From one world to the other, declarations have been merged into the contracts in a registry, and
nothing else has changed that binding looks at. -/
structure Declares (j : Nat) (ds : List Declaration) (w v : World) : Prop where
  classes : v.classes = w.classes
  binders : v.binders = w.binders
  registries : v.registries.length = w.registries.length
  origin : v.supply.origin = w.supply.origin
  others : ∀ i, i ≠ j → v.registry i = w.registry i
  knows : ∀ c, (v.registry j).knows c = ((w.registry j).knows c || ds.any fun d => d.cls == c)
  contracts : v.contractsIn j = ds.foldl declaring (w.contractsIn j)

variable {v : World} {j : Nat} {ds es : List Declaration}

/-- No declarations change nothing. -/
theorem Declares.nil (j : Nat) (w : World) : Declares j [] w w :=
  ⟨rfl, rfl, rfl, rfl, fun _ _ => rfl, fun _ => (Bool.or_false _).symm, rfl⟩

/-- Declarations that are merged one after the other are merged together. -/
theorem Declares.append (h : Declares j ds w v) (g : Declares j es v u) :
    Declares j (ds ++ es) w u where
  classes := g.classes.trans h.classes
  binders := g.binders.trans h.binders
  registries := g.registries.trans h.registries
  origin := g.origin.trans h.origin
  others i hi := (g.others i hi).trans (h.others i hi)
  knows c := by rw [g.knows, h.knows, List.any_append, Bool.or_assoc]
  contracts := by rw [g.contracts, h.contracts, List.foldl_append]

private theorem declaring_comm (contracts : ClassRef × String → Option FieldContract)
    {d e : Declaration}
    (h : (d.cls, d.field) ≠ (e.cls, e.field)) :
    declaring (declaring contracts d) e = declaring (declaring contracts e) d := by
  unfold declaring
  rw [Function.update_of_ne h.symm, Function.update_of_ne h, Function.update_comm h]

/-- Different fields may be declared in any order. -/
theorem Declares.reordered (h : Declares j ds w v) (g : Declares j es w u) (hp : ds.Perm es)
    (hn : (ds.map fun d => (d.cls, d.field)).Nodup) : v.Reordered u where
  classes := by rw [h.classes, g.classes]
  binders := h.binders.trans g.binders.symm
  knows i c := by
    by_cases hi : i = j
    · rw [hi, h.knows, g.knows, hp.any_eq]
    · rw [h.others i hi, g.others i hi]
  contracts i := by
    by_cases hi : i = j
    · rw [hi, h.contracts, g.contracts]
      apply hp.foldl_eq'
      intro d hd e he contracts
      by_cases hde : (d.cls, d.field) = (e.cls, e.field)
      · rw [List.inj_on_of_nodup_map hn hd he hde]
      · exact declaring_comm contracts hde
    · unfold contractsIn
      rw [h.others i hi, g.others i hi]
  origin := h.origin.trans g.origin.symm

/-! ### Declaring in a registry -/

/-- Telling apart a rule whose not-a-numbers are known gives the same rule up to labels, and takes
no origins. -/
theorem exec_adoptFragment_told (w : World) {f : Fragment} (h : f.Told) :
    ∃ g n, exec (adoptFragment f) w = (.ok g, { w with supply := n }) ∧
      g.unlabelled = f.unlabelled ∧ n.origin = w.supply.origin := by
  have hv : ∀ {v : Value}, v.Named → (w.adopted v).unlabelled = v.unlabelled ∧
      (w.adopting v).supply.origin = w.supply.origin :=
    fun hn => ⟨unlabelled_adopted w hn, hn.origin_labelled w.supply⟩
  cases f with
  | requirement r =>
    cases r with
    | defaulted v =>
      obtain ⟨hu, ho⟩ := hv (h v rfl)
      refine ⟨.requirement (.defaulted (w.adopted v)), _, rfl, ?_, ho⟩
      simp only [Fragment.unlabelled, Requirement.unlabelled, hu]
    | _ => exact ⟨_, w.supply, rfl, rfl, rfl⟩
  | transform f =>
    obtain ⟨hu, ho⟩ := hv h
    refine ⟨.transform { f with kept := w.adopted f.kept }, _, rfl, ?_, ho⟩
    simp only [Fragment.unlabelled, UserFunction.unlabelled, hu]
  | check c =>
    cases c with
    | custom f =>
      obtain ⟨hu, ho⟩ := hv h
      refine ⟨.check (.custom { f with kept := w.adopted f.kept }), _, rfl, ?_, ho⟩
      simp only [Fragment.unlabelled, Check.unlabelled, UserFunction.unlabelled, hu]
    | comparison c => exact ⟨_, w.supply, rfl, rfl, rfl⟩
  | _ => exact ⟨_, w.supply, rfl, rfl, rfl⟩

private theorem exec_adoptFragments_told (w : World) {fs : List Fragment} (h : ∀ f ∈ fs, f.Told) :
    ∃ gs n, exec (fs.mapM adoptFragment) w = (.ok gs, { w with supply := n }) ∧
      gs.map Fragment.unlabelled = fs.map Fragment.unlabelled ∧ n.origin = w.supply.origin := by
  induction fs generalizing w with
  | nil => exact ⟨[], w.supply, rfl, rfl, rfl⟩
  | cons f fs ih =>
    obtain ⟨hf, hfs⟩ := List.forall_mem_cons.mp h
    obtain ⟨g, n, hg, hu, ho⟩ := exec_adoptFragment_told w hf
    obtain ⟨gs, m, hgs, hus, hos⟩ := ih { w with supply := n } hfs
    refine ⟨g :: gs, m, ?_, ?_, hos.trans ho⟩
    · rw [List.mapM_cons, exec_bind_of_ok hg, exec_bind_of_ok hgs, exec_pure]
    · rw [List.map_cons, List.map_cons, hu, hus]

private theorem unlabelled_getD (o : Option FieldContract) (name : String) :
    (o.getD (.empty name)).unlabelled =
      (o.map FieldContract.unlabelled).getD (.empty name) := by
  cases o <;> rfl

/-- A declaration that succeeds changes what its class has for its field, and nothing else. -/
theorem map_ownField?_declare_ok {r q : Registry} {d : Declaration} {gs : List Fragment}
    {result : FieldContract × Bool} (hgs : gs.map Fragment.unlabelled = d.unlabelled.fragments)
    (h : r.declare d.cls d.field gs d.declared = (q, .ok result)) :
    (fun k : ClassRef × String => (q.ownField? k.1 k.2).map FieldContract.unlabelled) =
      declaring (fun k => (r.ownField? k.1 k.2).map FieldContract.unlabelled) d := by
  funext ⟨c, name⟩
  have hown := Registry.own_declare_ok h c
  let e : Declaration := ⟨d.cls, d.field, gs, d.declared⟩
  have he : e.unlabelled = d.unlabelled := by
    simp only [Declaration.unlabelled, e, hgs]
  let old := ((r.own d.cls).find? fun f => f.name == d.field).getD (.empty d.field)
  have hname : (e.mergeInto old).name = d.field := by
    have hn := (FieldContract.name_foldl_merge old gs).trans (FieldContract.name_getD_find? _ _)
    exact hn
  rw [ContractChange.effect] at hown
  dsimp only
  unfold declaring
  rw [Function.update_apply, Registry.ownField?, hown]
  by_cases hc : d.cls = c
  · subst hc
    rw [if_pos rfl, Declaration.putInto, Registry.find?_putContract, hname]
    by_cases hf : d.field = name
    · subst hf
      rw [if_pos rfl, if_pos rfl, Option.map_some, e.mergeInto_unlabelled, he, unlabelled_getD]
      rfl
    · rw [if_neg hf, if_neg fun hk => hf (congrArg Prod.snd hk).symm]
      rfl
  · rw [if_neg hc, if_neg fun hk => hc (congrArg Prod.fst hk).symm]
    rfl

/-- Replacing a registry by what a declaration makes of it. -/
theorem declares_setRegistry {w : World} {j : Nat} (hj : j < w.registries.length) {d : Declaration}
    {gs : List Fragment} (hgs : gs.map Fragment.unlabelled = d.unlabelled.fragments) {n : Supply}
    (ho : n.origin = w.supply.origin) {r : Registry} {result : FieldContract × Bool}
    (h : (w.registry j).declare d.cls d.field gs d.declared = (r, .ok result)) (e : Event) :
    Declares j [d] w (({ w with supply := n }.setRegistry j r).log e) := by
  have hr : ∀ i, (({ w with supply := n }.setRegistry j r).log e).registry i =
      if i = j then r else w.registry i := by
    intro i
    change (({ w with supply := n } : World).setRegistry j r).registry i = _
    rw [registry_setRegistry]
    simp only [hj, and_true, eq_comm]
    rfl
  constructor
  · rfl
  · rfl
  · exact List.length_set
  · exact ho
  · intro i hi
    rw [hr, if_neg hi]
  · intro c
    rw [hr, if_pos rfl, knows_declare_ok h, Registry.knows_know, List.any_cons, List.any_nil,
      Bool.or_false]
  · unfold contractsIn
    rw [hr, if_pos rfl, map_ownField?_declare_ok hgs h]
    rfl

/-- Makes a declaration in a registry. -/
def declareIn (j : Nat) (d : Declaration) : Action FieldContract :=
  declareField j d.cls (.str d.field) (d.fragments.map .fragment) d.declared

/-- A declaration that succeeds is merged into the contract of its field. -/
theorem declares_declareIn {w v : World} {j : Nat} (hj : j < w.registries.length)
    {d : Declaration} (hd : ∀ f ∈ d.fragments, f.Told) {contract : FieldContract}
    (h : exec (declareIn j d) w = (.ok contract, v)) : Declares j [d] w v := by
  obtain ⟨hother, hfs⟩ := Argument.fragments_map d.fragments
  obtain ⟨gs, n, hg, hu, ho⟩ := exec_adoptFragments_told w hd
  unfold declareIn declareField at h
  cases hn : checkFieldName d.cls.name (.str d.field) with
  | error e =>
    rw [hn] at h
    cases h
  | ok field =>
    cases eq_str_of_checkFieldName hn
    have hw : registry { w with supply := n } j = w.registry j := rfl
    rw [hn, exec_bind_of_ok (exec_lift (.ok d.field) w), hother, hfs] at h
    dsimp only at h
    rw [exec_bind_of_ok hg, exec_bind_of_ok (exec_get _), hw] at h
    rcases hr : (w.registry j).declare d.cls d.field gs d.declared with ⟨r, e | result⟩
    · rw [hr] at h
      cases h
    · rw [hr] at h
      cases h
      exact declares_setRegistry hj hu ho hr _

end World

namespace Session

open World

/-- The operation that makes a declaration in a registry. -/
def declaration (j : Nat) (d : Declaration) : Operation :=
  .declare j (.cls d.cls) (.str d.field) (d.fragments.map .fragment) d.declared

/-- Whether operations made one after another all succeed. -/
def allSucceed (s : Session) : List Operation → Bool
  | [] => true
  | op :: ops => (s.step op).1.isOk && allSucceed (s.step op).2 ops

private theorem declares_step {s : Session} {j : Nat} (hj : j < s.world.registries.length)
    {d : Declaration} (hd : ∀ f ∈ d.fragments, f.Told)
    (h : (s.step (declaration j d)).1.isOk = true) :
    Declares j [d] s.world (s.step (declaration j d)).2.world := by
  change (exec (act (declareIn j d) >>= fun c => pure (Outcome.contract c)) s.fresh).1.isOk =
    true at h
  change Declares j [d] s.world
    (exec (act (declareIn j d) >>= fun c => pure (Outcome.contract c)) s.fresh).2.world
  rw [world_exec_act_bind]
  rcases hr : exec (declareIn j d) s.fresh.world with ⟨e | contract, v⟩
  · have he : exec (act (declareIn j d)) s.fresh = (.error e, { s.fresh with world := v }) := by
      rw [exec_act, hr]
    rw [exec_bind_of_error he] at h
    cases h
  · have hv := declares_declareIn (w := s.fresh.world) hj hd hr
    exact ⟨hv.classes, hv.binders, hv.registries, hv.origin, hv.others, hv.knows, hv.contracts⟩

private theorem declares_after {s : Session} {j : Nat} (hj : j < s.world.registries.length)
    {ds : List Declaration} (hd : ∀ d ∈ ds, ∀ f ∈ d.fragments, f.Told)
    (h : s.allSucceed (ds.map (declaration j)) = true) :
    Declares j ds s.world (s.after (ds.map (declaration j))).world := by
  induction ds generalizing s with
  | nil => exact .nil j s.world
  | cons d ds ih =>
    obtain ⟨hd, hds⟩ := List.forall_mem_cons.mp hd
    obtain ⟨hok, hrest⟩ := Bool.and_eq_true_iff.mp h
    have hstep := declares_step hj hd hok
    rw [← hstep.registries] at hj
    exact hstep.append (ih hj hds hrest)

/-- Declaring fields in another order leads to the same contracts in another order. -/
theorem reordered_after {s : Session} {j : Nat} (hj : j < s.world.registries.length)
    {ds es : List Declaration} (hp : ds.Perm es) (hn : (ds.map fun d => (d.cls, d.field)).Nodup)
    (ht : ∀ d ∈ ds, ∀ f ∈ d.fragments, f.Told)
    (hd : s.allSucceed (ds.map (declaration j)) = true)
    (he : s.allSucceed (es.map (declaration j)) = true) :
    (s.after (ds.map (declaration j))).world.Reordered
      (s.after (es.map (declaration j))).world :=
  (declares_after hj ht hd).reordered
    (declares_after hj (fun d h => ht d (hp.mem_iff.mpr h)) he) hp hn

end Session

end SchemaBinding
