import SchemaBinding.Proofs.ClassCreation
import SchemaBinding.Proofs.DeclaredFields
import SchemaBinding.Proofs.MergedRules

/-!
# Requiredness is declared once

In a strict registry it may be said only once of a field of a class whether it must be there, until
the class is forgotten. So a declaration conflicts exactly if, together with those that succeeded
before, it says so more than once. And what has been said stands.
-/

namespace SchemaBinding

namespace Fragment

/-- The requirements that rules state keep their names when the rules are told apart. -/
theorem names_requirements_adoptedFragments (w : World) (fs : List Fragment) :
    (requirements (w.adoptedFragments fs)).map Requirement.name =
      (requirements fs).map Requirement.name := by
  have hnames : ∀ gs : List Fragment, (requirements gs).map Requirement.name =
      (gs.map fun f => (requirement? f).map Requirement.name).filterMap id := by
    intro gs
    rw [requirements, List.map_filterMap, List.filterMap_map]
    rfl
  have hsame := World.map_adoptedFragments
    (p := fun f => (requirement? f).map Requirement.name) (fun f g v h => ?_) w fs
  · rw [hnames, hnames, hsame]
  · cases f with
    | requirement r => cases r <;> cases h <;> rfl
    | check c => cases c <;> cases h <;> rfl
    | _ =>
      cases h
      rfl

end Fragment

/-! ### The requirement of a field -/

namespace ContractChange

/-- The requirements stated for a field of a class since the class was last forgotten, after one
more change. -/
def heed (c : ClassRef) (name : String) (said : List Requirement) :
    ContractChange → List Requirement
  | .declared d =>
    if d.cls = c ∧ d.field = name then said ++ Fragment.requirements d.fragments else said
  | .forgotten k => if k = c then [] else said
  | .cleared => []

/-- The requirements stated for a field of a class since the class was last forgotten, after
changes. -/
def stated (c : ClassRef) (name : String) (said : List Requirement)
    (changes : List ContractChange) : List Requirement := changes.foldl (heed c name) said

/-- Whether a change makes a class forgotten. -/
def forgets (c : ClassRef) : ContractChange → Bool
  | .declared _ => false
  | .forgotten k => k == c
  | .cleared => true

/-- The requirements that are stated are those of the declarations since the class was last
forgotten. -/
theorem stated_nil (c : ClassRef) (name : String) (changes : List ContractChange) :
    stated c name [] changes = ((latest c changes).filter fun d => d.field == name).flatMap
      fun d => Fragment.requirements d.fragments := by
  induction changes using List.reverseRecOn with
  | nil => rfl
  | append_singleton changes change ih =>
    rw [stated, latest, List.foldl_concat, List.foldl_concat, ← stated, ← latest, ih]
    cases change with
    | declared d =>
      simp only [heed, remember]
      by_cases hc : d.cls = c
      · by_cases hf : d.field = name <;> simp [hc, hf]
      · simp [hc]
    | forgotten k =>
      simp only [heed, remember]
      split <;> rfl
    | cleared => rfl

/-- Until the class is forgotten, what was stated stands in front. -/
theorem prefix_stated {c : ClassRef} {changes : List ContractChange}
    (h : ∀ change ∈ changes, change.forgets c = false) (name : String) (said : List Requirement) :
    said <+: stated c name said changes := by
  induction changes generalizing said with
  | nil => exact List.prefix_rfl
  | cons change rest ih =>
    obtain ⟨hc, hr⟩ := List.forall_mem_cons.mp h
    refine List.IsPrefix.trans ?_ (ih hr _)
    cases change with
    | declared d =>
      rw [heed]
      split
      · exact List.prefix_append _ _
      · exact List.prefix_rfl
    | forgotten k =>
      have hk : ¬ k = c := by simpa [forgets] using hc
      simp [heed, hk]
    | cleared => cases hc

end ContractChange

namespace FieldContract

/-- The requirement of a field among contracts, as a list of at most one. -/
def requirementIn (name : String) (fields : List FieldContract) : List Requirement :=
  ((fields.find? fun f => f.name == name).bind requirement).toList

private theorem requirement_getD_find? (name : String) (fields : List FieldContract) :
    ((fields.find? fun f => f.name == name).getD (.empty name)).requirement.toList =
      requirementIn name fields := by
  unfold requirementIn
  cases fields.find? fun f => f.name == name <;> rfl

/-- A contract and rules that state no more than one requirement are merged to a contract with
that requirement. -/
theorem requirement_foldl_merge {c : FieldContract} {fs : List Fragment}
    (h : (c.stated fs).length ≤ 1) : (fs.foldl merge c).requirement.toList = c.stated fs := by
  have hm : (fs.foldl merge c).requirement =
      (Fragment.requirements fs).getLast?.or c.requirement := by rw [foldl_merge_eq_merged, merged]
  rw [hm]
  unfold stated at h ⊢
  generalize Fragment.requirements fs = rs at h
  cases hr : c.requirement with
  | none =>
    rw [hr] at h
    obtain _ | ⟨q, _ | ⟨p, rest⟩⟩ := rs
    · rfl
    · rfl
    · simp at h
  | some r =>
    rw [hr] at h
    obtain _ | ⟨q, rest⟩ := rs
    · rfl
    · simp at h

end FieldContract

/-- If no more than one requirement is stated, it is the one of the field. -/
theorem ContractChange.requirementIn_effect {c : ClassRef} {name : String}
    {fields : List FieldContract} {change : ContractChange}
    (h : (change.heed c name (FieldContract.requirementIn name fields)).length ≤ 1) :
    FieldContract.requirementIn name (change.effect c fields) =
      change.heed c name (FieldContract.requirementIn name fields) := by
  cases change with
  | cleared => rfl
  | forgotten k =>
    rw [effect, heed]
    split <;> rfl
  | declared d =>
    rw [heed] at h ⊢
    rw [effect]
    by_cases hc : d.cls = c
    · rw [if_pos hc, FieldContract.requirementIn, Declaration.putInto,
        Registry.find?_putContract]
      have hname : (d.mergeInto ((fields.find? fun f => f.name == d.field).getD
          (.empty d.field))).name = d.field := by
        rw [Declaration.mergeInto, FieldContract.name_foldl_merge, FieldContract.name_getD_find?]
      rw [hname]
      by_cases hf : d.field = name
      · rw [if_pos hf, if_pos ⟨hc, hf⟩, hf]
        rw [if_pos ⟨hc, hf⟩, ← FieldContract.requirement_getD_find?] at h
        rw [← FieldContract.requirement_getD_find?]
        exact FieldContract.requirement_foldl_merge h
      · rw [if_neg hf, if_neg fun hcf => hf hcf.2, FieldContract.requirementIn]
    · rw [if_neg hc, if_neg fun hcf => hc hcf.1]

/-- What is forgotten has no requirement any more. -/
theorem ContractChange.requirementIn_forgetting {c : ClassRef} {name : String}
    {changes : List ContractChange} (h : ∀ d, .declared d ∉ changes)
    (fields : List FieldContract) :
    FieldContract.requirementIn name (changes.foldl (effect c) fields) =
      stated c name (FieldContract.requirementIn name fields) changes := by
  induction changes generalizing fields with
  | nil => rfl
  | cons change rest ih =>
    rw [List.foldl_cons, ih fun d hd => h d (List.mem_cons_of_mem _ hd), requirementIn_effect]
    · rfl
    · cases change with
      | declared d => exact absurd List.mem_cons_self (h d)
      | forgotten k =>
        rw [heed]
        split
        · exact Nat.zero_le 1
        · exact Option.length_toList_le
      | cleared => exact Nat.zero_le 1

/-- In a strict registry rules are declared if, with the requirement of the field, they state no
more than one. Otherwise the first of these is in the way. -/
theorem Registry.declare_strict {r : Registry} (hs : r.strict = true) (c : ClassRef)
    (name : String) (fs : List Fragment) (t : Option DeclaredType) :
    (r.declare c name fs t).2.map (fun _ => ()) =
      match FieldContract.requirementIn name (r.own c) ++ Fragment.requirements fs with
      | q :: _ :: _ => .error q
      | _ => .ok () := by
  have hown : ((r.know c).ownField? c name).getD (.empty name) =
      ((r.own c).find? fun f => f.name == name).getD (.empty name) := by
    rw [ownField?, own_know]
  rw [declare, hown, hs, FieldContract.addAll_true, FieldContract.stated,
    FieldContract.requirement_getD_find?]
  generalize FieldContract.requirementIn name (r.own c) ++ Fragment.requirements fs = rs
  obtain _ | ⟨q, _ | ⟨p, rest⟩⟩ := rs <;> rfl

private theorem Registry.length_stated_le_one {r q : Registry} (hs : r.strict = true) {c : ClassRef}
    {name : String} {fs : List Fragment} {t : Option DeclaredType} {done : FieldContract × Bool}
    (h : r.declare c name fs t = (q, .ok done)) :
    (FieldContract.requirementIn name (r.own c) ++ Fragment.requirements fs).length ≤ 1 := by
  have hd := declare_strict hs c name fs t
  rw [h] at hd
  generalize FieldContract.requirementIn name (r.own c) ++ Fragment.requirements fs = rs at hd
  obtain _ | ⟨q, _ | ⟨p, rest⟩⟩ := rs
  · exact Nat.zero_le 1
  · exact Nat.le_refl 1
  · cases hd

/-! ### Worlds whose registries stay as strict -/

namespace World

variable {α β : Type} {w v x : World}

/-- Every registry is as strict as before. -/
def AsStrict (w v : World) : Prop := ∀ i, (v.registry i).strict = (w.registry i).strict

/-- Every registry is as strict as it is. -/
theorem AsStrict.refl (w : World) : AsStrict w w := fun _ => rfl

/-- Registries that stay as strict twice stay as strict. -/
theorem AsStrict.trans (h : AsStrict w v) (g : AsStrict v x) : AsStrict w x :=
  fun i => (g i).trans (h i)

/-- The same registries are as strict as before. -/
theorem AsStrict.of_registries (h : v.registries = w.registries) : AsStrict w v := by
  intro i
  rw [registry, registry, h]

private theorem asStrict_setRegistry (w : World) (j : Nat) {r : Registry}
    (h : r.strict = (w.registry j).strict) : AsStrict w (w.setRegistry j r) := by
  intro i
  rw [registry_setRegistry]
  split
  · next hj => rw [h, hj.1]
  · rfl

/-- From a world, an action leaves every registry as strict as before. -/
def LeavesStrictness (w : World) (a : Action α) : Prop := AsStrict w (exec a w).2

/-- A sequence leaves registries as strict if both of its parts do. -/
theorem LeavesStrictness.bind {a : Action α} {f : α → Action β} (ha : w.LeavesStrictness a)
    (hf : ∀ x v, exec a w = (.ok x, v) → v.LeavesStrictness (f x)) :
    w.LeavesStrictness (a >>= f) :=
  rel_exec_bind (R := AsStrict) (fun _ _ _ => AsStrict.trans) ha fun x v he _ => hf x v he

/-- Looking at the world leaves registries as strict. -/
theorem LeavesStrictness.get {f : World → Action α} (hf : w.LeavesStrictness (f w)) :
    w.LeavesStrictness (MonadState.get >>= f) := hf

/-- A sequence leaves registries as strict if what follows a result does. -/
theorem LeavesStrictness.lift {e : Except Fault α} {f : α → Action β}
    (hf : ∀ x, w.LeavesStrictness (f x)) : w.LeavesStrictness (World.lift e >>= f) := by
  cases e with
  | error e => exact .refl w
  | ok x => exact hf x

private theorem leavesStrictness_openClass (w : World) (name : String) (bases : List ClassRef)
    (binder : Option Nat) (fields : List (String × FieldDeclaration)) :
    w.LeavesStrictness (openClass name bases binder fields) := by
  unfold LeavesStrictness
  rcases exec_openClass_error_or w name bases binder fields with ⟨e, he⟩ | ⟨inherited, hi⟩
  · rw [he]
    exact .refl w
  · have henter : AsStrict w (w.enter (w.newInfo name inherited binder fields)) :=
      .of_registries rfl
    rw [hi.exec_openClass]
    split
    · split
      · exact henter.trans (asStrict_setRegistry _ _ (Registry.strict_know _ _))
      · exact henter
    · exact henter

private theorem leavesStrictness_createAll (w : World) (binder : Option Nat)
    (specs : List Table.SchemaSpec) : w.LeavesStrictness (Table.createAll binder specs) := by
  induction specs generalizing w with
  | nil => exact .refl w
  | cons s rest ih =>
    have hcreate : w.LeavesStrictness (createClass s.name [.schemaBase] binder []) := by
      refine (leavesStrictness_openClass w s.name [.schemaBase] binder []).bind fun x v _ => ?_
      obtain ⟨c, registry⟩ := x
      cases registry <;> exact .refl v
    exact hcreate.bind fun _ v _ => (ih v).bind fun _ u _ => .refl u

private theorem leavesStrictness_tableOpens (w : World) (binder : Option Nat) (table : Value) :
    w.LeavesStrictness (Table.opens binder table) := by
  unfold Table.opens
  split
  · split
    · exact (leavesStrictness_createAll w binder _).bind fun _ v _ => .refl v
    · exact .refl w
  · exact .refl w

end World

namespace Operation

open World

private theorem opens_of_forgets {i : Nat} {op : Operation} (h : op.forgets i ≠ []) :
    op.opens = pure [] := by
  cases op with
  | clear => rfl
  | _ => exact absurd rfl h

/-- Before an operation declares fields, it spares contracts and leaves registries as strict. -/
theorem opens_spares (w : World) (op : Operation) :
    w.SparedBy op.opens ∧ w.LeavesStrictness op.opens := by
  have hpure : w.SparedBy (pure [] : Action (List DeclareCall)) ∧
      w.LeavesStrictness (pure [] : Action (List DeclareCall)) := ⟨.refl w, .refl w⟩
  have htable : ∀ (binder : Option Nat) (table : Value),
      w.SparedBy (adopt table >>= Table.opens binder) ∧
        w.LeavesStrictness (adopt table >>= Table.opens binder) := by
    intro binder table
    constructor
    · exact .bind (.of_registries rfl) fun _ v _ => Session.sparedBy_tableOpens v binder _
    · exact .bind (.of_registries rfl) fun _ v _ => leavesStrictness_tableOpens v binder _
  cases op with
  | newClass name bases binder body =>
    constructor
    · exact (sparedBy_openClass w name bases binder body).bind fun _ v _ => .refl v
    · exact (leavesStrictness_openClass w name bases binder body).bind fun _ v _ => .refl v
  | declare j target field args declared =>
    cases target with
    | value v => exact hpure
    | cls c => cases field <;> exact ⟨.refl w, .refl w⟩
  | declareOn target field args declared =>
    cases target with
    | value v => exact hpure
    | cls c =>
      cases field with
      | str name => exact ⟨.get (.lift fun _ _ => .refl w), .get (.lift fun _ => .refl w)⟩
      | _ => exact hpure
  | build binder table => exact htable binder table
  | parse binder source contents =>
    rw [opens]
    cases Table.ofText source contents.toList with
    | error e => exact ⟨.refl w, .refl w⟩
    | ok table => exact htable binder table
  | load binder directory path =>
    rw [opens]
    cases Table.ofFile directory path with
    | error e => exact ⟨.refl w, .refl w⟩
    | ok table => exact htable binder table
  | _ => exact hpure

end Operation

private theorem Registry.strict_declare (r : Registry) (c : ClassRef) (name : String)
    (fs : List Fragment)
    (t : Option DeclaredType) : (r.declare c name fs t).1.strict = r.strict := by
  rcases declare_cases r c name fs t with ⟨_, he⟩ | ⟨_, -, he⟩ <;> rw [he] <;>
    exact strict_know r c

/-! ### Calls in a strict registry -/

namespace World

/-- The requirement of a field of a class in a registry, as a list of at most one. -/
def requirementIn (w : World) (i : Nat) (c : ClassRef) (name : String) : List Requirement :=
  FieldContract.requirementIn name ((w.registry i).own c)

/-- What becomes of a registry by a declaration that succeeds. -/
theorem exec_declareField_ok {w v : World} {i : Nat} {c : ClassRef} {name : String}
    {args : List Argument} {declared : Option DeclaredType} {k : FieldContract}
    (h : exec (declareField i c (.str name) args declared) w = (.ok k, v)) :
    ∃ r first, (w.registry i).declare c name (w.adoptedFragments (Argument.fragments args))
        declared = (r, .ok (k, first)) ∧ v.registries = (w.setRegistry i r).registries := by
  rcases exec_declareField_cases w i c (.str name) args declared with
    ⟨f, he, -⟩ | ⟨field, n, hn, ⟨q, -, he⟩ | ⟨r, l, first, hd, he⟩⟩
  · rw [he] at h
    cases h
  · rw [he] at h
    cases h
  · cases eq_str_of_checkFieldName hn
    rw [he] at h
    cases h
    exact ⟨r, first, hd, rfl⟩

/-- Rules are declared in a strict registry under a name that a field may have, if they and the
requirement of the field do not conflict. -/
theorem fst_exec_declareField {w : World} {i : Nat} {c : ClassRef} {name : String}
    {args : List Argument} (hn : checkFieldName c.name (.str name) = .ok name)
    (ha : Argument.firstOther? args = none) (declared : Option DeclaredType) :
    (exec (declareField i c (.str name) args declared) w).1.map (fun _ => ()) =
      match ((w.registry i).declare c name (w.adoptedFragments (Argument.fragments args))
          declared).2.map (fun _ => ()) with
      | .error q => .error (.schema (.conflict c.name name q.name))
      | .ok _ => .ok () := by
  obtain ⟨n, hadopt⟩ := exec_adoptFragments w (Argument.fragments args)
  have hr : registry { w with supply := n } i = w.registry i := rfl
  rw [declareField, hn, exec_bind_of_ok (exec_lift (.ok name) w), ha]
  dsimp only
  rw [exec_bind_of_ok hadopt, exec_bind_of_ok (exec_get _), hr]
  rcases (w.registry i).declare c name (w.adoptedFragments (Argument.fragments args)) declared with
    ⟨r, q | k⟩ <;> rfl

end World

namespace DeclareCall

open World

variable {call : DeclareCall} {w v : World} {i : Nat}

/-- The declaration that a call comes down to. -/
def declaring (call : DeclareCall) (w : World) : Action FieldContract :=
  declareField (call.registryIn w) call.cls (.str call.field) call.args call.declared

private theorem exec_run_of_error {e : Fault} (he : exec (call.declaring w) w = (.error e, v)) :
    exec call.run w = (.error e, v) := by
  obtain ⟨site, c, name, args, declared⟩ := call
  cases site with
  | ofClass =>
    rw [run, declareOnClass, exec_bind_of_ok (exec_get w)]
    exact exec_bind_of_error he _
  | _ => exact exec_bind_of_error he _

private theorem exec_run_of_ok {k : FieldContract} (he : exec (call.declaring w) w = (.ok k, v)) :
    ∃ u, exec call.run w = (.ok (), u) ∧ u.registries = v.registries := by
  obtain ⟨site, c, name, args, declared⟩ := call
  cases site with
  | registry i => exact ⟨v, exec_bind_of_ok he _, rfl⟩
  | ofClass =>
    refine ⟨_, (exec_bind_of_ok (exec_get w) _).trans (exec_bind_of_ok he _), ?_⟩
    dsimp only
    split <;> rfl
  | body i => exact ⟨_, exec_bind_of_ok he _, rfl⟩

private theorem fst_exec_run_eq_map (call : DeclareCall) (w : World) :
    (exec call.run w).1 = (exec (call.declaring w) w).1.map fun _ => () := by
  rcases he : exec (call.declaring w) w with ⟨e | k, v⟩
  · rw [exec_run_of_error he]
    rfl
  · obtain ⟨u, hu, -⟩ := exec_run_of_ok he
    rw [hu]
    rfl

/-- A call that succeeds has declared its field. -/
theorem exists_declare_of_run (h : exec call.run w = (.ok (), v)) :
    ∃ r k first, (w.registry (call.registryIn w)).declare call.cls call.field
        (w.adoptedFragments (Argument.fragments call.args)) call.declared = (r, .ok (k, first)) ∧
      v.registries = (w.setRegistry (call.registryIn w) r).registries := by
  rcases he : exec (call.declaring w) w with ⟨e | k, x⟩
  · rw [exec_run_of_error he] at h
    cases h
  · obtain ⟨u, hu, hx⟩ := exec_run_of_ok he
    rw [hu] at h
    cases h
    obtain ⟨r, first, hd, hr⟩ := exec_declareField_ok he
    exact ⟨r, k, first, hd, hx.trans hr⟩

/-- Made in a strict registry, a call conflicts if it and those that succeeded before state more
than one requirement of its field, and succeeds otherwise. -/
theorem fst_exec_run (hs : (w.registry (call.registryIn w)).strict = true)
    (hn : checkFieldName call.cls.name (.str call.field) = .ok call.field)
    (ha : Argument.firstOther? call.args = none) :
    (exec call.run w).1 =
      match w.requirementIn (call.registryIn w) call.cls call.field ++
          Fragment.requirements (w.adoptedFragments (Argument.fragments call.args)) with
      | q :: _ :: _ => .error (.schema (.conflict call.cls.name call.field q.name))
      | _ => .ok () := by
  rw [fst_exec_run_eq_map, declaring, fst_exec_declareField hn ha, Registry.declare_strict hs,
    ← requirementIn]
  generalize w.requirementIn _ _ _ ++ Fragment.requirements _ = rs
  obtain _ | ⟨q, _ | ⟨p, rest⟩⟩ := rs <;> rfl

/-- A call that succeeds leaves registries as strict. -/
theorem asStrict_run (h : exec call.run w = (.ok (), v)) : AsStrict w v := by
  obtain ⟨r, k, first, hd, hr⟩ := exists_declare_of_run h
  have hstrict := Registry.strict_declare (w.registry (call.registryIn w)) call.cls call.field
    (w.adoptedFragments (Argument.fragments call.args)) call.declared
  rw [hd] at hstrict
  exact (asStrict_setRegistry w _ hstrict).trans (.of_registries hr)

/-- A call that succeeds in a strict registry adds the requirement that it states, if it states one,
to that of its field. -/
theorem requirementIn_run (hs : (w.registry i).strict = true) (h : exec call.run w = (.ok (), v))
    (c : ClassRef) (name : String) :
    v.requirementIn i c name =
      ContractChange.stated c name (w.requirementIn i c name) (call.changes i w) := by
  have hrecords : Records i (call.changes i w) w v := by
    rcases call.exec_run w with ⟨e, u, he, -⟩ | ⟨u, he, hr⟩
    · rw [h] at he
      cases he
    · rw [h] at he
      cases he
      exact hr i
  rw [requirementIn, hrecords]
  unfold changes
  split
  · next hi =>
    rw [List.foldl_cons, List.foldl_nil, ContractChange.requirementIn_effect]
    · rfl
    · rw [declaration, ContractChange.heed]
      dsimp only
      split
      · next hc =>
        obtain ⟨r, k, first, hd, -⟩ := exists_declare_of_run h
        rw [hi.1, hc.1, hc.2] at hd
        exact Registry.length_stated_le_one hs hd
      · exact Option.length_toList_le
  · rfl

/-- Calls made one after another in a strict registry add the requirements that those state that
succeed, up to the first that fails. -/
theorem requirementIn_runAll (calls : List DeclareCall) (hs : (w.registry i).strict = true)
    (c : ClassRef) (name : String) :
    (exec (runAll calls) w).2.requirementIn i c name =
      ContractChange.stated c name (w.requirementIn i c name) (allChanges i w calls) := by
  induction calls generalizing w with
  | nil => rfl
  | cons call rest ih =>
    rcases call.exec_run w with ⟨e, v, he, hspares⟩ | ⟨v, he, -⟩
    · rw [allChanges, he, runAll, exec_bind_of_error he, requirementIn, hspares i c]
      rfl
    · have hv : (v.registry i).strict = true := (asStrict_run he i).trans hs
      rw [allChanges, he, runAll, exec_bind_of_ok he, ih hv, requirementIn_run hs he]
      exact List.foldl_append.symm

/-- Calls that succeed, one after another, leave registries as strict. -/
theorem asStrict_runAll {calls : List DeclareCall} (h : exec (runAll calls) w = (.ok (), v)) :
    AsStrict w v := by
  induction calls generalizing w with
  | nil =>
    cases h
    exact .refl v
  | cons call rest ih =>
    obtain ⟨_, u, hu, hrest⟩ := exec_bind_eq_ok_iff.mp h
    exact (asStrict_run hu).trans (ih hrest)

end DeclareCall

/-! ### Runs in which a registry is strict -/

namespace Session

open World

/-- The requirement of a field of a class in a registry, as a list of at most one. -/
def requirementIn (s : Session) (i : Nat) (c : ClassRef) (name : String) : List Requirement :=
  s.world.requirementIn i c name

/-- A registry is strict before every operation of a run, and after the last one. -/
def StaysStrict (i : Nat) (s : Session) : List Operation → Prop
  | [] => (s.world.registry i).strict = true
  | op :: ops => (s.world.registry i).strict = true ∧ StaysStrict i (s.step op).2 ops

variable {s : Session} {i : Nat} {ops : List Operation}

instance decidableStaysStrict (i : Nat) :
    (s : Session) → (ops : List Operation) → Decidable (StaysStrict i s ops)
  | s, [] => inferInstanceAs (Decidable ((s.world.registry i).strict = true))
  | s, op :: ops =>
    have := decidableStaysStrict i (s.step op).2 ops
    inferInstanceAs (Decidable (_ ∧ _))

/-- A registry that stays strict is strict at the start. -/
theorem StaysStrict.start (h : StaysStrict i s ops) : (s.world.registry i).strict = true := by
  cases ops with
  | nil => exact h
  | cons op ops => exact h.1

/-- In a strict registry the requirement of a field is changed as the declarations that succeed and
the forgetting of classes tell. -/
theorem requirementIn_step (h : s.Reachable) (hs : (s.world.registry i).strict = true)
    (op : Operation) (c : ClassRef) (name : String) :
    (s.step op).2.requirementIn i c name =
      ContractChange.stated c name (s.requirementIn i c name) (s.changes i op) := by
  have hstep := records_step h.consistent op i c
  obtain ⟨hspares, hstrict⟩ := op.opens_spares s.fresh.world
  by_cases hf : op.forgets i = []
  · -- The contracts are those after the calls that the operation makes.
    have hopened := records_opened hspares i c
    rw [changes, hf, List.nil_append] at hstep ⊢
    have hsame : (s.step op).2.requirementIn i c name =
        (exec (op.opens >>= DeclareCall.runAll) s.fresh.world).2.requirementIn i c name := by
      rw [requirementIn, World.requirementIn, World.requirementIn, hstep, hopened]
      rfl
    rw [hsame, opened]
    unfold SparedBy at hspares
    unfold LeavesStrictness at hstrict
    rcases he : exec op.opens s.fresh.world with ⟨e | calls, v⟩
    · rw [he] at hspares
      rw [exec_bind_of_error he, World.requirementIn, hspares i c]
      rfl
    · rw [he] at hspares hstrict
      have hv : (v.registry i).strict = true := (hstrict i).trans hs
      rw [exec_bind_of_ok he, DeclareCall.requirementIn_runAll calls hv, World.requirementIn,
        hspares i c]
      rfl
  · have hopened : opened i op.opens s.fresh.world = [] := by
      rw [Operation.opens_of_forgets hf]
      rfl
    rw [changes, hopened, List.append_nil] at hstep ⊢
    rw [requirementIn, World.requirementIn, hstep]
    exact ContractChange.requirementIn_forgetting (op.declared_not_mem_forgets i) _

/-- In a run in which a registry is strict, the requirement of a field is changed as the
declarations that succeed and the forgetting of classes tell. -/
theorem requirementIn_after (h : s.Reachable) (hs : StaysStrict i s ops) (c : ClassRef)
    (name : String) :
    (s.after ops).requirementIn i c name =
      ContractChange.stated c name (s.requirementIn i c name) (history i s ops) := by
  induction ops generalizing s with
  | nil => rfl
  | cons op ops ih =>
    have hrest := ih (.step s op h) hs.2
    rw [requirementIn_step h hs.1] at hrest
    exact hrest.trans List.foldl_append.symm

/-- A registry that stays strict through a run stays so through its rest. -/
theorem StaysStrict.after {more : List Operation} (h : StaysStrict i s (ops ++ more)) :
    StaysStrict i (s.after ops) more := by
  induction ops generalizing s with
  | nil => exact h
  | cons op ops ih => exact ih h.2

/-- A call that an operation makes: before it are the calls of the operation that have succeeded. -/
structure Makes (s : Session) (op : Operation) (before : List DeclareCall) (call : DeclareCall)
    (opened w : World) : Prop where
  /-- The operation gives the calls, in a world. -/
  opens : ∃ rest, exec op.opens s.fresh.world = (.ok (before ++ call :: rest), opened)
  /-- The calls before it succeed, and leave the world in which it is made. -/
  ran : exec (DeclareCall.runAll before) opened = (.ok (), w)

/-- The requirement of a field where a call is made is told by what was declared and forgotten
before the operation, and by the calls that it has made. -/
theorem Makes.requirementIn {op : Operation} {before : List DeclareCall} {call : DeclareCall}
    {opened w : World} (hm : s.Makes op before call opened w)
    (hs : (s.world.registry i).strict = true) (c : ClassRef) (name : String) :
    (w.registry i).strict = true ∧
      w.requirementIn i c name = ContractChange.stated c name (s.requirementIn i c name)
        (DeclareCall.allChanges i opened before) := by
  obtain ⟨hspares, hstrict⟩ := op.opens_spares s.fresh.world
  obtain ⟨rest, he⟩ := hm.opens
  unfold SparedBy at hspares
  unfold LeavesStrictness at hstrict
  rw [he] at hspares hstrict
  have ho : (opened.registry i).strict = true := (hstrict i).trans hs
  have hrun := DeclareCall.requirementIn_runAll before ho c name
  rw [hm.ran] at hrun
  have hstart : opened.requirementIn i c name = s.requirementIn i c name :=
    congrArg (FieldContract.requirementIn name) (hspares i c)
  exact ⟨(DeclareCall.asStrict_runAll hm.ran i).trans ho, hstart ▸ hrun⟩

/-! ### Calls whose operation fails with them -/

section Failing

variable {w : World} {e : Fault}

private theorem fst_exec_createClass {name : String} {bases : List ClassRef} {binder : Option Nat}
    {fields : List (String × FieldDeclaration)}
    (h : (exec (openBody name bases binder fields >>= DeclareCall.runAll) w).1 = .error e) :
    (exec (createClass name bases binder fields) w).1 = .error e := by
  rcases ho : exec (openClass name bases binder fields) w with ⟨f | ⟨ref, registry⟩, v⟩
  · rw [openBody, bind_assoc, exec_bind_of_error ho] at h
    rw [createClass, exec_bind_of_error ho]
    cases h
    rfl
  · rw [openBody, bind_assoc, exec_bind_of_ok ho] at h
    rw [createClass, exec_bind_of_ok ho]
    cases registry with
    | none => cases h
    | some j =>
      simp only [Option.map_some, Option.getD_some, pure_bind] at h
      simp only [DeclareCall.declareBody_eq]
      exact fst_exec_bind_of_error h _

private theorem fst_exec_build {binder : Option Nat} {table : Value}
    (h : (exec (Table.opens binder table >>= DeclareCall.runAll) w).1 = .error e) :
    (exec (Table.build binder table) w).1 = .error e := by
  cases table with
  | dict entries =>
    rw [Table.opens] at h
    split at h
    · next hvalid =>
      have hi : (Table.read entries).issues = [] := by simp_all
      rw [Table.build, if_neg (by simp_all), Table.accepted_read, if_pos hi,
        exec_bind_of_ok (exec_lift (.ok _) w)]
      rcases hc : exec (Table.createAll binder (Table.read entries).result) w with
        ⟨f | created, v⟩
      · rw [bind_assoc, exec_bind_of_error hc] at h
        rw [exec_bind_of_error hc]
        cases h
        rfl
      · rw [bind_assoc, exec_bind_of_ok hc, pure_bind, ← DeclareCall.declareAll_eq] at h
        rw [exec_bind_of_ok hc]
        exact fst_exec_bind_of_error h _
    · cases h
  | _ => cases h

private theorem fst_exec_declareOn {c : ClassRef} {name : String} {args : List Argument}
    {declared : Option DeclaredType}
    (h : (exec ((Operation.declareOn (.cls c) (.str name) args declared).opens >>=
      DeclareCall.runAll) w).1 = .error e) :
    (exec (declareOn (.cls c) (.str name) args declared) w).1 = .error e := by
  rw [Operation.opens, bind_assoc, exec_bind_of_ok (exec_get w), bind_assoc] at h
  rw [declareOn, exec_bind_of_ok (exec_get w)]
  cases hm : requireMethod w.classes c "declare" with
  | error f =>
    rw [hm] at h
    exact h
  | ok u =>
    rw [hm, exec_bind_of_ok (exec_lift (.ok u) w), pure_bind, DeclareCall.runAll] at h
    rw [exec_bind_of_ok (exec_lift (.ok u) w)]
    exact eq_error_of_map ((fst_exec_bind_pure _ _ w).symm.trans h)

end Failing

/-- An operation that makes a call that fails fails with it. -/
theorem Makes.fst_step {op : Operation} {before : List DeclareCall} {call : DeclareCall}
    {opened w : World} {e : Fault} (hm : s.Makes op before call opened w)
    (he : (exec call.run w).1 = .error e) : (s.step op).1 = .error e := by
  have hall : (exec (op.opens >>= DeclareCall.runAll) s.fresh.world).1 = .error e := by
    obtain ⟨rest, ho⟩ := hm.opens
    rw [exec_bind_of_ok ho, DeclareCall.runAll_append, exec_bind_of_ok hm.ran, DeclareCall.runAll]
    exact fst_exec_bind_of_error he _
  have hact : ∀ {α : Type} {a : Action α} (f : α → Outcome) (s : Session),
      (exec a s.world).1 = .error e → (exec (act a >>= fun x => pure (f x)) s).1 = .error e := by
    intro α a f s ha
    exact fst_exec_bind_of_error (by rw [exec_act, ha]) _
  have htable : ∀ (binder : Option Nat) (table : Value),
      (exec ((adopt table >>= Table.opens binder) >>= DeclareCall.runAll) s.fresh.world).1 =
        .error e →
      (exec (do
        let table ← act (adopt table)
        let cs ← act (Table.build binder table)
        return Outcome.classes cs) s.fresh).1 = .error e := by
    intro binder table ht
    have ha : exec (act (adopt table)) s.fresh = (.ok (s.fresh.world.adopted table),
        { s.fresh with world := s.fresh.world.adopting table }) := rfl
    rw [bind_assoc, exec_bind_of_ok (exec_adopt table s.fresh.world)] at ht
    rw [exec_bind_of_ok ha]
    exact hact _ _ (fst_exec_build ht)
  change (exec (run planOf op) s.fresh).1 = .error e
  cases op with
  | newClass name bases binder body => exact hact _ _ (fst_exec_createClass hall)
  | declare j target field args declared =>
    cases target with
    | value v => cases hall
    | cls c =>
      cases field with
      | str name =>
        change (exec (DeclareCall.runAll [⟨.registry j, c, name, args, declared⟩])
          s.fresh.world).1 = _ at hall
        rw [DeclareCall.runAll, DeclareCall.runAll, fst_exec_bind_pure, DeclareCall.run,
          fst_exec_bind_pure] at hall
        exact hact Outcome.contract s.fresh (eq_error_of_map (eq_error_of_map hall))
      | _ => cases hall
  | declareOn target field args declared =>
    cases target with
    | value v => cases hall
    | cls c =>
      cases field with
      | str name => exact hact _ _ (fst_exec_declareOn hall)
      | _ => cases hall
  | build binder table => exact htable binder table hall
  | parse binder source contents =>
    rw [Operation.opens] at hall
    rw [run]
    cases ht : Table.ofText source contents.toList with
    | error f =>
      rw [ht] at hall
      exact congrArg Except.error (Except.error.inj hall)
    | ok table =>
      rw [ht] at hall
      exact htable binder table hall
  | load binder directory path =>
    rw [Operation.opens] at hall
    rw [run]
    cases ht : Table.ofFile directory path with
    | error f =>
      rw [ht] at hall
      exact congrArg Except.error (Except.error.inj hall)
    | ok table =>
      rw [ht] at hall
      exact htable binder table hall
  | _ => cases hall

/-- In a strict registry it is said once of a field whether it must be there, until its class is
forgotten. A declaration conflicts exactly if, with the declarations of the field since then that
succeeded, it states more than one requirement, and the first of these is in the way; otherwise it
succeeds. And the requirement that a field has got stays, with its default, until its class is
forgotten. -/
theorem Reachable.declares_once (h : s.Reachable) (hs : StaysStrict i s ops) (c : ClassRef)
    (name : String) :
    let t := s.after ops
    let said := ContractChange.stated c name (s.requirementIn i c name)
    (∀ op before call opened w, t.Makes op before call opened w →
      call.registryIn w = i → call.cls = c → call.field = name →
      checkFieldName c.name (.str name) = .ok name → Argument.firstOther? call.args = none →
      let earlier := said (history i s ops ++ DeclareCall.allChanges i opened before)
      let all := earlier ++ Fragment.requirements (Argument.fragments call.args)
      (∀ existing, (exec call.run w).1 = .error (.schema (.conflict c.name name existing)) ↔
        1 < all.length ∧ all.head?.map Requirement.name = some existing) ∧
      (all.length ≤ 1 → (exec call.run w).1 = .ok ()) ∧
      ∀ e, (exec call.run w).1 = .error e → (t.step op).1 = .error e) ∧
    t.requirementIn i c name = said (history i s ops) ∧
    ∀ more, StaysStrict i s (ops ++ more) →
      (∀ change ∈ history i t more, change.forgets c = false) →
      ∀ r, t.requirementIn i c name = [r] → (t.after more).requirementIn i c name = [r] := by
  intro t said
  have ht : t.requirementIn i c name = said (history i s ops) := requirementIn_after h hs c name
  refine ⟨?_, ht, ?_⟩
  · rintro op before call opened w hm rfl rfl rfl hn ha earlier all
    have hstrict : (t.world.registry (call.registryIn w)).strict = true :=
      (StaysStrict.after (by rwa [List.append_nil])).start
    obtain ⟨hw, hsaid⟩ := hm.requirementIn hstrict call.cls call.field
    have hearlier : w.requirementIn (call.registryIn w) call.cls call.field = earlier := by
      rw [hsaid, ht]
      exact List.foldl_append.symm
    have hrun := DeclareCall.fst_exec_run hw hn ha
    rw [hearlier] at hrun
    -- Rules that are told apart state requirements of the same names.
    have hnames : all.map Requirement.name = (earlier ++ Fragment.requirements
        (w.adoptedFragments (Argument.fragments call.args))).map Requirement.name := by
      rw [List.map_append, List.map_append, Fragment.names_requirements_adoptedFragments]
    generalize earlier ++ Fragment.requirements _ = rs at hrun hnames
    rw [← List.length_map Requirement.name, ← List.head?_map, hnames]
    refine ⟨?_, ?_, fun e => hm.fst_step⟩
    · rw [hrun]
      obtain _ | ⟨q, _ | ⟨p, rest⟩⟩ := rs <;> simp
    · rw [hrun]
      obtain _ | ⟨q, _ | ⟨p, rest⟩⟩ := rs <;> simp
  · intro more hmore hf r hr
    have hafter := requirementIn_after (reachable_after h ops) hmore.after c name
    rw [hr] at hafter
    obtain ⟨rest, hrest⟩ := hafter ▸ ContractChange.prefix_stated hf name [r]
    have hone : ((t.after more).requirementIn i c name).length ≤ 1 := Option.length_toList_le
    rw [← hrest] at hone ⊢
    cases rest with
    | nil => rfl
    | cons q rest => simp at hone

/-- A field that must be there cannot become optional, also not together with another rule. -/
theorem required_once :
    let s := initial.after (redeclarations.take 2)
    let t := s.after (redeclarations.drop 2)
    StaysStrict 0 s (redeclarations.drop 2) ∧
      (t.step conflicting).1 = .error (.schema (.conflict "Point" "y" "required")) ∧
      ∃ r, r.name = "required" ∧ t.requirementIn 0 point "y" = [r] ∧
        (t.after [conflicting]).requirementIn 0 point "y" = [r] := by
  intro s t
  have hs : s.Reachable := reachable_after .initial _
  have hstrict : StaysStrict 0 s (redeclarations.drop 2) := by decide
  have hmore : StaysStrict 0 s (redeclarations.drop 2 ++ [conflicting]) := by decide
  obtain ⟨hcall, -, hstays⟩ := hs.declares_once hstrict point "y"
  let call : DeclareCall :=
    ⟨.registry 0, point, "y", [.fragment .integer, .fragment (.requirement .optional)], none⟩
  have hm : t.Makes conflicting [] call t.fresh.world t.fresh.world := ⟨⟨[], rfl⟩, rfl⟩
  obtain ⟨hconflict, -, hstep⟩ :=
    hcall conflicting [] call _ _ hm rfl rfl rfl (by rfl) rfl
  have hnames : (t.requirementIn 0 point "y").map Requirement.name = ["required"] := by
    decide
  obtain ⟨r, hr, hname⟩ := List.map_eq_singleton_iff.mp hnames
  refine ⟨hstrict, ?_, r, hname, hr, hstays [conflicting] hmore (by decide) r hr⟩
  exact hstep _ ((hconflict "required").mpr ⟨by decide, by decide⟩)

end Session

end SchemaBinding
