import SchemaBinding.Proofs.GroundedSessions

/-!
# Declarations that fail

A declaration that fails changes no contract. One that is refused changes nothing that can be seen.
One that conflicts with what was declared is found out only after its class has become known: a
class that was no schema is one from then on, without a single field.
-/

namespace SchemaBinding

/-- An operation that only looks at contracts: at fields, at plans, or at which classes are
schemas. -/
def Operation.observes : Operation → Bool
  | .fields .. => true
  | .fieldNames .. => true
  | .plan .. => true
  | .isSchema .. => true
  | .acceptsNested .. => true
  | _ => false

/-- An operation that only looks at the fields that have been declared. -/
def Operation.observesFields : Operation → Bool
  | .fields .. => true
  | .fieldNames .. => true
  | _ => false

/-- A fault is a conflict with what was declared before. -/
def Fault.isConflict : Fault → Bool
  | .schema (.conflict ..) => true
  | _ => false

namespace Registry

variable {t : ClassTable} {r : Registry} {c d : ClassRef}

/-- A class that becomes known is a schema from then on, and so are those that inherit from it. -/
theorem isSchema_know : (r.know c).isSchema t d = (r.isSchema t d || (t.order d).contains c) := by
  have h : ∀ ks : List ClassRef, ks.any (r.know c).knows = (ks.any r.knows || ks.contains c) := by
    intro ks
    induction ks with
    | nil => rfl
    | cons k ks ih =>
      rw [List.any_cons, List.any_cons, List.contains_cons, ih, knows_know, Bool.or_assoc,
        Bool.or_assoc, Bool.or_left_comm (c == k)]
  exact h _

/-- Where requiredness may be declared again, no declaration conflicts. -/
theorem declare_of_lenient (hr : r.strict = false) (c : ClassRef) (name : String)
    (fragments : List Fragment) (declared : Option DeclaredType) :
    (r.declare c name fragments declared).2.isOk = true := by
  rw [declare, hr, FieldContract.addAll_false]
  rfl

/-- That a class becomes known cannot be seen if it is a schema already. -/
theorem isSchema_know_of_isSchema (ht : t.Lawful) (h : r.isSchema t c = true) :
    (r.know c).isSchema t d = r.isSchema t d := by
  rw [isSchema_know, Bool.or_eq_left_iff_imp]
  intro hd
  obtain ⟨k, hk, hr⟩ := List.any_eq_true.mp h
  have hc : c ∈ t.order d := by simpa using hd
  exact List.any_eq_true.mpr ⟨k, ht.order_subset hc hk, hr⟩

end Registry

namespace World

variable {w v : World}

/-- A change that no operation can see that only looks at the fields that have been declared. -/
structure SameFields (w v : World) : Prop where
  classes : v.classes = w.classes
  own : ∀ i c, (v.registry i).own c = (w.registry i).own c

/-- A change that no operation can see that only looks at contracts. -/
structure Unseen (w v : World) : Prop extends SameFields w v where
  isSchema : ∀ i c, (v.registry i).isSchema w.classes c = (w.registry i).isSchema w.classes c

/-- The fields of a class are the same after a change that no look at fields can see. -/
theorem SameFields.fields (h : SameFields w v) (i : Nat) (c : ClassRef) :
    (v.registry i).fields v.classes c = (w.registry i).fields w.classes c := by
  rw [Registry.fields, Registry.fields, h.classes]
  simp only [h.own]

/-- Which classes may be nested is the same after a change that cannot be seen. -/
theorem Unseen.acceptsNested (h : Unseen w v) (i : Nat) :
    (v.registry i).acceptsNested v.classes = (w.registry i).acceptsNested w.classes := by
  funext c
  rw [Registry.acceptsNested, Registry.acceptsNested, h.classes, h.isSchema]

/-- The plan of a class is the same after a change that cannot be seen. -/
theorem Unseen.compile (h : Unseen w v) (i : Nat) (c : ClassRef) :
    (v.registry i).compile v.classes c = (w.registry i).compile w.classes c := by
  have hf : ∀ f, Registry.compileField v.classes (v.registry i) c f =
      Registry.compileField w.classes (w.registry i) c f := by
    intro f
    rw [Registry.compileField, Registry.compileField, h.acceptsNested]
  have hfs : ∀ fs, Registry.compileFields v.classes (v.registry i) c fs =
      Registry.compileFields w.classes (w.registry i) c fs := by
    intro fs
    induction fs with
    | nil => rfl
    | cons f fs ih => rw [Registry.compileFields, Registry.compileFields, hf, ih]
  rw [Registry.compile, Registry.compile, hfs, h.fields, h.classes, h.isSchema]

end World

namespace Session

open World

variable {s t : Session} {q : Operation}

/-- An operation that only looks at fields gives the same if these are the same. -/
theorem fst_step_of_sameFields (h : SameFields s.world t.world) (hq : q.observesFields = true) :
    (t.step q).1 = (s.step q).1 := by
  cases q with
  | fields i target =>
    cases target with
    | value v => rfl
    | cls c => exact congrArg (fun fs => Except.ok (Outcome.contracts fs)) (h.fields i c)
  | fieldNames i target =>
    cases target with
    | value v => rfl
    | cls c =>
      exact congrArg (fun fs => Except.ok (Outcome.names (fs.map FieldContract.name)))
        (h.fields i c)
  | _ => cases hq

/-- The plans of a class are compiled from its contracts, whether or not they have been kept. -/
theorem fst_step_plan (hs : s.world.Consistent) (i : Nat) (c : ClassRef) :
    (s.step (.plan i (.cls c))).1 =
      ((s.world.registry i).compile s.world.classes c).map Outcome.plans := by
  change (exec (act (planOf i c) >>= fun ps => pure (Outcome.plans ps)) s.fresh).1 = _
  rw [fst_exec_bind_pure, exec_act]
  have hf : s.fresh.world.Consistent := hs.clearJournal
  exact congrArg (Except.map Outcome.plans) (fst_exec_planOf hf i c)

/-- An operation that only looks at contracts gives the same after a change that is not seen. -/
theorem fst_step_of_unseen (hs : s.world.Consistent) (ht : t.world.Consistent)
    (h : Unseen s.world t.world) (hq : q.observes = true) : (t.step q).1 = (s.step q).1 := by
  cases q with
  | fields => exact fst_step_of_sameFields h.toSameFields rfl
  | fieldNames => exact fst_step_of_sameFields h.toSameFields rfl
  | plan i target =>
    cases target with
    | cls c =>
      rw [fst_step_plan ht, fst_step_plan hs, h.compile]
    | value v =>
      change (exec (act (plansOf planOf i (.value v)) >>= fun ps => pure (Outcome.plans ps)) _).1 =
        (exec (act (plansOf planOf i (.value v)) >>= fun ps => pure (Outcome.plans ps)) _).1
      rw [plansOf]
      cases asKey v <;> rfl
  | isSchema i target =>
    cases target with
    | value v => rfl
    | cls c =>
      have hc : (t.world.registry i).isSchema t.world.classes c =
          (s.world.registry i).isSchema s.world.classes c := by
        rw [h.classes]
        exact h.isSchema i c
      exact congrArg (fun b => Except.ok (Outcome.flag b)) hc
  | acceptsNested i target =>
    cases target with
    | value v => rfl
    | cls c => exact congrArg (fun p => Except.ok (Outcome.flag (p c))) (h.acceptsNested i)
  | _ => cases hq

/-- A declaration that fails is refused, and nothing that operations look at has changed; or it
conflicts with what was declared in its registry, and its class has become known there. -/
theorem step_declare_error {i : Nat} {c : ClassRef} {field : Value} {args : List Argument}
    {declared : Option DeclaredType} {e : Fault}
    (h : (s.step (.declare i (.cls c) field args declared)).1 = .error e) :
    e.isConflict = false ∧
        (s.step (.declare i (.cls c) field args declared)).2.world = s.fresh.world ∨
      e.isConflict = true ∧ i < s.world.registries.length ∧
        ∃ n, (s.step (.declare i (.cls c) field args declared)).2.world =
          ({ s.fresh.world with supply := n }).setRegistry i ((s.world.registry i).know c) := by
  have hr : (exec (declareField i c field args declared) s.fresh.world).1 = .error e :=
    fst_exec_act_bind (f := Outcome.contract) h
  have hw : (s.step (.declare i (.cls c) field args declared)).2.world =
      (exec (declareField i c field args declared) s.fresh.world).2 :=
    world_exec_act_bind (declareField i c field args declared) Outcome.contract s.fresh
  rw [hw]
  rcases exec_declareField_cases s.fresh.world i c field args declared with
    ⟨f, he, hf⟩ | ⟨name, n, -, ⟨requirement, hd, he⟩ | ⟨r, contract, first, -, he⟩⟩
  · left
    rw [he] at hr ⊢
    cases hr
    refine ⟨?_, rfl⟩
    unfold Fault.isConflict
    split
    · exact absurd rfl (hf _ _ _)
    · rfl
  · right
    rw [he] at hr ⊢
    cases hr
    refine ⟨rfl, ?_, n, rfl⟩
    by_contra hl
    have hempty : s.fresh.world.registry i = .empty false := by
      have hn : s.fresh.world.registries[i]? = none := List.getElem?_eq_none (Nat.le_of_not_lt hl)
      rw [registry, hn]
      rfl
    have hok := Registry.declare_of_lenient (r := .empty false) rfl c name
      (s.fresh.world.adoptedFragments (Argument.fragments args)) declared
    rw [hempty] at hd
    rw [hd] at hok
    cases hok
  · rw [he] at hr
    cases hr

private theorem sameFields_fresh (s : Session) :
    SameFields s.world s.fresh.world := ⟨rfl, fun _ _ => rfl⟩

/-- A class that becomes known to a registry has no fields by that. -/
theorem sameFields_know (w : World) (i : Nat) (n : Supply) (c : ClassRef) :
    SameFields w (({ w with supply := n } : World).setRegistry i ((w.registry i).know c)) := by
  refine ⟨rfl, fun j d => ?_⟩
  rw [registry_setRegistry]
  split
  · next hj =>
    rw [← hj.1, Registry.own_know]
  · rfl

/-- A class that becomes known to a registry is not seen to be so if it is a schema already. -/
theorem unseen_know {w : World} (hw : w.classes.Lawful) (i : Nat) (n : Supply) {c : ClassRef}
    (h : (w.registry i).isSchema w.classes c = true) :
    Unseen w (({ w with supply := n } : World).setRegistry i ((w.registry i).know c)) := by
  refine ⟨sameFields_know w i n c, fun j d => ?_⟩
  rw [registry_setRegistry]
  split
  · next hj =>
    rw [← hj.1]
    exact Registry.isSchema_know_of_isSchema hw h
  · rfl

private theorem Grounded.failed_declare_class {s : Session} (h : s.Grounded) {i : Nat}
    {c : ClassRef}
    {field : Value} {args : List Argument} {declared : Option DeclaredType} {e : Fault}
    (hc : s.world.classes.Has c)
    (hf : (s.step (.declare i (.cls c) field args declared)).1 = .error e) :
    let t := (s.step (.declare i (.cls c) field args declared)).2
    (∀ q : Operation, q.observesFields = true → (t.step q).1 = (s.step q).1) ∧
      ((∀ q : Operation, q.observes = true → (t.step q).1 = (s.step q).1) ↔
        ¬ (e.isConflict = true ∧ (s.world.registry i).isSchema s.world.classes c = false)) := by
  intro t
  have hs := h.reachable.consistent
  have ht : t.world.Consistent := (Reachable.step s _ h.reachable).consistent
  have hl := h.established.lawful
  rcases step_declare_error hf with ⟨hnot, hw⟩ | ⟨hconf, hi, n, hw⟩
  · have hun : Unseen s.world t.world := by
      rw [hw]
      exact ⟨sameFields_fresh s, fun _ _ => rfl⟩
    refine ⟨fun q => fst_step_of_sameFields hun.toSameFields, ?_⟩
    constructor
    · rintro - ⟨hconf, -⟩
      rw [hnot] at hconf
      cases hconf
    · intro _ q hq
      exact fst_step_of_unseen hs ht hun hq
  · have hsame : SameFields s.world t.world := by
      have hk := sameFields_know s.fresh.world i n c
      rw [hw]
      exact ⟨hk.classes, hk.own⟩
    refine ⟨fun q => fst_step_of_sameFields hsame, ?_⟩
    constructor
    · -- Whether the class is a schema tells.
      rintro hq ⟨-, hno⟩
      have hseen := hq (.isSchema i (.cls c)) rfl
      have hk : (t.world.registry i).isSchema t.world.classes c = true := by
        rw [hw, registry_setRegistry, if_pos ⟨rfl, hi⟩]
        exact List.any_eq_true.mpr ⟨c, hl.mem_order_self hc, by simp [Registry.knows_know]⟩
      have hflag : (s.step (.isSchema i (.cls c))).1 = .ok (.flag false) :=
        congrArg (fun b => Except.ok (Outcome.flag b)) hno
      have hflag' : (t.step (.isSchema i (.cls c))).1 = .ok (.flag true) :=
        congrArg (fun b => Except.ok (Outcome.flag b)) hk
      rw [hflag, hflag'] at hseen
      cases hseen
    · intro hnot q hq
      have hsch : (s.world.registry i).isSchema s.world.classes c = true := by
        by_contra hno
        exact hnot ⟨hconf, by simpa using hno⟩
      have hun : Unseen s.world t.world := by
        have hk := unseen_know (w := s.fresh.world) hl i n hsch
        rw [hw]
        exact ⟨⟨hk.classes, hk.own⟩, hk.isSchema⟩
      exact fst_step_of_unseen hs ht hun hq

/-- A declaration that fails leaves the fields of all classes as they were. And nothing that can be
seen of any registry changes: the fields, the plans and which classes are schemas. The one exception
is a conflict on a class that was no schema in the registry, which is a schema from then on. -/
theorem Grounded.failed_declare {s : Session} (h : s.Grounded) {i : Nat} {target : Target}
    {field : Value} {args : List Argument} {declared : Option DeclaredType} {e : Fault}
    (hc : target.In s.world.classes)
    (hf : (s.step (.declare i target field args declared)).1 = .error e) :
    let t := (s.step (.declare i target field args declared)).2
    (∀ q : Operation, q.observesFields = true → (t.step q).1 = (s.step q).1) ∧
      ((∀ q : Operation, q.observes = true → (t.step q).1 = (s.step q).1) ↔
        ¬ (e.isConflict = true ∧ ∃ c, target = .cls c ∧
          (s.world.registry i).isSchema s.world.classes c = false)) := by
  intro t
  cases target with
  | cls c =>
    obtain ⟨hfields, hall⟩ := h.failed_declare_class hc hf
    refine ⟨hfields, hall.trans (not_congr (and_congr_right fun _ => ?_))⟩
    constructor
    · intro hno
      exact ⟨c, rfl, hno⟩
    · rintro ⟨d, hd, hno⟩
      cases hd
      exact hno
  | value v =>
    have hun : Unseen s.world t.world := ⟨sameFields_fresh s, fun _ _ => rfl⟩
    have hs := h.reachable.consistent
    have ht : t.world.Consistent := hs.clearJournal
    refine ⟨fun q => fst_step_of_sameFields hun.toSameFields, iff_of_true ?_ ?_⟩
    · intro q hq
      exact fst_step_of_unseen hs ht hun hq
    · rintro ⟨-, c, hc, -⟩
      cases hc

/-- The creation of a strict registry and of a class that is no schema class. -/
def strictOps : List Operation := [.newRegistry true, .newClass "Plain" [.object] none []]

/-- The class that `strictOps` creates in a new session. -/
def plain : ClassRef := ⟨5, "Plain", false⟩

/-- A declaration whose own rules conflict. -/
def contradictory : Operation :=
  .declare 1 (.cls plain) (.str "x")
    [.fragment (.requirement .required), .fragment (.requirement .optional)] none

/-- The flag that an operation gives. -/
def flag? : Except Fault Outcome → Option Bool
  | .ok (.flag b) => some b
  | _ => none

/-- A declaration that conflicts makes a schema of a class that was none, without any field. -/
theorem contradictory_seen :
    let s := initial.after strictOps
    let t := (s.step contradictory).2
    ∃ e, (s.step contradictory).1 = .error e ∧ e.isConflict = true ∧
      flag? (s.step (.isSchema 1 (.cls plain))).1 = some false ∧
      flag? (t.step (.isSchema 1 (.cls plain))).1 = some true ∧
      (t.step (.fields 1 (.cls plain))).1 = (s.step (.fields 1 (.cls plain))).1 ∧
      ¬ ∀ q : Operation, q.observes = true → (t.step q).1 = (s.step q).1 := by
  intro s t
  have hs : s.Grounded := Grounded.initial.after (by decide)
  have hconf : (match (s.step contradictory).1 with
      | .error e => e.isConflict
      | .ok _ => false) = true := by decide
  have hno : (s.world.registry 1).isSchema s.world.classes plain = false := by decide
  cases he : (s.step contradictory).1 with
  | ok o =>
    rw [he] at hconf
    cases hconf
  | error e =>
    rw [he] at hconf
    have hin : Target.In s.world.classes (.cls plain) := by decide
    obtain ⟨hfields, hall⟩ := hs.failed_declare hin he
    refine ⟨e, rfl, hconf, by decide, by decide, hfields _ rfl, fun hq => ?_⟩
    exact hall.mp hq ⟨hconf, plain, rfl, hno⟩

end Session

end SchemaBinding
