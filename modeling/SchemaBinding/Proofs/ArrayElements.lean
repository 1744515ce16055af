import SchemaBinding.Proofs.Entries
import SchemaBinding.Proofs.PlanCache
import SchemaBinding.Proofs.RelatedPayloads

/-!
# Converting the elements of an array

The elements of an array are converted one after another, each as it would be on its own, until one
cannot be converted. A kind that refuses an element says at which index; whatever else an element
fails with is left as it is. What the elements before it have left behind does not matter to an
element, but for the origins of not-a-numbers that functions of the caller have made.
-/

namespace SchemaBinding

/-- What a kind expects, if it refuses a value for what the value is. -/
def ScalarKind.refusal? : ScalarKind → Value → Option String
  | .primitive p, v =>
    match p.convert v with
    | .ok _ => none
    | .error expected => some expected
  | .schema _, .dict _ => none
  | .schema _, _ => some JsonKind.object.name
  | .mapping, .dict _ => none
  | .mapping, _ => some JsonKind.object.name
  | .date _, _ => none
  | .any, _ => none

namespace Binding

open World

/-! ### One element -/

section Elements

variable (enter : Enter) (typeName field : String) (kind : ScalarKind)

/-- An element on its own: converted as the value of a field of its kind. -/
def convertAlone (item : Value) : Action Value := convertScalar enter typeName field none item kind

/-- What an array fails with at an element that on its own fails with a fault. -/
def faultAt (index : Nat) (item : Value) (alone : Fault) : Fault :=
  match kind.refusal? item with
  | some expected => .binding ⟨typeName, field, .mismatch expected item.kind (some index)⟩
  | none => alone

variable {enter typeName field kind}

private theorem convertScalar_of_refused {item : Value} {expected : String}
    (h : kind.refusal? item = some expected) (index : Option Nat) :
    convertScalar enter typeName field index item kind =
      fail typeName field (.mismatch expected item.kind index) := by
  cases kind with
  | primitive p =>
    rw [ScalarKind.refusal?] at h
    rw [convertScalar]
    cases hp : p.convert item with
    | ok v =>
      rw [hp] at h
      cases h
    | error e =>
      rw [hp] at h
      rw [Option.some.inj h]
  | schema cls =>
    cases item with
    | dict entries => cases h
    | _ =>
      cases h
      rfl
  | mapping =>
    cases item with
    | dict entries => cases h
    | _ =>
      cases h
      rfl
  | date target => cases h
  | any => cases h

/-- An element that its kind does not refuse is converted the same whatever its index. -/
theorem convertScalar_of_not_refused {item : Value} (h : kind.refusal? item = none)
    (index : Option Nat) :
    convertScalar enter typeName field index item kind =
      convertAlone enter typeName field kind item := by
  cases kind with
  | primitive p =>
    rw [ScalarKind.refusal?] at h
    rw [convertAlone, convertScalar, convertScalar]
    cases hp : p.convert item with
    | ok v => rfl
    | error e =>
      rw [hp] at h
      cases h
  | schema cls =>
    cases item with
    | dict entries => rfl
    | _ => cases h
  | mapping =>
    cases item with
    | dict entries => rfl
    | _ => cases h
  | date target => rfl
  | any => rfl

variable {item v : Value} {g : Fault} {w u x : World}

/-- In an array an element is converted to what it is converted to on its own. -/
theorem exec_convertScalar_ok (index : Nat)
    (h : exec (convertAlone enter typeName field kind item) w = (.ok v, u)) :
    exec (convertScalar enter typeName field (some index) item kind) w = (.ok v, u) := by
  cases hr : kind.refusal? item with
  | none => rw [convertScalar_of_not_refused hr, h]
  | some expected =>
    rw [convertAlone, convertScalar_of_refused hr] at h
    cases h

/-- In an array an element fails with what it fails with on its own, up to the index. -/
theorem exec_convertScalar_error (index : Nat)
    (h : exec (convertAlone enter typeName field kind item) w = (.error g, u)) :
    exec (convertScalar enter typeName field (some index) item kind) w =
      (.error (faultAt typeName field kind index item g), u) := by
  cases hr : kind.refusal? item with
  | none => rw [convertScalar_of_not_refused hr, h, faultAt, hr]
  | some expected =>
    rw [convertAlone, convertScalar_of_refused hr] at h
    cases h
    rw [convertScalar_of_refused hr, faultAt, hr]
    rfl

/-! ### One element after another -/

variable (enter typeName field kind) in
/-- Elements converted one after another, each on its own in the world that those before it have
left. -/
inductive ConvertsEach : World → List Value → List Value → World → Prop
  | nil (w : World) : ConvertsEach w [] [] w
  | cons {w u x : World} {item v : Value} {items vs : List Value}
    (head : exec (convertAlone enter typeName field kind item) w = (.ok v, u))
    (tail : ConvertsEach u items vs x) : ConvertsEach w (item :: items) (v :: vs) x

variable {items before after vs : List Value}

private theorem ConvertsEach.exec_eq (h : ConvertsEach enter typeName field kind w items vs u)
    (index : Nat) :
    exec (convertItems enter typeName field kind index items) w = (.ok vs, u) := by
  induction h generalizing index with
  | nil w => rfl
  | cons head _ ih =>
    rw [convertItems, exec_bind_of_ok (exec_convertScalar_ok index head), exec_bind_of_ok (ih _)]
    rfl

/-- An element that fails after others have been converted makes the conversion fail. -/
theorem ConvertsEach.exec_append (h : ConvertsEach enter typeName field kind w before vs x)
    (hb : exec (convertAlone enter typeName field kind item) x = (.error g, u)) (index : Nat) :
    exec (convertItems enter typeName field kind index (before ++ item :: after)) w =
      (.error (faultAt typeName field kind (index + before.length) item g), u) := by
  rw [convertItems_append, exec_bind_of_ok (h.exec_eq index)]
  refine exec_bind_of_error ?_ _
  exact exec_bind_of_error (exec_convertScalar_error _ hb) _

variable (enter typeName field kind) in
/-- Elements are all converted, or they are up to one that fails. -/
theorem each_or_failure (items : List Value) (w : World) :
    (∃ vs u, ConvertsEach enter typeName field kind w items vs u) ∨
      ∃ before item after vs x g u, items = before ++ item :: after ∧
        ConvertsEach enter typeName field kind w before vs x ∧
        exec (convertAlone enter typeName field kind item) x = (.error g, u) := by
  induction items generalizing w with
  | nil => exact .inl ⟨[], w, .nil w⟩
  | cons item items ih =>
    rcases hx : exec (convertAlone enter typeName field kind item) w with ⟨g | v, u⟩
    · exact .inr ⟨[], item, items, [], w, g, u, rfl, .nil w, hx⟩
    · rcases ih u with ⟨vs, x, h⟩ | ⟨before, bad, after, vs, x, g, y, rfl, h, hb⟩
      · exact .inl ⟨v :: vs, x, .cons hx h⟩
      · exact .inr ⟨item :: before, bad, after, v :: vs, x, g, y, rfl, .cons hx h, hb⟩

private theorem exec_convertItems_ok_iff {index : Nat} :
    exec (convertItems enter typeName field kind index items) w = (.ok vs, u) ↔
      ConvertsEach enter typeName field kind w items vs u := by
  refine ⟨fun h => ?_, fun h => h.exec_eq index⟩
  rcases each_or_failure enter typeName field kind items w with
    ⟨vs', u', hc⟩ | ⟨_, _, _, _, _, _, _, rfl, hc, hb⟩
  · rw [hc.exec_eq index] at h
    cases h
    exact hc
  · rw [hc.exec_append hb] at h
    cases h

private theorem exec_convertItems_error_iff {index : Nat} {f : Fault} :
    exec (convertItems enter typeName field kind index items) w = (.error f, u) ↔
      ∃ before item after vs x g, items = before ++ item :: after ∧
        ConvertsEach enter typeName field kind w before vs x ∧
        exec (convertAlone enter typeName field kind item) x = (.error g, u) ∧
        f = faultAt typeName field kind (index + before.length) item g := by
  constructor
  · intro h
    rcases each_or_failure enter typeName field kind items w with
      ⟨vs, x, hc⟩ | ⟨before, item, after, vs, x, g, y, rfl, hc, hb⟩
    · rw [hc.exec_eq index] at h
      cases h
    · rw [hc.exec_append hb] at h
      cases h
      exact ⟨before, item, after, vs, x, g, rfl, hc, hb, rfl⟩
  · rintro ⟨before, item, after, vs, x, g, rfl, hc, hb, rfl⟩
    exact hc.exec_append hb index

end Elements

/-! ### Each element from the same world -/

/-- The two worlds have come about from one world by calm changes, with the same origins taken. -/
structure Abreast (w₀ w u : World) : Prop where
  left : Steady w₀ w
  right : Steady w₀ u
  origin : w.supply.origin = u.supply.origin

variable {w₀ w u : World}

private theorem twinned_abreast (w₀ : World) : Twinned Value.Alike (Abreast w₀) where
  classes h := h.left.2.classes.trans h.right.2.classes.symm
  growth h := h.left.2.growth.trans h.right.2.growth.symm
  adopted h hab := alike_adopted hab h.origin
  adopting h hab := ⟨h.left.adopting _, h.right.adopting _, origin_adopting hab h.origin⟩
  called _ _ _ h _ := ⟨h.left.called _, h.right.called _, h.origin⟩
  logged _ _ _ h _ := ⟨h.left.logged _ _, h.right.logged _ _, h.origin⟩

/-- Asking for the plan of a class takes no labels and no origins. -/
theorem supply_planOf (i : Nat) (cls : ClassRef) (w : World) :
    (exec (planOf i cls) w).2.supply = w.supply := by
  cases hk : (w.registry i).cached? cls with
  | some plans => rw [exec_planOf_kept hk]
  | none =>
    rw [exec_planOf_compiled hk]
    cases (w.registry i).compile w.classes cls <;> rfl

/-- Both worlds compile the plan of a class as the one they have come from. -/
theorem parallel_abreast (w₀ : World) : Parallel w₀ (Abreast w₀) where
  twinned := twinned_abreast w₀
  binder h i := ⟨h.left.2.binder i, h.right.2.binder i⟩
  nestedBinder h binder c := ⟨h.left.2.nestedBinder binder c, h.right.2.nestedBinder binder c⟩
  plans binder cls := by
    intro w u h
    have hw := fst_exec_planOf h.left.1 (w₀.binder binder).registry cls
    have hu := fst_exec_planOf h.right.1 (w₀.binder binder).registry cls
    rw [h.left.2.compile] at hw
    rw [h.right.2.compile] at hu
    refine .inr ⟨?_, (mirrors_planOf _ cls w h.left).2, (mirrors_planOf _ cls u h.right).2, ?_⟩
    · rw [hw, hu, World.plansFor]
      cases (w₀.registry (w₀.binder binder).registry).compile w₀.classes cls with
      | ok plans => exact .ok ⟨rfl, rfl⟩
      | error f => exact .error (.refl f)
    · rw [supply_planOf, supply_planOf]
      exact h.origin

/-- A payload is populated alike in both worlds. -/
theorem sideBySide_populate_abreast {E : Fault → Prop} (levels binder depth : Nat)
    (cls : ClassRef) {a b : Value} (h : a.Alike b) :
    SideBySide (Abreast w₀) E (FaultLike Value.Alike) (AttrsLike Value.Alike)
      (populate planOf levels binder depth cls a) (populate planOf levels binder depth cls b) :=
  sideBySide_populate_parallel (R := fun _ _ _ _ => False) (parallel_abreast w₀)
    (fun _ _ _ _ _ _ _ hr => hr.elim) levels depth (.alike h)

/-- A schema nested in an entry is entered alike in both worlds. -/
theorem sideBySide_enter_abreast {E : Fault → Prop} (e : Entry) (cls : ClassRef) {a b : Value}
    (h : a.Alike b) :
    SideBySide (Abreast w₀) E (FaultLike Value.Alike) Value.Alike (e.enter cls a)
      (e.enter cls b) :=
  SideBySide.bind (sideBySide_populate_abreast _ _ _ cls h) fun _ _ hr =>
    SideBySide.pure (Value.likeness_alike.instanceOf cls hr)

namespace Entry

variable (e : Entry) (field : String) (kind : ScalarKind)

/-- What an element gives on its own in a world. -/
def alone (w : World) (item : Value) : Except Fault Value :=
  (exec (convertAlone e.enter e.cls.name field kind item) w).1

/-- Converting an element on its own makes no not-a-number that was not there before. -/
def MakesNone (w : World) (item : Value) : Prop :=
  ∀ v u, exec (convertAlone e.enter e.cls.name field kind item) w = (.ok v, u) →
    u.supply.origin = w.supply.origin

variable {e field kind}

/-- Only a nested schema can make not-a-numbers, by the functions of its fields. -/
theorem makesNone_of_ne_schema (h : ∀ cls, kind ≠ .schema cls) (w : World) (item : Value) :
    e.MakesNone field kind w item := by
  have hw : (exec (convertAlone e.enter e.cls.name field kind item) w).2 = w := by
    rw [convertAlone]
    cases kind with
    | schema cls => exact absurd rfl (h cls)
    | primitive p =>
      rw [convertScalar]
      cases p.convert item <;> rfl
    | date target =>
      rw [convertScalar]
      rcases parseDate item target with _ | _ | _ <;> rfl
    | mapping => cases item <;> rfl
    | any => rfl
  intro v u hv
  rw [hv] at hw
  exact congrArg (fun x : World => x.supply.origin) hw

/-- An element on its own is converted alike in both worlds. -/
theorem sideBySide_convertAlone (item : Value) :
    SideBySide (Abreast w₀) (fun _ => False) (FaultLike Value.Alike) Value.Alike
      (convertAlone e.enter e.cls.name field kind item)
      (convertAlone e.enter e.cls.name field kind item) := by
  refine sideBySide_convertScalar (N := fun _ _ _ => False) Value.likeness_alike
    (fun cls es fs hef => ?_) e.cls.name field none (.alike rfl)
  cases hef with
  | nested h => exact h.elim
  | alike h => exact sideBySide_enter_abreast e cls h

/-- An element that is converted in one of two worlds abreast is converted alike in the other. The
worlds stay abreast if it makes no not-a-number. -/
theorem exec_of_alone_ok (h : Abreast w₀ w u) {item v : Value}
    (hm : e.MakesNone field kind w item) (hv : e.alone field kind w item = .ok v) :
    ∃ v' y, exec (convertAlone e.enter e.cls.name field kind item) u = (.ok v', y) ∧
      v.Alike v' ∧ Abreast w₀ w y := by
  rcases sideBySide_convertAlone item w u h with ⟨_, _, hf⟩ | ⟨hr, hs⟩
  · exact hf.elim
  · rw [alone] at hv
    have ho := hm v _ (Prod.ext hv rfl)
    rw [hv] at hr
    rcases hu : exec (convertAlone e.enter e.cls.name field kind item) u with ⟨r, y⟩
    rw [hu] at hr hs
    cases hr with
    | ok hq => exact ⟨_, y, rfl, hq, h.left, hs.right, ho.symm.trans hs.origin⟩

/-- An element that fails in one of two worlds abreast fails alike in the other. -/
theorem exec_of_alone_error (h : Abreast w₀ w u) {item : Value} {g : Fault}
    (hg : e.alone field kind w item = .error g) :
    ∃ g' y, exec (convertAlone e.enter e.cls.name field kind item) u = (.error g', y) ∧
      FaultLike Value.Alike g g' := by
  rcases sideBySide_convertAlone item w u h with ⟨_, _, hf⟩ | ⟨hr, -⟩
  · exact hf.elim
  · rw [alone] at hg
    rw [hg] at hr
    rcases hu : exec (convertAlone e.enter e.cls.name field kind item) u with ⟨r, y⟩
    rw [hu] at hr
    cases hr with
    | error hq => exact ⟨_, y, rfl, hq⟩

/-- Elements that can be converted on their own are converted alike one after another. -/
theorem convertsEach_of_alone {items : List Value} (h : Abreast w₀ w u)
    (hm : ∀ item ∈ items, e.MakesNone field kind w item)
    (hv : ∀ item ∈ items, ∃ v, e.alone field kind w item = .ok v) :
    ∃ vs x, ConvertsEach e.enter e.cls.name field kind u items vs x ∧ Abreast w₀ w x ∧
      List.Forall₂ (fun item v => ∃ own, e.alone field kind w item = .ok own ∧ own.Alike v)
        items vs := by
  induction items generalizing u with
  | nil => exact ⟨[], u, .nil u, h, .nil⟩
  | cons item items ih =>
    obtain ⟨hitem, hitems⟩ := List.forall_mem_cons.mp hm
    obtain ⟨⟨own, hown⟩, hrest⟩ := List.forall_mem_cons.mp hv
    obtain ⟨v, y, hx, ha, hy⟩ := exec_of_alone_ok h hitem hown
    obtain ⟨vs, x, hc, hs, hf⟩ := ih hy hitems hrest
    exact ⟨v :: vs, x, .cons hx hc, hs, .cons ⟨own, hown, ha⟩ hf⟩

end Entry

/-- The faults of an array at an element are alike if those of the element are. -/
theorem faultLike_faultAt {kind : ScalarKind} (typeName field : String) (index : Nat)
    (item : Value) {g g' : Fault} (h : FaultLike Value.Alike g g') :
    FaultLike Value.Alike (faultAt typeName field kind index item g)
      (faultAt typeName field kind index item g') := by
  unfold faultAt
  cases kind.refusal? item with
  | none => exact h
  | some expected => exact .refl _

/-! ### Arrays -/

section Arrays

variable {e : Entry} {plan : FieldPlan} {kind : ScalarKind} {raw : Value} {items : List Value}
  {w u : World}

private theorem convertField_of_items {enter : Enter} {typeName : String}
    (h : arrayItems? raw = some items) :
    convertField enter typeName plan (.array (some kind)) raw = (do
      let vs ← convertItems enter typeName plan.name kind 0 items
      return .list vs none) := by
  simp only [convertField, convert, h]

private theorem exec_convertField_ok_iff {enter : Enter} {typeName : String} {o : Value}
    (h : arrayItems? raw = some items) :
    exec (convertField enter typeName plan (.array (some kind)) raw) w = (.ok o, u) ↔
      ∃ vs, o = .list vs none ∧ ConvertsEach enter typeName plan.name kind w items vs u := by
  rw [convertField_of_items h, exec_bind_eq_ok_iff]
  constructor
  · rintro ⟨vs, x, hvs, ho⟩
    cases ho
    exact ⟨vs, rfl, exec_convertItems_ok_iff.mp hvs⟩
  · rintro ⟨vs, rfl, hvs⟩
    exact ⟨vs, u, exec_convertItems_ok_iff.mpr hvs, rfl⟩

private theorem exec_convertField_error_iff {enter : Enter} {typeName : String} {f : Fault}
    (h : arrayItems? raw = some items) :
    exec (convertField enter typeName plan (.array (some kind)) raw) w = (.error f, u) ↔
      ∃ before item after vs x g, items = before ++ item :: after ∧
        ConvertsEach enter typeName plan.name kind w before vs x ∧
        exec (convertAlone enter typeName plan.name kind item) x = (.error g, u) ∧
        f = faultAt typeName plan.name kind before.length item g := by
  have hitems : exec (convertItems enter typeName plan.name kind 0 items) w = (.error f, u) ↔ _ :=
    exec_convertItems_error_iff
  simp only [Nat.zero_add] at hitems
  rw [← hitems, convertField_of_items h]
  constructor
  · intro hf
    rcases hx : exec (convertItems enter typeName plan.name kind 0 items) w with ⟨g | vs, x⟩
    · rw [exec_bind_of_error hx] at hf
      cases hf
      rfl
    · rw [exec_bind_of_ok hx] at hf
      cases hf
  · exact fun hf => exec_bind_of_error hf _

/-- A field of array kind converts the elements of a list or a tuple one after another, and fails
with the first that fails. A kind that refuses the element names the field and the index then, and
any other fault is the element's own. From a world of a session it makes no difference to convert
each element in that world instead, as long as none of them makes a not-a-number: the array can be
converted exactly if they all can, to a list of what they are alike to, and else the first of them
that cannot be converted tells the fault. -/
theorem convertField_array (e : Entry) (plan : FieldPlan) (kind : ScalarKind) {raw : Value}
    {items : List Value} (hi : arrayItems? raw = some items) (w : World) :
    (∀ o u, exec (convertField e.enter e.cls.name plan (.array (some kind)) raw) w = (.ok o, u) ↔
      ∃ vs, o = .list vs none ∧ ConvertsEach e.enter e.cls.name plan.name kind w items vs u) ∧
    (∀ f u, exec (convertField e.enter e.cls.name plan (.array (some kind)) raw) w =
        (.error f, u) ↔
      ∃ before item after vs x g, items = before ++ item :: after ∧
        ConvertsEach e.enter e.cls.name plan.name kind w before vs x ∧
        exec (convertAlone e.enter e.cls.name plan.name kind item) x = (.error g, u) ∧
        f = faultAt e.cls.name plan.name kind before.length item g) ∧
    (w.Consistent →
      (∀ cls, kind = .schema cls → ∀ item ∈ items, e.MakesNone plan.name kind w item) →
      ((∀ item ∈ items, ∃ v, e.alone plan.name kind w item = .ok v) →
        ∃ vs, (exec (convertField e.enter e.cls.name plan (.array (some kind)) raw) w).1 =
            .ok (.list vs none) ∧
          List.Forall₂ (fun item v => ∃ own, e.alone plan.name kind w item = .ok own ∧
            own.Alike v) items vs) ∧
      ∀ before item after g, items = before ++ item :: after →
        (∀ b ∈ before, ∃ v, e.alone plan.name kind w b = .ok v) →
        e.alone plan.name kind w item = .error g →
        ∃ f, (exec (convertField e.enter e.cls.name plan (.array (some kind)) raw) w).1 =
            .error f ∧
          FaultLike Value.Alike (faultAt e.cls.name plan.name kind before.length item g) f) := by
  refine ⟨fun o u => exec_convertField_ok_iff hi, fun f u => exec_convertField_error_iff hi,
    fun hw hm => ?_⟩
  have hs : Abreast w w w := ⟨.refl hw, .refl hw, rfl⟩
  have hnone : ∀ item ∈ items, e.MakesNone plan.name kind w item := by
    intro item hitem
    by_cases hk : ∃ cls, kind = .schema cls
    · obtain ⟨cls, hk⟩ := hk
      exact hm cls hk item hitem
    · exact Entry.makesNone_of_ne_schema (not_exists.mp hk) w item
  refine ⟨fun hv => ?_, fun before item after g hsplit hv hg => ?_⟩
  · obtain ⟨vs, x, hc, -, hf⟩ := Entry.convertsEach_of_alone hs hnone hv
    exact ⟨vs, congrArg Prod.fst ((exec_convertField_ok_iff hi).mpr ⟨vs, rfl, hc⟩), hf⟩
  · subst hsplit
    have hbefore := fun b hb => hnone b (List.mem_append_left _ hb)
    obtain ⟨vs, x, hc, hx, -⟩ := Entry.convertsEach_of_alone hs hbefore hv
    obtain ⟨g', y, hg', hl⟩ := Entry.exec_of_alone_error hx hg
    have hfail := (exec_convertField_error_iff hi).mpr
      ⟨before, item, after, vs, x, g', rfl, hc, hg', rfl⟩
    exact ⟨_, congrArg Prod.fst hfail, faultLike_faultAt _ _ _ _ hl⟩

end Arrays

end Binding

namespace Session

open Binding

/-- A field for a list of nodes, in which an integer is asked for. -/
def children : FieldPlan :=
  ⟨"children", "children", .optional, some (.array (some (.schema node))), none, [], [], true⟩

/-- A node about to be bound. -/
def parent : Entry := ⟨nesting.world, 1, 0, node, .dict []⟩

/-- Nodes are bound one by one, and a number among them is refused at its index. -/
theorem children_converted :
    (∃ vs : List Value,
      (exec (convertField parent.enter "Node" children (.array (some (.schema node)))
        (.tuple [.dict (chain 1), .dict []])) nesting.world).1 = .ok (.list vs none) ∧
      vs.length = 2) ∧
    (exec (convertField parent.enter "Node" children (.array (some (.schema node)))
      (.list [.dict (chain 1), .int 3, .int 4] none)) nesting.world).1 =
        .error (.binding ⟨"Node", "children", .mismatch "object" .number (some 1)⟩) := by
  have hw : nesting.world.Consistent := nesting_reachable.consistent
  have hnone : ∀ item : Value, (exec (convertAlone parent.enter "Node" "children" (.schema node)
      item) nesting.world).2.supply.origin = nesting.world.supply.origin →
      parent.MakesNone "children" (.schema node) nesting.world item := by
    intro item h v u hv
    have hv : exec (convertAlone parent.enter "Node" "children" (.schema node) item)
        nesting.world = (.ok v, u) := hv
    rw [hv] at h
    exact h
  have hchain := hnone (.dict (chain 1)) (by decide +kernel)
  have hempty := hnone (.dict []) (by decide +kernel)
  have hthree := hnone (.int 3) (by decide +kernel)
  have hfour := hnone (.int 4) (by decide +kernel)
  have hown : ∀ item, (parent.alone "children" (.schema node) nesting.world item).isOk = true →
      ∃ v, parent.alone "children" (.schema node) nesting.world item = .ok v := by
    intro item h
    cases ha : parent.alone "children" (.schema node) nesting.world item with
    | ok v => exact ⟨v, rfl⟩
    | error g =>
      rw [ha] at h
      cases h
  have hfirst := hown (.dict (chain 1)) (by decide +kernel)
  have hsecond := hown (.dict []) (by decide +kernel)
  have htuple : arrayItems? (.tuple [.dict (chain 1), .dict []]) =
      some [.dict (chain 1), .dict []] := rfl
  have hlist : arrayItems? (.list [.dict (chain 1), .int 3, .int 4] none) =
      some [.dict (chain 1), .int 3, .int 4] := rfl
  obtain ⟨-, -, hnodes⟩ := convertField_array parent children (.schema node) htuple nesting.world
  obtain ⟨-, -, hnumber⟩ := convertField_array parent children (.schema node) hlist nesting.world
  have hnodes := hnodes hw fun _ _ => List.forall_mem_cons.mpr
    ⟨hchain, List.forall_mem_singleton.mpr hempty⟩
  have hnumber := hnumber hw fun _ _ => List.forall_mem_cons.mpr
    ⟨hchain, List.forall_mem_cons.mpr ⟨hthree, List.forall_mem_singleton.mpr hfour⟩⟩
  obtain ⟨vs, hvs, hf⟩ := hnodes.1 (List.forall_mem_cons.mpr
    ⟨hfirst, List.forall_mem_singleton.mpr hsecond⟩)
  obtain ⟨f, hfail, hlike⟩ := hnumber.2 [.dict (chain 1)] (.int 3) [.int 4] _ rfl
    (List.forall_mem_singleton.mpr hfirst) rfl
  refine ⟨⟨vs, hvs, hf.length_eq.symm⟩, hfail.trans ?_⟩
  cases hlike with
  | refl => rfl
  | binding typeName field h =>
    cases h
    rfl

end Session

end SchemaBinding
