import SchemaBinding.Proofs.BindClosure
import SchemaBinding.Proofs.BindingSideBySide

/-!
# Raised depth limits

A bind that is not stopped by a depth limit does not depend on it: from a world in which the limits
of the binders are raised it gives the same, calls the same functions of the caller and logs the
same events.
-/

namespace SchemaBinding

/-- The second binder has the same registry and allows at least as many levels. -/
def Binder.Allows (a b : Binder) : Prop := a.registry = b.registry ∧ a.maxDepth ≤ b.maxDepth

namespace World

/-- The second world is the first with the depth limits of its binders raised. -/
structure Raised (w u : World) : Prop where
  classes : w.classes = u.classes
  registries : w.registries = u.registries
  binders : List.Forall₂ Binder.Allows w.binders u.binders
  events : w.events = u.events
  calls : w.calls = u.calls
  growth : w.growth = u.growth
  supply : w.supply = u.supply

/-- What a bind fails with when schemas are nested more deeply than a binder allows. -/
def TooDeep (w : World) (f : Fault) : Prop :=
  ∃ typeName binder,
    f = .ofBinding ⟨typeName, rootField, .tooDeep (w.binder binder).maxDepth⟩

variable {w u : World}

/-- A world is itself with no limit raised. -/
theorem Raised.refl (w : World) : w.Raised w :=
  ⟨rfl, rfl, List.forall₂_same.mpr fun _ _ => ⟨rfl, Nat.le_refl _⟩, rfl, rfl, rfl, rfl⟩

/-- A binder allows as much with its limit raised. -/
theorem Raised.binder (h : w.Raised u) (i : Nat) : (w.binder i).Allows (u.binder i) := by
  have hb := h.binders
  unfold World.binder
  generalize w.binders = bs at hb
  generalize u.binders = cs at hb
  induction hb generalizing i with
  | nil => exact ⟨rfl, Nat.le_refl _⟩
  | cons hbc _ ih =>
    cases i with
    | zero => exact hbc
    | succ i => exact ih i

/-- Raised limits leave which binder a nested schema is bound with. -/
theorem Raised.nestedBinder (h : w.Raised u) (binder : Nat) (cls : ClassRef) :
    w.nestedBinder binder cls = u.nestedBinder binder cls := by
  rw [World.nestedBinder, World.nestedBinder, binderOf, binderOf, h.classes]

/-- The bound of the recursion grows with the limits. -/
theorem Raised.depthBound (h : w.Raised u) : w.depthBound ≤ u.depthBound := by
  have hmono : ∀ {bs cs : List Binder} {m n : Nat}, List.Forall₂ Binder.Allows bs cs → m ≤ n →
      (bs.map Binder.maxDepth).foldl max m ≤ (cs.map Binder.maxDepth).foldl max n := by
    intro bs cs m n hbc hmn
    induction hbc generalizing m n with
    | nil => exact hmn
    | cons hbc _ ih =>
      have hd := hbc.2
      exact ih (by omega)
  exact hmono h.binders (Nat.le_refl _)

/-- The second world is the first with limits raised, and the first has the binders and the classes
of a world before. -/
def RaisedSince (w₀ w u : World) : Prop :=
  w.Raised u ∧ w.binders = w₀.binders ∧ w.classes = w₀.classes

end World

namespace Binding

open World

variable {w₀ : World}

/-- Runs from a world and from one with raised limits share what binding reads. -/
theorem twinned_raisedSince (w₀ : World) : Twinned Eq (RaisedSince w₀) where
  classes h := h.1.classes
  growth h := h.1.growth
  adopted h hab := by rw [World.adopted, World.adopted, h.1.supply, hab]
  adopting h hab := by
    obtain ⟨h, hb, hc⟩ := h
    refine ⟨⟨h.classes, h.registries, h.binders, h.events, h.calls, h.growth, ?_⟩, hb, hc⟩
    rw [World.adopting, World.adopting, h.supply, hab]
  called label subject field h hab := by
    obtain ⟨h, hb, hc⟩ := h
    refine ⟨⟨h.classes, h.registries, h.binders, h.events, ?_, h.growth, h.supply⟩, hb, hc⟩
    rw [h.calls, hab]
  logged schema typeName field h hcd := by
    obtain ⟨h, hb, hc⟩ := h
    refine ⟨⟨h.classes, h.registries, h.binders, ?_, h.calls, h.growth, h.supply⟩, hb, hc⟩
    rw [World.log, World.log, h.events, hcd.eq]

/-- With raised limits the plan of a class is the same. -/
theorem sideBySide_planOf (i : Nat) (c : ClassRef) :
    SideBySide (RaisedSince w₀) w₀.TooDeep (FaultLike Eq) Eq (planOf i c) (planOf i c) := by
  intro w u ⟨h, hb, hcl⟩
  refine .inr ?_
  rcases exec_planOf_twice h.registries h.classes i c with
    ⟨r, hw, hu⟩ | ⟨plans, q, e, hw, hu⟩
  · rw [hw, hu]
    exact ⟨.refl .refl r, h, hb, hcl⟩
  · rw [hw, hu]
    refine ⟨.ok rfl, ⟨h.classes, ?_, h.binders, ?_, h.calls, h.growth, h.supply⟩, hb, hcl⟩
    · simp only [World.log, World.setRegistry, h.registries]
    · simp only [World.log, World.setRegistry, h.events]

/-- Beyond the depth limit of its binder a schema is not entered. -/
theorem exec_populate_tooDeep (source : PlanSource) {levels binder depth : Nat} (cls : ClassRef)
    (data : Value) {w : World} (h : levels = 0 ∨ (w.binder binder).maxDepth < depth) :
    exec (populate source levels binder depth cls data) w =
      (.error (.ofBinding ⟨cls.name, rootField, .tooDeep (w.binder binder).maxDepth⟩), w) := by
  cases levels with
  | zero => rfl
  | succ levels =>
    have hd := h.resolve_left (Nat.succ_ne_zero levels)
    simp only [populate, exec_bind, exec_get, if_pos hd]
    rfl

/-- A payload is populated the same with more levels and raised limits, unless schemas are nested
too deeply. -/
theorem sideBySide_populate {levels more : Nat} (hl : levels ≤ more) (binder depth : Nat)
    (cls : ClassRef) (data : Value) :
    SideBySide (RaisedSince w₀) w₀.TooDeep (FaultLike Eq) (AttrsLike Eq)
      (populate planOf levels binder depth cls data)
      (populate planOf more binder depth cls data) := by
  induction levels generalizing more binder depth cls data with
  | zero =>
    intro w u ⟨_, hb, _⟩
    refine .inl ⟨_, congrArg Prod.fst (exec_populate_tooDeep planOf cls data (.inl rfl)),
      cls.name, binder, ?_⟩
    rw [World.binder, World.binder, hb]
  | succ levels ih =>
    obtain ⟨more, rfl⟩ : ∃ n, more = n + 1 := ⟨more - 1, by omega⟩
    refine SideBySide.get fun w u hs => ?_
    obtain ⟨h, hb, hcl⟩ := hs
    have hm := h.binder binder
    by_cases hd : (w.binder binder).maxDepth < depth
    · dsimp only
      rw [if_pos hd]
      refine SideBySide.excuse ⟨cls.name, binder, ?_⟩ _ w u ⟨h, hb, hcl⟩
      rw [World.binder, World.binder, hb]
    · have hu : ¬ (u.binder binder).maxDepth < depth := by
        have hle := hm.2
        omega
      dsimp only
      rw [if_neg hd, if_neg hu]
      cases data with
      | dict entries =>
        dsimp only
        rw [← hm.1]
        refine SideBySide.bind (sideBySide_planOf _ cls) (fun plans _ hp => ?_) w u ⟨h, hb, hcl⟩
        subst hp
        refine sideBySide_bindFields (N := fun _ _ _ => False) likeness_eq
          (twinned_raisedSince w₀) (fun c es fs hef => ?_) cls
          (fun plan _ => (RawLike.alike rfl).told likeness_eq (twinned_raisedSince w₀)) .nil
        have hes : es = fs := by
          cases hef with
          | alike h => exact Value.dict.inj h
          | nested h => exact h.elim
        rw [hes, h.nestedBinder binder c]
        exact SideBySide.bind (ih (by omega) _ _ c _) fun as bs ha =>
          SideBySide.pure (likeness_eq.instanceOf c ha)
      | _ => exact sideBySide_fail likeness_eq cls.name rootField (.refl _) w u ⟨h, hb, hcl⟩

private theorem sideBySide_bindAttrs (w₀ : World) (binder : Nat) (cls : ClassRef) (data : Value) :
    SideBySide (RaisedSince w₀) w₀.TooDeep (FaultLike Eq) (AttrsLike Eq)
      (bindAttrs planOf binder cls data) (bindAttrs planOf binder cls data) := by
  refine SideBySide.bind (sideBySide_adopt (twinned_raisedSince w₀) rfl) fun data _ hd => ?_
  subst hd
  refine SideBySide.get fun w u hs => ?_
  have hl : w.depthBound + 1 ≤ u.depthBound + 1 := Nat.succ_le_succ hs.1.depthBound
  exact sideBySide_reporting (twinned_raisedSince w₀) cls
    (sideBySide_populate hl binder 0 cls _) w u hs

/-- A bind that is not stopped by a depth limit has the same outcome after limits have been raised:
the same instance or the same error. The worlds that it leaves differ in the limits alone, so the
same functions of the caller have been called with the same values and in the same order. -/
theorem bind_raised {w u : World} (h : w.Raised u) (binder : Nat) (cls : ClassRef) (data : Value)
    (hn : ∀ f, (exec (bind binder cls data) w).1 = .error f → ¬ w.TooDeep f) :
    (exec (bind binder cls data) w).1 = (exec (bind binder cls data) u).1 ∧
      (exec (bind binder cls data) w).2.Raised (exec (bind binder cls data) u).2 := by
  have hs : SideBySide (RaisedSince w) w.TooDeep (FaultLike Eq) Eq (bind binder cls data)
      (bind binder cls data) :=
    SideBySide.bind (sideBySide_bindAttrs w binder cls data) fun _ _ ha =>
      SideBySide.pure (likeness_eq.instanceOf cls ha)
  rcases hs w u ⟨h, rfl, rfl⟩ with ⟨f, hf, hd⟩ | ⟨hm, hr⟩
  · exact absurd hd (hn f hf)
  · exact ⟨hm.eq (fun _ _ => FaultLike.eq) (fun _ _ => id), hr.1⟩

end Binding

namespace Session

/-- The creation of a binder of the default registry that allows one level. -/
def newShallow : Operation := .newBinder 0 (some (.int 1))

/-- The creation of a class without fields. -/
def newNode : Operation := .newClass "Node" [.schemaBase] none []

/-- The class that `newNode` creates. -/
def node : ClassRef := ⟨5, "Node", true⟩

/-- The declaration of a field for a nested node. -/
def declareChild : Operation := .declare 0 (.cls node) (.str "child") [] (some (.cls node))

/-- The session with a binder of one level and a class of nodes that nest. -/
def nesting : Session := (((initial.step newShallow).2.step newNode).2.step declareChild).2

/-- The session with nested schemas comes about by operations. -/
theorem nesting_reachable : Reachable nesting :=
  .step _ declareChild (.step _ newNode (.step initial newShallow .initial))

/-- The payload of a node with a number of levels of nodes below it. -/
def chain : Nat → List (Value × Value)
  | 0 => []
  | n + 1 => [(.str "child", .dict (chain n))]

/-- The world of `nesting` with two levels allowed where it was one. -/
def deepened : World := nesting.world.setBinder 1 ⟨0, 2, by decide⟩

private theorem raised_deepened : nesting.world.Raised deepened := by
  have hd : Binder.default.Allows .default := ⟨rfl, Nat.le_refl _⟩
  have hs : Binder.Allows ⟨0, 1, by decide⟩ ⟨0, 2, by decide⟩ := ⟨rfl, by decide⟩
  have hb : nesting.world.binders = [.default, ⟨0, 1, by decide⟩] := by decide +kernel
  refine ⟨rfl, rfl, ?_, rfl, rfl, rfl, rfl⟩
  rw [deepened, World.setBinder, hb]
  exact .cons hd (.cons hs .nil)

private theorem nesting_bind_one :
    (exec (Binding.bind 1 node (.dict (chain 1))) nesting.world).1.toOption.map Value.text =
      some "Node(child=Node())" := by decide +kernel

/-- Two nested nodes are bound the same whether the binder of the bind allows one level or two. -/
theorem chain_bound_deepened :
    (exec (Binding.bind 1 node (.dict (chain 1))) nesting.world).1 =
      (exec (Binding.bind 1 node (.dict (chain 1))) deepened).1 := by
  obtain ⟨o, ho, -⟩ := exists_ok_of_map_toOption nesting_bind_one
  have hn : ∀ f, (exec (Binding.bind 1 node (.dict (chain 1))) nesting.world).1 = .error f →
      ¬ nesting.world.TooDeep f := by
    intro f hf
    rw [ho] at hf
    cases hf
  exact (Binding.bind_raised raised_deepened 1 node (.dict (chain 1)) hn).1

end Session

end SchemaBinding
