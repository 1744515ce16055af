import SchemaBinding.Proofs.Entries

/-!
# How deep schemas nest

A schema class is bound with its own binder wherever it is nested, and another class with the binder
at work around it. It is the limit of that binder which bounds how deep the class may lie below the
root, not the limit of the binder that the bind began with.
-/

namespace SchemaBinding

/-- The binder of the last class of a path of nested classes, of which the first is nested in a
record that is bound with `binder`. -/
def World.binderAt (w : World) (binder : Nat) (path : List ClassRef) : Nat :=
  path.foldl w.nestedBinder binder

/-- Without a schema class on the path, the binder stays the one that the bind began with. -/
theorem World.binderAt_of_plain {w : World} {path : List ClassRef}
    (h : ∀ c ∈ path, w.classes.isSchemaClass c = false) (binder : Nat) :
    w.binderAt binder path = binder := by
  induction path with
  | nil => rfl
  | cons c path ih =>
    obtain ⟨hc, hpath⟩ := List.forall_mem_cons.mp h
    have hn : w.nestedBinder binder c = binder := by
      rw [World.nestedBinder, hc]
      rfl
    rw [World.binderAt, List.foldl_cons, hn]
    exact ih hpath

namespace Binding

open World

namespace Entry

variable {e last : Entry} {path : List ClassRef}

/-- A path of entries leaves binders and classes. -/
theorem Leads.settings (h : Leads e path last) :
    last.world.binders = e.world.binders ∧ last.world.classes = e.world.classes := by
  induction h with
  | refl e => exact ⟨rfl, rfl⟩
  | step hn _ ih => exact ⟨ih.1.trans hn.settings.1, ih.2.trans hn.settings.2⟩

/-- A path of entries leads as deep as it is long. -/
theorem Leads.depth_eq (h : Leads e path last) : last.depth = e.depth + path.length := by
  induction h with
  | refl e => rfl
  | step hn _ ih =>
    rw [ih, hn.depth_eq, List.length_cons]
    omega

/-- The binder at the end of a path of entries is told by the classes on it. -/
theorem Leads.binder_eq (h : Leads e path last) :
    last.binder = e.world.binderAt e.binder path := by
  induction h with
  | refl e => rfl
  | @step e next last path hn _ ih =>
    have hb : ∀ b c, next.world.nestedBinder b c = e.world.nestedBinder b c := by
      intro b c
      rw [nestedBinder, nestedBinder, binderOf, binderOf, hn.settings.2]
    have hf : next.world.nestedBinder = e.world.nestedBinder := funext fun b => funext (hb b)
    rw [ih, World.binderAt, World.binderAt, hf, List.foldl_cons, hn.binder_eq]

/-- A run fails as soon as an entry that it comes to does. -/
theorem Leads.run_error (h : Leads e path last) {f : Fault} {v : World}
    (hf : last.run = (.error f, v)) : e.run = (.error f, v) := by
  induction h with
  | refl e => exact hf
  | step hn _ ih => exact hn.run_error (ih hf)

/-- The entry with which a bind begins. -/
def root (w : World) (binder : Nat) (cls : ClassRef) (data : Value) : Entry :=
  ⟨w.adopting data, binder, 0, cls, rootPayload (w.adopted data)⟩

/-- A bind is the run of its root entry. -/
theorem bind_eq_run (w : World) (binder : Nat) (cls : ClassRef) (data : Value) :
    (exec (bind binder cls data) w).1 = (root w binder cls data).run.1.map (instanceOf cls) := by
  have hb : (exec (bindAttrs planOf binder cls data) w).1 = (root w binder cls data).run.1 := by
    rw [bindAttrs, exec_bind_of_ok (exec_adopt data w), exec_bind_of_ok (exec_get _),
      exec_reporting]
    rfl
  rw [← hb, bind, exec_bind]
  cases exec (bindAttrs planOf binder cls data) w with
  | mk result v => cases result <;> rfl

end Entry

/-- If a bind returns, every schema that it entered lies at most as deep below the root as the
binder of that schema allows; and a schema that would lie deeper makes the bind fail. On a path
without schema classes that binder is the one that the bind began with. -/
theorem bind_depth {w : World} {binder : Nat} {cls : ClassRef} {data : Value}
    {path : List ClassRef} {last : Entry}
    (h : Entry.Leads (Entry.root w binder cls data) path last) :
    ((∃ o, (exec (bind binder cls data) w).1 = .ok o) →
        path.length ≤ (w.binder (w.binderAt binder path)).maxDepth) ∧
      ((w.binder (w.binderAt binder path)).maxDepth < path.length →
        (exec (bind binder cls data) w).1 = .error (.ofBinding ⟨last.cls.name, rootField,
          .tooDeep (w.binder (w.binderAt binder path)).maxDepth⟩)) ∧
      ((∀ c ∈ path, w.classes.isSchemaClass c = false) → w.binderAt binder path = binder) := by
  have hdeep : (w.binder (w.binderAt binder path)).maxDepth < path.length →
      (exec (bind binder cls data) w).1 = .error (.ofBinding ⟨last.cls.name, rootField,
        .tooDeep (w.binder (w.binderAt binder path)).maxDepth⟩) := by
    intro hd
    have hdepth : last.depth = path.length := h.depth_eq.trans (Nat.zero_add _)
    have hbinder : last.world.binder last.binder = w.binder (w.binderAt binder path) := by
      rw [h.binder_eq, World.binder, h.settings.1]
      rfl
    rw [← hbinder, ← hdepth] at hd
    rw [Entry.bind_eq_run, h.run_error (Entry.run_tooDeep hd), hbinder]
    rfl
  refine ⟨?_, hdeep, fun hp => binderAt_of_plain hp binder⟩
  rintro ⟨o, ho⟩
  by_contra hd
  rw [hdeep (Nat.lt_of_not_le hd)] at ho
  cases ho

end Binding

namespace Session

open Binding

private theorem settled_chain (n : Nat) : (Value.dict (chain n)).Settled := by
  induction n with
  | zero =>
    have hn : ∀ e ∈ ([] : List (Value × Value)), e.1.Settled ∧ e.2.Settled :=
      fun e he => absurd he List.not_mem_nil
    exact .dict _ (fun e he => (hn e he).1) (fun e he => (hn e he).2)
  | succ n ih =>
    refine .dict _ (fun e he => ?_) (fun e he => ?_)
    · rw [List.mem_singleton.mp he]
      exact .str _
    · rw [List.mem_singleton.mp he]
      exact ih

/-- Whether the plan of nodes in a registry is the one of a field for a nested node. -/
def plansChild (i : Nat) (w : World) : Bool :=
  (exec (World.planOf i node) w).1.toOption.any fun plans =>
    plans.map (fun p => (p.sourceKey, p.kind)) == [("child", some (.scalar (.schema node)))]

/-- The world in which the node below a node is entered. -/
def below (i : Nat) (w : World) : World := (exec (World.planOf i node) w).2

/-- A node that holds another leads to it. -/
theorem next_node {w : World} {binder depth : Nat} (hd : depth ≤ (w.binder binder).maxDepth)
    (hp : plansChild (w.binder binder).registry w = true) (n : Nat) :
    Entry.Next ⟨w, binder, depth, node, .dict (chain (n + 1))⟩
      ⟨below (w.binder binder).registry w, w.nestedBinder binder node, depth + 1, node,
        .dict (chain n)⟩ := by
  unfold plansChild at hp
  unfold below
  cases hx : exec (World.planOf (w.binder binder).registry node) w with
  | mk result v =>
    rw [hx] at hp
    cases result with
    | error f => cases hp
    | ok plans =>
      obtain ⟨plan, rfl, hs⟩ := List.map_eq_singleton_iff.mp (eq_of_beq hp)
      obtain ⟨hkey, hkind⟩ := Prod.mk.inj hs
      have hraw : rawValue plan (chain (n + 1)) = .dict (chain n) := by
        rw [rawValue, hkey]
        rfl
      have ho : Opens (Entry.enter ⟨w, binder, depth, node, .dict (chain (n + 1))⟩) node.name
          plan.name (.scalar (.schema node)) (v.adopted (rawValue plan (chain (n + 1))))
          (v.adopting (rawValue plan (chain (n + 1)))) node (chain n) v := by
        rw [hraw, World.adopted_of_settled (settled_chain n),
          World.adopting_of_settled (settled_chain n)]
        exact .field
      have hp : exec (World.planOf (w.binder binder).registry node) w =
          (.ok ([] ++ plan :: []), v) := hx
      have hb : exec (bindFields (Entry.enter ⟨w, binder, depth, node, .dict (chain (n + 1))⟩) node
          (chain (n + 1)) [] []) v = (.ok [], v) := rfl
      exact .field hd hp hb hkind ho

/-- A bind of three nodes comes to the last one, with the default binder. -/
theorem leads_chain : ∃ w, Entry.Leads (Entry.root nesting.world 1 node (.dict (chain 2)))
    [node, node] ⟨w, 0, 2, node, .dict (chain 0)⟩ := by
  have hroot : Entry.root nesting.world 1 node (.dict (chain 2)) =
      ⟨nesting.world, 1, 0, node, .dict (chain 2)⟩ := by
    rw [Entry.root, World.adopted_of_settled (settled_chain 2),
      World.adopting_of_settled (settled_chain 2)]
    rfl
  have hfirst : Entry.Next ⟨nesting.world, 1, 0, node, .dict (chain 2)⟩
      ⟨below 0 nesting.world, 0, 1, node, .dict (chain 1)⟩ := by
    have hb : nesting.world.binder 1 = ⟨0, 1, by decide⟩ := by decide +kernel
    have hn : nesting.world.nestedBinder 1 node = 0 := by decide +kernel
    have hp : plansChild 0 nesting.world = true := by decide +kernel
    have h := next_node (Nat.zero_le (nesting.world.binder 1).maxDepth) (by rw [hb]; exact hp) 1
    rwa [hb, hn] at h
  have hsecond : Entry.Next ⟨below 0 nesting.world, 0, 1, node, .dict (chain 1)⟩
      ⟨below 0 (below 0 nesting.world), 0, 2, node, .dict (chain 0)⟩ := by
    have hb : (below 0 nesting.world).binder 0 = .default := by decide +kernel
    have hn : (below 0 nesting.world).nestedBinder 0 node = 0 := by decide +kernel
    have hp : plansChild 0 (below 0 nesting.world) = true := by decide +kernel
    have hd : 1 ≤ ((below 0 nesting.world).binder 0).maxDepth := by rw [hb]; decide
    have h := next_node hd (by rw [hb]; exact hp) 0
    rwa [hb, hn] at h
  rw [hroot]
  exact ⟨_, .step hfirst (.step hsecond (.refl _))⟩

private theorem nesting_bind_two :
    (exec (Binding.bind 1 node (.dict (chain 2))) nesting.world).1.toOption.map Value.text =
      some "Node(child=Node(child=Node()))" := by decide +kernel

/-- The limit of the binder that a bind begins with does not bound how deep schemas nest in what it
returns: with a limit of one, a node two levels below the root is bound. -/
theorem limit_of_root_exceeded :
    ¬ ∀ s : Session, s.Reachable → ∀ (binder : Nat) (cls : ClassRef) (data o : Value)
      (path : List ClassRef) (last : Entry),
      (exec (Binding.bind binder cls data) s.world).1 = .ok o →
      Entry.Leads (Entry.root s.world binder cls data) path last →
      path.length ≤ (s.world.binder binder).maxDepth := by
  intro h
  obtain ⟨o, ho, -⟩ := exists_ok_of_map_toOption nesting_bind_two
  obtain ⟨w, hw⟩ := leads_chain
  have hl := h nesting nesting_reachable 1 node _ o _ _ ho hw
  have hb : nesting.world.binder 1 = ⟨0, 1, by decide⟩ := by decide +kernel
  rw [hb] at hl
  exact absurd hl (by decide)

/-- The default binder, with which nodes are bound, allows the two levels that a bind of three nodes
enters. -/
theorem chain_depth_allowed : ∃ last,
    Entry.Leads (Entry.root nesting.world 1 node (.dict (chain 2))) [node, node] last ∧
      [node, node].length ≤
        (nesting.world.binder (nesting.world.binderAt 1 [node, node])).maxDepth := by
  obtain ⟨o, ho, -⟩ := exists_ok_of_map_toOption nesting_bind_two
  obtain ⟨w, hw⟩ := leads_chain
  exact ⟨_, hw, (Binding.bind_depth hw).1 ⟨o, ho⟩⟩

end Session

end SchemaBinding
