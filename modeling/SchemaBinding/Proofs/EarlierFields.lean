import SchemaBinding.Proofs.BoundAttributes
import SchemaBinding.Proofs.CallJournal
import SchemaBinding.Proofs.RearrangedRules

/-!
# Functions see the earlier fields

A function of a field is called with the record under construction. As long as functions only read
it, the record then holds what the fields before have committed, in the order of the plan, and
nothing of the field or of those after it. What it holds stays as it is: if the bind returns, the
final record begins with it.
-/

namespace SchemaBinding

namespace Binding

open World

section Commits

variable (enter : Enter) (cls : ClassRef) (entries : List (Value × Value))

/-- What a field commits to the attributes of a record in a world, and the world after it: the value
that it resolves to, or nothing if it is absent or null and has no default. -/
inductive Commits (plan : FieldPlan) (attrs : List (String × Value)) (w : World) :
    List (String × Value) → World → Prop
  | unset (hn : rawValue plan entries = .null) : Commits plan attrs w [] w
  | value {v : Value} {x : World} (hn : rawValue plan entries ≠ .null)
    (hv : exec (do resolve enter cls plan attrs (← adopt (rawValue plan entries))) w =
      (.ok (attrs, v), x)) : Commits plan attrs w [(plan.name, v)] x

/-- What fields commit one after another. -/
inductive CommitsAll : List FieldPlan → List (String × Value) → World → List (String × Value) →
    World → Prop
  | nil (attrs : List (String × Value)) (w : World) : CommitsAll [] attrs w [] w
  | cons {plan : FieldPlan} {plans : List FieldPlan} {attrs added rest : List (String × Value)}
    {w x y : World} (h : Commits enter cls entries plan attrs w added x)
    (hs : CommitsAll plans (attrs ++ added) x rest y) :
    CommitsAll (plan :: plans) attrs w (added ++ rest) y

variable {enter cls entries} {plan : FieldPlan} {plans : List FieldPlan}
  {attrs added bound : List (String × Value)} {w x : World}

/-- A field adds at most the attribute of its own name. -/
theorem Commits.sublist (h : Commits enter cls entries plan attrs w added x) :
    (added.map Prod.fst).Sublist [plan.name] := by
  cases h with
  | unset => exact List.nil_sublist _
  | value => exact List.Sublist.refl _

/-- The names that fields commit come in the order of the fields. -/
theorem CommitsAll.sublist (h : CommitsAll enter cls entries plans attrs w added x) :
    (added.map Prod.fst).Sublist (plans.map FieldPlan.name) := by
  induction h with
  | nil => exact List.Sublist.refl _
  | cons h _ ih =>
    rw [List.map_append]
    exact h.sublist.append ih

/-- A field whose functions only read the record leaves the attributes before it as they are. -/
theorem fst_of_exec_resolve (hp : plan.ReadOnly) {raw : Value} {r : List (String × Value) × Value}
    (h : exec (resolve enter cls plan attrs raw) w = (.ok r, x)) : r.1 = attrs := by
  rw [resolve_eq] at h
  obtain ⟨v, y, -, h⟩ := exec_bind_eq_ok_iff.mp h
  obtain ⟨⟨bound, u⟩, z, hf, h⟩ := exec_bind_eq_ok_iff.mp h
  obtain ⟨_, _, -, h⟩ := exec_bind_eq_ok_iff.mp h
  cases h
  obtain ⟨ks, -, -, hwhole⟩ := exec_applyFunctions cls attrs hp v y
  exact (hwhole _ (congrArg Prod.fst hf)).1

/-- A field that is bound adds what it commits to the attributes. -/
theorem exists_commits (hp : plan.ReadOnly) (hn : plan.name ∉ attrs.map Prod.fst)
    (h : exec (bindField enter cls entries plan attrs) w = (.ok bound, x)) :
    ∃ added, bound = attrs ++ added ∧ Commits enter cls entries plan attrs w added x := by
  by_cases hraw : rawValue plan entries = .null
  · rw [bindField_null hraw] at h
    split at h
    · cases h
    · cases h
      exact ⟨[], (List.append_nil _).symm, .unset hraw⟩
  · rw [bindField_value hraw, ← bind_assoc] at h
    obtain ⟨⟨kept, v⟩, y, hv, hset⟩ := exec_bind_eq_ok_iff.mp h
    obtain ⟨_, _, -, hr⟩ := exec_bind_eq_ok_iff.mp hv
    obtain rfl : kept = attrs := fst_of_exec_resolve hp hr
    dsimp only at hset
    rw [assign, exec_bind_of_ok (exec_get y)] at hset
    split at hset
    · cases hset
      exact ⟨_, setAttr_of_fresh hn v, .value hraw hv⟩
    · cases hset

/-- Fields that are bound add what they commit to the attributes. -/
theorem exists_commitsAll (hp : ∀ p ∈ plans, p.ReadOnly) (hd : (plans.map FieldPlan.name).Nodup)
    (hn : ∀ p ∈ plans, p.name ∉ attrs.map Prod.fst)
    (h : exec (bindFields enter cls entries plans attrs) w = (.ok bound, x)) :
    ∃ added, bound = attrs ++ added ∧ CommitsAll enter cls entries plans attrs w added x := by
  induction plans generalizing attrs w with
  | nil =>
    cases h
    exact ⟨[], (List.append_nil _).symm, .nil _ _⟩
  | cons plan plans ih =>
    obtain ⟨hplan, hrest⟩ := List.forall_mem_cons.mp hp
    obtain ⟨hfirst, hnames⟩ := List.nodup_cons.mp hd
    obtain ⟨hfresh, hothers⟩ := List.forall_mem_cons.mp hn
    rw [bindFields] at h
    obtain ⟨_, y, hf, h⟩ := exec_bind_eq_ok_iff.mp h
    obtain ⟨added, rfl, hc⟩ := exists_commits hplan hfresh hf
    -- The names of the other fields are still not in use, for the field commits its own at most.
    have hstill : ∀ p ∈ plans, p.name ∉ (attrs ++ added).map Prod.fst := by
      intro p hm hin
      rw [List.map_append, List.mem_append] at hin
      rcases hin with hin | hin
      · exact hothers p hm hin
      · have he := List.mem_singleton.mp (hc.sublist.subset hin)
        exact hfirst (he ▸ List.mem_map_of_mem hm)
    obtain ⟨rest, rfl, hs⟩ := ih hrest hnames hstill h
    exact ⟨added ++ rest, List.append_assoc .., .cons hc hs⟩

end Commits

namespace Entry

variable {e last : Entry} {path : List ClassRef} {visit : e.Visit}

/-- The functions of a field are called in turn, with a record that holds what the fields before it
have committed. -/
structure Visit.Turn.Orderly (turn : visit.Turn) : Prop where
  /-- The record holds what the fields before have committed, in their order. -/
  committed : CommitsAll e.enter e.cls visit.entries visit.before []
    (exec (planOf (e.world.binder e.binder).registry e.cls) e.world).2 visit.attrs visit.world
  /-- It holds nothing of the field and of those after it. -/
  unset : ∀ p ∈ visit.plan :: visit.after, p.name ∉ visit.attrs.map Prod.fst
  /-- Every function is called with this record and the name of the field. -/
  subject : ∀ k ∈ turn.calls,
    k.subject = subjectIn turn.start e.cls visit.attrs ∧ k.field = visit.plan.name
  /-- The transforms are called in order, and then the checks. -/
  order : InTurn e.cls visit.attrs visit.plan turn.start turn.value turn.calls
  /-- If the field can be bound, all its functions are called, and what the transforms have made of
  its value is set. -/
  whole : ∀ bound, visit.outcome.1 = .ok bound → ∃ u,
    WholeTurn e.cls visit.attrs visit.plan turn.start turn.value turn.calls u ∧
      bound = visit.attrs ++ [(visit.plan.name, u)]

/-- No two fields of a schema that is visited have one name. -/
theorem Visit.nodup_names (visit : e.Visit) (hw : e.world.Consistent) :
    ((visit.before ++ visit.plan :: visit.after).map FieldPlan.name).Nodup :=
  Registry.nodup_plans (visit.plansFor_eq hw)

/-- The attributes with which a run comes to a field are what the fields before have committed. -/
theorem Visit.committed (visit : e.Visit) (h : e.ReadOnly) :
    CommitsAll e.enter e.cls visit.entries visit.before []
      (exec (planOf (e.world.binder e.binder).registry e.cls) e.world).2 visit.attrs
      visit.world := by
  obtain ⟨v, hv, hb⟩ := visit.reached
  have hd := visit.nodup_names h.consistent
  rw [List.map_append] at hd
  have hfresh : ∀ p ∈ visit.before, p.name ∉ ([] : List (String × Value)).map Prod.fst :=
    fun _ _ => List.not_mem_nil
  obtain ⟨added, ha, hc⟩ := exists_commitsAll
    (fun p hp => visit.readOnly h p (List.mem_append_left _ hp)) hd.of_append_left hfresh hb
  rw [hv, ha, List.nil_append]
  exact hc

private theorem Visit.unset (visit : e.Visit) (h : e.ReadOnly) :
    ∀ p ∈ visit.plan :: visit.after, p.name ∉ visit.attrs.map Prod.fst := by
  intro p hp hin
  have hd := visit.nodup_names h.consistent
  rw [List.map_append] at hd
  have hbefore := (visit.committed h).sublist.subset hin
  exact List.disjoint_of_nodup_append hd hbefore (List.mem_map_of_mem hp)

private theorem Visit.Turn.orderly (turn : visit.Turn) (h : e.ReadOnly) : turn.Orderly := by
  obtain ⟨-, hin, hwhole⟩ := turn.exec_functions (visit.plan_readOnly h)
  have hunset := visit.unset h
  refine ⟨visit.committed h, hunset, hin.subject (visit.plan_readOnly h), hin, fun bound hb => ?_⟩
  obtain ⟨u, hu, rfl⟩ := hwhole bound hb
  exact ⟨u, hu, setAttr_of_fresh (hunset _ (List.mem_cons_self ..)) u⟩

/-- The attributes with which a run comes to a field are the first of those that the record has in
the end: the attributes of the fields before. -/
theorem Visit.attrs_of_run (visit : e.Visit) (h : e.ReadOnly) {final : List (String × Value)}
    (hf : e.run.1 = .ok final) :
    visit.attrs <+: final ∧
      visit.attrs = final.filter fun a => a.1 ∈ visit.before.map FieldPlan.name := by
  have hd := visit.nodup_names h.consistent
  rw [List.map_append] at hd
  have hrun : exec (bindFields e.enter e.cls visit.entries (visit.plan :: visit.after) visit.attrs)
      visit.world = (.ok final, e.run.2) := by
    rw [bindFields, ← visit.run_eq]
    exact Prod.ext hf rfl
  obtain ⟨rest, rfl, hc⟩ := exists_commitsAll
    (fun p hp => visit.readOnly h p (List.mem_append_right _ hp)) hd.of_append_right
    (visit.unset h) hrun
  refine ⟨List.prefix_append .., ?_⟩
  have hbefore : ∀ a ∈ visit.attrs, a.1 ∈ visit.before.map FieldPlan.name := fun a ha =>
    (visit.committed h).sublist.subset (List.mem_map_of_mem ha)
  have hafter : ∀ a ∈ rest, a.1 ∉ visit.before.map FieldPlan.name := fun a ha hin =>
    List.disjoint_of_nodup_append hd hin (hc.sublist.subset (List.mem_map_of_mem ha))
  rw [List.filter_append, List.filter_eq_self.mpr fun a ha => decide_eq_true (hbefore a ha),
    List.filter_eq_nil_iff.mpr fun a ha => by simpa using hafter a ha, List.append_nil]

end Entry

/-- The calls of a bind are those of the run with which it begins. -/
theorem Entry.calls_bind (w : World) (binder : Nat) (cls : ClassRef) (data : Value) :
    (exec (bind binder cls data) w).2.calls = (root w binder cls data).run.2.calls := by
  rw [bind, snd_exec_bind_pure, bindAttrs, exec_bind_of_ok (exec_adopt data w),
    exec_bind_of_ok (exec_get _), exec_reporting]
  dsimp only
  split <;> rfl

/-- A bind calls functions turn by turn: in each turn those of one field that it comes to, in its
own schema or in a nested one. They are called in order, the transforms and then the checks, and
with a record that holds what the fields before have committed and nothing else. If the bind
returns, the final record begins with that. This asks that the functions of the caller only read the
record. -/
theorem bind_sees_earlier_fields {s : Session} (hs : s.Reachable) {binder : Nat} {cls : ClassRef}
    {data : Value}
    (ho : s.world.Throughout (fun plans => ∀ p ∈ plans, p.ReadOnly) binder cls) :
    let root := Entry.root s.world binder cls data
    let made := callsIn (bind binder cls data) s.world
    (exec (bind binder cls data) s.world).2.calls = s.world.calls ++ made ∧
      (∃ turns : List (List Call), made = turns.flatten ∧ ∀ own ∈ turns, root.HasTurn own) ∧
      ∀ path last, Entry.Leads root path last → ∀ (visit : last.Visit) (turn : visit.Turn),
        turn.calls <:+: made ∧ turn.Orderly ∧
          ∀ o, (exec (bind binder cls data) s.world).1 = .ok o →
            ∃ final, last.run.1 = .ok final ∧ visit.attrs <+: final ∧
              visit.attrs = final.filter fun a => a.1 ∈ visit.before.map FieldPlan.name := by
  intro root made
  have hroot : root.ReadOnly :=
    ⟨hs.consistent.adopting data, s.world, calm_adopting s.world data, ho⟩
  have hcalls : (exec (bind binder cls data) s.world).2.calls = root.run.2.calls :=
    Entry.calls_bind ..
  obtain ⟨turns, hm, hturns⟩ := hroot.turns
  have hmade : made = turns.flatten := callsIn_eq (hcalls.trans hm.calls)
  refine ⟨by rw [hmade]; exact hcalls.trans hm.calls, ⟨turns, hmade, hturns⟩,
    fun path last hl visit turn => ?_⟩
  have hlast := hroot.leads hl
  refine ⟨hl.infix_calls hroot turn (hmade ▸ hm.calls), turn.orderly hlast, fun o hok => ?_⟩
  -- Had the run of the nested entry failed, so would the bind.
  rcases hrun : last.run.1 with f | final
  · have hfail := hl.run_error (Prod.ext hrun rfl)
    rw [Entry.bind_eq_run, hfail] at hok
    cases hok
  · exact ⟨final, rfl, visit.attrs_of_run hlast hrun⟩

end Binding

/-! ### Functions that are declared -/

/-- The functions in a contract have a property. -/
structure FieldContract.Uses (P : UserFunction → Prop) (c : FieldContract) : Prop where
  transforms : ∀ f ∈ c.transforms, P f
  checks : ∀ f ∈ c.checks.filterMap Check.function?, P f

section Uses

variable {P : UserFunction → Prop} {fs : List Fragment}

private theorem FieldContract.uses_empty (name : String) : (FieldContract.empty name).Uses P where
  transforms _ hf := absurd hf List.not_mem_nil
  checks _ hf := absurd hf List.not_mem_nil

/-- The functions in a contract are those that were declared. -/
theorem FieldContract.Uses.merged {c : FieldContract} (h : c.Uses P)
    (ht : ∀ f ∈ fs.filterMap Fragment.transform?, P f)
    (hc : ∀ f ∈ (fs.filterMap Fragment.check?).filterMap Check.function?, P f) :
    (c.merged fs).Uses P := by
  constructor
  · exact List.forall_mem_append.mpr ⟨h.transforms, ht⟩
  · rw [FieldContract.merged, List.filterMap_append]
    exact List.forall_mem_append.mpr ⟨h.checks, hc⟩

private theorem Registry.uses_declare {r : Registry} (h : ∀ d, ∀ f ∈ r.own d, f.Uses P)
    (ht : ∀ f ∈ fs.filterMap Fragment.transform?, P f)
    (hc : ∀ f ∈ (fs.filterMap Fragment.check?).filterMap Check.function?, P f)
    (c : ClassRef) (name : String) (declared : Option DeclaredType) (d : ClassRef) :
    ∀ f ∈ (r.declare c name fs declared).1.own d, f.Uses P := by
  rcases hr : r.declare c name fs declared with ⟨q, e | k⟩
  · rcases declare_cases r c name fs declared with ⟨_, he⟩ | ⟨_, _, he⟩
    · rw [he] at hr
      cases hr
      rw [own_know]
      exact h d
    · rw [he] at hr
      cases hr
  · rw [own_declare_ok hr, ContractChange.effect]
    split
    · refine forall_mem_putContract (h d) ?_
      have hold : (((r.own d).find? fun f => f.name == name).getD (.empty name)).Uses P := by
        cases hf : (r.own d).find? fun f => f.name == name with
        | none => exact FieldContract.uses_empty name
        | some f => exact h d f (List.mem_of_find?_eq_some hf)
      have hnew := hold.merged ht hc
      rw [← FieldContract.foldl_merge_eq_merged] at hnew
      exact ⟨hnew.transforms, hnew.checks⟩
    · exact h d

/-- If all functions that were declared only read the record, then so do all that a bind calls. -/
theorem World.throughout_readOnly {w : World}
    (h : ∀ i c, ∀ f ∈ (w.registry i).own c, f.Uses UserFunction.ReadOnly) (binder : Nat)
    (cls : ClassRef) : w.Throughout (fun plans => ∀ p ∈ plans, p.ReadOnly) binder cls := by
  intro next last _ plans hp plan hm
  obtain ⟨f, hf, hplan⟩ := (Registry.mem_plans_iff hp plan).mp hm
  obtain ⟨k, -, hown⟩ := Registry.exists_own_of_mem_fields hf
  have hu := h _ k f hown
  obtain ⟨kind, -, rfl⟩ := (Registry.plan_ok_iff _ f plan).mp hplan
  refine ⟨hu.transforms, fun g hg => ?_⟩
  cases kind with
  | none => exact absurd hg List.not_mem_nil
  | some kind => exact hu.checks g hg

end Uses

namespace Session

open Binding

/-- A declaration of rules adds their functions to those that were declared before. -/
theorem uses_step_declaring {P : UserFunction → Prop} {s : Session} {fs : List Fragment}
    (h : ∀ i d, ∀ f ∈ (s.world.registry i).own d, f.Uses P) (hfs : ∀ f ∈ fs, f.Settled)
    (ht : ∀ f ∈ fs.filterMap Fragment.transform?, P f)
    (hc : ∀ f ∈ (fs.filterMap Fragment.check?).filterMap Check.function?, P f) (i : Nat)
    (c : ClassRef) (field : Value) (declared : Option DeclaredType) (j : Nat) (d : ClassRef) :
    ∀ f ∈ ((s.step (declaring i c field fs declared)).2.world.registry j).own d, f.Uses P := by
  have hwith : ∀ r events, (∀ f ∈ r.own d, f.Uses P) →
      ∀ f ∈ ((s.withRegistry i r events).world.registry j).own d, f.Uses P := by
    intro r events hr
    have hj : (s.withRegistry i r events).world.registry j =
        if i = j ∧ i < s.world.registries.length then r else s.world.registry j :=
      World.registry_setRegistry s.fresh.world i j r
    rw [hj]
    split
    · exact hr
    · exact h j d
  rw [step_declaring hfs]
  cases checkFieldName c.name field with
  | error e => exact h j d
  | ok name =>
    have hd := Registry.uses_declare (h i) ht hc c name declared d
    dsimp only
    split
    · next r q he =>
      rw [he] at hd
      exact hwith r _ hd
    · next r k first he =>
      rw [he] at hd
      exact hwith r _ hd

/-- The creation of a class with a price and a buyer. -/
def newOffer : Operation := .newClass "Offer" [.schemaBase] none [
  ("price", ⟨.basic .int, []⟩), ("buyer", ⟨.basic .str, []⟩)]

/-- The class that `newOffer` creates in a new session. -/
def offer : ClassRef := ⟨5, "Offer", true⟩

/-- A check and, after it, two transforms. -/
def buyerRules : List Fragment :=
  [.check (.custom (echo "check")), .transform (echo "first"), .transform (echo "second")]

/-- The session in which the buyer of an offer has functions. -/
def offering : Session :=
  ((initial.after [newOffer]).step (declaring 0 offer (.str "buyer") buyerRules none)).2

private theorem readOnly_echo (label : String) : (echo label).ReadOnly := by
  intro subject field value sets given h
  cases h
  rfl

/-- Without rules there are no functions. -/
theorem newOffer_uses (i : Nat) (c : ClassRef) :
    ∀ f ∈ ((initial.after [newOffer]).world.registry i).own c, f.Uses UserFunction.ReadOnly := by
  have hnone : ((initial.after [newOffer]).world.registries.all fun r => r.contracts.all fun e =>
      e.2.all fun f => f.transforms.isEmpty && f.checks.isEmpty) = true := by decide +kernel
  simp only [List.all_eq_true, Bool.and_eq_true, List.isEmpty_iff] at hnone
  intro f hf
  rw [World.registry] at hf
  cases hr : (initial.after [newOffer]).world.registries[i]? with
  | none =>
    rw [hr] at hf
    cases hf
  | some r =>
    rw [hr, Option.getD_some, Registry.own] at hf
    cases hc : r.contracts.find? (fun e => e.1 == c) with
    | none =>
      rw [hc] at hf
      cases hf
    | some e =>
      rw [hc] at hf
      obtain ⟨ht, hk⟩ := hnone r (List.mem_of_getElem? hr) e (List.mem_of_find?_eq_some hc) f hf
      refine ⟨fun g hg => ?_, fun g hg => ?_⟩
      · rw [ht] at hg
        cases hg
      · rw [hk] at hg
        cases hg

private theorem offering_readOnly (binder : Nat) (cls : ClassRef) :
    offering.world.Throughout (fun plans => ∀ p ∈ plans, p.ReadOnly) binder cls := by
  have hsettled : ∀ f ∈ buyerRules, f.Settled := by
    simp [buyerRules, echo, Fragment.Settled, Value.Settled.null]
  apply World.throughout_readOnly
  refine uses_step_declaring newOffer_uses hsettled ?_ ?_ 0 offer (.str "buyer") none
  · have hfunctions : buyerRules.filterMap Fragment.transform? =
        [echo "first", echo "second"] := rfl
    rw [hfunctions]
    simp [readOnly_echo]
  · simp [buyerRules, Fragment.check?, Check.function?, readOnly_echo]

/-- The name of a buyer is looked at when the price has been bound: by the transforms, and then by
the check. -/
theorem offering_calls :
    let data : Value := .dict [(.str "buyer", .str "Ada"), (.str "price", .int 3)]
    let root := Entry.root offering.world 0 offer data
    let made := World.callsIn (bind 0 offer data) offering.world
    offering.world.Throughout (fun plans => ∀ p ∈ plans, p.ReadOnly) 0 offer ∧
      made.map (fun k => (k.label, k.field, k.subject.attrs.map Prod.fst)) =
        [("first", "buyer", ["price"]), ("second", "buyer", ["price"]),
          ("check", "buyer", ["price"])] ∧
      ∃ path last, Entry.Leads root path last ∧ ∃ (visit : last.Visit) (turn : visit.Turn),
        turn.calls ≠ [] ∧ turn.calls <:+: made ∧ turn.Orderly ∧
          ∃ final, last.run.1 = .ok final ∧ visit.attrs <+: final ∧
            visit.attrs = final.filter fun a => a.1 ∈ visit.before.map FieldPlan.name := by
  intro data root made
  have hs : offering.Reachable := .step _ _ (reachable_after .initial _)
  have ho := offering_readOnly 0 offer
  have hmade : made.map (fun k => (k.label, k.field, k.subject.attrs.map Prod.fst)) =
      [("first", "buyer", ["price"]), ("second", "buyer", ["price"]),
        ("check", "buyer", ["price"])] := by decide +kernel
  have hok : (exec (bind 0 offer data) offering.world).1.isOk = true := by decide +kernel
  obtain ⟨-, ⟨turns, hturns, hown⟩, hall⟩ := @bind_sees_earlier_fields offering hs 0 offer data ho
  obtain ⟨own, hmem, hcalls⟩ : ∃ own ∈ turns, own ≠ [] := by
    by_contra hn
    have hempty : made = [] := hturns.trans (List.flatten_eq_nil_iff.mpr (by simpa using hn))
    rw [hempty] at hmade
    cases hmade
  obtain ⟨path, last, hl, visit, turn, rfl⟩ := hown own hmem
  obtain ⟨hin, horder, hfinal⟩ := hall path last hl visit turn
  refine ⟨ho, hmade, path, last, hl, visit, turn, hcalls, hin, horder, ?_⟩
  rcases hb : (exec (bind 0 offer data) offering.world).1 with f | o
  · rw [hb] at hok
    cases hok
  · exact hfinal o hb

end Session

end SchemaBinding
