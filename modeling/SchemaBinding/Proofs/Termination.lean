import Mathlib.Logic.Relation
import SchemaBinding.Proofs.ErrorOrigin
import SchemaBinding.Proofs.FieldInheritance

/-!
# Why binding ends, and what can never be bound

What a bind enters is no part of its payload once defaults are put in, so it is not the size of the
payload that makes the recursion end. It is that every binder has a limit: each entry lies one level
deeper than the one that makes it, and none is made beyond the limit of the binder at work. That the
recursion is counted in levels plays no part: the same equations without a counter have one
solution, and this is it.

A field obliges its schema to another one if the field is required or has a default: a record can
only be bound with a record of the other schema in that field. Obligations that come back to where
they started ask for a record of infinite depth, and there is none.
-/

namespace SchemaBinding

namespace Binding

open World

namespace Entry

variable {e next last : Entry} {path : List ClassRef} {attrs : List (String × Value)}

/-! ### The recursion without a counter -/

/-- What binding a payload comes to: the attributes or a fault, and the world after it. -/
abbrev Outcome := Except Fault (List (String × Value)) × World

/-- How the schemas nested in a record are entered, if what comes of an entry is known. -/
def entering (again : Entry → Outcome) (e : Entry) : Enter := fun nested raw => ExceptT.mk fun w =>
  let r := again ⟨w, e.world.nestedBinder e.binder nested, e.depth + 1, nested, raw⟩
  (r.1.map (instanceOf nested), r.2)

/-- What comes of an entry, if what comes of the entries that it makes is known. -/
def body (again : Entry → Outcome) (e : Entry) : Outcome :=
  let limit := (e.world.binder e.binder).maxDepth
  if limit < e.depth then
    (.error (.ofBinding ⟨e.cls.name, rootField, .tooDeep limit⟩), e.world)
  else
    match e.data with
    | .dict entries => exec (do
        let plans ← planOf (e.world.binder e.binder).registry e.cls
        bindFields (entering again e) e.cls entries plans []) e.world
    | v => (.error (.ofBinding ⟨e.cls.name, rootField,
        .mismatch JsonKind.object.name v.kind none⟩), e.world)

/-- What is entered in the run of an entry gives what the equations say, if the entry there does. -/
theorem Next.exec_entering {again : Entry → Outcome} (h : Next e next)
    (ha : again next = next.run) :
    exec (e.enter next.cls next.data) next.world =
      exec (entering again e next.cls next.data) next.world := by
  have he : exec (entering again e next.cls next.data) next.world =
      (next.run.1.map (instanceOf next.cls), next.run.2) := by
    rw [← ha]
    cases h
    rfl
  have hr : exec (populate planOf next.levels next.binder next.depth next.cls next.data)
      next.world = next.run := rfl
  rw [h.exec_enter, he, exec_bind, hr]
  cases next.run with
  | mk result v => cases result <;> rfl

/-- An entry whose nested entries give what the equations say gives it itself. -/
theorem run_eq_body {again : Entry → Outcome} (h : ∀ next, Next e next → again next = next.run) :
    e.run = body again e := by
  obtain ⟨w, binder, depth, cls, data⟩ := e
  unfold body
  by_cases hd : (w.binder binder).maxDepth < depth
  · rw [run_tooDeep hd, if_pos hd]
  · dsimp only
    rw [if_neg hd]
    cases data with
    | dict entries =>
      exact run_congr (Nat.le_of_not_lt hd) _ fun next hn => hn.exec_entering (h next hn)
    | _ => exact run_other (Nat.le_of_not_lt hd) (by simp)

/-- Nothing else solves the equations: whatever does agrees with the run of every entry. -/
theorem eq_run_of_eq_body {again : Entry → Outcome} (h : ∀ e, again e = body again e) (e : Entry) :
    again e = e.run := by
  -- The induction is on the levels that are left: an entry that a run makes has fewer.
  induction hl : e.levels using Nat.strongRecOn generalizing e with
  | _ n ih =>
    rw [h e]
    exact (run_eq_body fun next hn => ih next.levels (hl ▸ hn.levels_lt) next rfl).symm

/-- There is no infinite chain of entries, each made in the run of the one before. -/
theorem acc_next (e : Entry) : Acc (fun next e => Next e next) e := by
  have hwf : WellFounded fun a b : Entry => a.levels < b.levels := (measure levels).wf
  exact Subrelation.accessible (fun h => Next.levels_lt h) (hwf.apply e)

/-! ### How deep a bind gets -/

/-- An entry is made one level deeper, within the limit of the binder at work. -/
theorem Next.depth_le (h : Next e next) : next.depth ≤ (e.world.binder e.binder).maxDepth + 1 := by
  cases h with
  | field hd => exact Nat.succ_le_succ hd

/-- No entry lies deeper than one level beyond the greatest limit of the binders involved. -/
theorem Leads.depth_le {M : Nat} (h : Leads e path last) (he : e.depth ≤ M + 1)
    (hM : ∀ path last, Leads e path last → (last.world.binder last.binder).maxDepth ≤ M) :
    last.depth ≤ M + 1 := by
  induction h with
  | refl e => exact he
  | @step e next last path hn hl ih =>
    have hb := hM [] e (.refl e)
    exact ih (Nat.le_trans hn.depth_le (Nat.succ_le_succ hb)) fun path last h =>
      hM _ last (.step hn h)

end Entry

end Binding

/-! ### Obligations -/

/-- A schema, bound with a binder, obliges to a schema and the binder that it is bound with: a field
for such a record is required, or has a default that is not null. -/
def World.Obliges (w : World) (s t : Nat × ClassRef) : Prop :=
  ∃ plans plan, w.plansFor s.1 s.2 = .ok plans ∧ plan ∈ plans ∧
    plan.kind = some (.scalar (.schema t.2)) ∧
    (plan.requirement = .required ∨ ∃ v, plan.requirement = .defaulted v ∧ v ≠ .null) ∧
    t.1 = w.nestedBinder s.1 t.2

/-- Whether a schema obliges to another one. -/
def World.obliges (w : World) (s t : Nat × ClassRef) : Bool :=
  ((w.plansFor s.1 s.2).toOption.getD []).any fun plan =>
    plan.kind == some (.scalar (.schema t.2)) && t.1 == w.nestedBinder s.1 t.2 &&
      match plan.requirement with
      | .required => true
      | .defaulted .null => false
      | .defaulted _ => true
      | .optional => false

private theorem World.obliges_of_check {w : World} {s t : Nat × ClassRef}
    (h : w.obliges s t = true) :
    w.Obliges s t := by
  unfold World.obliges at h
  cases hp : w.plansFor s.1 s.2 with
  | error f =>
    rw [hp] at h
    cases h
  | ok plans =>
    rw [hp] at h
    obtain ⟨plan, hmem, hplan⟩ := List.any_eq_true.mp h
    rw [Bool.and_eq_true, Bool.and_eq_true, beq_iff_eq, beq_iff_eq] at hplan
    refine ⟨plans, plan, hp, hmem, hplan.1.1, ?_, hplan.1.2⟩
    have hr := hplan.2
    split at hr
    · next hreq => exact .inl hreq
    · cases hr
    · next v hv hreq => exact .inr ⟨v, hreq, hv⟩
    · cases hr

namespace Binding

open World

section Fields

variable {enter : Enter} {cls nested : ClassRef} {entries : List (Value × Value)} {plan : FieldPlan}
  {attrs bound : List (String × Value)} {w v : World}

/-- A field that is required, or has a default that is not null, is only bound with a value. -/
theorem rawValue_ne_null_of_bindField
    (hr : plan.requirement = .required ∨ ∃ v, plan.requirement = .defaulted v ∧ v ≠ .null)
    (h : exec (bindField enter cls entries plan attrs) w = (.ok bound, v)) :
    rawValue plan entries ≠ .null := by
  rcases hr with hr | ⟨d, hd, hn⟩
  · intro hz
    rw [bindField_null hz, hr] at h
    cases h
  · exact rawValue_ne_null hd hn entries

/-- A field for a nested record that is bound with a value comes to enter the schema. -/
theorem exists_opens_of_bindField (hk : plan.kind = some (.scalar (.schema nested)))
    (hn : rawValue plan entries ≠ .null)
    (h : exec (bindField enter cls entries plan attrs) w = (.ok bound, v)) :
    ∃ payload, Opens enter cls.name plan.name (.scalar (.schema nested))
      (w.adopted (rawValue plan entries)) (w.adopting (rawValue plan entries)) nested payload
      (w.adopting (rawValue plan entries)) := by
  rw [bindField_value hn, exec_bind_of_ok (exec_adopt _ w)] at h
  obtain ⟨x, u, hr, -⟩ := exec_bind_eq_ok_iff.mp h
  simp only [resolve, hk] at hr
  obtain ⟨y, t, hc, -⟩ := exec_bind_eq_ok_iff.mp hr
  generalize w.adopted (rawValue plan entries) = raw at hc
  cases raw with
  | dict payload => exact ⟨payload, .field⟩
  | _ => cases hc

end Fields

namespace Entry

variable {e : Entry} {t : Nat × ClassRef} {attrs : List (String × Value)}

/-- A run that succeeds makes an entry for every schema that its own obliges to, and that entry's
run succeeds. -/
theorem exists_next_of_obliges (hw : e.world.Consistent) (ho : e.world.Obliges (e.binder, e.cls) t)
    (h : e.run.1 = .ok attrs) :
    ∃ next, Next e next ∧ (next.binder, next.cls) = t ∧ ∃ attrs, next.run.1 = .ok attrs := by
  obtain ⟨entries, plans, u, bound, v, hdata, hp, hb⟩ := exists_bound_of_run h
  obtain ⟨plans', plan, hplans, hmem, hkind, hreq, hbinder⟩ := ho
  have hsame : plans' = plans := by
    have hc := fst_exec_planOf hw (e.world.binder e.binder).registry e.cls
    rw [hp] at hc
    exact Except.ok.inj (hplans.symm.trans hc.symm)
  subst hsame
  obtain ⟨before, after, rfl⟩ := List.append_of_mem hmem
  rw [bindFields_append] at hb
  obtain ⟨attrs₁, w₁, hbefore, hrest⟩ := exec_bind_eq_ok_iff.mp hb
  obtain ⟨attrs₂, w₂, hfield, -⟩ := exec_bind_eq_ok_iff.mp hrest
  have hn := rawValue_ne_null_of_bindField hreq hfield
  obtain ⟨payload, hopens⟩ := exists_opens_of_bindField hkind hn hfield
  obtain ⟨w, binder, depth, cls, data⟩ := e
  cases hdata
  have hd : depth ≤ (w.binder binder).maxDepth := by
    by_contra hd
    rw [run_tooDeep (Nat.lt_of_not_le hd)] at h
    cases h
  have hnext := Next.field hd hp hbefore hkind hopens
  refine ⟨_, hnext, Prod.ext hbinder.symm rfl, ?_⟩
  cases hr : (run ⟨_, w.nestedBinder binder t.2, depth + 1, t.2, .dict payload⟩).1 with
  | ok attrs => exact ⟨attrs, rfl⟩
  | error f =>
    rw [hnext.run_error (Prod.ext hr rfl)] at h
    cases h

/-- No run succeeds for a schema whose obligations have no end. -/
theorem exists_error_of_endless {w : World} {S : Nat × ClassRef → Prop}
    (hS : ∀ s, S s → ∃ t, w.Obliges s t ∧ S t) (hc : Calm w e.world) (hw : e.world.Consistent)
    (hs : S (e.binder, e.cls)) : ∃ f, e.run.1 = .error f := by
  -- The induction is on the levels that are left, of which every obligation takes one.
  induction hl : e.levels using Nat.strongRecOn generalizing e with
  | _ n ih =>
    cases hr : e.run.1 with
    | error f => exact ⟨f, rfl⟩
    | ok attrs =>
      obtain ⟨t, ⟨plans, plan, hp, hmem, hk, hreq, hb⟩, ht⟩ := hS _ hs
      have ho : e.world.Obliges (e.binder, e.cls) t := by
        refine ⟨plans, plan, ?_, hmem, hk, hreq, ?_⟩
        · rw [plansFor, hc.binder, hc.compile]
          exact hp
        · rw [hc.nestedBinder]
          exact hb
      obtain ⟨next, hnext, rfl, attrs', hok⟩ := exists_next_of_obliges hw ho hr
      obtain ⟨hwn, hcn⟩ := hnext.calm hw
      obtain ⟨f, hf⟩ := ih next.levels (hl ▸ hnext.levels_lt) (hc.trans hcn) hwn ht rfl
      rw [hf] at hok
      cases hok

end Entry

/-- A schema whose obligations lead to a schema that is, in the end, obliged to itself has
obligations without an end. -/
theorem endless_of_cycle {w : World} {t : Nat × ClassRef} (ht : Relation.TransGen w.Obliges t t)
    {s : Nat × ClassRef} (hs : Relation.ReflTransGen w.Obliges s t) :
    ∃ s', w.Obliges s s' ∧ Relation.ReflTransGen w.Obliges s' t := by
  rcases hs.cases_head with rfl | h
  · exact Relation.TransGen.head'_iff.mp ht
  · exact h

/-- Binding ends, whatever the schemas, the binders and the payload. No schema is entered deeper
than one level beyond the greatest limit of the binders involved, entries are never made without
end, and what a bind gives is what the recursion without a counter gives, which has one solution. A
schema from which obligations lead into a cycle is never bound. -/
theorem bind_ends {s : Session} (hs : s.Reachable) (binder : Nat) (cls : ClassRef) (data : Value) :
    (∀ M, (∀ path last, Entry.Leads (Entry.root s.world binder cls data) path last →
        (s.world.binder last.binder).maxDepth ≤ M) →
      ∀ path last, Entry.Leads (Entry.root s.world binder cls data) path last →
        last.depth ≤ M + 1) ∧
    Acc (fun next e => Entry.Next e next) (Entry.root s.world binder cls data) ∧
    (∃ again : Entry → Entry.Outcome, (∀ e, again e = Entry.body again e) ∧
      (∀ other : Entry → Entry.Outcome, (∀ e, other e = Entry.body other e) → other = again) ∧
      (exec (bind binder cls data) s.world).1 =
        (again (Entry.root s.world binder cls data)).1.map (instanceOf cls)) ∧
    ∀ t, Relation.ReflTransGen s.world.Obliges (binder, cls) t →
      Relation.TransGen s.world.Obliges t t →
      ∃ f, (exec (bind binder cls data) s.world).1 = .error f := by
  refine ⟨?_, Entry.acc_next _, ?_, ?_⟩
  · intro M hM path last hl
    refine hl.depth_le (Nat.zero_le _) fun path last h => ?_
    rw [World.binder, h.settings.1]
    exact hM path last h
  · refine ⟨Entry.run, fun e => Entry.run_eq_body fun _ _ => rfl, fun other ho => ?_,
      Entry.bind_eq_run s.world binder cls data⟩
    exact funext (Entry.eq_run_of_eq_body ho)
  · intro t hreach hcycle
    have hroot : (Entry.root s.world binder cls data).world.Consistent :=
      hs.consistent.adopting data
    obtain ⟨f, hf⟩ := Entry.exists_error_of_endless
      (S := fun x => Relation.ReflTransGen s.world.Obliges x t)
      (fun x hx => endless_of_cycle hcycle hx) (calm_adopting s.world data) hroot hreach
    rw [Entry.bind_eq_run, hf]
    exact ⟨f, rfl⟩

end Binding

namespace Session

open Binding

/-- A knot. -/
def knot : ClassRef := ⟨5, "Knot", true⟩

/-- A loop, which is bound with a binder of two levels. -/
def loop : ClassRef := ⟨6, "Loop", true⟩

/-- A rope, which starts with a knot. -/
def rope : ClassRef := ⟨7, "Rope", true⟩

/-- A knot must have a loop, and the loop has a knot even if the payload gives none. -/
def tying : List Operation :=
  [.newBinder 0 (some (.int 2)), .newClass "Knot" [.schemaBase] none [],
    .newClass "Loop" [.schemaBase] (some 1) [], .newClass "Rope" [.schemaBase] none [],
    .declare 0 (.cls knot) (.str "loop") [.fragment (.requirement .required)] (some (.cls loop)),
    .declare 0 (.cls loop) (.str "knot") [.fragment (.requirement (.defaulted (.dict [])))]
      (some (.cls knot)),
    .declare 0 (.cls rope) (.str "start") [.fragment (.requirement .required)] (some (.cls knot))]

/-- The session after that. -/
def tied : Session := initial.after tying

private theorem tied_obliges : tied.world.obliges (0, rope) (0, knot) = true ∧
    tied.world.obliges (0, knot) (1, loop) = true ∧
    tied.world.obliges (1, loop) (0, knot) = true := by
  decide +kernel

private theorem tied_limits (binder : Nat) : (tied.world.binder binder).maxDepth ≤ 64 := by
  have hb : tied.world.depthBound = 64 := by decide +kernel
  rw [← hb]
  exact maxDepth_le_depthBound tied.world binder

/-- No rope is ever bound, whatever it is made of, and no bind of one gets deeper than 65 levels. -/
theorem rope_never_bound :
    tied.world.Obliges (0, rope) (0, knot) ∧ ∀ data,
      (∃ f, (exec (bind 0 rope data) tied.world).1 = .error f) ∧
        ∀ path last, Entry.Leads (Entry.root tied.world 0 rope data) path last →
          last.depth ≤ 65 := by
  obtain ⟨hstart, hloop, hknot⟩ := tied_obliges
  have hreach := Relation.ReflTransGen.single (World.obliges_of_check hstart)
  have hcycle := Relation.TransGen.head (World.obliges_of_check hloop)
    (.single (World.obliges_of_check hknot))
  refine ⟨World.obliges_of_check hstart, fun data => ?_⟩
  have hends := bind_ends (reachable_after .initial tying) 0 rope data
  exact ⟨hends.2.2.2 _ hreach hcycle, hends.1 64 fun _ last _ => tied_limits last.binder⟩

end Session

end SchemaBinding
