import SchemaBinding.Proofs.DeclaredFields
import SchemaBinding.Proofs.FieldVisits

/-!
# Where binding errors arise

A binding error names the schema and the field at which it arose. However deep that schema is
nested, the error comes out of the bind as it was raised: no level on the way catches it, renames it
or puts another in its place.
-/

namespace SchemaBinding

namespace Binding

open World

/-- A schema is entered as before, but no binding error comes out of it. -/
def muffled (enter : Enter) : Enter := fun nested raw =>
  tryCatch (enter nested raw) fun fault =>
    match fault with
    | .binding _ => throw .emptyText
    | other => throw other

private theorem failsWith_muffled (enter : Enter) (nested : ClassRef) (raw : Value) :
    FailsWith (fun f => ∀ e, f ≠ .binding e) (muffled enter nested raw) := by
  intro w
  rw [muffled, exec_tryCatch]
  rcases exec (enter nested raw) w with ⟨f | x, v⟩
  · cases f with
    | binding e => exact .error fun _ h => by cases h
    | _ => exact .error fun _ h => by cases h
  · exact .ok x

private theorem exec_muffled {enter : Enter} {nested : ClassRef} {raw : Value} {w : World}
    (h : ∀ e, (exec (enter nested raw) w).1 ≠ .error (.binding e)) :
    exec (muffled enter nested raw) w = exec (enter nested raw) w := by
  rw [muffled, exec_tryCatch]
  rcases he : exec (enter nested raw) w with ⟨f | x, v⟩
  · cases f with
    | binding e => exact absurd (congrArg Prod.fst he) (h e)
    | _ => rfl
  · rfl

private theorem Opens.schema?_eq {enter : Enter} {typeName field : String} {kind : ValueKind}
    {raw : Value} {w v : World} {nested : ClassRef} {payload : List (Value × Value)}
    (h : Opens enter typeName field kind raw w nested payload v) : kind.schema? = some nested := by
  cases h with
  | field => rfl
  | element => rfl

namespace Entry

variable {e next last : Entry} {path : List ClassRef} {error : BindingError}

/-- An entry refuses its payload with an error: the schema lies beyond the depth limit, or the
payload is no mapping, or a field of the schema cannot be bound. -/
inductive Refuses (e : Entry) : BindingError → Prop
  | tooDeep (hd : (e.world.binder e.binder).maxDepth < e.depth) :
    Refuses e ⟨e.cls.name, rootField, .tooDeep (e.world.binder e.binder).maxDepth⟩
  | mismatch (hm : ∀ entries, e.data ≠ .dict entries) :
    Refuses e ⟨e.cls.name, rootField, .mismatch JsonKind.object.name e.data.kind none⟩
  | field {plans : List FieldPlan} {field : String}
    (hp : e.world.plansFor e.binder e.cls = .ok plans) (hf : field ∈ plans.map FieldPlan.name)
    (cause : BindingCause) : Refuses e ⟨e.cls.name, field, cause⟩

/-- If a run fails with a binding error and no entry that it makes does, then none fails with any:
the run would fail with it. So it matters not that these errors are kept in. -/
theorem exec_muffled_enter (h : e.run.1 = .error (.binding error))
    (hn : ∀ next, Next e next → next.run.1 ≠ .error (.binding error)) (hx : Next e next) :
    exec (enter e next.cls next.data) next.world =
      exec (muffled (enter e) next.cls next.data) next.world := by
  rw [exec_muffled]
  intro b hb
  rw [hx.exec_enter, fst_exec_bind_pure] at hb
  have hr : next.run.1 = .error (.binding b) := eq_error_of_map hb
  have he := hx.run_error (Prod.ext hr rfl)
  rw [he] at h
  cases h
  exact hn next hx hr

/-- A field that a run comes to fails by its rules, if the run fails with a binding error and no
entry that it makes does. -/
theorem Visit.failsOnly_outcome {P : Fault → Prop} (visit : e.Visit)
    (hP : Fault.Covers P e.cls.name visit.plan.name) (hp : visit.plan.Ordinary)
    (hi : ∀ v, visit.plan.CallsNoInteger (visit.world.adopted visit.raw) v →
      P (.ofBinding ⟨e.cls.name, visit.plan.name, .notInteger v⟩))
    (h : e.run.1 = .error (.binding error))
    (hn : ∀ next, Next e next → next.run.1 ≠ .error (.binding error)) :
    FailsOnly P visit.outcome.1 := by
  have hmuffled : visit.outcome =
      exec (bindField (muffled e.enter) e.cls visit.entries visit.plan visit.attrs)
        visit.world := by
    refine exec_bindField_congr _ fun kind nested payload x hk ho => ?_
    have henter := exec_muffled_enter h hn (visit.enters hk ho)
    exact henter
  rw [hmuffled]
  refine failsOnly_bindField hP (fun c u => ?_) hp visit.entries visit.attrs visit.world hi
  exact (failsWith_muffled e.enter c u).imp fun f hf => hP.other hf

/-- A run that fails with a binding error, although no entry that it makes does, refuses its payload
with this error. -/
theorem refuses_of_run_error (hw : e.world.Consistent)
    (ho : ∀ plans, e.world.plansFor e.binder e.cls = .ok plans → ∀ p ∈ plans, p.Ordinary)
    (h : e.run.1 = .error (.binding error))
    (hn : ∀ next, Next e next → next.run.1 ≠ .error (.binding error)) : e.Refuses error := by
  rcases run_binding_cases hw h with ⟨hd, rfl⟩ | ⟨hm, rfl⟩ | ⟨visit, hv⟩
  · exact .tooDeep hd
  · exact .mismatch hm
  · have hplans := visit.plansFor_eq hw
    obtain ⟨ht, hf⟩ := visit.failsOnly_outcome (Fault.covers_names _ _)
      (ho _ hplans _ visit.plan_mem) (fun _ _ => Fault.names_ofBinding _ _ _) h hn _ hv error rfl
    obtain ⟨typeName, field, cause⟩ := error
    cases ht
    cases List.mem_singleton.mp hf
    exact .field hplans (List.mem_map_of_mem visit.plan_mem) cause

/-- The run of an entry changes the world calmly until it makes another entry. -/
theorem Next.calm (h : Next e next) (hw : e.world.Consistent) :
    next.world.Consistent ∧ Calm e.world next.world := by
  cases h with
  | @field w w₁ w₂ w₃ binder depth cls nested entries payload before after plan kind attrs hd hp hb
      hk ho =>
    have he : ∀ K : World → Prop, (∀ w v, Calm w v → K w → K v) → ∀ c v,
        Agree (Kin K) (enter ⟨w, binder, depth, cls, .dict entries⟩ c v) (do
          return instanceOf c (← populate recompile (w.depthBound - depth)
            (w.nestedBinder binder c) (depth + 1) c v)) :=
      fun K hK c v => Agree.bind (agree_populate hK _ _ _ c v) fun _ => Agree.pure _
    have h₁ := calm_of_agree hw fun K hK => agree_planOf hK (w.binder binder).registry cls
    rw [hp] at h₁
    have h₂ := calm_of_agree h₁.1 fun K hK =>
      agree_bindFields hK (he K hK) cls entries before []
    rw [hb] at h₂
    have h₃ := calm_of_agree h₂.1 fun K hK => agree_adopt_of_calm hK (rawValue plan entries)
    rw [exec_adopt] at h₃
    have hcalm := (h₁.2.trans h₂.2).trans h₃.2
    generalize w₂.adopted (rawValue plan entries) = raw at ho
    generalize w₂.adopting (rawValue plan entries) = w₂' at ho h₃ hcalm
    cases ho with
    | field => exact ⟨h₃.1, hcalm⟩
    | @element _ _ _ _ _ items _ _ _ hc =>
      have h₄ := calm_of_agree h₃.1 fun K hK =>
        agree_convertItems (he K hK) cls.name plan.name (.schema nested) 0 items
      rw [hc] at h₄
      exact ⟨h₄.1, hcalm.trans h₄.2⟩

/-- The run of an entry enters a schema that a field of its own schema is declared with. -/
theorem Next.declared (h : Next e next) (hw : e.world.Consistent) :
    ∃ plans plan kind, e.world.plansFor e.binder e.cls = .ok plans ∧ plan ∈ plans ∧
      plan.kind = some kind ∧ kind.schema? = some next.cls := by
  cases h with
  | @field w w₁ w₂ w₃ binder depth cls nested entries payload before after plan kind attrs hd hp hb
      hk ho =>
    have hc := fst_exec_planOf hw (w.binder binder).registry cls
    rw [hp] at hc
    exact ⟨before ++ plan :: after, plan, kind, hc.symm,
      List.mem_append_right before (List.mem_cons_self ..), hk, ho.schema?_eq⟩

/-- What holds of the plans of all schemas that can be nested in one holds of those that can be
nested in an entry that its run makes. -/
theorem Next.throughout {Q : List FieldPlan → Prop} {w : World} (h : Next e next)
    (hw : e.world.Consistent) (hc : Calm w e.world) (hq : w.Throughout Q e.binder e.cls) :
    w.Throughout Q next.binder next.cls := by
  obtain ⟨plans, plan, kind, hp, hmem, hk, hs⟩ := h.declared hw
  rw [plansFor, hc.binder, hc.compile, ← plansFor] at hp
  rw [h.binder_eq, hc.nestedBinder]
  exact hq.nested hp hmem hk hs

/-- The run of an entry changes the world calmly until it comes to another entry. -/
theorem Leads.calm (h : Leads e path last) (hw : e.world.Consistent) :
    last.world.Consistent ∧ Calm e.world last.world := by
  induction h with
  | refl e => exact ⟨hw, .refl e.world⟩
  | step hn _ ih =>
    obtain ⟨hc, hcalm⟩ := hn.calm hw
    obtain ⟨hl, hlast⟩ := ih hc
    exact ⟨hl, hcalm.trans hlast⟩

/-- What holds of the plans of all schemas that can be nested holds of those of every entry that a
run comes to. -/
theorem Leads.plans {Q : List FieldPlan → Prop} (h : Leads e path last)
    (hw : e.world.Consistent) {w : World} (hc : Calm w e.world)
    (hq : w.Throughout Q e.binder e.cls) {plans : List FieldPlan}
    (hp : last.world.plansFor last.binder last.cls = .ok plans) : Q plans := by
  induction h with
  | refl e =>
    rw [plansFor, hc.binder, hc.compile, ← plansFor] at hp
    exact hq.plans hp
  | @step e next last path hn _ ih =>
    obtain ⟨hwn, hcn⟩ := hn.calm hw
    exact ih hwn (hc.trans hcn) (hn.throughout hw hc hq) hp

/-- An entry that a run makes has fewer levels left. -/
theorem Next.levels_lt (h : Next e next) : next.levels < e.levels := by
  have hb : next.world.depthBound = e.world.depthBound := by
    rw [depthBound, depthBound, h.settings.1]
  have hm := maxDepth_le_depthBound e.world e.binder
  have hle : e.depth ≤ (e.world.binder e.binder).maxDepth := by
    cases h with
    | field hd => exact hd
  have hd := h.depth_eq
  simp only [levels]
  omega

/-- A binding error with which a run fails comes from an entry that the run leads to, and that
refuses its payload with this very error. What is asked of the plans may be asked of an earlier
world from which the changes were calm. -/
theorem exists_origin {w : World} (hc : Calm w e.world) (hw : e.world.Consistent)
    (ho : w.Throughout (fun plans => ∀ p ∈ plans, p.Ordinary) e.binder e.cls)
    (h : e.run.1 = .error (.binding error)) :
    ∃ path last, Leads e path last ∧ Calm w last.world ∧
      last.run.1 = .error (.binding error) ∧
      (∀ next, Next last next → next.run.1 ≠ .error (.binding error)) ∧ last.Refuses error := by
  -- The induction is on the levels that are left: an entry that a run makes has fewer.
  induction hl : e.levels using Nat.strongRecOn generalizing e with
  | _ n ih =>
    have hplans : e.world.plansFor e.binder e.cls = w.plansFor e.binder e.cls := by
      rw [plansFor, plansFor, hc.binder, hc.compile]
    by_cases hn : ∃ next, Next e next ∧ next.run.1 = .error (.binding error)
    · obtain ⟨next, hx, hr⟩ := hn
      obtain ⟨hwn, hcn⟩ := hx.calm hw
      obtain ⟨path, last, hl', hlast⟩ :=
        ih next.levels (hl ▸ hx.levels_lt) (hc.trans hcn) hwn (hx.throughout hw hc ho) hr rfl
      exact ⟨next.cls :: path, last, .step hx hl', hlast⟩
    · have hn' : ∀ next, Next e next → next.run.1 ≠ .error (.binding error) :=
        fun next hx hr => hn ⟨next, hx, hr⟩
      have hp : ∀ plans, e.world.plansFor e.binder e.cls = .ok plans → ∀ p ∈ plans, p.Ordinary := by
        intro plans hplan
        exact ho.plans (hplans.symm.trans hplan)
      exact ⟨[], e, .refl e, hc, h, hn', refuses_of_run_error hw hp h hn'⟩

private theorem Leads.data_cases (h : Leads e path last) :
    path = [] ∧ last = e ∨ ∃ payload, last.data = .dict payload := by
  induction h with
  | refl e => exact .inl ⟨rfl, rfl⟩
  | @step e next last path hn _ ih =>
    right
    rcases ih with ⟨-, rfl⟩ | h
    · cases hn with
      | @field _ _ _ _ _ _ _ _ _ payload => exact ⟨payload, rfl⟩
    · exact h

/-- A payload that is no mapping, once it has been told apart from all other values, was none. -/
theorem rootPayload_ne_dict {w : World} {data : Value}
    (h : ∀ entries, rootPayload (w.adopted data) ≠ .dict entries) :
    ∀ entries, rootPayload data ≠ .dict entries := by
  intro entries hd
  cases data with
  | null => exact h [] rfl
  | dict es => exact h _ rfl
  | _ => cases hd

/-- A binding error that a bind raises arises in an entry at the end of a path of nested classes. -/
structure Origin (w : World) (binder : Nat) (data : Value) (path : List ClassRef) (last : Entry)
    (error : BindingError) : Prop where
  /-- The schema lies as many levels below the root as the path has classes. -/
  depth : last.depth = path.length
  /-- It is bound with the binder that its place selects. -/
  binder : last.binder = w.binderAt binder path
  /-- Classes, binders and contracts are those of the world in which the bind began. -/
  calm : Calm w last.world
  /-- Binding the payload to the schema there raises the error. -/
  run : last.run.1 = .error (.binding error)
  /-- No schema that is nested in it raises the error. -/
  innermost : ∀ next, Next last next → next.run.1 ≠ .error (.binding error)
  /-- The error names the schema. -/
  typeName : error.typeName = last.cls.name
  /-- The error names a declared field of the schema, or the payload as a whole. -/
  fieldName : error.fieldName = rootField ∨ error.fieldName ∈
    ((w.registry (w.binder last.binder).registry).fields w.classes last.cls).map FieldContract.name
  /-- The error names the payload as a whole only if the schema lies beyond the depth limit of its
  binder, or if the payload of the bind is no mapping. -/
  root : error.fieldName = rootField →
    error.cause = .tooDeep (w.binder last.binder).maxDepth ∧
        (w.binder last.binder).maxDepth < path.length ∨
      path = [] ∧ ∀ entries, rootPayload data ≠ .dict entries

end Entry

/-- A binding error that a bind raises is that of one schema, which the bind comes to through fields
declared with nested schemas: raised there, it comes out as it is. This asks that the functions of
the caller raise no binding errors themselves. -/
theorem bind_error_origin {s : Session} (hs : s.Reachable) {binder : Nat} {cls : ClassRef}
    {data : Value} {error : BindingError}
    (ho : s.world.Throughout (fun plans => ∀ p ∈ plans, p.Ordinary) binder cls)
    (h : (exec (bind binder cls data) s.world).1 = .error (.binding error)) :
    ∃ path last, Entry.Leads (Entry.root s.world binder cls data) path last ∧
      Entry.Origin s.world binder data path last error := by
  have hw : (Entry.root s.world binder cls data).world.Consistent := hs.consistent.adopting data
  rw [Entry.bind_eq_run] at h
  obtain ⟨path, last, hl, hc, hr, hn, hf⟩ :=
    Entry.exists_origin (calm_adopting s.world data) hw ho (eq_error_of_map h)
  have hdepth : last.depth = path.length := hl.depth_eq.trans (Nat.zero_add _)
  have hbinder : last.binder = s.world.binderAt binder path := hl.binder_eq
  have hlimit : last.world.binder last.binder = s.world.binder last.binder := hc.binder _
  have hcompile : last.world.plansFor last.binder last.cls =
      s.world.plansFor last.binder last.cls := by
    rw [plansFor, plansFor, hlimit, hc.compile]
  refine ⟨path, last, hl, ?_⟩
  cases hf with
  | tooDeep hd =>
    rw [hlimit] at hr hn ⊢
    rw [hlimit, hdepth] at hd
    exact ⟨hdepth, hbinder, hc, hr, hn, rfl, .inl rfl, fun _ => .inl ⟨rfl, hd⟩⟩
  | mismatch hm =>
    rcases hl.data_cases with ⟨hp, rfl⟩ | ⟨payload, hd⟩
    · exact ⟨hdepth, hbinder, hc, hr, hn, rfl, .inl rfl,
        fun _ => .inr ⟨hp, Entry.rootPayload_ne_dict hm⟩⟩
    · exact absurd hd (hm payload)
  | @field plans field hp hf cause =>
    rw [Registry.map_name_plans (hcompile.symm.trans hp)] at hf
    refine ⟨hdepth, hbinder, hc, hr, hn, rfl, .inr hf, fun he => ?_⟩
    -- The name that stands for the whole payload is no identifier, and every field is one.
    obtain ⟨f, hmem, hname⟩ := List.mem_map.mp hf
    have hi := hs.isIdentifier hmem
    have hroot : f.name = rootField := hname.trans he
    rw [hroot, rootField_not_identifier] at hi
    cases hi

end Binding

/-- A field without functions of the caller has no functions that raise binding errors. -/
theorem FieldPlan.Plain.ordinary {p : FieldPlan} (h : p.Plain) : p.Ordinary := by
  refine ⟨fun f hf => ?_, fun c hc => ?_⟩
  · rw [h.transforms] at hf
    cases hf
  · have hp := h.checks c hc
    cases c with
    | comparison c => trivial
    | custom f => exact hp.elim

namespace Session

/-- The binding error with which an action fails, if it does. -/
def bindingError? {α : Type} : Except Fault α → Option BindingError
  | .error (.binding e) => some e
  | _ => none

/-- A result that tells a binding error has failed with it. -/
theorem eq_of_bindingError? {α : Type} {r : Except Fault α} {e : BindingError}
    (h : bindingError? r = some e) : r = .error (.binding e) := by
  unfold bindingError? at h
  split at h
  · cases h
    rfl
  · cases h

/-- The payload of a node below which stands a number in the place of a node. -/
def misfit : Value := .dict [(.str "child", .dict [(.str "child", .int 3)])]

private theorem nesting_ordinary :
    nesting.world.Throughout (fun plans => ∀ p ∈ plans, p.Ordinary) 1 node := by
  have hc : nesting.world.closed (fun plans => ∀ plan ∈ plans, plan.Plain)
      [(1, node), (0, node)] = true := by decide +kernel
  have hp : nesting.world.Plain 1 node := World.throughout_of_closed hc (List.mem_cons_self ..)
  intro next last hr plans hplans p hmem
  exact (hp next last hr plans hplans p hmem).ordinary

/-- A number in the place of a node two levels down is an error of the node one level down. -/
theorem misfit_origin : ∃ error path last,
    (exec (Binding.bind 1 node misfit) nesting.world).1 = .error (.binding error) ∧
      (error.typeName, error.fieldName) = ("Node", "child") ∧
      Binding.Entry.Leads (Binding.Entry.root nesting.world 1 node misfit) path last ∧
      Binding.Entry.Origin nesting.world 1 misfit path last error := by
  have hd : (bindingError? (exec (Binding.bind 1 node misfit) nesting.world).1).map
      (fun e => (e.typeName, e.fieldName)) = some ("Node", "child") := by decide +kernel
  obtain ⟨error, he, hn⟩ := Option.map_eq_some_iff.mp hd
  have hr := eq_of_bindingError? he
  obtain ⟨path, last, hl, ho⟩ :=
    Binding.bind_error_origin nesting_reachable nesting_ordinary hr
  exact ⟨error, path, last, hr, hn, hl, ho⟩

end Session

end SchemaBinding
