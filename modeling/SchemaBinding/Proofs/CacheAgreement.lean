import SchemaBinding.Proofs.WorldInvariant

/-!
# Binding with and without kept plans

`World.recompile` compiles the plan of a class each time it is asked for, and keeps none. From alike
worlds every action gives the same, whether its plans come from `World.planOf` or from
`World.recompile`, and leaves alike worlds. `K` is a property of worlds that calm changes keep;
binding makes no other changes, so that it keeps every such property.
-/

namespace SchemaBinding

namespace World

/-- The plans of a class in a registry, compiled from its contracts whenever they are asked for. -/
def recompile : PlanSource := fun i c => do
  let w ← get
  let plans ← lift ((w.registry i).compile w.classes c)
  logEvent (.planCompiled i c (plans.map fun p => (p.name, planKindName p)))
  return plans

/-- Compiling without a cache gives what the registry compiles, and logs that it did. -/
theorem exec_recompile (i : Nat) (c : ClassRef) (w : World) :
    exec (recompile i c) w = match (w.registry i).compile w.classes c with
      | .ok plans =>
        (.ok plans, w.log (.planCompiled i c (plans.map fun p => (p.name, planKindName p))))
      | .error f => (.error f, w) := by
  simp only [recompile, exec_bind, exec_get, lift, exec_mk]
  cases (w.registry i).compile w.classes c <;> rfl

/-- A plan that is kept is given at once. -/
theorem exec_planOf_kept {w : World} {i : Nat} {c : ClassRef} {plans : List FieldPlan}
    (h : (w.registry i).cached? c = some plans) : exec (planOf i c) w = (.ok plans, w) := by
  simp only [planOf, exec_bind, exec_get, h, exec_pure]

/-- A plan that is not kept is compiled, kept and logged. -/
theorem exec_planOf_compiled {w : World} {i : Nat} {c : ClassRef}
    (h : (w.registry i).cached? c = none) :
    exec (planOf i c) w = match (w.registry i).compile w.classes c with
      | .ok plans => (.ok plans, (w.setRegistry i ((w.registry i).keep c plans)).log
          (.planCompiled i c (plans.map fun p => (p.name, planKindName p))))
      | .error f => (.error f, w) := by
  simp only [planOf, exec_bind, exec_get, h, lift, exec_mk]
  cases (w.registry i).compile w.classes c <;> rfl

/-- The two worlds are alike, and the first has a property. -/
def Kin (K : World → Prop) (w v : World) : Prop := w.Alike v ∧ K w

/-- An action that gives the same with plans kept or compiled, whatever property calm changes keep,
makes a calm change. -/
theorem calm_of_agree {α : Type} {w : World} {a b : Action α} (hw : w.Consistent)
    (h : ∀ K : World → Prop, (∀ w v, Calm w v → K w → K v) → Agree (Kin K) a b) :
    (exec a w).2.Consistent ∧ Calm w (exec a w).2 := by
  have hk := h (Calm w) (fun _ _ hv hc => hc.trans hv) w w ⟨hw.refl_alike, .refl w⟩
  exact ⟨hk.2.1.consistent, hk.2.2⟩

variable {K : World → Prop}

/-- Telling a value apart from all others does not depend on which plans are kept. -/
theorem agree_adopt (hK : ∀ w v, K w → K (adopting w v)) (v : Value) :
    Agree (Kin K) (adopt v) (adopt v) := by
  intro w u ⟨ha, hk⟩
  have hv : w.adopted v = u.adopted v := by rw [adopted, adopted, ha.supply]
  have hn : (w.adopting v).supply = (u.adopting v).supply := by
    rw [adopting, adopting, ha.supply]
  refine ⟨congrArg Except.ok hv, ?_, hK w v hk⟩
  rw [exec_adopt, exec_adopt]
  have hc := ha.consistent
  exact ⟨⟨hc.faithful, hc.named, hc.bytes⟩, ha.classes, ha.registries, ha.binders, ha.calls,
    ha.growth, hn⟩

/-- Two worlds still agree when an event is logged in each. -/
theorem agree_logEvent {e f : Event} (hK : ∀ w, K w → K (w.log e)) :
    Agree (Kin K) (logEvent e) (logEvent f) := by
  refine Agree.modify fun w u ⟨ha, hk⟩ => ⟨?_, hK w hk⟩
  have hc := ha.consistent
  exact ⟨⟨hc.faithful, hc.named, hc.bytes⟩, ha.classes, ha.registries, ha.binders, ha.calls,
    ha.growth, ha.supply⟩

/-- A plan that is kept is the one that compiling gives. -/
theorem agree_planOf (hK : ∀ w v, Calm w v → K w → K v) (i : Nat) (c : ClassRef) :
    Agree (Kin K) (planOf i c) (recompile i c) := by
  intro w u ⟨ha, hk⟩
  have hu := ha.compile i c
  rw [AgreeAt, exec_recompile, ← hu]
  cases hc : (w.registry i).cached? c with
  | some plans =>
    rw [exec_planOf_kept hc, ha.consistent.faithful i c plans hc]
    have hcon := ha.consistent
    exact ⟨rfl, ⟨hcon, ha.classes, ha.registries, ha.binders, ha.calls, ha.growth,
      ha.supply⟩, hk⟩
  | none =>
    rw [exec_planOf_compiled hc]
    cases hp : (w.registry i).compile w.classes c with
    | error f => exact ⟨rfl, ha, hk⟩
    | ok plans =>
      have hcon := ha.consistent.keep hp
      refine ⟨rfl, ⟨⟨hcon.faithful, hcon.named, hcon.bytes⟩, ha.classes, ?_, ha.binders, ha.calls,
        ha.growth, ha.supply⟩, hK w _ (calm_keep hc hp _) hk⟩
      exact (map_dropPlans_setRegistry w i ((w.registry i).keep c plans) rfl).trans ha.registries

/-- The plans of a class are those that compiling gives, kept or not. -/
theorem fst_exec_planOf {w : World} (h : w.Consistent) (i : Nat) (c : ClassRef) :
    (exec (planOf i c) w).1 = (w.registry i).compile w.classes c := by
  have ha := agree_planOf (K := fun _ => True) (fun _ _ _ _ => trivial) i c
  rw [(ha w w ⟨h.refl_alike, trivial⟩).1, exec_recompile]
  cases (w.registry i).compile w.classes c <;> rfl

end World

namespace Binding

open World

variable {S : World → World → Prop}

section Convert

variable {enter other : Enter} (he : ∀ c v, Agree S (enter c v) (other c v))

include he

private theorem agree_convertScalar (typeName field : String) (index : Option Nat) (raw : Value)
    (kind : ScalarKind) :
    Agree S (convertScalar enter typeName field index raw kind)
      (convertScalar other typeName field index raw kind) := by
  cases kind with
  | primitive p =>
    cases hp : p.convert raw with
    | ok v => simp only [convertScalar, hp]; exact Agree.pure v
    | error expected => simp only [convertScalar, hp]; exact Agree.throw _
  | date target =>
    simp only [convertScalar]
    cases parseDate raw target with
    | error fault => exact Agree.throw _
    | ok found =>
      cases found with
      | some v => exact Agree.pure v
      | none => exact Agree.throw _
  | schema cls =>
    cases raw with
    | dict entries => exact he cls (.dict entries)
    | _ => exact Agree.throw _
  | mapping =>
    cases raw with
    | dict entries => exact Agree.pure _
    | _ => exact Agree.throw _
  | any => exact Agree.pure raw

/-- Elements are converted alike whether or not plans are kept. -/
theorem agree_convertItems (typeName field : String) (kind : ScalarKind) (index : Nat)
    (items : List Value) :
    Agree S (convertItems enter typeName field kind index items)
      (convertItems other typeName field kind index items) := by
  induction items generalizing index with
  | nil => exact Agree.pure []
  | cons raw rest ih =>
    refine Agree.bind (agree_convertScalar he typeName field (some index) raw kind) fun v => ?_
    exact Agree.bind (ih (index + 1)) fun vs => Agree.pure (v :: vs)

private theorem agree_convert (typeName field : String) (raw : Value) (kind : ValueKind) :
    Agree S (convert enter typeName field raw kind) (convert other typeName field raw kind) := by
  cases kind with
  | scalar kind => exact agree_convertScalar he typeName field none raw kind
  | array element =>
    cases hi : arrayItems? raw with
    | none => simp only [convert, hi]; exact Agree.throw _
    | some items =>
      cases element with
      | none => simp only [convert, hi]; exact Agree.pure _
      | some kind =>
        simp only [convert, hi]
        exact Agree.bind (agree_convertItems he typeName field kind 0 items) fun vs =>
          Agree.pure (Value.list vs none)

private theorem agree_convertField (typeName : String) (plan : FieldPlan) (kind : ValueKind)
    (raw : Value) :
    Agree S (convertField enter typeName plan kind raw)
      (convertField other typeName plan kind raw) := by
  unfold convertField
  split
  · next p =>
    cases p.convert raw with
    | ok v => exact Agree.pure v
    | error expected =>
      dsimp only
      split
      · exact Agree.throw _
      · exact Agree.throw _
  · exact agree_convert he typeName plan.name raw kind

end Convert

/-! ### Functions of the caller -/

variable {K : World → Prop} (hK : ∀ w v, Calm w v → K w → K v)

section Call

include hK

/-- Where calm changes keep a relation of worlds, so does telling a value apart. -/
theorem agree_adopt_of_calm (v : Value) : Agree (Kin K) (adopt v) (adopt v) :=
  agree_adopt (fun w v => hK w _ (calm_adopting w v)) v

private theorem agree_obtain (kept argument : Value) (attrs : List (String × Value))
    (given : Given) :
    Agree (Kin K) (obtain kept argument attrs given) (obtain kept argument attrs given) := by
  induction given with
  | made v => exact agree_adopt_of_calm hK v
  | single item ih => exact Agree.bind ih fun v => agree_adopt_of_calm hK _
  | repeated times items ih => exact Agree.bind ih fun v => agree_adopt_of_calm hK _
  | _ => exact Agree.pure _

private theorem agree_setGiven (kept argument : Value) (sets : List (String × Given))
    (attrs : List (String × Value)) :
    Agree (Kin K) (setGiven kept argument sets attrs) (setGiven kept argument sets attrs) := by
  induction sets generalizing attrs with
  | nil => exact Agree.pure attrs
  | cons s rest ih =>
    exact Agree.bind (agree_obtain hK kept argument attrs s.2) fun v => ih _

private theorem agree_recordCall (c : Call) :
    Agree (Kin K) (modify fun w => { w with calls := w.calls ++ [c] } : Action PUnit)
      (modify fun w => { w with calls := w.calls ++ [c] }) := by
  refine Agree.modify fun w u ⟨ha, hk⟩ => ⟨?_, hK w _ ⟨rfl, rfl, rfl, rfl, fun _ _ => rfl⟩ hk⟩
  have hc := ha.consistent
  exact ⟨⟨hc.faithful, hc.named, hc.bytes⟩, ha.classes, ha.registries, ha.binders,
    congrArg (· ++ [c]) ha.calls, ha.growth, ha.supply⟩

private theorem agree_call (cls : ClassRef) (field : String) (attrs : List (String × Value))
    (f : UserFunction) (value : Value) :
    Agree (Kin K) (call cls field attrs f value) (call cls field attrs f value) := by
  refine Agree.get fun w u h => ?_
  simp only [h.1.classes, h.1.growth]
  refine Agree.bind (agree_recordCall hK _) (fun _ => ?_) w u h
  split
  · exact Agree.throw _
  · exact Agree.throw _
  · split
    · exact Agree.throw _
    · exact Agree.bind (agree_setGiven hK _ _ _ _) fun attrs =>
        Agree.bind (agree_obtain hK _ _ _ _) fun v => Agree.pure (attrs, v)

private theorem agree_transform (cls : ClassRef) (field : String) (fs : List UserFunction)
    (attrs : List (String × Value)) (value : Value) :
    Agree (Kin K) (transform cls field fs attrs value) (transform cls field fs attrs value) := by
  induction fs generalizing attrs value with
  | nil => exact Agree.pure _
  | cons f fs ih =>
    refine Agree.bind (agree_call hK cls field attrs f value) fun r => ?_
    obtain ⟨attrs, replacement⟩ := r
    cases replacement with
    | null => exact ih attrs value
    | _ => exact ih attrs _

private theorem agree_check (cls : ClassRef) (field : String) (attrs : List (String × Value))
    (value : Value) (c : Check) :
    Agree (Kin K) (check cls field attrs value c) (check cls field attrs value c) := by
  cases c with
  | comparison c => exact Agree.bind (Agree.mk _) fun _ => Agree.pure attrs
  | custom predicate =>
    refine Agree.bind (agree_call hK cls field attrs predicate value) fun r => ?_
    obtain ⟨attrs, verdict⟩ := r
    dsimp only
    split
    · split
      · exact Agree.throw _
      · exact Agree.throw _
    · exact Agree.pure _

private theorem agree_checkAll (cls : ClassRef) (field : String) (value : Value) (cs : List Check)
    (attrs : List (String × Value)) :
    Agree (Kin K) (checkAll cls field value cs attrs) (checkAll cls field value cs attrs) := by
  induction cs generalizing attrs with
  | nil => exact Agree.pure attrs
  | cons c cs ih => exact Agree.bind (agree_check hK cls field attrs value c) fun attrs => ih attrs

end Call

/-! ### Records -/

private theorem agree_assign (cls : ClassRef) (attrs : List (String × Value)) (name : String)
    (value : Value) :
    Agree (Kin K) (assign cls attrs name value) (assign cls attrs name value) := by
  refine Agree.get fun w u h => ?_
  simp only [h.1.classes]
  split
  · exact Agree.pure _ w u h
  · exact Agree.throw _ w u h

section Record

variable {enter other : Enter} (he : ∀ c v, Agree (Kin K) (enter c v) (other c v))

include hK he

private theorem agree_resolve (cls : ClassRef) (plan : FieldPlan) (attrs : List (String × Value))
    (raw : Value) :
    Agree (Kin K) (resolve enter cls plan attrs raw) (resolve other cls plan attrs raw) := by
  unfold resolve
  split
  · exact agree_transform hK cls plan.name plan.transforms attrs raw
  · next kind _ =>
    refine Agree.bind (agree_convertField he cls.name plan kind raw) fun v => ?_
    refine Agree.bind (agree_adopt_of_calm hK v) fun v => ?_
    refine Agree.bind (Agree.mk _) fun _ => ?_
    refine Agree.bind (agree_transform hK cls plan.name plan.transforms attrs v) fun r => ?_
    refine Agree.bind (agree_checkAll hK cls plan.name r.2 plan.checks r.1) fun attrs => ?_
    exact Agree.bind (Agree.mk _) fun _ => Agree.pure (attrs, r.2)

private theorem agree_bindField (cls : ClassRef) (entries : List (Value × Value)) (plan : FieldPlan)
    (attrs : List (String × Value)) :
    Agree (Kin K) (bindField enter cls entries plan attrs)
      (bindField other cls entries plan attrs) := by
  unfold bindField
  split
  · split
    · exact Agree.throw _
    · exact Agree.pure attrs
  · next raw _ =>
    refine Agree.bind (agree_adopt_of_calm hK _) fun v => ?_
    refine Agree.bind (agree_resolve hK he cls plan attrs v) fun r => ?_
    exact agree_assign cls r.1 plan.name r.2

/-- Fields are bound alike whether or not plans are kept. -/
theorem agree_bindFields (cls : ClassRef) (entries : List (Value × Value))
    (plans : List FieldPlan) (attrs : List (String × Value)) :
    Agree (Kin K) (bindFields enter cls entries plans attrs)
      (bindFields other cls entries plans attrs) := by
  induction plans generalizing attrs with
  | nil => exact Agree.pure attrs
  | cons plan plans ih =>
    exact Agree.bind (agree_bindField hK he cls entries plan attrs) fun attrs => ih attrs

end Record

include hK

/-- A payload is bound alike whether or not plans are kept. -/
theorem agree_populate (levels binder depth : Nat) (cls : ClassRef) (data : Value) :
    Agree (Kin K) (populate planOf levels binder depth cls data)
      (populate recompile levels binder depth cls data) := by
  induction levels generalizing binder depth cls data with
  | zero =>
    refine Agree.get fun w u h => ?_
    rw [h.1.binder binder]
    exact Agree.throw _ w u h
  | succ levels ih =>
    refine Agree.get fun w u h => ?_
    simp only [h.1.binder binder]
    split
    · exact Agree.throw _ w u h
    · split
      · next entries =>
        refine Agree.bind (agree_planOf hK _ cls) (fun plans => ?_) w u h
        refine agree_bindFields hK (fun c v => ?_) cls entries plans []
        rw [h.1.nestedBinder binder c]
        exact Agree.bind (ih _ _ c v) fun attrs => Agree.pure (instanceOf c attrs)
      · exact Agree.throw _ w u h

private theorem agree_reporting {α : Type} (cls : ClassRef) {a b : Action α}
    (h : Agree (Kin K) a b) :
    Agree (Kin K) (reporting cls a) (reporting cls b) := by
  refine Agree.tryCatch h fun fault => ?_
  cases fault with
  | binding e =>
    exact Agree.bind (agree_logEvent fun w => hK w _ (calm_log w fun _ _ => rfl)) fun _ =>
      Agree.throw _
  | _ => exact Agree.throw _

/-- Binding gives the same with the plans that are kept as with plans that are always compiled. -/
theorem agree_bindAttrs (binder : Nat) (cls : ClassRef) (data : Value) :
    Agree (Kin K) (bindAttrs planOf binder cls data) (bindAttrs recompile binder cls data) := by
  refine Agree.bind (agree_adopt_of_calm hK data) fun data => Agree.get fun w u h => ?_
  have hd : w.depthBound = u.depthBound := by rw [depthBound, depthBound, h.1.binders]
  rw [hd]
  exact agree_reporting hK cls (agree_populate hK _ _ _ cls _) w u h

/-- So does binding onto a record. -/
theorem agree_bindOnto (binder : Nat) (cls : ClassRef) (attrs : List (String × Value))
    (data : Value) :
    Agree (Kin K) (bindOnto planOf binder cls attrs data)
      (bindOnto recompile binder cls attrs data) := by
  refine Agree.bind (agree_bindAttrs hK binder cls data) fun bound => Agree.get fun w u h => ?_
  rw [h.1.classes]
  split
  · exact Agree.pure _ w u h
  · exact Agree.throw _ w u h

end Binding

end SchemaBinding
