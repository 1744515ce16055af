import SchemaBinding.Proofs.DeclarationAgreement

/-!
# Sessions with and without kept plans

Every operation of a session gives the same, whether its plans come from `World.planOf` or from
`World.recompile`. An operation that declares makes a quiet change of the world: it compiles
nothing, and may drop plans. Any other operation leaves contracts as they are, and keeps a plan
exactly when it logs that it compiled one.
-/

namespace SchemaBinding

/-- Whether an operation declares or forgets contracts, or makes classes known. -/
def Operation.declares : Operation → Bool
  | .newClass .. => true
  | .declare .. => true
  | .declareOn .. => true
  | .register .. => true
  | .clear .. => true
  | .build .. => true
  | .parse .. => true
  | .load .. => true
  | _ => false

/-- What an operation does to plans and contracts: one that declares is quiet, and any other leaves
the contracts and keeps the plans that it compiles. -/
def Operation.Changes (op : Operation) (w v : World) : Prop :=
  match op.declares with
  | true => w.Quiet v
  | false => w.Keeps v

/-- An operation may change nothing. -/
theorem Operation.Changes.refl (op : Operation) (w : World) : op.Changes w w := by
  unfold Changes
  cases op.declares with
  | true => exact World.Quiet.refl w
  | false => exact World.Keeps.refl w

/-- Changes that an operation may make it may make one after the other. -/
theorem Operation.Changes.trans {op : Operation} {w v x : World} (h : op.Changes w v)
    (g : op.Changes v x) : op.Changes w x := by
  unfold Changes at *
  cases hd : op.declares with
  | true => rw [hd] at h g; exact World.Quiet.trans h g
  | false => rw [hd] at h g; exact World.Keeps.trans h g

namespace Session

open World

/-- The worlds of the two sessions are alike and the first has a property; the records are the same.
-/
def Kin (K : World → Prop) (s t : Session) : Prop :=
  World.Kin K s.world t.world ∧ s.records = t.records

variable {K : World → Prop}

private theorem agree_act {α : Type} {a b : Action α} (h : Agree (World.Kin K) a b) :
    Agree (Kin K) (act a) (act b) := by
  intro s t ⟨hw, hr⟩
  rw [AgreeAt, exec_act, exec_act]
  exact ⟨(h _ _ hw).1, (h _ _ hw).2, hr⟩

private theorem agree_stored (i : Nat) : Agree (Kin K) (stored i) (stored i) := by
  refine Agree.get fun s t h => ?_
  rw [h.2]
  exact Agree.pure _ s t h

private theorem agree_record (i : Nat) : Agree (Kin K) (record i) (record i) := by
  refine Agree.bind (agree_stored i) fun k => Agree.get fun s t h => ?_
  rw [h.1.1.growth]
  exact Agree.pure _ s t h

private theorem agree_shown (v : Value) : Agree (Kin K) (shown v) (shown v) := by
  refine Agree.get fun s t h => ?_
  rw [h.1.1.classes]
  dsimp only
  split
  · exact Agree.throw _ s t h
  · exact Agree.pure _ s t h

private theorem agree_keep (k : Kept) : Agree (Kin K) (keep k) (keep k) :=
  Agree.modify fun _ _ h => ⟨h.1, congrArg (· ++ [k]) h.2⟩

private theorem agree_replace (i : Nat) (k : Kept) : Agree (Kin K) (replace i k) (replace i k) :=
  Agree.modify fun _ _ h => ⟨h.1, congrArg (List.set · i k) h.2⟩

/-! ### Registries and binders -/

section Keeps

variable (hK : ∀ w v, Keeps w v → K w → K v)

include hK

private theorem agree_newRegistry (strict : Bool) :
    Agree (World.Kin K)
      (modify fun w => { w with registries := w.registries ++ [.empty strict] } : Action PUnit)
      (modify fun w => { w with registries := w.registries ++ [.empty strict] }) := by
  refine Agree.modify fun w u ⟨ha, hk⟩ =>
    ⟨?_, hK w _ (.of_plans rfl (fun i => ?_) fun i => ?_) hk⟩
  · refine ⟨⟨fun i => ?_, fun i => ?_, ha.consistent.bytes⟩, ha.classes, ?_, ha.binders, ha.calls,
      ha.growth, ha.supply⟩
    · rw [registry_append]
      split
      · exact fun _ _ h => by cases h
      · exact ha.consistent.faithful i
    · rw [registry_append]
      split
      · exact Registry.Named.empty strict
      · exact ha.consistent.named i
    · simp only [List.map_append, ha.registries]
  all_goals
    rw [registry_append]
    split
    · next hi => rw [hi, registry, List.getElem?_eq_none (Nat.le_refl _)]; rfl
    · rfl

private theorem agree_setStrict (i : Nat) (v : Value) :
    Agree (World.Kin K) (setStrict i v) (setStrict i v) := by
  refine Agree.bind (Agree.mk _) fun strict => ?_
  refine agree_setRegistry i (fun r => { r with strict := strict }) (fun w => ?_)
    (fun r q h => ?_) (fun t r h => ?_) fun r h => h
  · refine hK w _ (.of_plans rfl (fun j => ?_) fun j => ?_) <;>
    · rw [registry_setRegistry]
      split
      · next h => rw [h.1]
      · rfl
  · have hc := Registry.contracts_of_dropPlans h
    simp only [Registry.dropPlans, hc]
  · exact h.of_grows (Registry.Grows.of_contracts t rfl) rfl

/-- Changing the binders agrees if they change in the same way. -/
theorem agree_setBinders (g : List Binder → List Binder) :
    Agree (World.Kin K) (modify fun w => { w with binders := g w.binders } : Action PUnit)
      (modify fun w => { w with binders := g w.binders }) := by
  refine Agree.modify fun w u ⟨ha, hk⟩ =>
    ⟨?_, hK w _ (.of_plans rfl (fun _ => rfl) fun _ => rfl) hk⟩
  have hc := ha.consistent
  exact ⟨hc.congr rfl rfl, ha.classes, ha.registries, congrArg g ha.binders,
    ha.calls, ha.growth, ha.supply⟩

private theorem agree_setMaxDepth (i : Nat) (v : Value) :
    Agree (World.Kin K) (setMaxDepth i v) (setMaxDepth i v) := by
  refine Agree.bind (Agree.mk _) fun depth => ?_
  exact agree_setBinders hK fun bs =>
    bs.set i ⟨((bs[i]?).getD .default).registry, depth.val, depth.property⟩

private theorem agree_configure (s : Settings) :
    Agree (World.Kin K) (configure s) (configure s) := by
  refine Agree.bind (agree_setStrict hK 0 _) fun _ => ?_
  exact Agree.bind (agree_setMaxDepth hK 0 _) fun _ => Agree.bind (Agree.mk _) fun _ => Agree.pure _

private theorem agree_adopt_of_keeps (v : Value) : Agree (World.Kin K) (adopt v) (adopt v) :=
  agree_adopt (fun w v => hK w (w.adopting v) (calm_adopting w v).keeps) v

private theorem agree_appendAttr (i : Nat) (name : String) (v : Value) :
    Agree (Kin K) (appendAttr i name v) (appendAttr i name v) := by
  refine Agree.bind (agree_record i) fun k => Agree.get fun s t h => ?_
  rw [h.1.1.classes]
  refine Agree.bind (Agree.mk _) (fun r => ?_) s t h
  obtain ⟨label, items⟩ := r
  cases label with
  | none => exact agree_replace i _
  | some n =>
    refine agree_act (Agree.modify fun w u ⟨ha, hk⟩ =>
      ⟨?_, hK w _ (.of_plans rfl (fun _ => rfl) fun _ => rfl) hk⟩)
    have hc := ha.consistent
    exact ⟨hc.congr rfl rfl, ha.classes, ha.registries, ha.binders, ha.calls,
      congrArg (Growth.record · n _) ha.growth, ha.supply⟩

end Keeps

/-! ### Plans and records -/

section Calm

variable (hK : ∀ w v, Calm w v → K w → K v)

include hK

/-- The plans of a target are given alike whether or not plans are kept. -/
theorem agree_plansOf (i : Nat) (target : Target) :
    Agree (World.Kin K) (plansOf planOf i target) (plansOf recompile i target) := by
  cases target with
  | cls c => exact agree_planOf hK i c
  | value v => exact Agree.bind (Agree.mk _) fun _ => Agree.throw _

/-- A target is bound alike whether or not plans are kept. -/
theorem agree_bindTarget (way : BindWay) (target : Target) (data : Value) :
    Agree (World.Kin K) (bindTarget planOf way target data)
      (bindTarget recompile way target data) := by
  have hb := Binding.agree_bindAttrs hK
  cases way with
  | call =>
    cases target with
    | value v => exact Agree.throw _
    | cls c =>
      refine Agree.get fun w u h => ?_
      rw [h.1.classes, h.1.binderOf]
      split
      · exact Agree.bind (Agree.mk _)
          (fun _ => Agree.bind (Binding.agree_bindOnto hK _ c [] data) fun attrs => Agree.pure _)
          w u h
      · exact Agree.throw _ w u h
  | fromDict =>
    cases target with
    | value v => exact Agree.throw _
    | cls c =>
      refine Agree.get fun w u h => ?_
      rw [h.1.classes, h.1.binderOf]
      exact Agree.bind (Agree.mk _) (fun _ => Agree.bind (hb _ c data) fun attrs => Agree.pure _)
        w u h
  | binder i =>
    exact Agree.bind (Agree.mk _) fun c => Agree.bind (hb i c data) fun attrs => Agree.pure _

end Calm

/-! ### Contracts -/

section Quiet

variable (hK : ∀ w v, Quiet w v → K w → K v)

include hK

private theorem agree_clear (i : Nat) (target : Option Target) :
    Agree (World.Kin K) (clear i target) (clear i target) := by
  have hq : ∀ (g : Registry → Registry), (∀ r, (g r).plans = []) → ∀ w, K w →
      K (w.setRegistry i (g (w.registry i))) :=
    fun g hg w => hK w _ (quiet_setRegistry w i (.inr (hg _)))
  have hall : Agree (World.Kin K)
      (modify fun w => w.setRegistry i (w.registry i).clear : Action PUnit)
      (modify fun w => w.setRegistry i (w.registry i).clear) := by
    refine agree_setRegistry i Registry.clear (hq _ fun _ => rfl) (fun r q h => ?_)
      (fun t r _ => Registry.Faithful.dropPlans t r.clear) fun r _ => Registry.Named.empty r.strict
    simp only [Registry.clear, Registry.dropPlans, Registry.strict_of_dropPlans h]
  cases target with
  | none => exact hall
  | some target =>
    cases target with
    | cls c =>
      refine agree_setRegistry i (Registry.forget · c) (hq (Registry.forget · c) fun _ => rfl)
        (fun r q h => ?_)
        (fun t r _ => Registry.Faithful.dropPlans t (r.forget c)) fun r h => h.forget c
      simp only [Registry.forget, Registry.dropPlans, Registry.strict_of_dropPlans h,
        Registry.contracts_of_dropPlans h]
    | value v =>
      cases v with
      | null => exact hall
      | _ =>
        refine Agree.get fun w u h => ?_
        rw [h.1.contracts i]
        have hd : Agree (World.Kin K)
            (modify fun w => w.setRegistry i (w.registry i).dropPlans : Action PUnit)
            (modify fun w => w.setRegistry i (w.registry i).dropPlans) :=
          agree_setRegistry i Registry.dropPlans (hq _ fun _ => rfl) (fun r q h => h)
            (fun t r _ => Registry.Faithful.dropPlans t r) fun r h => h
        split
        · exact Agree.bind (Agree.mk _) (fun _ => hd) w u h
        · exact hd w u h

private theorem agree_declareOn (target : Target) (field : Value) (args : List Argument)
    (declared : Option DeclaredType) :
    Agree (World.Kin K) (declareOn target field args declared)
      (declareOn target field args declared) := by
  cases target with
  | value v => exact Agree.throw _
  | cls c =>
    refine Agree.get fun w u h => ?_
    rw [h.1.classes]
    exact Agree.bind (Agree.mk _) (fun _ => agree_declareOnClass hK c field args declared) w u h

end Quiet

private theorem agree_fieldsOf (target : Target) :
    Agree (World.Kin K) (fieldsOf target) (fieldsOf target) := by
  refine Agree.get fun w u h => ?_
  simp only [h.1.registryOf, Registry.fields_congr _ (h.1.contracts _), h.1.classes]
  refine Agree.bind (Agree.mk _) (fun c => ?_) w u h
  split
  · exact Agree.bind (Agree.mk _) fun _ => Agree.pure _
  · exact Agree.pure _

/-! ### Every operation -/

/-- A table is built alike whichever plans are kept. -/
theorem agree_build (binder : Option Nat) (table : Value)
    (hK : ∀ w v, Quiet w v → K w → K v) :
    Agree (Kin K)
      (do
        let table ← act (adopt table)
        let cs ← act (Table.build binder table)
        return Outcome.classes cs)
      (do
        let table ← act (adopt table)
        let cs ← act (Table.build binder table)
        return Outcome.classes cs) :=
  Agree.bind (agree_act (agree_adopt_of_quiet hK table)) fun table =>
    Agree.bind (agree_act (Table.agree_build hK binder table)) fun _ => Agree.pure _

/-- An operation gives the same with the plans that are kept as with plans that are always compiled,
and leaves alike sessions. -/
theorem agree_run (op : Operation) (hK : ∀ w v, op.Changes w v → K w → K v) :
    Agree (Kin K) (run planOf op) (run recompile op) := by
  cases op with
  | newRegistry strict =>
    exact Agree.bind (agree_act (agree_newRegistry hK strict)) fun _ => Agree.pure _
  | newBinder registry maxDepth =>
    refine Agree.bind (Agree.mk _) fun depth => ?_
    exact Agree.bind (agree_act (agree_setBinders hK fun bs =>
      bs ++ [⟨registry, depth.val, depth.property⟩])) fun _ =>
      Agree.pure _
  | setStrict registry v =>
    exact Agree.bind (agree_act (agree_setStrict hK registry v)) fun _ => Agree.pure _
  | setMaxDepth binder v =>
    exact Agree.bind (agree_act (agree_setMaxDepth hK binder v)) fun _ => Agree.pure _
  | configure s => exact Agree.bind (agree_act (agree_configure hK s)) fun _ => Agree.pure _
  | newClass name bases binder fields =>
    exact Agree.bind (agree_act (agree_createClass hK name bases binder fields)) fun _ =>
      Agree.pure _
  | declare registry target field args declared =>
    refine Agree.bind (Agree.mk _) fun c => ?_
    exact Agree.bind (agree_act (agree_declareField hK registry c field args declared)) fun _ =>
      Agree.pure _
  | declareOn target field args declared =>
    exact Agree.bind (agree_act (agree_declareOn hK target field args declared)) fun _ =>
      Agree.pure _
  | register registry target =>
    refine Agree.bind (Agree.mk _) fun c => ?_
    exact Agree.bind (agree_act (agree_registerClass hK registry c)) fun _ => Agree.pure _
  | clear registry target =>
    exact Agree.bind (agree_act (agree_clear hK registry target)) fun _ => Agree.pure _
  | fields registry target =>
    refine Agree.bind (Agree.mk _) fun c => Agree.get fun s t h => ?_
    dsimp only
    rw [Registry.fields_congr _ (h.1.1.contracts registry), h.1.1.classes]
    exact Agree.pure _ s t h
  | fieldsOf target => exact Agree.bind (agree_act (agree_fieldsOf target)) fun _ => Agree.pure _
  | fieldNames registry target =>
    refine Agree.bind (Agree.mk _) fun c => Agree.get fun s t h => ?_
    dsimp only
    rw [Registry.fields_congr _ (h.1.1.contracts registry), h.1.1.classes]
    exact Agree.pure _ s t h
  | plan registry target =>
    have hplans := agree_plansOf (fun w v h => hK w v h.keeps) registry target
    exact Agree.bind (agree_act hplans) fun _ => Agree.pure _
  | isSchema registry target =>
    refine Agree.get fun s t h => ?_
    dsimp only
    rw [Registry.isSchema_congr _ (h.1.1.contracts registry), h.1.1.classes]
    cases target with
    | cls c => exact Agree.pure _ s t h
    | value v => exact Agree.pure _ s t h
  | acceptsNested registry target =>
    refine Agree.get fun s t h => ?_
    dsimp only
    rw [Registry.acceptsNested_congr _ (h.1.1.contracts registry), h.1.1.classes]
    cases target with
    | cls c => exact Agree.pure _ s t h
    | value v => exact Agree.pure _ s t h
  | bind way target data kept =>
    refine Agree.bind (agree_act (agree_bindTarget (fun w v h => hK w v h.keeps) way target
      data)) fun k => ?_
    cases kept with
    | false => exact agree_shown k.toValue
    | true => exact Agree.bind (agree_keep k) fun _ => agree_shown k.toValue
  | newRecord target =>
    exact Agree.bind (Agree.mk _) fun c => Agree.bind (agree_keep ⟨c, []⟩) fun _ => Agree.pure _
  | populate binder i data =>
    refine Agree.bind (agree_stored i) fun k => ?_
    refine Agree.bind (agree_act (Binding.agree_bindOnto (fun w v h => hK w v h.keeps) binder
      k.cls k.attrs data)) fun attrs => ?_
    exact Agree.bind (agree_replace i _) fun _ => Agree.bind (agree_record i) fun _ =>
      agree_shown _
  | look i => exact Agree.bind (agree_record i) fun k => agree_shown k.toValue
  | text i =>
    refine Agree.bind (agree_record i) fun k => ?_
    dsimp only
    split
    · exact Agree.pure _
    · exact Agree.throw _
  | getAttr i name =>
    refine Agree.bind (agree_record i) fun k => Agree.get fun s t h => ?_
    rw [h.1.1.classes]
    refine Agree.bind (Agree.mk _) (fun found => ?_) s t h
    split
    · exact agree_shown _
    · exact Agree.pure _
  | setAttr i name v =>
    refine Agree.bind (agree_record i) fun k => Agree.get fun s t h => ?_
    dsimp only
    rw [h.1.1.classes]
    split
    · exact Agree.bind (agree_act (agree_adopt_of_keeps hK v))
        (fun v => Agree.bind (agree_replace i _) fun _ => Agree.pure _) s t h
    · exact Agree.throw _ s t h
  | appendAttr i name v =>
    refine Agree.bind (agree_act (agree_adopt_of_keeps hK v)) fun v => ?_
    exact Agree.bind (agree_appendAttr hK i name v) fun _ => Agree.pure _
  | equal a b =>
    unfold run
    dsimp only
    split
    · exact Agree.pure _
    · exact Agree.bind (agree_record a) fun k => Agree.bind (agree_record b) fun l => Agree.pure _
  | build binder table => exact agree_build binder table hK
  | parse binder source text =>
    exact Agree.bind (Agree.mk _) fun table => agree_build binder table hK
  | load binder directory path =>
    exact Agree.bind (Agree.mk _) fun table => agree_build binder table hK
  | status =>
    refine Agree.get fun s t h => ?_
    have hs : s.world.registries.map Registry.strict = t.world.registries.map Registry.strict := by
      have hr := congrArg (List.map Registry.strict) h.1.1.registries
      rwa [List.map_map, List.map_map] at hr
    dsimp only
    rw [hs, h.1.1.binders]
    exact Agree.pure _ s t h

end Session

end SchemaBinding
