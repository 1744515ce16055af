import SchemaBinding.Proofs.CacheAgreement

/-!
# Declaring with and without kept plans

Declarations, registrations and the creation of classes compile nothing: they give the same in alike
worlds and leave alike worlds. `K` is a property of worlds that quiet changes keep; declaring makes
no other changes. The fragments that are declared are told apart from all other values first, so
that every default that comes into a contract is named.
-/

namespace SchemaBinding

namespace World

variable {K : World → Prop} (hK : ∀ w v, Quiet w v → K w → K v)

section Fragments

include hK

/-- Where quiet changes keep a relation of worlds, so does telling a value apart. -/
theorem agree_adopt_of_quiet (v : Value) : Agree (Kin K) (adopt v) (adopt v) :=
  agree_adopt (fun w v => hK w (w.adopting v) ⟨fun _ _ => rfl, fun _ => .inl rfl⟩) v

private theorem agree_adoptFragment (f : Fragment) :
    Agree (Kin K) (adoptFragment f) (adoptFragment f) := by
  have hf : ∀ g : UserFunction, Agree (Kin K) (adoptFunction g) (adoptFunction g) := fun g =>
    Agree.bind (agree_adopt_of_quiet hK g.kept) fun v => Agree.pure _
  cases f with
  | requirement r =>
    cases r with
    | defaulted v => exact Agree.bind (agree_adopt_of_quiet hK v) fun v => Agree.pure _
    | _ => exact Agree.pure _
  | transform g => exact Agree.bind (hf g) fun g => Agree.pure _
  | check c =>
    cases c with
    | custom g => exact Agree.bind (hf g) fun g => Agree.pure _
    | comparison c => exact Agree.pure _
  | _ => exact Agree.pure _

private theorem agree_adoptFragments (fs : List Fragment) :
    Agree (Kin K) (fs.mapM adoptFragment) (fs.mapM adoptFragment) := by
  induction fs with
  | nil =>
    rw [List.mapM_nil]
    exact Agree.pure []
  | cons f fs ih =>
    rw [List.mapM_cons]
    exact Agree.bind (agree_adoptFragment hK f) fun g => Agree.bind ih fun gs => Agree.pure _

end Fragments

/-- A fragment that has been told apart from all other values is named. -/
theorem named_adoptFragment (f : Fragment) (w : World) (g : Fragment)
    (h : (exec (adoptFragment f) w).1 = .ok g) : g.Named := by
  intro r hr
  cases f with
  | requirement q =>
    cases q with
    | defaulted v =>
      simp only [adoptFragment, exec_bind, exec_adopt, exec_pure] at h
      cases h
      cases hr
      intro u hu
      cases hu
      exact named_adopted w v
    | required => cases h; cases hr; intro u hu; cases hu
    | optional => cases h; cases hr; intro u hu; cases hu
  | transform q =>
    simp only [adoptFragment, adoptFunction, exec_bind, exec_adopt, exec_pure] at h
    cases h
    cases hr
  | check c =>
    cases c with
    | comparison c => cases h; cases hr
    | custom q =>
      simp only [adoptFragment, adoptFunction, exec_bind, exec_adopt, exec_pure] at h
      cases h
      cases hr
  | _ => cases h; cases hr

private theorem named_adoptFragments (fs : List Fragment) (w : World) (gs : List Fragment)
    (h : (exec (fs.mapM adoptFragment) w).1 = .ok gs) : ∀ g ∈ gs, g.Named := by
  induction fs generalizing w gs with
  | nil =>
    rw [List.mapM_nil] at h
    cases h
    exact fun g hg => absurd hg List.not_mem_nil
  | cons f fs ih =>
    rw [List.mapM_cons, exec_bind] at h
    have hf := named_adoptFragment f w
    cases hr : exec (adoptFragment f) w with
    | mk r v =>
      rw [hr] at h hf
      cases r with
      | error e => cases h
      | ok g =>
        have hs := ih v
        simp only [exec_bind] at h
        cases hq : exec (fs.mapM adoptFragment) v with
        | mk q u =>
          rw [hq] at h hs
          cases q with
          | error e => cases h
          | ok gs =>
            cases h
            exact List.forall_mem_cons.mpr ⟨hf g rfl, hs gs rfl⟩

/-- Replacing a registry agrees if what takes its place differs in its plans only. -/
theorem agree_setRegistry (i : Nat) (g : Registry → Registry)
    (hK : ∀ w, K w → K (setRegistry w i (g (registry w i))))
    (hd : ∀ r q, r.dropPlans = q.dropPlans → (g r).dropPlans = (g q).dropPlans)
    (hf : ∀ t r, r.Faithful t → (g r).Faithful t) (hn : ∀ r, r.Named → (g r).Named) :
    Agree (Kin K) (modify fun w => w.setRegistry i (g (w.registry i)) : Action PUnit)
      (modify fun w => w.setRegistry i (g (w.registry i))) := by
  refine Agree.modify fun w u ⟨ha, hk⟩ => ⟨?_, hK w hk⟩
  exact ha.setRegistry i (hd _ _ (ha.dropPlans i)) (hf _ _ (ha.consistent.faithful i))
    (hn _ (ha.consistent.named i))

section Declare

include hK

/-- A field is declared alike whichever plans are kept. -/
theorem agree_declareField (i : Nat) (c : ClassRef) (name : Value) (args : List Argument)
    (declared : Option DeclaredType) :
    Agree (Kin K) (declareField i c name args declared) (declareField i c name args declared) := by
  refine Agree.bind (Agree.mk _) fun field => ?_
  split
  · exact Agree.throw _
  · refine Agree.bind_of (agree_adoptFragments hK (Argument.fragments args))
      (fun w gs => named_adoptFragments (Argument.fragments args) w gs) fun fragments hfs => ?_
    refine Agree.get fun w u h => ?_
    have hd := (w.registry i).declare_sound (h.1.consistent.faithful i) (h.1.consistent.named i) c
      field hfs declared
    have hc := Registry.declare_congr (h.1.dropPlans i) c field fragments declared
    have hp := (w.registry i).plans_declare c field fragments declared
    cases hw : (w.registry i).declare c field fragments declared with
    | mk r result =>
      cases hu : (u.registry i).declare c field fragments declared with
      | mk q answer =>
        rw [hw] at hd hp
        rw [hw, hu] at hc
        obtain ⟨hrq, rfl⟩ := hc
        refine Agree.bind (Agree.set ⟨h.1.setRegistry i hrq hd.1 hd.2,
          hK w _ (quiet_setRegistry w i hp) h.2⟩) (fun _ => ?_) w u h
        cases result with
        | error requirement => exact Agree.throw _
        | ok found =>
          exact Agree.bind (agree_logEvent fun w => hK w _ (quiet_log w fun _ _ => rfl)) fun _ =>
            Agree.pure _

/-- A class is registered alike whichever plans are kept. -/
theorem agree_registerClass (i : Nat) (c : ClassRef) :
    Agree (Kin K) (registerClass i c) (registerClass i c) := by
  refine agree_setRegistry i (fun r => r.register c)
    (fun w => hK w _ (quiet_setRegistry w i (.inr rfl))) (fun r q h => ?_)
    (fun t r _ => Registry.Faithful.dropPlans t _) fun r h => h.know c
  change (r.know c).dropPlans = (q.know c).dropPlans
  rw [Registry.know_dropPlans, Registry.know_dropPlans, h]

private theorem agree_setNull (c : ClassRef) (name : String) :
    Agree (Kin K) (modify fun w => { w with classes := w.classes.setNull c name } : Action PUnit)
      (modify fun w => { w with classes := w.classes.setNull c name }) := by
  refine Agree.modify fun w u ⟨ha, hk⟩ =>
    ⟨?_, hK w _ ⟨fun _ _ => rfl, fun _ => .inl rfl⟩ hk⟩
  exact ⟨ha.consistent.setNull c name, congrArg (ClassTable.setNull · c name) ha.classes,
    ha.registries, ha.binders, ha.calls, ha.growth, ha.supply⟩

/-! ### Creating classes -/

private theorem agree_declareBody (registry : Nat) (c : ClassRef)
    (fields : List (String × FieldDeclaration)) :
    Agree (Kin K) (declareBody registry c fields) (declareBody registry c fields) := by
  induction fields with
  | nil => exact Agree.pure ()
  | cons f rest ih =>
    refine Agree.bind (Agree.bind (agree_declareField hK registry c _ _ _) fun _ => ?_) fun _ => ih
    exact agree_setNull hK c f.1

private theorem agree_openClass (name : String) (bases : List ClassRef) (binder : Option Nat)
    (fields : List (String × FieldDeclaration)) :
    Agree (Kin K) (openClass name bases binder fields) (openClass name bases binder fields) := by
  refine Agree.get fun w u h => ?_
  simp only [h.1.classes]
  refine Agree.bind (Agree.mk _) (fun _ => ?_) w u h
  split
  · exact Agree.throw _
  · split
    · exact Agree.throw _
    · next inherited _ =>
      split
      · exact Agree.throw _
      · refine Agree.bind (Agree.set ⟨?_, hK w _ ⟨fun _ _ => rfl, fun _ => .inl rfl⟩ h.2⟩)
          fun _ => ?_
        · rw [← h.1.classes]
          have ha := h.1
          exact ⟨ha.consistent.append _, rfl, ha.registries, ha.binders, ha.calls, ha.growth,
            ha.supply⟩
        · split
          · refine Agree.get fun w u h => ?_
            rw [h.1.classes, h.1.registryOf]
            refine Agree.bind (Agree.mk _) (fun _ => ?_) w u h
            exact Agree.bind (agree_registerClass hK _ _) fun _ => Agree.pure _
          · exact Agree.pure _

/-- A class is created alike whichever plans are kept. -/
theorem agree_createClass (name : String) (bases : List ClassRef) (binder : Option Nat)
    (fields : List (String × FieldDeclaration)) :
    Agree (Kin K) (createClass name bases binder fields)
      (createClass name bases binder fields) := by
  refine Agree.bind (agree_openClass hK name bases binder fields) fun opened => ?_
  obtain ⟨ref, registry⟩ := opened
  cases registry with
  | none => exact Agree.pure _
  | some i => exact Agree.bind (agree_declareBody hK i ref _) fun _ => Agree.pure _

/-- A field is declared through a class alike whichever plans are kept. -/
theorem agree_declareOnClass (c : ClassRef) (name : Value) (args : List Argument)
    (declared : Option DeclaredType) :
    Agree (Kin K) (declareOnClass c name args declared)
      (declareOnClass c name args declared) := by
  refine Agree.get fun w u h => ?_
  rw [h.1.registryOf]
  refine Agree.bind (agree_declareField hK _ c name args declared) (fun contract => ?_) w u h
  intro w u h
  have hn := agree_setNull hK c contract.name w u h
  rw [AgreeAt, exec_modify, exec_modify, h.1.classes] at *
  split
  · exact ⟨rfl, h⟩
  · exact hn

end Declare

end World

namespace Table

open World

variable {K : World → Prop} (hK : ∀ w v, Quiet w v → K w → K v)

include hK

private theorem agree_createAll (binder : Option Nat) (specs : List SchemaSpec) :
    Agree (Kin K) (createAll binder specs) (createAll binder specs) := by
  induction specs with
  | nil => exact Agree.pure []
  | cons s rest ih =>
    exact Agree.bind (agree_createClass hK s.name _ binder []) fun c =>
      Agree.bind ih fun cs => Agree.pure (c :: cs)

private theorem agree_declareFields (created : List ClassRef) (c : ClassRef)
    (fields : List FieldSpec) :
    Agree (Kin K) (declareFields created c fields) (declareFields created c fields) := by
  induction fields with
  | nil => exact Agree.pure ()
  | cons f rest ih => exact Agree.bind (agree_declareOnClass hK c _ _ _) fun _ => ih

private theorem agree_declareAll (created : List ClassRef) (specs : List SchemaSpec) :
    Agree (Kin K) (declareAll created specs) (declareAll created specs) := by
  induction specs with
  | nil => exact Agree.pure ()
  | cons s rest ih => exact Agree.bind (agree_declareFields hK created _ s.fields) fun _ => ih

/-- Building the schemas of a table gives the same in alike worlds. -/
theorem agree_build (binder : Option Nat) (table : Value) :
    Agree (Kin K) (build binder table) (build binder table) := by
  cases table with
  | dict entries =>
    unfold build
    dsimp only
    split
    · exact Agree.throw _
    · refine Agree.bind (Agree.mk _) fun specs => ?_
      refine Agree.bind (agree_createAll hK binder specs) fun created => ?_
      refine Agree.bind (agree_declareAll hK created specs) fun _ => ?_
      exact Agree.bind (agree_logEvent fun w => hK w _ (quiet_log w fun _ _ => rfl)) fun _ =>
        Agree.pure created
  | _ => exact Agree.throw _

end Table

end SchemaBinding
