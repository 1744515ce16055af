import SchemaBinding.Proofs.CacheAgreement
import SchemaBinding.Proofs.Labels

/-!
# Binding a field twice

Part by part, binding the fields of a record runs side by side on raw values that are alike, as soon
as entering the schemas nested in it does. The payloads of a nested schema need not be alike: it is
enough that they are related by `N`, and that entering the schema with related payloads runs side by
side.
-/

namespace SchemaBinding

namespace Binding

variable {α β : Type} {V : Value → Value → Prop} {S : World → World → Prop} {E : Fault → Prop}
  {N : ClassRef → List (Value × Value) → List (Value × Value) → Prop}

/-- The two raw values of a kind that is no array are alike, or are related payloads of the schema
that the kind names. -/
inductive ScalarLike (V : Value → Value → Prop)
    (N : ClassRef → List (Value × Value) → List (Value × Value) → Prop) :
    ScalarKind → Value → Value → Prop
  | alike {kind : ScalarKind} {a b : Value} (h : V a b) : ScalarLike V N kind a b
  | nested {cls : ClassRef} {es fs : List (Value × Value)} (h : N cls es fs) :
    ScalarLike V N (.schema cls) (.dict es) (.dict fs)

/-- The two raw values of a field are alike; or they have been told apart before and are related as
the kind asks, element by element in an array. -/
inductive RawLike (V : Value → Value → Prop)
    (N : ClassRef → List (Value × Value) → List (Value × Value) → Prop) :
    Option ValueKind → Value → Value → Prop
  | alike {kind : Option ValueKind} {a b : Value} (h : V a b) : RawLike V N kind a b
  | scalar {kind : ScalarKind} {a b : Value} (ha : a.Settled) (hb : b.Settled)
    (h : ScalarLike V N kind a b) : RawLike V N (some (.scalar kind)) a b
  | items {kind : ScalarKind} {a b : Value} {xs ys : List Value} (ha : a.Settled) (hb : b.Settled)
    (hx : arrayItems? a = some xs) (hy : arrayItems? b = some ys)
    (h : List.Forall₂ (ScalarLike V N kind) xs ys) : RawLike V N (some (.array (some kind))) a b

/-- Of two related values of a kind that is no array, both are null or none is. -/
theorem ScalarLike.null_iff (hV : Likeness V) {kind : ScalarKind} {a b : Value}
    (h : ScalarLike V N kind a b) : a = .null ↔ b = .null := by
  cases h with
  | alike h => exact hV.null_iff h
  | nested h => simp

/-- Of two related raw values, both are null or none is. -/
theorem RawLike.null_iff (hV : Likeness V) {kind : Option ValueKind} {a b : Value}
    (h : RawLike V N kind a b) : a = .null ↔ b = .null := by
  cases h with
  | alike h => exact hV.null_iff h
  | scalar _ _ h => exact h.null_iff hV
  | items _ _ hx hy _ =>
    constructor
    · rintro rfl
      cases hx
    · rintro rfl
      cases hy

/-- Either both raw values of a field are null or neither, and they are related once they have been
told apart from all others. -/
def ToldLike (V : Value → Value → Prop) (S : World → World → Prop) (E : Fault → Prop)
    (N : ClassRef → List (Value × Value) → List (Value × Value) → Prop) (kind : Option ValueKind)
    (a b : Value) : Prop :=
  (a = .null ↔ b = .null) ∧
    SideBySide S E (FaultLike V) (RawLike V N kind) (World.adopt a) (World.adopt b)

private theorem convertScalar_schema {enter : Enter} {typeName field : String} {index : Option Nat}
    {cls : ClassRef} {v : Value} (h : ∀ es, v ≠ .dict es) :
    convertScalar enter typeName field index v (.schema cls) =
      fail typeName field (.mismatch JsonKind.object.name v.kind index) := by
  cases v with
  | dict es => exact absurd rfl (h es)
  | _ => rfl

private theorem convertScalar_mapping {enter : Enter} {typeName field : String} {index : Option Nat}
    {v : Value} (h : ∀ es, v ≠ .dict es) :
    convertScalar enter typeName field index v .mapping =
      fail typeName field (.mismatch JsonKind.object.name v.kind index) := by
  cases v with
  | dict es => exact absurd rfl (h es)
  | _ => rfl

/-- Attributes and a value that are alike. -/
def AttrsValueLike (V : Value → Value → Prop) (r q : List (String × Value) × Value) : Prop :=
  AttrsLike V r.1 q.1 ∧ V r.2 q.2

section Convert

variable (hV : Likeness V)

include hV

/-- Failures with related causes run side by side. -/
theorem sideBySide_fail {Q : α → β → Prop} (typeName field : String)
    {c d : BindingCause} (h : CauseLike V c d) :
    SideBySide S E (FaultLike V) Q (fail typeName field c : Action α)
      (fail typeName field d : Action β) := SideBySide.throw (hV.ofBinding typeName field h)

/-- Values that are alike are refused in the same words, which name their kind. -/
theorem sideBySide_mismatch {Q : α → β → Prop} (typeName field expected : String)
    (index : Option Nat) {a b : Value} (h : V a b) :
    SideBySide S E (FaultLike V) Q
      (fail typeName field (.mismatch expected a.kind index) : Action α)
      (fail typeName field (.mismatch expected b.kind index) : Action β) := by
  rw [hV.kind h]
  exact sideBySide_fail hV typeName field (.refl _)

variable {enter other : Enter}
  (he : ∀ cls es fs, ScalarLike V N (.schema cls) (.dict es) (.dict fs) →
    SideBySide S E (FaultLike V) V (enter cls (.dict es)) (other cls (.dict fs)))

include he

/-- Related values are converted side by side to a kind that is no array. -/
theorem sideBySide_convertScalar (typeName field : String) (index : Option Nat)
    {kind : ScalarKind} {a b : Value} (h : ScalarLike V N kind a b) :
    SideBySide S E (FaultLike V) V (convertScalar enter typeName field index a kind)
      (convertScalar other typeName field index b kind) := by
  cases h with
  | nested h => exact he _ _ _ (.nested h)
  | alike h =>
    cases kind with
    | primitive p =>
      simp only [convertScalar, hV.convert p h]
      cases p.convert b with
      | ok v => exact SideBySide.pure (hV.refl v)
      | error expected => exact sideBySide_mismatch hV typeName field expected index h
    | date target =>
      simp only [convertScalar, hV.parseDate target h]
      cases parseDate b target with
      | error fault => exact SideBySide.throw (.refl fault)
      | ok found =>
        cases found with
        | some v => exact SideBySide.pure (hV.refl v)
        | none => exact sideBySide_fail hV typeName field (.invalidDate h)
    | schema cls =>
      rcases hV.dict_cases h with ⟨es, fs, rfl, rfl⟩ | ⟨ha, hb⟩
      · exact he cls es fs (.alike h)
      · rw [convertScalar_schema ha, convertScalar_schema hb]
        exact sideBySide_mismatch hV typeName field _ index h
    | mapping =>
      rcases hV.dict_cases h with ⟨es, fs, rfl, rfl⟩ | ⟨ha, hb⟩
      · exact SideBySide.pure h
      · rw [convertScalar_mapping ha, convertScalar_mapping hb]
        exact sideBySide_mismatch hV typeName field _ index h
    | any => exact SideBySide.pure h

/-- Items that are related one by one are converted side by side. -/
theorem sideBySide_convertItems (typeName field : String) {kind : ScalarKind} (index : Nat)
    {xs ys : List Value} (h : List.Forall₂ (ScalarLike V N kind) xs ys) :
    SideBySide S E (FaultLike V) (List.Forall₂ V)
      (convertItems enter typeName field kind index xs)
      (convertItems other typeName field kind index ys) := by
  induction h generalizing index with
  | nil => exact SideBySide.pure .nil
  | cons hab _ ih =>
    refine SideBySide.bind
      (sideBySide_convertScalar hV he typeName field (some index) hab) fun v u hv => ?_
    exact SideBySide.bind (ih (index + 1)) fun vs us hs => SideBySide.pure (.cons hv hs)

/-- Two arrays are converted side by side if their elements are related one by one. -/
private theorem sideBySide_array (typeName field : String) {kind : ScalarKind} {a b : Value}
    {xs ys : List Value} (hx : arrayItems? a = some xs) (hy : arrayItems? b = some ys)
    (h : List.Forall₂ (ScalarLike V N kind) xs ys) :
    SideBySide S E (FaultLike V) V (convert enter typeName field a (.array (some kind)))
      (convert other typeName field b (.array (some kind))) := by
  simp only [convert, hx, hy]
  exact SideBySide.bind (sideBySide_convertItems hV he typeName field 0 h) fun vs us hs =>
    SideBySide.pure (hV.list hs)

private theorem sideBySide_convert (typeName field : String) {kind : ValueKind} {a b : Value}
    (h : RawLike V N (some kind) a b) :
    SideBySide S E (FaultLike V) V (convert enter typeName field a kind)
      (convert other typeName field b kind) := by
  cases h with
  | scalar _ _ h => exact sideBySide_convertScalar hV he typeName field none h
  | items _ _ hx hy h => exact sideBySide_array hV he typeName field hx hy h
  | alike h =>
    cases kind with
    | scalar kind => exact sideBySide_convertScalar hV he typeName field none (.alike h)
    | array element =>
      have hi : (arrayItems? a).isSome = (arrayItems? b).isSome := by
        have hc := congrArg (fun v => (arrayItems? v).isSome) (hV.contents h)
        cases a <;> cases b <;> simp_all [arrayItems?]
      cases hx : arrayItems? a with
      | none =>
        have hy : arrayItems? b = none := by simpa [hx] using hi
        simp only [convert, hx, hy]
        exact sideBySide_mismatch hV typeName field _ none h
      | some xs =>
        obtain ⟨ys, hy⟩ : ∃ ys, arrayItems? b = some ys := by
          rw [← Option.isSome_iff_exists, ← hi, hx]
          rfl
        have hs := hV.items h hx hy
        cases element with
        | none =>
          simp only [convert, hx, hy]
          exact SideBySide.pure (hV.list hs)
        | some kind => exact sideBySide_array hV he typeName field hx hy (hs.imp fun _ _ => .alike)

private theorem sideBySide_convertField (typeName : String) (plan : FieldPlan) {kind : ValueKind}
    {a b : Value} (h : RawLike V N (some kind) a b) :
    SideBySide S E (FaultLike V) V (convertField enter typeName plan kind a)
      (convertField other typeName plan kind b) := by
  unfold convertField
  split
  · next p =>
    have hab : V a b := by
      cases h with
      | alike h => exact h
      | scalar _ _ h => cases h with | alike h => exact h
    rw [hV.convert p hab, hV.isNumber hab]
    cases p.convert b with
    | ok v => exact SideBySide.pure (hV.refl v)
    | error expected =>
      dsimp only
      split
      · exact sideBySide_fail hV typeName plan.name (.notInteger hab)
      · exact sideBySide_mismatch hV typeName plan.name expected none hab
  · exact sideBySide_convert hV he typeName plan.name h

end Convert

/-! ### Functions of the caller -/

variable (hV : Likeness V) (hT : Twinned V S)

/-- Telling two values apart runs side by side if the outcomes are related and so are the worlds
that are left. -/
theorem sideBySide_adopt_of {Q : Value → Value → Prop} {a b : Value}
    (h : ∀ w u, S w u → Q (w.adopted a) (u.adopted b) ∧ S (w.adopting a) (u.adopting b)) :
    SideBySide S E (FaultLike V) Q (World.adopt a) (World.adopt b) := by
  intro w u hs
  rw [SideBySideAt, World.exec_adopt, World.exec_adopt]
  exact .inr ⟨.ok (h w u hs).1, (h w u hs).2⟩

/-- Values that have been told apart before are adopted as they are. -/
theorem sideBySide_adopt_settled {a b : Value} (ha : a.Settled) (hb : b.Settled) :
    SideBySide S E (FaultLike V) (fun x y => x = a ∧ y = b) (World.adopt a) (World.adopt b) := by
  apply sideBySide_adopt_of
  intro w u hs
  rw [World.adopted_of_settled ha, World.adopted_of_settled hb, World.adopting_of_settled ha,
    World.adopting_of_settled hb]
  exact ⟨⟨rfl, rfl⟩, hs⟩

section Call

include hT

/-- Alike values are told apart side by side. -/
theorem sideBySide_adopt {a b : Value} (h : V a b) :
    SideBySide S E (FaultLike V) V (World.adopt a) (World.adopt b) :=
  sideBySide_adopt_of fun _ _ hs => ⟨hT.adopted hs h, hT.adopting hs h⟩

/-- Raw values are still related once they have been told apart. -/
theorem sideBySide_adopt_raw {kind : Option ValueKind} {a b : Value} (h : RawLike V N kind a b) :
    SideBySide S E (FaultLike V) (RawLike V N kind) (World.adopt a) (World.adopt b) := by
  have hsettled : a.Settled → b.Settled →
      SideBySide S E (FaultLike V) (RawLike V N kind) (World.adopt a) (World.adopt b) := by
    intro ha hb
    apply (sideBySide_adopt_settled ha hb).imp
    rintro _ _ ⟨rfl, rfl⟩
    exact h
  cases h with
  | alike h => exact (sideBySide_adopt hT h).imp fun _ _ => .alike
  | scalar ha hb _ => exact hsettled ha hb
  | items ha hb _ _ _ => exact hsettled ha hb

include hV

/-- Raw values that are related are told apart into related ones. -/
theorem RawLike.told {kind : Option ValueKind} {a b : Value} (h : RawLike V N kind a b) :
    ToldLike V S E N kind a b := ⟨h.null_iff hV, sideBySide_adopt_raw hT h⟩

omit hV

include hV

private theorem sideBySide_obtain (kept : Value) {argument other : Value} (h : V argument other)
    {as bs : List (String × Value)} (ha : AttrsLike V as bs) (given : Given) :
    SideBySide S E (FaultLike V) V (obtain kept argument as given)
      (obtain kept other bs given) := by
  induction given with
  | made v => exact sideBySide_adopt hT (hV.refl v)
  | argument => exact SideBySide.pure h
  | kept => exact SideBySide.pure (hV.refl kept)
  | «attribute» name => exact SideBySide.pure (hV.attr?_getD ha name)
  | single item ih =>
    exact SideBySide.bind ih fun v u hv => sideBySide_adopt hT (hV.list (.cons hv .nil))
  | repeated times items ih =>
    exact SideBySide.bind ih fun v u hv => sideBySide_adopt hT (hV.repeatItems times hv)

private theorem sideBySide_setGiven (kept : Value) {argument other : Value} (h : V argument other)
    (sets : List (String × Given)) {as bs : List (String × Value)} (ha : AttrsLike V as bs) :
    SideBySide S E (FaultLike V) (AttrsLike V) (setGiven kept argument sets as)
      (setGiven kept other sets bs) := by
  induction sets generalizing as bs with
  | nil => exact SideBySide.pure ha
  | cons s rest ih =>
    exact SideBySide.bind (sideBySide_obtain hV hT kept h ha s.2) fun v u hv =>
      ih (ha.setAttr s.1 hv)

/-- A function is called with what the two values and the two records hold, which is the same. -/
theorem sideBySide_call (cls : ClassRef) (field : String) (f : UserFunction)
    {as bs : List (String × Value)} (ha : AttrsLike V as bs) {a b : Value} (h : V a b) :
    SideBySide S E (FaultLike V) (AttrsValueLike V) (call cls field as f a)
      (call cls field bs f b) := by
  refine SideBySide.get fun w u hs => ?_
  simp only [hV.attrs_contents ha, hV.contents h, hT.classes hs, hT.growth hs]
  refine SideBySide.bind (SideBySide.modify fun _ _ hs => hT.called _ _ _ hs h) (fun _ _ _ => ?_)
    w u hs
  split
  · exact SideBySide.throw (.refl _)
  · exact sideBySide_fail hV cls.name field (.refl _)
  · split
    · exact sideBySide_fail hV cls.name field (.refl _)
    · exact SideBySide.bind (sideBySide_setGiven hV hT _ h _ ha) fun _ _ ha =>
        SideBySide.bind (sideBySide_obtain hV hT _ h ha _) fun _ _ hv => SideBySide.pure ⟨ha, hv⟩

private theorem sideBySide_transform (cls : ClassRef) (field : String) (fs : List UserFunction)
    {as bs : List (String × Value)} (ha : AttrsLike V as bs) {a b : Value} (h : V a b) :
    SideBySide S E (FaultLike V) (AttrsValueLike V) (transform cls field fs as a)
      (transform cls field fs bs b) := by
  induction fs generalizing as bs a b with
  | nil => exact SideBySide.pure ⟨ha, h⟩
  | cons f fs ih =>
    refine SideBySide.bind (sideBySide_call hV hT cls field f ha h) fun r q hr => ?_
    obtain ⟨as', v⟩ := r
    obtain ⟨bs', u⟩ := q
    obtain ⟨ha', hvu⟩ := hr
    dsimp only at ha' hvu ⊢
    have hn := hV.null_iff hvu
    split
    · rw [hn.mp rfl]
      exact ih ha' h
    · next hv =>
      split
      · exact absurd (hn.mpr rfl) hv
      · exact ih ha' hvu

private theorem sideBySide_check (cls : ClassRef) (field : String) {as bs : List (String × Value)}
    (ha : AttrsLike V as bs) {a b : Value} (h : V a b) (c : Check) :
    SideBySide S E (FaultLike V) (AttrsLike V) (check cls field as a c)
      (check cls field bs b c) := by
  cases c with
  | comparison c =>
    exact SideBySide.bind (SideBySide.mk (hV.comparison c cls.name field h)) fun _ _ _ =>
      SideBySide.pure ha
  | custom predicate =>
    refine SideBySide.bind (sideBySide_call hV hT cls field predicate ha h) fun r q hr => ?_
    obtain ⟨as', v⟩ := r
    obtain ⟨bs', u⟩ := q
    obtain ⟨ha', hvu⟩ := hr
    have hc := hV.contents hvu
    have hfalse : v = .bool false ↔ u = .bool false := by
      cases v <;> cases u <;> simp_all
    dsimp only at ha' hvu ⊢
    split
    · rw [hfalse.mp rfl, hV.printable h, hV.text h]
      dsimp only
      split
      · exact sideBySide_fail hV cls.name field (.refl _)
      · exact SideBySide.throw (.refl _)
    · next hv =>
      split
      · exact absurd (hfalse.mpr rfl) hv
      · exact SideBySide.pure ha'

private theorem sideBySide_checkAll (cls : ClassRef) (field : String) (cs : List Check)
    {as bs : List (String × Value)} (ha : AttrsLike V as bs) {a b : Value} (h : V a b) :
    SideBySide S E (FaultLike V) (AttrsLike V) (checkAll cls field a cs as)
      (checkAll cls field b cs bs) := by
  induction cs generalizing as bs with
  | nil => exact SideBySide.pure ha
  | cons c cs ih =>
    exact SideBySide.bind (sideBySide_check hV hT cls field ha h c) fun _ _ ha => ih ha

end Call

/-! ### Fields -/

section Record

variable {enter other : Enter}
  (he : ∀ cls es fs, ScalarLike V N (.schema cls) (.dict es) (.dict fs) →
    SideBySide S E (FaultLike V) V (enter cls (.dict es)) (other cls (.dict fs)))

include hT

private theorem sideBySide_assign (cls : ClassRef) {as bs : List (String × Value)}
    (ha : AttrsLike V as bs) (name : String) {a b : Value} (h : V a b) :
    SideBySide S E (FaultLike V) (AttrsLike V) (assign cls as name a) (assign cls bs name b) := by
  refine SideBySide.get fun w u hs => ?_
  rw [hT.classes hs]
  split
  · exact SideBySide.pure (ha.setAttr name h) w u hs
  · exact SideBySide.throw (.refl _) w u hs

include hV he

private theorem sideBySide_resolve (cls : ClassRef) (plan : FieldPlan)
    {as bs : List (String × Value)}
    (ha : AttrsLike V as bs) {a b : Value} (h : RawLike V N plan.kind a b) :
    SideBySide S E (FaultLike V) (AttrsValueLike V) (resolve enter cls plan as a)
      (resolve other cls plan bs b) := by
  unfold resolve
  cases hk : plan.kind with
  | none =>
    rw [hk] at h
    cases h with
    | alike h => exact sideBySide_transform hV hT cls plan.name plan.transforms ha h
  | some kind =>
    rw [hk] at h
    refine SideBySide.bind (sideBySide_convertField hV he cls.name plan h) fun v u hv => ?_
    refine SideBySide.bind (sideBySide_adopt hT hv) fun v u hv => ?_
    refine SideBySide.bind (SideBySide.mk (hV.checkMembers cls.name plan.name plan.union hv))
      fun _ _ _ => ?_
    refine SideBySide.bind (sideBySide_transform hV hT cls plan.name plan.transforms ha hv)
      fun r q hr => ?_
    refine SideBySide.bind (sideBySide_checkAll hV hT cls plan.name plan.checks hr.1 hr.2)
      fun as bs ha => ?_
    refine SideBySide.bind (SideBySide.mk (hV.checkIntegral cls.name plan.name plan.integer hr.2))
      fun _ _ _ => ?_
    exact SideBySide.pure ⟨ha, hr.2⟩

/-- A field is bound side by side from payloads that have related raw values for it. -/
theorem sideBySide_bindField (cls : ClassRef) {es fs : List (Value × Value)} (plan : FieldPlan)
    (h : ToldLike V S E N plan.kind (rawValue plan es) (rawValue plan fs))
    {as bs : List (String × Value)} (ha : AttrsLike V as bs) :
    SideBySide S E (FaultLike V) (AttrsLike V) (bindField enter cls es plan as)
      (bindField other cls fs plan bs) := by
  obtain ⟨hn, hadopt⟩ := h
  unfold bindField
  by_cases hnull : rawValue plan es = .null
  · rw [hnull, hn.mp hnull]
    dsimp only
    split
    · exact sideBySide_fail hV cls.name plan.name (.refl _)
    · exact SideBySide.pure ha
  · split
    · contradiction
    · split
      · next hb => exact absurd (hn.mpr hb) hnull
      · refine SideBySide.bind hadopt fun a b hab => ?_
        refine SideBySide.bind (sideBySide_resolve hV hT he cls plan ha hab) fun r q hr => ?_
        exact sideBySide_assign hT cls hr.1 plan.name hr.2

/-- Fields are bound side by side from payloads that have related raw values for each. -/
theorem sideBySide_bindFields (cls : ClassRef) {es fs : List (Value × Value)}
    {plans : List FieldPlan}
    (h : ∀ plan ∈ plans, ToldLike V S E N plan.kind (rawValue plan es) (rawValue plan fs))
    {as bs : List (String × Value)} (ha : AttrsLike V as bs) :
    SideBySide S E (FaultLike V) (AttrsLike V) (bindFields enter cls es plans as)
      (bindFields other cls fs plans bs) := by
  induction plans generalizing as bs with
  | nil => exact SideBySide.pure ha
  | cons plan plans ih =>
    obtain ⟨hp, hps⟩ := List.forall_mem_cons.mp h
    exact SideBySide.bind (sideBySide_bindField hV hT he cls plan hp ha) fun _ _ ha => ih hps ha

end Record

/-- Asking for the plan of a class gives the same in two worlds with the same registries and
classes, and changes neither of them or both of them alike. -/
theorem exec_planOf_twice {w u : World} (hr : w.registries = u.registries)
    (hc : w.classes = u.classes) (i : Nat) (c : ClassRef) :
    (∃ r, exec (World.planOf i c) w = (r, w) ∧ exec (World.planOf i c) u = (r, u)) ∨
      ∃ plans q e, exec (World.planOf i c) w = (.ok plans, (w.setRegistry i q).log e) ∧
        exec (World.planOf i c) u = (.ok plans, (u.setRegistry i q).log e) := by
  have hi : w.registry i = u.registry i := by rw [World.registry, World.registry, hr]
  cases hk : (w.registry i).cached? c with
  | some plans =>
    exact .inl ⟨.ok plans, World.exec_planOf_kept hk, World.exec_planOf_kept (hi ▸ hk)⟩
  | none =>
    rw [World.exec_planOf_compiled hk, World.exec_planOf_compiled (hi ▸ hk), ← hi, ← hc]
    cases (w.registry i).compile w.classes c with
    | error f => exact .inl ⟨.error f, rfl, rfl⟩
    | ok plans => exact .inr ⟨plans, _, _, rfl, rfl⟩

/-- A failed bind that is reported fails as it did. -/
theorem exec_reporting {α : Type} (cls : ClassRef) (a : Action α) (w : World) :
    exec (reporting cls a) w = ((exec a w).1, match (exec a w).1 with
      | .error (.binding e) => (exec a w).2.log (.bindFailed cls.name e)
      | _ => (exec a w).2) := by
  rw [reporting, exec_tryCatch]
  cases exec a w with
  | mk result v =>
    cases result with
    | ok x => rfl
    | error f => cases f <;> rfl

include hT

/-- A report of a failure keeps two runs side by side. -/
theorem sideBySide_reporting {Q : α → β → Prop} (cls : ClassRef) {a : Action α} {b : Action β}
    (h : SideBySide S E (FaultLike V) Q a b) :
    SideBySide S E (FaultLike V) Q (reporting cls a) (reporting cls b) := by
  intro w u hs
  rw [SideBySideAt, exec_reporting, exec_reporting]
  rcases h w u hs with hx | ⟨hm, ht⟩
  · exact .inl hx
  · refine .inr ⟨hm, ?_⟩
    dsimp only
    generalize (exec a w).1 = x at hm
    generalize (exec b u).1 = y at hm
    cases hm with
    | ok hq => exact ht
    | @error f g hf =>
      cases hf with
      | binding typeName field hc => exact hT.logged cls.name typeName field ht hc
      | refl =>
        cases f with
        | binding e => exact hT.logged cls.name e.typeName e.fieldName ht (.refl e.cause)
        | _ => exact ht

end Binding

end SchemaBinding
