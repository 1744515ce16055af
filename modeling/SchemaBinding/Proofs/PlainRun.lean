import SchemaBinding.Proofs.PlainBind

/-!
# Running a bind without functions of the caller

Part by part, binding mirrors `World.plainBind`: from a world that differs from the first one only
in kept plans, in what was logged and in labels, it gives the same up to labels.
-/

namespace SchemaBinding

namespace Binding

open World

/-! ### Failures and rules -/

private theorem escaped_ofBinding {e f : BindingError} (h : e.cause.printable = f.cause.printable) :
    (Fault.ofBinding e).escaped = (Fault.ofBinding f).escaped := by
  rw [Fault.ofBinding, Fault.ofBinding, h]
  split <;> rfl

section Mirror

variable {I : World → Prop} {α β : Type} {Q : α → β → Prop}

private theorem mirrors_fail {typeName field : String} {c d : BindingCause}
    (h : c.printable = d.printable) :
    Mirrors I Q (fail typeName field c : Action α) (fail typeName field d) :=
  Mirrors.throw (escaped_ofBinding h)

private theorem mirrors_lift {e : Except Fault α} {p : Except Fault β} (h : Reflects Q e p) :
    Mirrors I Q (World.lift e) p := Mirrors.mk h

end Mirror

private theorem reflects_requireNumber (typeName field check : String) (v : Value) :
    Reflects Eq (requireNumber typeName field check v)
      (requireNumber typeName field check v.unlabelled) := by
  rw [requireNumber, requireNumber, Value.isNumber_unlabelled]
  split
  · exact .ok rfl
  · exact .error (escaped_ofBinding rfl)

private theorem reflects_checkUnion (typeName field : String) (allowed : List Value) (v : Value) :
    Reflects Eq (checkUnion typeName field allowed v)
      (checkUnion typeName field allowed v.unlabelled) := by
  rw [checkUnion, checkUnion, isMember_unlabelled]
  refine Reflects.bind (.refl _) fun found _ h => ?_
  rw [← h]
  split
  · exact .ok rfl
  · refine .error (escaped_ofBinding ?_)
    simp only [BindingCause.printable, Value.printable_unlabelled]

private theorem reflects_check (c : Comparison) (typeName field : String) (v : Value) :
    Reflects Eq (c.check typeName field v) (c.check typeName field v.unlabelled) := by
  have hh : Reflects Eq
      (c.holds v >>= fun b => if b then pure ()
        else throw (.ofBinding ⟨typeName, field, .comparison c.relation c.bound v⟩))
      (c.holds v.unlabelled >>= fun b => if b then pure ()
        else throw (.ofBinding
          ⟨typeName, field, .comparison c.relation c.bound v.unlabelled⟩)) := by
    rw [Comparison.holds_unlabelled]
    refine Reflects.bind (.refl _) fun b _ h => ?_
    rw [← h]
    split
    · exact .ok rfl
    · refine .error (escaped_ofBinding ?_)
      simp only [BindingCause.printable, Value.printable_unlabelled]
  unfold Comparison.check
  dsimp only
  split
  · exact Reflects.bind (reflects_requireNumber typeName field _ v) fun _ _ _ => hh
  · exact hh

private theorem reflects_checkInteger (typeName field : String) (v : Value) :
    Reflects Eq (checkInteger typeName field v) (checkInteger typeName field v.unlabelled) := by
  refine Reflects.bind (reflects_requireNumber typeName field _ v) fun _ _ _ => ?_
  cases v with
  | float x => exact .refl _
  | _ => exact .ok rfl

private theorem reflects_checkMembers (typeName field : String) (members : Option Members)
    (v : Value) :
    Reflects Eq (checkMembers typeName field members v)
      (checkMembers typeName field members v.unlabelled) := by
  cases members with
  | none => exact .ok rfl
  | some m => exact reflects_checkUnion typeName field m.values v

private theorem reflects_checkIntegral (typeName field : String) (integer : Bool) (v : Value) :
    Reflects Eq (checkIntegral typeName field integer v)
      (checkIntegral typeName field integer v.unlabelled) := by
  cases integer with
  | false => exact .ok rfl
  | true => exact reflects_checkInteger typeName field v

/-! ### Conversions -/

section Convert

variable {I : World → Prop} {enter : Enter} {plain : ClassRef → Value → Except Fault Value}

private theorem mirrors_convertScalar (typeName field : String) (index : Option Nat) {raw : Value}
    (hn : raw.Named) (kind : ScalarKind)
    (he : ∀ c, kind = .schema c → ∀ v, v.Named →
      Mirrors I Value.Holds (enter c v) (plain c v.unlabelled)) :
    Mirrors I Value.Holds (convertScalar enter typeName field index raw kind)
      (convertScalar plain typeName field index raw.unlabelled kind) := by
  cases kind with
  | primitive p =>
    simp only [convertScalar, Primitive.convert_unlabelled, Value.kind_unlabelled]
    cases hp : p.convert raw with
    | ok v => exact Mirrors.pure (((Primitive.convert_ok_iff p raw v).mp hp).holds hn)
    | error expected => exact mirrors_fail rfl
  | date target =>
    simp only [convertScalar, parseDate_unlabelled]
    cases hp : parseDate raw target with
    | error fault => exact Mirrors.throw rfl
    | ok found =>
      cases found with
      | some v => exact Mirrors.pure (DateTarget.gives_of_parseDate hp).holds
      | none => exact mirrors_fail (Value.printable_unlabelled raw).symm
  | schema cls =>
    cases raw with
    | dict entries => exact he cls rfl _ hn
    | _ => exact mirrors_fail rfl
  | mapping =>
    cases raw with
    | dict entries => exact Mirrors.pure ⟨hn, rfl⟩
    | _ => exact mirrors_fail rfl
  | any => exact Mirrors.pure ⟨hn, rfl⟩

/-- Named values hold what other values are, one by one. -/
def ItemsHold (vs us : List Value) : Prop := (∀ v ∈ vs, v.Named) ∧ vs.map Value.unlabelled = us

private theorem mirrors_convertItems (typeName field : String) (kind : ScalarKind)
    (he : ∀ c, kind = .schema c → ∀ v, v.Named →
      Mirrors I Value.Holds (enter c v) (plain c v.unlabelled))
    (index : Nat) {items : List Value} (hn : ∀ v ∈ items, v.Named) :
    Mirrors I ItemsHold (convertItems enter typeName field kind index items)
      (convertItems plain typeName field kind index (items.map Value.unlabelled)) := by
  induction items generalizing index with
  | nil => exact Mirrors.pure ⟨fun v hv => absurd hv List.not_mem_nil, rfl⟩
  | cons raw rest ih =>
    obtain ⟨hr, hrest⟩ := List.forall_mem_cons.mp hn
    refine Mirrors.bind (mirrors_convertScalar typeName field (some index) hr kind he)
      fun v u hv => ?_
    refine Mirrors.bind (ih (index + 1) hrest) fun vs us hvs => Mirrors.pure ?_
    refine ⟨List.forall_mem_cons.mpr ⟨hv.1, hvs.1⟩, ?_⟩
    rw [List.map_cons, hv.2, hvs.2]

private theorem arrayItems?_unlabelled (v : Value) :
    arrayItems? v.unlabelled = (arrayItems? v).map (List.map Value.unlabelled) := by
  cases v with
  | list items label => rw [Value.unlabelled_list]; rfl
  | tuple items => rw [Value.unlabelled_tuple]; rfl
  | _ => rfl

private theorem named_arrayItems? {v : Value} {items : List Value} (hn : v.Named)
    (h : arrayItems? v = some items) : ∀ u ∈ items, u.Named := by
  cases hn with
  | list _ _ hv => cases h; exact hv
  | tuple _ hv => cases h; exact hv
  | _ => cases h

private theorem mirrors_convert (typeName field : String) {raw : Value} (hn : raw.Named)
    (kind : ValueKind)
    (he : ∀ c, kind.schema? = some c → ∀ v, v.Named →
      Mirrors I Value.Holds (enter c v) (plain c v.unlabelled)) :
    Mirrors I Value.Holds (convert enter typeName field raw kind)
      (convert plain typeName field raw.unlabelled kind) := by
  cases kind with
  | scalar kind =>
    refine mirrors_convertScalar typeName field none hn kind fun c hc => ?_
    exact he c (by rw [hc]; rfl)
  | array element =>
    simp only [convert, arrayItems?_unlabelled, Value.kind_unlabelled]
    cases hi : arrayItems? raw with
    | none => exact mirrors_fail rfl
    | some items =>
      have hin := named_arrayItems? hn hi
      cases element with
      | none =>
        refine Mirrors.pure ⟨.list _ _ hin, ?_⟩
        rw [Value.unlabelled_list]
      | some kind =>
        refine Mirrors.bind (mirrors_convertItems typeName field kind (fun c hc => ?_) 0 hin)
          fun vs us hvs => Mirrors.pure ⟨.list _ _ hvs.1, ?_⟩
        · exact he c (by rw [hc]; rfl)
        · rw [Value.unlabelled_list, hvs.2]

private theorem mirrors_convertField (typeName : String) (plan : FieldPlan) {raw : Value}
    (hn : raw.Named) (kind : ValueKind)
    (he : ∀ c, kind.schema? = some c → ∀ v, v.Named →
      Mirrors I Value.Holds (enter c v) (plain c v.unlabelled)) :
    Mirrors I Value.Holds (convertField enter typeName plan kind raw)
      (convertField plain typeName plan kind raw.unlabelled) := by
  unfold convertField
  split
  · next p =>
    rw [Primitive.convert_unlabelled, Value.isNumber_unlabelled, Value.kind_unlabelled]
    cases hp : p.convert raw with
    | ok v => exact Mirrors.pure (((Primitive.convert_ok_iff p raw v).mp hp).holds hn)
    | error expected =>
      dsimp only
      split
      · exact mirrors_fail (Value.printable_unlabelled raw).symm
      · exact mirrors_fail rfl
  · exact mirrors_convert typeName plan.name hn _ he

end Convert

/-! ### Fields -/

/-- Attributes of named values hold what other attributes are, one by one. -/
def AttrsHold (attrs : List (String × Value)) (shown : List (String × Value)) : Prop :=
  (∀ a ∈ attrs, a.2.Named) ∧ attrs.map Value.unlabelledAttr = shown

/-- Attributes that hold others have the same names in the same order. -/
theorem AttrsHold.names {attrs shown : List (String × Value)} (h : AttrsHold attrs shown) :
    attrs.map Prod.fst = shown.map Prod.fst := by
  rw [← h.2, List.map_map]
  rfl

/-- The world is consistent, and has come from another by a calm change. -/
def Steady (w₀ w : World) : Prop := w.Consistent ∧ w₀.Calm w

/-- A consistent world is steady since itself. -/
theorem Steady.refl {w : World} (h : w.Consistent) : Steady w w := ⟨h, .refl w⟩

variable {w₀ : World}

/-- A world stays steady when a value is told apart. -/
theorem Steady.adopting {w : World} (h : Steady w₀ w) (v : Value) : Steady w₀ (w.adopting v) := by
  obtain ⟨hc, hs⟩ := h
  exact ⟨hc.adopting v, hs.trans (calm_adopting w v)⟩

/-- A world stays steady when a call is put in its journal. -/
theorem Steady.called {w : World} (h : Steady w₀ w) (c : Call) :
    Steady w₀ { w with calls := w.calls ++ [c] } := by
  obtain ⟨hc, hs⟩ := h
  exact ⟨hc.congr rfl rfl, hs.trans ⟨rfl, rfl, rfl, rfl, fun _ _ => rfl⟩⟩

/-- A world stays steady when a failed bind is logged. -/
theorem Steady.logged {w : World} (h : Steady w₀ w) (schema : String) (e : BindingError) :
    Steady w₀ (w.log (.bindFailed schema e)) := by
  obtain ⟨hc, hs⟩ := h
  exact ⟨hc.congr rfl rfl, hs.trans (calm_log w fun _ _ => rfl)⟩

private theorem mirrors_adopt {v u : Value} (h : v.Holds u) :
    Mirrors (Steady w₀) Value.Holds (adopt v) (.ok u) := by
  intro w hs
  rw [exec_adopt]
  refine ⟨.ok ⟨named_adopted w v, ?_⟩, hs.adopting v⟩
  rw [unlabelled_adopted w h.1, h.2]

/-- Asking for a plan mirrors compiling it. -/
theorem mirrors_planOf (i : Nat) (c : ClassRef) :
    Mirrors (Steady w₀) Eq (planOf i c) ((w₀.registry i).compile w₀.classes c) := by
  intro w ⟨hc, hs⟩
  obtain ⟨hr, ha⟩ := agree_planOf (K := w₀.Calm) (fun _ _ h g => g.trans h) i c w w
    ⟨hc.refl_alike, hs⟩
  refine ⟨?_, ha.1.consistent, ha.2⟩
  rw [hr, exec_recompile, hs.compile i c]
  cases (w₀.registry i).compile w₀.classes c with
  | error f => exact .error rfl
  | ok plans => exact .ok rfl

/-- The not-a-numbers of a copy of a default are known. -/
theorem named_defaultCopy {plan : FieldPlan} (h : plan.requirement.Named) :
    (defaultCopy plan).Named := by
  unfold defaultCopy
  cases hr : plan.requirement with
  | defaulted v => exact (h v hr).copied
  | _ => exact .null

private theorem named_rawValue {plan : FieldPlan} (h : plan.requirement.Named)
    {entries : List (Value × Value)} (hn : (Value.dict entries).Named) :
    (rawValue plan entries).Named := by
  unfold rawValue
  split
  · exact named_defaultCopy h
  · next v _ hl =>
    obtain ⟨k, hk⟩ := Value.mem_of_lookup? hl
    cases hn with
    | dict _ _ hv => exact hv (k, v) hk
  · exact named_defaultCopy h

private theorem unlabelled_defaultCopy (plan : FieldPlan) :
    (defaultCopy plan).unlabelled = defaultCopy plan := by
  unfold defaultCopy
  cases plan.requirement.default? with
  | none => rfl
  | some v => exact Value.unlabelled_copied v

private theorem rawValue_unlabelled (plan : FieldPlan) (entries : List (Value × Value)) :
    rawValue plan (entries.map Value.unlabelledEntry) = (rawValue plan entries).unlabelled := by
  unfold rawValue
  rw [Value.lookup?_unlabelled]
  cases Value.lookup? plan.sourceKey entries with
  | none => exact (unlabelled_defaultCopy plan).symm
  | some v =>
    cases v with
    | null => exact (unlabelled_defaultCopy plan).symm
    | _ => rfl

private theorem mirrors_checkAll (cls : ClassRef) (field : String) (value : Value) {cs : List Check}
    (hc : ∀ c ∈ cs, c.Plain) (attrs : List (String × Value)) :
    Mirrors (Steady w₀) (fun r (_ : Unit) => r = attrs) (checkAll cls field value cs attrs)
      (checkComparisons cls.name field value.unlabelled cs) := by
  induction cs with
  | nil => exact Mirrors.pure rfl
  | cons c cs ih =>
    obtain ⟨hp, hcs⟩ := List.forall_mem_cons.mp hc
    cases c with
    | custom f => exact hp.elim
    | comparison k =>
      have hk : Mirrors (Steady w₀) (fun r (_ : Unit) => r = attrs)
          (check cls field attrs value (.comparison k))
          (k.check cls.name field value.unlabelled) := by
        rw [← bind_pure (k.check cls.name field value.unlabelled)]
        exact Mirrors.bind (mirrors_lift (reflects_check k cls.name field value))
          fun _ _ _ => Mirrors.pure rfl
      refine Mirrors.bind hk fun r _ hr => ?_
      rw [hr]
      exact ih hcs

/-- The steps of `plainValue` one after another. -/
theorem plainValue_some {plain : ClassRef → Value → Except Fault Value} {typeName : String}
    {plan : FieldPlan} {kind : ValueKind} (hk : plan.kind = some kind) (raw : Value) :
    plainValue plain typeName plan raw = (do
      let value ← convertField plain typeName plan kind raw
      checkMembers typeName plan.name plan.union value
      checkComparisons typeName plan.name value plan.checks
      checkIntegral typeName plan.name plan.integer value
      return value) := by
  simp only [plainValue, hk, checkRules, bind_assoc]

section Record

variable {enter : Enter} {plain : ClassRef → Value → Except Fault Value}

private theorem mirrors_resolve (cls : ClassRef) {plan : FieldPlan} (hp : plan.Plain)
    (attrs : List (String × Value)) {raw u : Value} (hr : raw.Holds u)
    (he : ∀ kind c, plan.kind = some kind → kind.schema? = some c → ∀ v, v.Named →
      Mirrors (Steady w₀) Value.Holds (enter c v) (plain c v.unlabelled)) :
    Mirrors (Steady w₀) (fun r v => r.1 = attrs ∧ r.2.Holds v) (resolve enter cls plan attrs raw)
      (plainValue plain cls.name plan u) := by
  obtain ⟨hn, rfl⟩ := hr
  cases hk : plan.kind with
  | none =>
    simp only [resolve, plainValue, hk, hp.transforms, transform]
    exact Mirrors.pure ⟨rfl, hn, rfl⟩
  | some kind =>
    rw [plainValue_some hk]
    simp only [resolve, hk, hp.transforms, transform, pure_bind]
    refine Mirrors.bind (mirrors_convertField cls.name plan hn kind (he kind · hk)) fun v u hv => ?_
    refine Mirrors.bind_left (mirrors_adopt hv) fun v hv => ?_
    obtain ⟨hvn, rfl⟩ := hv
    refine Mirrors.bind (mirrors_lift (reflects_checkMembers _ _ _ v)) fun _ _ _ => ?_
    refine Mirrors.bind (mirrors_checkAll cls plan.name v hp.checks attrs) fun r _ hr => ?_
    refine Mirrors.bind (mirrors_lift (reflects_checkIntegral _ _ _ v)) fun _ _ _ => ?_
    exact Mirrors.pure ⟨hr, hvn, rfl⟩

/-- A new attribute is put behind the others. -/
theorem setAttr_of_fresh {attrs : List (String × Value)} {name : String}
    (h : name ∉ attrs.map Prod.fst) (v : Value) :
    Value.setAttr attrs name v = attrs ++ [(name, v)] := by
  induction attrs with
  | nil => rfl
  | cons a rest ih =>
    obtain ⟨n, u⟩ := a
    simp only [List.map_cons, List.mem_cons, not_or] at h
    simp only [Value.setAttr, List.cons_append, ih h.2]
    rw [if_neg (by simpa using Ne.symm h.1)]

private theorem name_of_mem_attrOf {plan : FieldPlan} {value : Option Value} {name : String}
    (h : name ∈ (attrOf plan value).map Prod.fst) : name = plan.name := by
  cases value with
  | none => cases h
  | some v => exact List.mem_singleton.mp h

private theorem mirrors_bindField (cls : ClassRef) {entries : List (Value × Value)}
    (hn : (Value.dict entries).Named) {plan : FieldPlan} (hp : plan.Plain)
    (hr : plan.requirement.Named) {attrs : List (String × Value)}
    (hf : plan.name ∉ attrs.map Prod.fst)
    (he : ∀ kind c, plan.kind = some kind → kind.schema? = some c → ∀ v, v.Named →
      Mirrors (Steady w₀) Value.Holds (enter c v) (plain c v.unlabelled)) :
    Mirrors (Steady w₀) (fun r value => ∃ new, r = attrs ++ new ∧ AttrsHold new (attrOf plan value))
      (bindField enter cls entries plan attrs)
      (plainField plain cls (w₀.classes.hasAttributes cls) (entries.map Value.unlabelledEntry)
        plan) := by
  have hraw := named_rawValue hr hn
  have hu := rawValue_unlabelled plan entries
  by_cases hz : rawValue plan entries = .null
  · rw [bindField_null hz, plainField_null (by rw [hu, hz]; rfl)]
    split
    · exact mirrors_fail rfl
    · refine Mirrors.pure ⟨[], (List.append_nil attrs).symm, ?_, rfl⟩
      exact fun a ha => absurd ha List.not_mem_nil
  · have huz : rawValue plan (entries.map Value.unlabelledEntry) ≠ .null := by
      rw [hu]
      exact fun h => hz ((Value.unlabelled_eq_null_iff _).mp h)
    rw [bindField_value hz, plainField_value huz, hu]
    refine Mirrors.bind_left (mirrors_adopt ⟨hraw, rfl⟩) fun raw hv => ?_
    refine Mirrors.bind (mirrors_resolve cls hp attrs hv he) fun r value hrv => ?_
    obtain ⟨kept, v⟩ := r
    obtain ⟨rfl, hvalue⟩ := hrv
    refine Mirrors.get fun w hw => ?_
    rw [hw.2.classes]
    split
    · refine Mirrors.pure ⟨[(plan.name, v)], setAttr_of_fresh hf v, ?_, ?_⟩
      · exact fun a ha => by rw [List.mem_singleton.mp ha]; exact hvalue.1
      · rw [← hvalue.2]
        rfl
    · exact Mirrors.throw rfl

private theorem mirrors_bindFields (cls : ClassRef) {entries : List (Value × Value)}
    (hn : (Value.dict entries).Named) {plans : List FieldPlan}
    (hd : (plans.map FieldPlan.name).Nodup)
    (hp : ∀ plan ∈ plans, plan.Plain ∧ plan.requirement.Named) (attrs : List (String × Value))
    (hf : ∀ plan ∈ plans, plan.name ∉ attrs.map Prod.fst)
    (he : ∀ plan ∈ plans, ∀ kind c, plan.kind = some kind → kind.schema? = some c →
      ∀ v, v.Named → Mirrors (Steady w₀) Value.Holds (enter c v) (plain c v.unlabelled)) :
    Mirrors (Steady w₀) (fun r rest => ∃ new, r = attrs ++ new ∧ AttrsHold new rest)
      (bindFields enter cls entries plans attrs)
      (plainFields plain cls (w₀.classes.hasAttributes cls) (entries.map Value.unlabelledEntry)
        plans) := by
  induction plans generalizing attrs with
  | nil =>
    refine Mirrors.pure ⟨[], (List.append_nil attrs).symm, ?_, rfl⟩
    exact fun a ha => absurd ha List.not_mem_nil
  | cons plan plans ih =>
    obtain ⟨hpp, hps⟩ := List.forall_mem_cons.mp hp
    obtain ⟨hfp, hfs⟩ := List.forall_mem_cons.mp hf
    obtain ⟨hep, hes⟩ := List.forall_mem_cons.mp he
    obtain ⟨hdp, hds⟩ := List.nodup_cons.mp hd
    refine Mirrors.bind (mirrors_bindField cls hn hpp.1 hpp.2 hfp hep) fun r value hr => ?_
    obtain ⟨new, rfl, hnew⟩ := hr
    have hfresh : ∀ q ∈ plans, q.name ∉ (attrs ++ new).map Prod.fst := by
      intro q hq hm
      rw [List.map_append, hnew.names, List.mem_append] at hm
      rcases hm with hm | hm
      · exact hfs q hq hm
      · exact hdp (name_of_mem_attrOf hm ▸ List.mem_map_of_mem hq)
    rw [← bind_pure (bindFields enter cls entries plans (attrs ++ new))]
    refine Mirrors.bind (ih hds hps (attrs ++ new) hfresh hes) fun r rest hr => ?_
    obtain ⟨more, rfl, hmore⟩ := hr
    refine Mirrors.pure ⟨new ++ more, List.append_assoc attrs new more, ?_, ?_⟩
    · exact List.forall_mem_append.mpr ⟨hnew.1, hmore.1⟩
    · rw [List.map_append, hnew.2, hmore.2]

end Record

/-! ### Records -/

private theorem holds_instanceOf (cls : ClassRef) {attrs shown : List (String × Value)}
    (h : AttrsHold attrs shown) : (instanceOf cls attrs).Holds (instanceOf cls shown) := by
  unfold instanceOf
  split
  · exact ⟨.bytes [], rfl⟩
  · exact ⟨.record cls attrs h.1, by rw [Value.unlabelled_record, h.2]⟩

private theorem mirrors_populate (hw : w₀.Consistent) (levels binder depth : Nat) (cls : ClassRef)
    (hp : w₀.Plain binder cls) {data : Value} (hn : data.Named) :
    Mirrors (Steady w₀) AttrsHold (populate planOf levels binder depth cls data)
      (w₀.plainBind levels binder depth cls data.unlabelled) := by
  induction levels generalizing binder depth cls data with
  | zero =>
    refine Mirrors.get fun w h => ?_
    rw [h.2.binder]
    exact mirrors_fail rfl
  | succ levels ih =>
    refine Mirrors.get fun w h => ?_
    dsimp only
    rw [h.2.binder]
    cases data with
    | dict entries =>
      rw [Value.unlabelled_dict, plainBind_dict]
      split
      · exact mirrors_fail rfl
      · refine Mirrors.bind_of (mirrors_planOf _ cls) fun plans found hc hpl => ?_
        subst hpl
        have hd := Registry.nodup_plans hc
        have hr := (hw.named (w₀.binder binder).registry).plans hc
        refine (mirrors_bindFields cls hn hd (fun plan hpl => ⟨hp.plans hc plan hpl, hr plan hpl⟩)
          [] (fun _ _ h => absurd h List.not_mem_nil) fun plan hpl kind c hk hs v hv => ?_).imp ?_
        · have hb : w.nestedBinder binder c = w₀.nestedBinder binder c := by
            rw [World.nestedBinder, World.nestedBinder, World.binderOf, World.binderOf,
              h.2.classes]
          rw [hb]
          exact Mirrors.bind (ih _ _ c (hp.nested hc hpl hk hs) hv) fun attrs shown ha =>
            Mirrors.pure (holds_instanceOf c ha)
        · rintro r rest ⟨new, rfl, hnew⟩
          exact hnew
    | _ =>
      rw [plainBind_other _ _ _ _ _ (by simp)]
      split <;> exact mirrors_fail rfl

private theorem mirrors_reporting {α β : Type} {Q : α → β → Prop} (cls : ClassRef) {a : Action α}
    {p : Except Fault β} (ha : Mirrors (Steady w₀) Q a p) :
    Mirrors (Steady w₀) Q (reporting cls a) p := by
  intro w hw
  obtain ⟨hr, ht⟩ := ha w hw
  unfold reporting
  rw [exec_tryCatch]
  cases he : exec a w with
  | mk r v =>
    rw [he] at hr ht
    cases r with
    | ok x => exact ⟨hr, ht⟩
    | error fault =>
      cases fault with
      | binding e => exact ⟨hr, ht.logged cls.name e⟩
      | _ => exact ⟨hr, ht⟩

private theorem named_rootPayload {v : Value} (h : v.Named) : (rootPayload v).Named := by
  cases v with
  | null => exact .dict [] nofun nofun
  | _ => exact h

/-- Binding without functions of the caller gives what `World.plainBind` gives for what the payload
holds, lets out the same faults, and makes a calm change. This is so from the first world, and from
every world that came from it by calm changes. -/
theorem bind_plain {w : World} (h₀ : w₀.Consistent) (hw : Steady w₀ w) {binder : Nat}
    {cls : ClassRef} (hp : w₀.Plain binder cls) (data : Value) :
    Reflects Value.Holds (exec (bind binder cls data) w).1
        ((w₀.plainBind (w₀.depthBound + 1) binder 0 cls (w.payload data)).map (instanceOf cls)) ∧
      Steady w₀ (exec (bind binder cls data) w).2 := by
  have hb : w.depthBound = w₀.depthBound := by
    rw [World.depthBound, World.depthBound, hw.2.binders]
  have ha : exec (bind binder cls data) w = exec (reporting cls
      (populate planOf (w.depthBound + 1) binder 0 cls (rootPayload (w.adopted data))) >>=
        fun attrs => pure (instanceOf cls attrs)) (w.adopting data) := rfl
  rw [ha, hb]
  have hm := mirrors_reporting cls (mirrors_populate h₀ (w₀.depthBound + 1) binder 0 cls hp
    (named_rootPayload (named_adopted w data)))
  have hi := Mirrors.bind (R := Value.Holds) (g := fun attrs => pure (instanceOf cls attrs)) hm
    fun attrs shown h => Mirrors.pure (holds_instanceOf cls h)
  exact hi (w.adopting data) (hw.adopting data)

/-- The instance that a bind without functions of the caller returns. -/
theorem bind_plain_ok {w : World} (h₀ : w₀.Consistent) (hw : Steady w₀ w) {binder : Nat}
    {cls : ClassRef} (hp : w₀.Plain binder cls) {data o : Value}
    (h : (exec (bind binder cls data) w).1 = .ok o) :
    ∃ attrs, w₀.plainBind (w₀.depthBound + 1) binder 0 cls (w.payload data) = .ok attrs ∧
      o.Holds (instanceOf cls attrs) := by
  have hr := (bind_plain h₀ hw hp data).1
  rw [h] at hr
  cases hb : w₀.plainBind (w₀.depthBound + 1) binder 0 cls (w.payload data) with
  | ok attrs =>
    rw [hb] at hr
    cases hr with
    | ok ho => exact ⟨attrs, rfl, ho⟩
  | error f =>
    rw [hb] at hr
    cases hr

end Binding

end SchemaBinding
