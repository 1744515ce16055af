import Mathlib.Data.List.Nodup
import SchemaBinding.Proofs.BindSoundness

/-!
# Binding is a projection

An instance that was bound can be dumped to the dictionary of its attributes, each under the key
that its field is read from. Where every field of a schema has a key of its own, binding the
dictionary gives the instance back: every conversion accepts what it has given, and every rule of a
field admits a value a second time.
-/

namespace SchemaBinding

namespace World

/-- The plans by which the attributes of an instance are dumped. -/
def dumpPlans (w : World) (binder : Nat) (cls : ClassRef) : List FieldPlan :=
  (w.plansFor binder cls).toOption.getD []

mutual

/-- A value dumped as one of a kind. An instance of a schema is dumped to a dictionary, and so is
each in an array of them; other values are left as they are. -/
def dumpAs (w : World) (binder : Nat) (kind : Option ValueKind) (v : Value) : Value :=
  match v with
  | .record cls attrs =>
    match kind with
    | some (.scalar (.schema c)) =>
      .dict (dumpAttrs w (w.nestedBinder binder c)
        (w.dumpPlans (w.nestedBinder binder c) cls.toClassRef) attrs)
    | _ => .record cls attrs
  | .bytes bs =>
    match kind with
    | some (.scalar (.schema _)) => .dict []
    | _ => .bytes bs
  | .list items label =>
    match kind with
    | some (.array (some element)) =>
      .list (dumpItems w binder (some (.scalar element)) items) label
    | _ => .list items label
  | v => v
termination_by structural v

/-- Values dumped one by one as those of a kind. -/
def dumpItems (w : World) (binder : Nat) (kind : Option ValueKind) (vs : List Value) :
    List Value :=
  match vs with
  | [] => []
  | v :: vs => dumpAs w binder kind v :: dumpItems w binder kind vs
termination_by structural vs

/-- Attributes dumped one by one. -/
def dumpAttrs (w : World) (binder : Nat) (plans : List FieldPlan) (attrs : List (String × Value)) :
    List (Value × Value) :=
  match attrs with
  | [] => []
  | a :: attrs => dumpAttr w binder plans a :: dumpAttrs w binder plans attrs
termination_by structural attrs

/-- An attribute dumped under the key that its field is read from. -/
def dumpAttr (w : World) (binder : Nat) (plans : List FieldPlan) (a : String × Value) :
    Value × Value :=
  match a with
  | (name, v) =>
    match plans.find? fun p => p.name == name with
    | some plan => (.str plan.sourceKey, dumpAs w binder plan.kind v)
    | none => (.str name, v)
termination_by structural a

end

/-- The dictionary that an instance, bound with a binder, is dumped to. -/
def dump (w : World) (binder : Nat) (o : Value) : Value :=
  match o with
  | .record cls attrs => .dict (w.dumpAttrs binder (w.dumpPlans binder cls.toClassRef) attrs)
  | .bytes _ => .dict []
  | v => v

variable (w : World) (binder : Nat)

private theorem dumpItems_eq (kind : Option ValueKind) (vs : List Value) :
    w.dumpItems binder kind vs = vs.map (w.dumpAs binder kind) := by
  induction vs with
  | nil => rfl
  | cons v vs ih =>
    rw [List.map_cons, ← ih]
    rfl

private theorem dumpAttrs_eq (plans : List FieldPlan) (attrs : List (String × Value)) :
    w.dumpAttrs binder plans attrs = attrs.map (w.dumpAttr binder plans) := by
  induction attrs with
  | nil => rfl
  | cons a attrs ih =>
    rw [List.map_cons, ← ih]
    rfl

private theorem dumpAs_none (v : Value) : w.dumpAs binder none v = v := by
  cases v <;> rfl

private theorem dumpAs_scalar (kind : ScalarKind) (h : ValueKind.schema? (.scalar kind) = none)
    (v : Value) :
    w.dumpAs binder (some (.scalar kind)) v = v := by
  cases kind with
  | schema c => cases h
  | _ => cases v <;> rfl

private theorem dumpAs_schema (cls : ClassRef) (attrs : List (String × Value)) :
    w.dumpAs binder (some (.scalar (.schema cls))) (Binding.instanceOf cls attrs) =
      w.dump (w.nestedBinder binder cls) (Binding.instanceOf cls attrs) := by
  unfold Binding.instanceOf
  split <;> rfl

private theorem dumpAs_elements (kind : ScalarKind) (items : List Value) (label : Option Nat) :
    w.dumpAs binder (some (.array (some kind))) (.list items label) =
      .list (items.map (w.dumpAs binder (some (.scalar kind)))) label := by
  rw [← dumpItems_eq]
  rfl

private theorem dump_instanceOf {cls : ClassRef} {attrs : List (String × Value)}
    {plans : List FieldPlan}
    (hb : cls = .bytes → attrs = []) (hp : w.plansFor binder cls = .ok plans) :
    w.dump binder (Binding.instanceOf cls attrs) =
      .dict (attrs.map (w.dumpAttr binder plans)) := by
  have hd : w.dumpPlans binder cls = plans := by
    rw [dumpPlans, hp]
    rfl
  unfold Binding.instanceOf
  split
  · next hc => rw [hb hc]; rfl
  · rw [dump, InstanceRef.toClassRef_new, hd, dumpAttrs_eq]

/-! ### What a dumped value holds -/

private theorem dumpAttr_named {plans : List FieldPlan} {a : String × Value}
    (h : ∀ kind, (w.dumpAs binder kind a.2).Named) :
    (w.dumpAttr binder plans a).1.Named ∧ (w.dumpAttr binder plans a).2.Named := by
  obtain ⟨name, v⟩ := a
  rw [dumpAttr]
  split
  · exact ⟨.str _, h _⟩
  · have hn := h none
    rw [dumpAs_none] at hn
    exact ⟨.str _, hn⟩

private theorem named_dumpAttrs {plans : List FieldPlan} {attrs : List (String × Value)}
    (h : ∀ a ∈ attrs, ∀ kind, (w.dumpAs binder kind a.2).Named) :
    (Value.dict (w.dumpAttrs binder plans attrs)).Named := by
  rw [dumpAttrs_eq]
  refine .dict _ (List.forall_mem_map.mpr fun a ha => ?_) (List.forall_mem_map.mpr fun a ha => ?_)
  · exact (dumpAttr_named w binder (h a ha)).1
  · exact (dumpAttr_named w binder (h a ha)).2

private theorem named_dumpAs {v : Value} (h : v.Named) (kind : Option ValueKind) :
    (w.dumpAs binder kind v).Named := by
  induction v generalizing binder kind with
  | record cls attrs ih =>
    cases h with
    | record _ _ hv =>
      unfold dumpAs
      split
      · exact named_dumpAttrs w _ fun a ha => ih a ha _ (hv a ha)
      · exact .record _ _ hv
  | list items label ih =>
    cases h with
    | list _ _ hv =>
      unfold dumpAs
      split
      · rw [dumpItems_eq]
        exact .list _ _ (List.forall_mem_map.mpr fun v hm => ih v hm _ (hv v hm) _)
      · exact .list _ _ hv
  | bytes bs =>
    unfold dumpAs
    split
    · exact .dict [] nofun nofun
    · exact .bytes bs
  | _ => exact h

private theorem dumpAttr_unlabelled {plans : List FieldPlan} {a : String × Value}
    (h : ∀ kind, (w.dumpAs binder kind a.2).unlabelled = w.dumpAs binder kind a.2.unlabelled) :
    Value.unlabelledEntry (w.dumpAttr binder plans a) =
      w.dumpAttr binder plans (Value.unlabelledAttr a) := by
  obtain ⟨name, v⟩ := a
  rw [Value.unlabelledAttr, dumpAttr, dumpAttr]
  dsimp only
  cases plans.find? fun p => p.name == name with
  | some plan => exact Prod.ext rfl (h plan.kind)
  | none => rfl

private theorem dumpAttrs_unlabelled {plans : List FieldPlan} {attrs : List (String × Value)}
    (h : ∀ a ∈ attrs, ∀ kind,
      (w.dumpAs binder kind a.2).unlabelled = w.dumpAs binder kind a.2.unlabelled) :
    (w.dumpAttrs binder plans attrs).map Value.unlabelledEntry =
      w.dumpAttrs binder plans (attrs.map Value.unlabelledAttr) := by
  rw [dumpAttrs_eq, dumpAttrs_eq, List.map_map, List.map_map]
  exact List.map_congr_left fun a ha => dumpAttr_unlabelled w binder (h a ha)

private theorem dumpAs_unlabelled (v : Value) (kind : Option ValueKind) :
    (w.dumpAs binder kind v).unlabelled = w.dumpAs binder kind v.unlabelled := by
  induction v generalizing binder kind with
  | record cls attrs ih =>
    rw [Value.unlabelled_record]
    unfold dumpAs
    split
    · rw [Value.unlabelled_dict, dumpAttrs_unlabelled w _ fun a ha => ih a ha _]
    · exact Value.unlabelled_record cls attrs
  | list items label ih =>
    rw [Value.unlabelled_list]
    unfold dumpAs
    split
    · rw [Value.unlabelled_list, dumpItems_eq, dumpItems_eq, List.map_map, List.map_map]
      exact congrArg (Value.list · none) (List.map_congr_left fun v hv => ih v hv binder _)
    · exact Value.unlabelled_list items label
  | bytes bs =>
    unfold dumpAs
    split <;> rfl
  | tuple items => rw [Value.unlabelled_tuple]; exact Value.unlabelled_tuple items
  | dict entries => rw [Value.unlabelled_dict]; exact Value.unlabelled_dict entries
  | _ => rfl

/-- A dumped instance is named if the instance is. -/
theorem named_dump {o : Value} (h : o.Named) : (w.dump binder o).Named := by
  cases h with
  | record cls attrs hv =>
    exact named_dumpAttrs w binder fun a ha => named_dumpAs w binder (hv a ha)
  | bytes bs => exact .dict [] nofun nofun
  | null => exact .null
  | bool b => exact .bool b
  | int i => exact .int i
  | float x hx => exact .float x hx
  | str s => exact .str s
  | list items label hv => exact .list items label hv
  | tuple items hv => exact .tuple items hv
  | dict entries hk hv => exact .dict entries hk hv
  | dateTime d => exact .dateTime d
  | date d => exact .date d
  | time t => exact .time t

/-- What a dumped instance holds depends on what the instance holds. -/
theorem dump_unlabelled (o : Value) :
    (w.dump binder o).unlabelled = w.dump binder o.unlabelled := by
  cases o with
  | record cls attrs =>
    rw [Value.unlabelled_record, dump, dump, Value.unlabelled_dict,
      dumpAttrs_unlabelled w binder fun a _ => dumpAs_unlabelled w binder a.2]
  | list items label => rw [Value.unlabelled_list]; exact Value.unlabelled_list items label
  | tuple items => rw [Value.unlabelled_tuple]; exact Value.unlabelled_tuple items
  | dict entries => rw [Value.unlabelled_dict]; exact Value.unlabelled_dict entries
  | _ => rfl

/-! ### Looking up what was dumped -/

section Lookup

variable {plans : List FieldPlan} {plan : FieldPlan}

private theorem find?_name (hd : (plans.map FieldPlan.name).Nodup) (hp : plan ∈ plans) :
    plans.find? (fun q => q.name == plan.name) = some plan := by
  cases hf : plans.find? fun q => q.name == plan.name with
  | none => exact absurd (beq_self_eq_true plan.name) (List.find?_eq_none.mp hf plan hp)
  | some q =>
    have hs := List.find?_some hf
    rw [List.inj_on_of_nodup_map hd (List.mem_of_find?_eq_some hf) hp (eq_of_beq hs)]

/-- What an instance is dumped to has under the key of a field the dumped attribute of the field,
where no two fields have the same key. -/
theorem lookup?_dumpAttrs (hd : (plans.map FieldPlan.name).Nodup)
    (hk : (plans.map FieldPlan.sourceKey).Nodup) (hp : plan ∈ plans)
    {attrs : List (String × Value)} (ha : ∀ a ∈ attrs, a.1 ∈ plans.map FieldPlan.name) :
    Value.lookup? plan.sourceKey (attrs.map (w.dumpAttr binder plans)) =
      (Value.attr? plan.name attrs).map (w.dumpAs binder plan.kind) := by
  induction attrs with
  | nil => rfl
  | cons a attrs ih =>
    obtain ⟨hm, hrest⟩ := List.forall_mem_cons.mp ha
    obtain ⟨q, hq, hn⟩ := List.mem_map.mp hm
    obtain ⟨name, v⟩ := a
    subst hn
    rw [List.map_cons, dumpAttr, find?_name hd hq]
    dsimp only
    rw [Value.lookup?]
    split
    · next hs =>
      obtain rfl := List.inj_on_of_nodup_map hk hq hp (eq_of_beq hs)
      simp [Value.attr?]
    · next hs =>
      have hne : q.name ≠ plan.name := fun h => by
        rw [List.inj_on_of_nodup_map hd hq hp h] at hs
        exact hs (beq_self_eq_true plan.sourceKey)
      rw [ih hrest, Value.attr?, Value.attr?, List.find?_cons_of_neg (by simpa using hne)]

end Lookup

/-- No two fields of a schema are read from one key, nor of a schema nested in it. -/
def Keyed (w : World) : (binder : Nat) → ClassRef → Prop :=
  w.Throughout fun plans => (plans.map FieldPlan.sourceKey).Nodup

end World

namespace Binding

open World

/-! ### Converting again -/

section Again

variable {w : World} {binder : Nat} {enter : ClassRef → Value → Except Fault Value}

/-- Whatever is entered for a schema is an instance of it, and is given back when it is entered as
it is dumped. -/
def EntersAgain (w : World) (binder : Nat) (enter : ClassRef → Value → Except Fault Value)
    (cls : ClassRef) : Prop :=
  ∀ raw v, enter cls raw = .ok v →
    ∃ entries, w.dumpAs binder (some (.scalar (.schema cls))) v = .dict entries ∧
      enter cls (.dict entries) = .ok v

private theorem convertScalar_again {typeName field : String} {index : Option Nat} {raw v : Value}
    {kind : ScalarKind} (he : ∀ c, kind = .schema c → EntersAgain w binder enter c)
    (h : convertScalar enter typeName field index raw kind = .ok v) :
    convertScalar enter typeName field index (w.dumpAs binder (some (.scalar kind)) v) kind =
      .ok v := by
  cases kind with
  | primitive p =>
    rw [dumpAs_scalar w binder (.primitive p) rfl]
    simp only [convertScalar] at h ⊢
    cases hp : p.convert raw with
    | error expected => rw [hp] at h; cases h
    | ok u =>
      rw [hp] at h
      cases h
      rw [(p.convert_ok_iff v v).mpr ((p.convert_ok_iff raw v).mp hp).again]
      rfl
  | date target =>
    rw [dumpAs_scalar w binder (.date target) rfl]
    simp only [convertScalar] at h ⊢
    split at h
    · next u hu =>
      cases h
      rw [(DateTarget.gives_of_parseDate hu).again]
      rfl
    · cases h
    · cases h
  | schema cls =>
    cases raw with
    | dict entries =>
      obtain ⟨dumped, hd, hv⟩ := he cls rfl _ v h
      rw [hd]
      exact hv
    | _ => cases h
  | mapping =>
    rw [dumpAs_scalar w binder .mapping rfl]
    cases raw with
    | dict entries => cases h; rfl
    | _ => cases h
  | any => rw [dumpAs_scalar w binder .any rfl]; rfl

private theorem convertItems_again {typeName field : String} {kind : ScalarKind}
    (he : ∀ c, kind = .schema c → EntersAgain w binder enter c) {index : Nat}
    {raws items : List Value}
    (h : convertItems enter typeName field kind index raws = .ok items) :
    convertItems enter typeName field kind index
      (items.map (w.dumpAs binder (some (.scalar kind)))) = .ok items := by
  induction raws generalizing index items with
  | nil => cases h; rfl
  | cons raw rest ih =>
    obtain ⟨x, hx, h⟩ := bind_ok_iff.mp h
    obtain ⟨xs, hxs, h⟩ := bind_ok_iff.mp h
    cases h
    rw [List.map_cons, convertItems, convertScalar_again he hx, ih hxs]
    rfl

private theorem convert_again (typeName field : String) {raw v : Value} {kind : ValueKind}
    (he : ∀ c, kind.schema? = some c → EntersAgain w binder enter c)
    (h : convert enter typeName field raw kind = .ok v) :
    convert enter typeName field (w.dumpAs binder (some kind) v) kind = .ok v := by
  cases kind with
  | scalar kind => exact convertScalar_again (fun c hc => he c (by rw [hc]; rfl)) h
  | array element =>
    simp only [convert] at h
    split at h
    · cases h
    · next items hi =>
      cases element with
      | none => cases h; rfl
      | some kind =>
        obtain ⟨xs, hxs, h⟩ := bind_ok_iff.mp h
        cases h
        rw [dumpAs_elements, convert, arrayItems?]
        dsimp only
        rw [convertItems_again (fun c hc => he c (by rw [hc]; rfl)) hxs]
        rfl

private theorem convertField_again {typeName : String} {plan : FieldPlan} {raw v : Value}
    {kind : ValueKind} (he : ∀ c, kind.schema? = some c → EntersAgain w binder enter c)
    (h : convertField enter typeName plan kind raw = .ok v) :
    convertField enter typeName plan kind (w.dumpAs binder (some kind) v) = .ok v := by
  cases kind with
  | array element => exact convert_again typeName plan.name he h
  | scalar kind =>
    cases kind with
    | primitive p =>
      simp only [convertField] at h ⊢
      cases hp : p.convert raw with
      | error expected =>
        rw [hp] at h
        dsimp only at h
        split at h <;> cases h
      | ok u =>
        rw [hp] at h
        cases h
        rw [dumpAs_scalar w binder (.primitive p) rfl,
          (p.convert_ok_iff v v).mpr ((p.convert_ok_iff raw v).mp hp).again]
        rfl
    | _ => exact convert_again typeName plan.name he h

private theorem plainValue_again {typeName : String} {plan : FieldPlan} {raw v : Value}
    (he : ∀ kind c, plan.kind = some kind → kind.schema? = some c → EntersAgain w binder enter c)
    (h : plainValue enter typeName plan raw = .ok v) :
    plainValue enter typeName plan (w.dumpAs binder plan.kind v) = .ok v := by
  rw [plainValue_ok_iff] at h ⊢
  rcases h with ⟨hk, rfl⟩ | ⟨kind, hk, hc, ha⟩
  · rw [hk, dumpAs_none]
    exact .inl ⟨rfl, rfl⟩
  · rw [hk]
    exact .inr ⟨kind, rfl, convertField_again (he kind · hk) hc, ha⟩

/-- A dumped value is not null, unless it was null before. -/
theorem dumpAs_ne_null {kind : Option ValueKind} {v : Value} (h : v ≠ .null) :
    w.dumpAs binder kind v ≠ .null := by
  cases v with
  | null => exact absurd rfl h
  | record cls attrs => unfold dumpAs; split <;> exact Value.noConfusion
  | bytes bs => unfold dumpAs; split <;> exact Value.noConfusion
  | list items label => unfold dumpAs; split <;> exact Value.noConfusion
  | _ => exact h

/-- The raw value of a field is what the payload has under its key, if that is not null. -/
theorem rawValue_of_lookup? {plan : FieldPlan} {entries : List (Value × Value)} {v : Value}
    (hl : Value.lookup? plan.sourceKey entries = some v) (hv : v ≠ .null) :
    rawValue plan entries = v := by
  rw [rawValue, hl]
  cases v with
  | null => exact absurd rfl hv
  | _ => rfl

private theorem rawValue_of_absent {plan : FieldPlan} {entries : List (Value × Value)}
    (hl : Value.lookup? plan.sourceKey entries = none) :
    rawValue plan entries = defaultCopy plan := by
  rw [rawValue, hl]

private theorem defaultCopy_of_rawValue_null {plan : FieldPlan} {entries : List (Value × Value)}
    (h : rawValue plan entries = .null) : defaultCopy plan = .null := by
  unfold rawValue at h
  split at h
  · exact h
  · next v hv _ => exact absurd h hv
  · exact h

/-- A field has the same value again, or again none, where the payload has its dumped value. -/
theorem plainField_again {cls : ClassRef} {settable : Bool} {entries dumped : List (Value × Value)}
    {plan : FieldPlan} {value : Option Value}
    (he : ∀ kind c, plan.kind = some kind → kind.schema? = some c → EntersAgain w binder enter c)
    (hn : ∀ v, value = some v → v ≠ .null)
    (hl : Value.lookup? plan.sourceKey dumped = value.map (w.dumpAs binder plan.kind))
    (h : plainField enter cls settable entries plan = .ok value) :
    plainField enter cls settable dumped plan = .ok value := by
  cases value with
  | none =>
    obtain ⟨hz, hr⟩ := plainField_none_iff.mp h
    refine plainField_none_iff.mpr ⟨?_, hr⟩
    rw [rawValue_of_absent hl]
    exact defaultCopy_of_rawValue_null hz
  | some v =>
    obtain ⟨-, hs, hv⟩ := (plainField_some_iff v).mp h
    have hd : w.dumpAs binder plan.kind v ≠ .null := dumpAs_ne_null (hn v rfl)
    have hr := rawValue_of_lookup? hl hd
    refine (plainField_some_iff v).mpr ⟨?_, hs, ?_⟩
    · rw [hr]
      exact hd
    · rw [hr]
      exact plainValue_again he hv

/-- Fields that have the same values in two payloads make the same attributes. -/
theorem plainFields_of_plainField {cls : ClassRef} {settable : Bool}
    {entries dumped : List (Value × Value)} {plans : List FieldPlan}
    {attrs : List (String × Value)}
    (hf : ∀ plan ∈ plans, ∀ value, plainField enter cls settable entries plan = .ok value →
      plainField enter cls settable dumped plan = .ok value)
    (h : plainFields enter cls settable entries plans = .ok attrs) :
    plainFields enter cls settable dumped plans = .ok attrs := by
  induction plans generalizing attrs with
  | nil => exact h
  | cons plan plans ih =>
    obtain ⟨hp, hps⟩ := List.forall_mem_cons.mp hf
    obtain ⟨value, rest, hv, hr, rfl⟩ := (plainFields_cons_ok_iff plans attrs).mp h
    exact (plainFields_cons_ok_iff plans _).mpr ⟨value, rest, hp value hv, ih hps hr, rfl⟩

end Again

/-! ### Binding again -/

variable {w : World}

/-- A record that is bound is bound again, with the same attributes, from what it is dumped to. -/
theorem plainBind_again (hb : w.classes.hasAttributes .bytes = false) {levels binder depth : Nat}
    {cls : ClassRef} (hk : w.Keyed binder cls) {data : Value} {attrs : List (String × Value)}
    (h : w.plainBind levels binder depth cls data = .ok attrs) :
    (∃ entries, w.dump binder (instanceOf cls attrs) = .dict entries) ∧
      w.plainBind levels binder depth cls (w.dump binder (instanceOf cls attrs)) = .ok attrs := by
  induction levels generalizing binder depth cls data attrs with
  | zero => cases h
  | succ levels ih =>
    cases data with
    | dict entries =>
      rw [plainBind_dict] at h
      split at h
      · cases h
      · next hdepth =>
        obtain ⟨plans, hp, h⟩ := bind_ok_iff.mp h
        have hd := Registry.nodup_plans hp
        have hn : cls = .bytes → attrs = [] := fun hc =>
          plainFields_unsettable h (by rw [hc]; exact hb)
        rw [dump_instanceOf w binder hn hp]
        refine ⟨⟨_, rfl⟩, ?_⟩
        rw [plainBind_dict, if_neg hdepth]
        refine bind_ok_iff.mpr
          ⟨plans, hp, plainFields_of_plainField (fun plan hpl value hv => ?_) h⟩
        have ha := plainFields_attr? h hd hpl
        rw [hv] at ha
        cases ha
        have hl := lookup?_dumpAttrs w binder hd (hk.plans hp) hpl fun a ha =>
          (plainFields_names h).subset (List.mem_map_of_mem ha)
        have he : ∀ kind c, plan.kind = some kind → kind.schema? = some c →
            EntersAgain w binder (w.plainEnter levels binder depth) c := by
          intro kind c hkind hs raw v he
          obtain ⟨shown, hs', he⟩ := bind_ok_iff.mp he
          cases he
          obtain ⟨⟨dumped, hdumped⟩, hagain⟩ := ih (hk.nested hp hpl hkind hs) hs'
          rw [hdumped] at hagain
          rw [dumpAs_schema, hdumped]
          exact ⟨dumped, rfl, bind_ok_iff.mpr ⟨shown, hagain, rfl⟩⟩
        refine plainField_again he (fun v hv' => ?_) hl hv
        rw [hv'] at hv
        exact (soundField_of_plainField (fun _ c _ _ => entersSound_plainEnter hb _ _ _ c) hv).2
    | _ =>
      rw [plainBind_other _ _ _ _ _ (by simp)] at h
      split at h <;> cases h

/-- The payload that a dumped instance makes. -/
theorem payload_dump (v : World) (binder : Nat) {o u : Value} (ho : o.Holds u)
    {entries : List (Value × Value)} (hd : w.dump binder u = .dict entries) :
    v.payload (w.dump binder o) = w.dump binder u := by
  have hn := named_dump w binder ho.1
  have hu := dump_unlabelled w binder o
  rw [ho.2, ← unlabelled_adopted v hn] at hu
  rw [World.payload, ← hu]
  cases ha : v.adopted (w.dump binder o) with
  | null =>
    rw [ha, hd] at hu
    cases hu
  | _ => rfl

/-- Binding is a projection: from what an instance that was bound is dumped to, the same instance is
bound again. -/
theorem bind_dump {s : Session} (hs : s.Reachable) {binder : Nat} {cls : ClassRef}
    (hp : s.world.Plain binder cls) (hk : s.world.Keyed binder cls) {data o : Value}
    (h : (exec (bind binder cls data) s.world).1 = .ok o) :
    ∃ o', (exec (bind binder cls (s.world.dump binder o))
        (exec (bind binder cls data) s.world).2).1 = .ok o' ∧ o'.unlabelled = o.unlabelled := by
  have hc := hs.consistent
  have hw := (bind_plain hc (.refl hc) hp data).2
  obtain ⟨attrs, hb, ho⟩ := bind_plain_ok hc (.refl hc) hp h
  obtain ⟨⟨entries, hd⟩, hagain⟩ := plainBind_again hc.hasAttributes_bytes hk hb
  have hpay := payload_dump (exec (bind binder cls data) s.world).2 binder ho hd
  have hr := (bind_plain hc hw hp (s.world.dump binder o)).1
  rw [hpay, hagain] at hr
  rw [ho.2]
  generalize (exec (bind binder cls (s.world.dump binder o))
    (exec (bind binder cls data) s.world).2).1 = r at hr ⊢
  cases hr with
  | ok ho' => exact ⟨_, rfl, ho'.2⟩

end Binding

namespace Session

private theorem routing_keyed : routing.world.Keyed 0 route := by
  have hc : routing.world.closed (fun plans => (plans.map FieldPlan.sourceKey).Nodup)
      [(0, route), (0, point)] = true := by decide +kernel
  exact World.throughout_of_closed hc (List.mem_cons_self ..)

/-- The route that is bound from `detour` is bound again from what it is dumped to. -/
theorem route_bound_again : ∃ o o',
    (exec (Binding.bind 0 route detour) routing.world).1 = .ok o ∧
      o.text = "Route(stops=[Point(x=3), Point()], lanes=2)" ∧
      (exec (Binding.bind 0 route (routing.world.dump 0 o))
        (exec (Binding.bind 0 route detour) routing.world).2).1 = .ok o' ∧
      o'.unlabelled = o.unlabelled := by
  obtain ⟨o, ho, ht⟩ := exists_ok_of_map_toOption routing_bind_detour
  obtain ⟨o', ho', hs⟩ := Binding.bind_dump routing_reachable routing_plain routing_keyed ho
  exact ⟨o, o', ho, ht, ho', hs⟩

end Session

end SchemaBinding
