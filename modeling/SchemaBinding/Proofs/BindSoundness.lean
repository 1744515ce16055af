import SchemaBinding.Proofs.PlainFields
import SchemaBinding.Proofs.PlainRun

/-!
# Soundness of binding

What a bind returns is an instance of its class that keeps the contracts of the class: its
attributes are fields in the order of the plan, all that must be there are there, and every one of
them conforms to its kind and keeps the rules of its field. Instances of nested schemas keep the
contracts of theirs.
-/

namespace SchemaBinding

/-- The attributes of a value; only records have some. -/
def Value.attributes : Value → List (String × Value)
  | .record _ attrs => attrs
  | _ => []

/-- A value is of a primitive kind. -/
inductive Primitive.Has : Primitive → Value → Prop
  | str (s : String) : Has .str (.str s)
  | int (i : Int) : Has .int (.int i)
  | float (x : Double) : Has .float (.float x)
  | bool (b : Bool) : Has .bool (.bool b)
  | numberInt (i : Int) : Has .number (.int i)
  | numberFloat (x : Double) : Has .number (.float x)

namespace World

mutual

/-- A value conforms to a kind that is no array. An instance of a schema is sound for the value that
it was bound from. -/
inductive Conforms (w : World) : (binder : Nat) → ScalarKind → (raw v : Value) → Prop
  | primitive {binder : Nat} {p : Primitive} {raw v : Value} (h : p.Has v) :
    Conforms w binder (.primitive p) raw v
  | date {binder : Nat} {target : DateTarget} {raw v : Value} (h : target.Gives v) :
    Conforms w binder (.date target) raw v
  | schema {binder : Nat} {cls : ClassRef} {raw v : Value}
    (h : Sound w (w.nestedBinder binder cls) cls raw v) : Conforms w binder (.schema cls) raw v
  | mapping {binder : Nat} (entries : List (Value × Value)) :
    Conforms w binder .mapping (.dict entries) (.dict entries)
  | any {binder : Nat} (v : Value) : Conforms w binder .any v v

/-- A value conforms to a kind: an array is a list, and its elements conform to their kind. -/
inductive ConformsTo (w : World) : (binder : Nat) → ValueKind → (raw v : Value) → Prop
  | scalar {binder : Nat} {kind : ScalarKind} {raw v : Value} (h : Conforms w binder kind raw v) :
    ConformsTo w binder (.scalar kind) raw v
  | array {binder : Nat} {raw : Value} {items : List Value}
    (hr : Binding.arrayItems? raw = some items) :
    ConformsTo w binder (.array none) raw (.list items none)
  | elements {binder : Nat} {kind : ScalarKind} {raw : Value} {raws items : List Value}
    (hr : Binding.arrayItems? raw = some raws) (hl : items.length = raws.length)
    (h : ∀ (i : Nat) (u v : Value), raws[i]? = some u → items[i]? = some v →
      Conforms w binder kind u v) :
    ConformsTo w binder (.array (some kind)) raw (.list items none)

/-- The value of a field is sound for the payload of its record. Without a kind it is what the
payload has for the field, or a copy of the default; with a kind it conforms to it and keeps the
rules of the field. -/
inductive SoundField (w : World) : (binder : Nat) → (entries : List (Value × Value)) →
    FieldPlan → Value → Prop
  | passthrough {binder : Nat} {entries : List (Value × Value)} {plan : FieldPlan} {v : Value}
    (hk : plan.kind = none)
    (h : Value.lookup? plan.sourceKey entries = some v ∨
      plan.requirement.default?.map Value.copied = some v) :
    SoundField w binder entries plan v
  | converted {binder : Nat} {entries : List (Value × Value)} {plan : FieldPlan} {v : Value}
    {kind : ValueKind} (hk : plan.kind = some kind)
    (h : ConformsTo w binder kind (Binding.rawValue plan entries) v) (ha : plan.Admits v) :
    SoundField w binder entries plan v

/-- A value is an instance of a class that is sound for a payload: its attributes are set in the
order of the plan, each once and none of them null; a field is set if it is required or has a
default that is not null; and the values of the fields are sound. -/
inductive Sound (w : World) : (binder : Nat) → ClassRef → (data o : Value) → Prop
  | intro {binder : Nat} {cls : ClassRef} {entries : List (Value × Value)} {o : Value}
    {plans : List FieldPlan} (hp : w.plansFor binder cls = .ok plans)
    (instance_of : o = Binding.instanceOf cls o.attributes)
    (distinct : (o.attributes.map Prod.fst).Nodup)
    (ordered : (o.attributes.map Prod.fst).Sublist (plans.map FieldPlan.name))
    (set : ∀ a ∈ o.attributes, a.2 ≠ .null)
    (present : ∀ plan ∈ plans, (plan.requirement.isRequired = true ∨
      ∃ v, plan.requirement = .defaulted v ∧ v ≠ .null) →
        plan.name ∈ o.attributes.map Prod.fst)
    (fields : ∀ plan ∈ plans, ∀ v, Value.attr? plan.name o.attributes = some v →
      SoundField w binder entries plan v) :
    Sound w binder cls (.dict entries) o

end

end World

namespace Binding

open World

variable {w : World} {binder : Nat} {enter : ClassRef → Value → Except Fault Value}

/-- Whatever is entered for a schema is sound, where it returns. -/
def EntersSound (w : World) (binder : Nat) (enter : ClassRef → Value → Except Fault Value)
    (cls : ClassRef) : Prop :=
  ∀ raw v, enter cls raw = .ok v → w.Sound (w.nestedBinder binder cls) cls raw v

/-- A raw value that is not null is in the payload, or a copy of the default. -/
theorem rawValue_cases {plan : FieldPlan} {entries : List (Value × Value)}
    (h : rawValue plan entries ≠ .null) :
    Value.lookup? plan.sourceKey entries = some (rawValue plan entries) ∨
      plan.requirement.default?.map Value.copied = some (rawValue plan entries) := by
  have hd : defaultCopy plan ≠ .null →
      plan.requirement.default?.map Value.copied = some (defaultCopy plan) := by
    unfold defaultCopy
    cases plan.requirement.default?.map Value.copied with
    | none => exact fun hn => absurd rfl hn
    | some v => exact fun _ => rfl
  unfold rawValue at h ⊢
  split
  · next hl => rw [hl] at h; exact .inr (hd h)
  · next v _ hl => exact .inl hl
  · next hl => rw [hl] at h; exact .inr (hd h)

private theorem instanceOf_ne_null (cls : ClassRef) (attrs : List (String × Value)) :
    instanceOf cls attrs ≠ .null := by
  unfold instanceOf
  split <;> exact Value.noConfusion

private theorem ne_null_of_conformsTo {raw v : Value} {kind : ValueKind}
    (h : w.ConformsTo binder kind raw v) (hr : raw ≠ .null) : v ≠ .null := by
  cases h with
  | scalar h =>
    cases h with
    | primitive h => cases h <;> exact Value.noConfusion
    | date h => exact h.ne_null
    | schema h =>
      cases h with
      | intro _ ho => rw [ho]; exact instanceOf_ne_null _ _
    | mapping entries => exact hr
    | any => exact hr
  | array => exact Value.noConfusion
  | elements => exact Value.noConfusion

private theorem conforms_of_convertScalar {typeName field : String} {index : Option Nat}
    {raw v : Value}
    {kind : ScalarKind} (he : ∀ c, kind = .schema c → EntersSound w binder enter c)
    (h : convertScalar enter typeName field index raw kind = .ok v) :
    w.Conforms binder kind raw v := by
  cases kind with
  | primitive p =>
    simp only [convertScalar] at h
    split at h
    · next u hu =>
      cases h
      refine .primitive ?_
      cases (p.convert_ok_iff raw v).mp hu <;> constructor
    · cases h
  | date target =>
    simp only [convertScalar] at h
    split at h
    · next u hu =>
      cases h
      exact .date (DateTarget.gives_of_parseDate hu)
    · cases h
    · cases h
  | schema cls =>
    cases raw with
    | dict entries => exact .schema (he cls rfl _ v h)
    | _ => cases h
  | mapping =>
    cases raw with
    | dict entries => cases h; exact .mapping entries
    | _ => cases h
  | any => cases h; exact .any raw

private theorem conforms_of_convertItems {typeName field : String} {kind : ScalarKind}
    (he : ∀ c, kind = .schema c → EntersSound w binder enter c) {index : Nat}
    {raws items : List Value}
    (h : convertItems enter typeName field kind index raws = .ok items) :
    items.length = raws.length ∧
      ∀ (i : Nat) (u v : Value), raws[i]? = some u → items[i]? = some v →
        w.Conforms binder kind u v := by
  induction raws generalizing index items with
  | nil => cases h; exact ⟨rfl, fun i u v hu => by cases hu⟩
  | cons raw rest ih =>
    obtain ⟨x, hx, h⟩ := bind_ok_iff.mp h
    obtain ⟨xs, hxs, h⟩ := bind_ok_iff.mp h
    cases h
    obtain ⟨hl, hc⟩ := ih hxs
    refine ⟨congrArg Nat.succ hl, fun i u v hu hv => ?_⟩
    cases i with
    | zero => cases hu; cases hv; exact conforms_of_convertScalar he hx
    | succ i => exact hc i u v hu hv

private theorem conformsTo_of_convert {typeName field : String} {raw v : Value} {kind : ValueKind}
    (he : ∀ c, kind.schema? = some c → EntersSound w binder enter c)
    (h : convert enter typeName field raw kind = .ok v) : w.ConformsTo binder kind raw v := by
  cases kind with
  | scalar kind =>
    exact .scalar (conforms_of_convertScalar (fun c hc => he c (by rw [hc]; rfl)) h)
  | array element =>
    simp only [convert] at h
    split at h
    · cases h
    · next items hi =>
      cases element with
      | none => cases h; exact .array hi
      | some kind =>
        obtain ⟨xs, hxs, h⟩ := bind_ok_iff.mp h
        cases h
        obtain ⟨hl, hc⟩ := conforms_of_convertItems (fun c hc => he c (by rw [hc]; rfl)) hxs
        exact .elements hi hl hc

private theorem conformsTo_of_convertField {typeName : String} {plan : FieldPlan} {raw v : Value}
    {kind : ValueKind} (he : ∀ c, kind.schema? = some c → EntersSound w binder enter c)
    (h : convertField enter typeName plan kind raw = .ok v) : w.ConformsTo binder kind raw v := by
  unfold convertField at h
  split at h
  · next p =>
    split at h
    · next u hu =>
      cases h
      refine .scalar (.primitive ?_)
      cases (p.convert_ok_iff raw v).mp hu <;> constructor
    · split at h <;> cases h
  · exact conformsTo_of_convert he h

/-- A field that is set has a sound value, which is not null. -/
theorem soundField_of_plainField {cls : ClassRef} {settable : Bool}
    {entries : List (Value × Value)} {plan : FieldPlan} {v : Value}
    (he : ∀ kind c, plan.kind = some kind → kind.schema? = some c → EntersSound w binder enter c)
    (h : plainField enter cls settable entries plan = .ok (some v)) :
    w.SoundField binder entries plan v ∧ v ≠ .null := by
  obtain ⟨hz, -, hv⟩ := (plainField_some_iff v).mp h
  rcases (plainValue_ok_iff _ _ v).mp hv with ⟨hk, rfl⟩ | ⟨kind, hk, hc, ha⟩
  · exact ⟨.passthrough hk (rawValue_cases hz), hz⟩
  · have hcv := conformsTo_of_convertField (he kind · hk) hc
    exact ⟨.converted hk hcv (checkRules_ok ha), ne_null_of_conformsTo hcv hz⟩

/-- A field without a value in the payload is set all the same if it must be there or has a default
that is not null. -/
theorem rawValue_ne_null {plan : FieldPlan} {v : Value} (h : plan.requirement = .defaulted v)
    (hv : v ≠ .null) (entries : List (Value × Value)) : rawValue plan entries ≠ .null := by
  have hd : defaultCopy plan ≠ .null := by
    rw [defaultCopy, h]
    exact fun he => hv ((Value.copied_eq_null_iff v).mp he)
  unfold rawValue
  split
  · exact hd
  · next u hu _ => exact hu
  · exact hd

private theorem attributes_instanceOf {cls : ClassRef} {attrs : List (String × Value)}
    (h : cls = .bytes → attrs = []) : (instanceOf cls attrs).attributes = attrs := by
  unfold instanceOf
  split
  · next hc => rw [h hc]; rfl
  · rfl

/-- A record whose fields are bound is sound for its payload. -/
theorem sound_of_plainFields {cls : ClassRef} {entries : List (Value × Value)}
    {plans : List FieldPlan} {attrs : List (String × Value)}
    (hp : w.plansFor binder cls = .ok plans)
    (he : ∀ c, EntersSound w binder enter c) (hb : cls = .bytes → attrs = []) {settable : Bool}
    (h : plainFields enter cls settable entries plans = .ok attrs) :
    w.Sound binder cls (.dict entries) (instanceOf cls attrs) := by
  have hd := Registry.nodup_plans hp
  refine .intro hp ?_ ?_ ?_ ?_ ?_ ?_
  all_goals rw [attributes_instanceOf hb]
  · exact (plainFields_names h).nodup hd
  · exact plainFields_names h
  · intro a ha
    obtain ⟨plan, -, -, hf⟩ := plainFields_mem h ha
    exact (soundField_of_plainField (fun _ c _ _ => he c) hf).2
  · intro plan hpl hreq
    have hf := plainFields_attr? h hd hpl
    cases hv : Value.attr? plan.name attrs with
    | some v => exact List.mem_map_of_mem (Value.mem_of_attr? hv)
    | none =>
      rw [hv] at hf
      obtain ⟨hz, hr⟩ := plainField_none_iff.mp hf
      rcases hreq with hreq | ⟨v, hv, hne⟩
      · rw [hreq] at hr
        cases hr
      · exact absurd hz (rawValue_ne_null hv hne entries)
  · intro plan hpl v hv
    have hf := plainFields_attr? h hd hpl
    rw [hv] at hf
    exact (soundField_of_plainField (fun _ c _ _ => he c) hf).1

/-- A record that is bound is sound for its payload. -/
theorem sound_of_plainBind (hb : w.classes.hasAttributes .bytes = false) {levels binder depth : Nat}
    {cls : ClassRef} {data : Value} {attrs : List (String × Value)}
    (h : w.plainBind levels binder depth cls data = .ok attrs) :
    w.Sound binder cls data (instanceOf cls attrs) := by
  induction levels generalizing binder depth cls data attrs with
  | zero => cases h
  | succ levels ih =>
    cases data with
    | dict entries =>
      rw [plainBind_dict] at h
      split at h
      · cases h
      · obtain ⟨plans, hp, h⟩ := bind_ok_iff.mp h
        refine sound_of_plainFields hp (fun c raw v hv => ?_) (fun hc => ?_) h
        · obtain ⟨attrs, ha, hv⟩ := bind_ok_iff.mp hv
          cases hv
          exact ih ha
        · exact plainFields_unsettable h (by rw [hc]; exact hb)
    | _ =>
      rw [plainBind_other _ _ _ _ _ (by simp)] at h
      split at h <;> cases h

/-- Entering nested schemas without functions of the caller gives sound instances. -/
theorem entersSound_plainEnter (hb : w.classes.hasAttributes .bytes = false)
    (levels binder depth : Nat) (cls : ClassRef) :
    EntersSound w binder (w.plainEnter levels binder depth) cls := by
  intro raw v hv
  obtain ⟨attrs, ha, hv⟩ := bind_ok_iff.mp hv
  cases hv
  exact sound_of_plainBind hb ha

/-- An instance that a bind returns is sound for the payload. -/
theorem bind_sound {s : Session} (hs : s.Reachable) {cls : ClassRef}
    (hp : s.world.Plain binder cls) {data o : Value}
    (h : (exec (bind binder cls data) s.world).1 = .ok o) :
    s.world.Sound binder cls (s.world.payload data) o.unlabelled := by
  have hc := hs.consistent
  obtain ⟨attrs, hb, ho⟩ := bind_plain_ok hc (.refl hc) hp h
  rw [ho.2]
  exact sound_of_plainBind hc.hasAttributes_bytes hb

end Binding

namespace Session

/-- The creation of a class with a list of points under another key and an integer with a default.
-/
def newRoute : Operation := .newClass "Route" [.schemaBase] none [
  ("stops", ⟨.listOf (.cls point), [.requirement .required, .sourceKey ⟨"via", by decide⟩]⟩),
  ("lanes", ⟨.basic .int, [.requirement (.defaulted (.int 2))]⟩)]

/-- The class that `newRoute` creates after `newPoint`. -/
def route : ClassRef := ⟨6, "Route", true⟩

/-- The session with the classes of points and of routes. -/
def routing : Session := ((initial.step newPoint).2.step newRoute).2

/-- The session with routes comes about by operations. -/
theorem routing_reachable : Reachable routing :=
  .step _ newRoute (.step initial newPoint .initial)

/-- Neither routes nor their points have functions of the caller. -/
theorem routing_plain : routing.world.Plain 0 route := by
  have hc : routing.world.closed (fun plans => ∀ plan ∈ plans, plan.Plain)
      [(0, route), (0, point)] = true := by decide +kernel
  exact World.throughout_of_closed hc (List.mem_cons_self ..)

/-- A route of two points, one of them without its field. -/
def detour : Value :=
  .dict [(.str "via", .tuple [.dict [(.str "x", .int 3)], .dict []])]

/-- The detour is bound, its second stop without coordinates. -/
theorem routing_bind_detour :
    (exec (Binding.bind 0 route detour) routing.world).1.toOption.map Value.text =
      some "Route(stops=[Point(x=3), Point()], lanes=2)" := by decide +kernel

/-- The route that is bound from `detour` is sound. -/
theorem route_sound : ∃ o, (exec (Binding.bind 0 route detour) routing.world).1 = .ok o ∧
    o.text = "Route(stops=[Point(x=3), Point()], lanes=2)" ∧
    routing.world.Sound 0 route (routing.world.payload detour) o.unlabelled := by
  obtain ⟨o, ho, ht⟩ := exists_ok_of_map_toOption routing_bind_detour
  exact ⟨o, ho, ht, Binding.bind_sound routing_reachable routing_plain ho⟩

end Session

end SchemaBinding
