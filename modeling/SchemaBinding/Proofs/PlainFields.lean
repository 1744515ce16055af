import SchemaBinding.Proofs.PlainBind

/-!
# Fields without functions of the caller

What it takes for a field, and for a record field by field, to be bound: the value that is converted
and what the rules of the field ask of it, and which attributes are set.
-/

namespace SchemaBinding

/-- A value stands in the relation that a comparison asks for; it is a number if the relation is an
ordering. -/
def Comparison.Passes (c : Comparison) (v : Value) : Prop :=
  (c.relation.isNumeric = true → v.isNumber = true) ∧ c.holds v = .ok true

/-- A value is a number without a fractional part. -/
def Value.Integral (v : Value) : Prop :=
  (∃ i, v = .int i) ∨ ∃ x i, v = .float x ∧ x.toInt? = some i

/-- A value keeps the rules of a planned field: it loosely equals a member of the union, passes the
comparisons, and is integral if that is asked. -/
structure FieldPlan.Admits (p : FieldPlan) (v : Value) : Prop where
  member : ∀ m, p.union = some m → ∃ x ∈ m.values, looseEq x v = .ok true
  passes : ∀ c, .comparison c ∈ p.checks → c.Passes v
  integral : p.integer = true → v.Integral

/-! ### Attributes by name -/

namespace Value

variable {attrs : List (String × Value)} {name : String}

/-- The first attribute of a name is the one that is read. -/
theorem attr?_cons (a : String × Value) (attrs : List (String × Value)) (name : String) :
    attr? name (a :: attrs) = if a.1 = name then some a.2 else attr? name attrs := by
  rw [attr?, List.find?_cons]
  by_cases h : a.1 = name
  · simp [h]
  · rw [if_neg h, beq_eq_false_iff_ne.mpr h]
    rfl

/-- Attributes have no value under a name that none of them has. -/
theorem attr?_eq_none_iff : attr? name attrs = none ↔ name ∉ attrs.map Prod.fst := by
  induction attrs with
  | nil => simp [attr?]
  | cons a rest ih =>
    rw [attr?_cons]
    by_cases h : a.1 = name
    · simp [h]
    · simp [h, ih, Ne.symm h]

/-- An attribute that is read is there. -/
theorem mem_of_attr? {v : Value} (h : attr? name attrs = some v) : (name, v) ∈ attrs := by
  obtain ⟨a, ha, rfl⟩ := Option.map_eq_some_iff.mp h
  have hn : a.1 = name := by simpa using List.find?_some ha
  exact hn ▸ List.mem_of_find?_eq_some ha

/-- Where names are distinct, every attribute is the value under its name. -/
theorem attr?_of_mem (hn : (attrs.map Prod.fst).Nodup) {v : Value} (h : (name, v) ∈ attrs) :
    attr? name attrs = some v := by
  induction attrs with
  | nil => cases h
  | cons a rest ih =>
    obtain ⟨ha, hrest⟩ := List.nodup_cons.mp hn
    rw [attr?_cons]
    rcases List.mem_cons.mp h with rfl | h
    · rw [if_pos rfl]
    · have hne : a.1 ≠ name := by
        rintro rfl
        exact ha (List.mem_map.mpr ⟨_, h, rfl⟩)
      rw [if_neg hne, ih hrest h]

end Value

/-! ### Rules -/

/-- Just numbers are admitted where a number is required. -/
theorem requireNumber_ok_iff (typeName field check : String) (v : Value) :
    requireNumber typeName field check v = .ok () ↔ v.isNumber = true := by
  unfold requireNumber
  split
  · next h => exact ⟨fun _ => h, fun _ => rfl⟩
  · next h => exact ⟨nofun, fun hn => absurd hn h⟩

/-- A comparison admits just the values that pass it. -/
theorem Comparison.check_ok_iff (c : Comparison) (typeName field : String) (v : Value) :
    c.check typeName field v = .ok () ↔ c.Passes v := by
  have hh : (c.holds v >>= fun b => if b then pure ()
        else throw (.ofBinding ⟨typeName, field, .comparison c.relation c.bound v⟩)) = .ok () ↔
      c.holds v = .ok true := by
    rw [bind_ok_iff]
    constructor
    · rintro ⟨b, hb, h⟩
      cases b with
      | true => exact hb
      | false => cases h
    · intro h
      exact ⟨true, h, rfl⟩
  unfold Comparison.check Passes
  dsimp only
  split
  · next hr =>
    rw [bind_ok_iff]
    constructor
    · rintro ⟨_, hn, h⟩
      exact ⟨fun _ => (requireNumber_ok_iff _ _ _ v).mp hn, hh.mp h⟩
    · rintro ⟨hn, h⟩
      exact ⟨(), (requireNumber_ok_iff _ _ _ v).mpr (hn hr), hh.mpr h⟩
  · next hr => exact ⟨fun h => ⟨fun hn => absurd hn hr, hh.mp h⟩, fun h => hh.mpr h.2⟩

private theorem isMember_ok_true {v : Value} {members : List Value}
    (h : isMember v members = .ok true) :
    ∃ x ∈ members, looseEq x v = .ok true := by
  induction members with
  | nil => cases h
  | cons m rest ih =>
    obtain ⟨b, hb, h⟩ := bind_ok_iff.mp h
    cases b with
    | true => exact ⟨m, List.mem_cons_self .., hb⟩
    | false =>
      obtain ⟨x, hx, he⟩ := ih h
      exact ⟨x, List.mem_cons_of_mem m hx, he⟩

private theorem checkUnion_ok {typeName field : String} {allowed : List Value} {v : Value}
    (h : checkUnion typeName field allowed v = .ok ()) :
    ∃ x ∈ allowed, looseEq x v = .ok true := by
  obtain ⟨b, hb, h⟩ := bind_ok_iff.mp h
  cases b with
  | true => exact isMember_ok_true hb
  | false => cases h

private theorem checkInteger_ok {typeName field : String} {v : Value}
    (h : checkInteger typeName field v = .ok ()) : v.Integral := by
  obtain ⟨_, hn, h⟩ := bind_ok_iff.mp h
  have hv := (requireNumber_ok_iff _ _ _ v).mp hn
  cases v with
  | int i => exact .inl ⟨i, rfl⟩
  | float x =>
    dsimp only at h
    split at h
    · next hx =>
      obtain ⟨i, hi⟩ := Option.isSome_iff_exists.mp hx
      exact .inr ⟨x, i, rfl, hi⟩
    · cases h
  | _ => cases hv

namespace Binding

private theorem checkComparisons_ok {typeName field : String} {v : Value} {cs : List Check}
    (h : checkComparisons typeName field v cs = .ok ()) :
    ∀ c, .comparison c ∈ cs → c.Passes v := by
  induction cs with
  | nil => exact fun c hc => absurd hc List.not_mem_nil
  | cons k cs ih =>
    cases k with
    | comparison k =>
      obtain ⟨_, hk, h⟩ := bind_ok_iff.mp h
      intro c hc
      rcases List.mem_cons.mp hc with he | hc
      · cases he
        exact (k.check_ok_iff typeName field v).mp hk
      · exact ih h c hc
    | custom f =>
      intro c hc
      rcases List.mem_cons.mp hc with he | hc
      · cases he
      · exact ih h c hc

/-- A value that is admitted keeps the rules of its field. -/
theorem checkRules_ok {typeName : String} {plan : FieldPlan} {v : Value}
    (h : checkRules typeName plan v = .ok ()) : plan.Admits v := by
  obtain ⟨_, hm, h⟩ := bind_ok_iff.mp h
  obtain ⟨_, hc, hi⟩ := bind_ok_iff.mp h
  refine ⟨fun m hu => ?_, checkComparisons_ok hc, fun hint => ?_⟩
  · rw [hu] at hm
    exact checkUnion_ok hm
  · rw [hint] at hi
    exact checkInteger_ok hi

/-! ### Fields -/

section Field

variable {enter : ClassRef → Value → Except Fault Value} {cls : ClassRef} {settable : Bool}
  {entries : List (Value × Value)} {plan : FieldPlan}

/-- The value of a field is its raw value, or converted from it and admitted. -/
theorem plainValue_ok_iff (typeName : String) (raw v : Value) :
    plainValue enter typeName plan raw = .ok v ↔
      plan.kind = none ∧ v = raw ∨ ∃ kind, plan.kind = some kind ∧
        convertField enter typeName plan kind raw = .ok v ∧
          checkRules typeName plan v = .ok () := by
  unfold plainValue
  split
  · next hk =>
    rw [hk]
    constructor
    · intro h
      cases h
      exact .inl ⟨rfl, rfl⟩
    · rintro (⟨-, rfl⟩ | ⟨kind, h, -⟩)
      · rfl
      · cases h
  · next kind hk =>
    rw [hk, bind_ok_iff]
    constructor
    · rintro ⟨u, hu, h⟩
      obtain ⟨_, ha, h⟩ := bind_ok_iff.mp h
      cases h
      exact .inr ⟨kind, rfl, hu, ha⟩
    · rintro (⟨h, -⟩ | ⟨k, h, hu, ha⟩)
      · cases h
      · cases h
        exact ⟨v, hu, bind_ok_iff.mpr ⟨(), ha, rfl⟩⟩

/-- A field stays unset exactly if its raw value is null and it is not required. -/
theorem plainField_none_iff :
    plainField enter cls settable entries plan = .ok none ↔
      rawValue plan entries = .null ∧ plan.requirement.isRequired = false := by
  by_cases hz : rawValue plan entries = .null
  · rw [plainField_null hz]
    cases hr : plan.requirement.isRequired with
    | true => exact ⟨nofun, fun h => nomatch h.2⟩
    | false => exact ⟨fun _ => ⟨hz, rfl⟩, fun _ => rfl⟩
  · rw [plainField_value hz, bind_ok_iff]
    constructor
    · rintro ⟨v, -, h⟩
      split at h <;> cases h
    · rintro ⟨h, -⟩
      exact absurd h hz

/-- A field is set exactly if its raw value is not null and has a value, and the class of the record
can be given attributes. -/
theorem plainField_some_iff (v : Value) :
    plainField enter cls settable entries plan = .ok (some v) ↔
      rawValue plan entries ≠ .null ∧ settable = true ∧
        plainValue enter cls.name plan (rawValue plan entries) = .ok v := by
  by_cases hz : rawValue plan entries = .null
  · rw [plainField_null hz]
    constructor
    · intro h
      split at h <;> cases h
    · rintro ⟨h, -⟩
      exact absurd hz h
  · rw [plainField_value hz, bind_ok_iff]
    constructor
    · rintro ⟨u, hu, h⟩
      cases settable with
      | true => cases h; exact ⟨hz, rfl, hu⟩
      | false => cases h
    · rintro ⟨-, rfl, hu⟩
      exact ⟨v, hu, rfl⟩

/-- The attributes of a record are those that its fields set, one field after another. -/
theorem plainFields_cons_ok_iff (plans : List FieldPlan) (attrs : List (String × Value)) :
    plainFields enter cls settable entries (plan :: plans) = .ok attrs ↔
      ∃ value rest, plainField enter cls settable entries plan = .ok value ∧
        plainFields enter cls settable entries plans = .ok rest ∧
        attrs = attrOf plan value ++ rest := by
  change plainField enter cls settable entries plan >>= (fun value =>
    plainFields enter cls settable entries plans >>= fun rest =>
      .ok (attrOf plan value ++ rest)) = .ok attrs ↔ _
  rw [bind_ok_iff]
  constructor
  · rintro ⟨value, hv, h⟩
    obtain ⟨rest, hr, h⟩ := bind_ok_iff.mp h
    cases h
    exact ⟨value, rest, hv, hr, rfl⟩
  · rintro ⟨value, rest, hv, hr, rfl⟩
    exact ⟨value, hv, bind_ok_iff.mpr ⟨rest, hr, rfl⟩⟩

end Field

section Fields

variable {enter : ClassRef → Value → Except Fault Value} {cls : ClassRef} {settable : Bool}
  {entries : List (Value × Value)} {plans : List FieldPlan} {attrs : List (String × Value)}
  (h : plainFields enter cls settable entries plans = .ok attrs)

include h

/-- The attributes that are set are named after fields, in the order of the plan. -/
theorem plainFields_names :
    (attrs.map Prod.fst).Sublist (plans.map FieldPlan.name) := by
  induction plans generalizing attrs with
  | nil => cases h; exact .slnil
  | cons plan plans ih =>
    obtain ⟨value, rest, -, hr, rfl⟩ := (plainFields_cons_ok_iff plans attrs).mp h
    cases value with
    | none => exact (ih hr).cons _
    | some v => exact (ih hr).cons_cons _

/-- Every attribute is the value of a field. -/
theorem plainFields_mem {a : String × Value} (ha : a ∈ attrs) :
    ∃ plan ∈ plans, plan.name = a.1 ∧
      plainField enter cls settable entries plan = .ok (some a.2) := by
  induction plans generalizing attrs with
  | nil => cases h; cases ha
  | cons plan plans ih =>
    obtain ⟨value, rest, hv, hr, rfl⟩ := (plainFields_cons_ok_iff plans attrs).mp h
    rcases List.mem_append.mp ha with ha | ha
    · cases value with
      | none => cases ha
      | some v =>
        cases List.mem_singleton.mp ha
        exact ⟨plan, List.mem_cons_self .., rfl, hv⟩
    · obtain ⟨q, hq, hn, hf⟩ := ih hr ha
      exact ⟨q, List.mem_cons_of_mem plan hq, hn, hf⟩

/-- Every field has a value, which is its attribute, or stays unset. -/
theorem plainFields_attr? (hd : (plans.map FieldPlan.name).Nodup) {plan : FieldPlan}
    (hp : plan ∈ plans) :
    plainField enter cls settable entries plan = .ok (Value.attr? plan.name attrs) := by
  induction plans generalizing attrs with
  | nil => cases hp
  | cons q plans ih =>
    obtain ⟨value, rest, hv, hr, rfl⟩ := (plainFields_cons_ok_iff plans attrs).mp h
    obtain ⟨hq, hds⟩ := List.nodup_cons.mp hd
    rcases List.mem_cons.mp hp with rfl | hp
    · cases value with
      | some v => simpa [attrOf, Value.attr?] using hv
      | none =>
        have hnone : Value.attr? plan.name rest = none :=
          Value.attr?_eq_none_iff.mpr fun hm => hq ((plainFields_names hr).subset hm)
        rw [hv]
        exact congrArg Except.ok hnone.symm
    · have hne : q.name ≠ plan.name := fun he => hq (he ▸ List.mem_map_of_mem hp)
      rw [ih hr hds hp]
      cases value with
      | none => rfl
      | some v => simp [attrOf, Value.attr?, hne]

/-- Nothing is set on a record whose class cannot be given attributes. -/
theorem plainFields_unsettable (hs : settable = false) : attrs = [] := by
  cases attrs with
  | nil => rfl
  | cons a rest =>
    obtain ⟨plan, -, -, hf⟩ := plainFields_mem h (List.mem_cons_self ..)
    obtain ⟨-, ht, -⟩ := (plainField_some_iff a.2).mp hf
    rw [hs] at ht
    cases ht

end Fields

end Binding

end SchemaBinding
