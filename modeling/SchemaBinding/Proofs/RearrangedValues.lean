import SchemaBinding.Proofs.PlainFields

/-!
# Values but for the order of attributes

Two values are rearrangements of one another if they are the same but for the order in which records
in them have their attributes. Equality does not see that order, and so the rules of a field admit
one of two such values exactly if they admit the other.
-/

namespace SchemaBinding

namespace Value

/-- The two values are the same but for the order of the attributes of records. Records are looked
for where binding puts them, in lists and in the attributes of other records. -/
inductive Rearranged : Value → Value → Prop
  | same (v : Value) : Rearranged v v
  | list {as bs : List Value} (label : Option Nat) (hl : as.length = bs.length)
    (h : ∀ (i : Nat) (a b : Value), as[i]? = some a → bs[i]? = some b → Rearranged a b) :
    Rearranged (.list as label) (.list bs label)
  | record (cls : ClassRef) {as bs : List (String × Value)} (hd : (as.map Prod.fst).Nodup)
    (hn : (as.map Prod.fst).Perm (bs.map Prod.fst))
    (h : ∀ (name : String) (a b : Value), (name, a) ∈ as → (name, b) ∈ bs → Rearranged a b) :
    Rearranged (.record cls as) (.record cls bs)

variable {a b : Value}

/-- If one value is another rearranged, so is the other. -/
theorem Rearranged.symm (h : Rearranged a b) : Rearranged b a := by
  induction h with
  | same v => exact .same v
  | list label hl _ ih => exact .list label hl.symm fun i a b ha hb => ih i b a hb ha
  | record cls hd hn _ ih =>
    exact .record cls (hn.nodup_iff.mp hd) hn.symm fun name a b ha hb => ih name b a hb ha

/-- A list is rearranged when its items are. -/
theorem Rearranged.list_of_forall₂ {as bs : List Value} (h : List.Forall₂ Rearranged as bs)
    (label : Option Nat) : Rearranged (.list as label) (.list bs label) := by
  refine .list label h.length_eq fun i a b ha hb => ?_
  obtain ⟨hi, rfl⟩ := List.getElem?_eq_some_iff.mp ha
  obtain ⟨hj, rfl⟩ := List.getElem?_eq_some_iff.mp hb
  exact h.get hi hj

/-- Records of one class with the same values under each name are rearranged. -/
theorem Rearranged.of_attr? (cls : ClassRef) {as bs : List (String × Value)}
    (ha : (as.map Prod.fst).Nodup) (hb : (bs.map Prod.fst).Nodup)
    (h : ∀ name, Option.Rel Rearranged (attr? name as) (attr? name bs)) :
    Rearranged (.record cls as) (.record cls bs) := by
  have hnone : ∀ name, attr? name as = none ↔ attr? name bs = none := by
    intro name
    have hr := h name
    generalize attr? name as = x at hr ⊢
    generalize attr? name bs = y at hr ⊢
    cases hr with
    | none => simp
    | some => simp
  apply Rearranged.record cls ha
  · rw [List.perm_ext_iff_of_nodup ha hb]
    intro name
    rw [← not_iff_not, ← attr?_eq_none_iff, ← attr?_eq_none_iff, hnone]
  · intro name a b hma hmb
    have hr := h name
    rw [attr?_of_mem ha hma, attr?_of_mem hb hmb] at hr
    cases hr with
    | some hab => exact hab

/-! ### Equality -/

/-- Attributes have their likes if each of them has. -/
theorem eqAttrs_eq_all (as bs : List (String × Value)) :
    eqAttrs as bs = as.all fun a => eqAttr a bs := by
  induction as with
  | nil => rfl
  | cons a as ih => rw [eqAttrs, ih, List.all_cons]

/-- An attribute has its like if the one of its name is alike. -/
theorem eqAttr_eq_any (a : String × Value) (bs : List (String × Value)) :
    eqAttr a bs = (attr? a.1 bs).any (alike a.2) := by
  obtain ⟨name, v⟩ := a
  rw [eqAttr, attr?]
  cases bs.find? fun b => b.1 == name <;> rfl

/-- No value tells the two values apart, on either side of a comparison in a container. -/
def Interchangeable (a b : Value) : Prop :=
  ∀ x : Value, alike x a = alike x b ∧ alike a x = alike b x

/-- A rearranged value is the same not-a-number as the value, if it is one. -/
theorem Rearranged.sameNaN (h : Rearranged a b) (x : Value) :
    sameNaN x a = sameNaN x b ∧ sameNaN a x = sameNaN b x := by
  cases h with
  | same => exact ⟨rfl, rfl⟩
  | _ => cases x <;> simp [Value.sameNaN]

private theorem eqItems_congr {as bs : List Value} (h : List.Forall₂ Interchangeable as bs)
    (xs : List Value) : eqItems xs as = eqItems xs bs ∧ eqItems as xs = eqItems bs xs := by
  induction h generalizing xs with
  | nil => exact ⟨rfl, rfl⟩
  | cons hab _ ih =>
    cases xs with
    | nil => exact ⟨rfl, rfl⟩
    | cons x xs =>
      obtain ⟨hr, hl⟩ := hab x
      unfold alike at hr hl
      simp only [eqItems, hr, hl, (ih xs).1, (ih xs).2, and_self]

section Attributes

variable {as bs : List (String × Value)}

private theorem eqAttr_congr (hn : (as.map Prod.fst).Perm (bs.map Prod.fst))
    (h : ∀ name a b, (name, a) ∈ as → (name, b) ∈ bs → Interchangeable a b)
    (x : String × Value) : eqAttr x as = eqAttr x bs := by
  rw [eqAttr_eq_any, eqAttr_eq_any]
  cases ha : attr? x.1 as with
  | none =>
    rw [attr?_eq_none_iff, hn.mem_iff, ← attr?_eq_none_iff] at ha
    rw [ha]
  | some a =>
    cases hb : attr? x.1 bs with
    | none =>
      rw [attr?_eq_none_iff, ← hn.mem_iff] at hb
      exact absurd (List.mem_map_of_mem (mem_of_attr? ha)) hb
    | some b => exact (h _ a b (mem_of_attr? ha) (mem_of_attr? hb) x.2).1

private theorem eqAttrs_of_eqAttrs (hn : (as.map Prod.fst).Perm (bs.map Prod.fst))
    (h : ∀ name a b, (name, a) ∈ as → (name, b) ∈ bs → Interchangeable a b)
    {xs : List (String × Value)} (ht : eqAttrs as xs = true) : eqAttrs bs xs = true := by
  rw [eqAttrs_eq_all, List.all_eq_true] at ht ⊢
  rintro ⟨name, b⟩ hb
  obtain ⟨⟨m, a⟩, ha, rfl⟩ := List.mem_map.mp (hn.mem_iff.mpr (List.mem_map_of_mem hb))
  have hx := ht _ ha
  rw [eqAttr_eq_any] at hx ⊢
  rwa [← funext fun x => (h m a b ha hb x).2]

private theorem eqAttrs_congr (hn : (as.map Prod.fst).Perm (bs.map Prod.fst))
    (h : ∀ name a b, (name, a) ∈ as → (name, b) ∈ bs → Interchangeable a b)
    (xs : List (String × Value)) :
    eqAttrs xs as = eqAttrs xs bs ∧ eqAttrs as xs = eqAttrs bs xs := by
  constructor
  · rw [eqAttrs_eq_all, eqAttrs_eq_all, funext (eqAttr_congr hn h)]
  · rw [Bool.eq_iff_iff]
    constructor
    · exact eqAttrs_of_eqAttrs hn h
    · exact eqAttrs_of_eqAttrs hn.symm fun name b a hb ha x =>
        ⟨(h name a b ha hb x).1.symm, (h name a b ha hb x).2.symm⟩

end Attributes

private theorem Rearranged.interchangeable (h : Rearranged a b)
    (he : ∀ x, eq x a = eq x b ∧ eq a x = eq b x) : Interchangeable a b := by
  intro x
  obtain ⟨hnr, hnl⟩ := h.sameNaN x
  obtain ⟨hr, hl⟩ := he x
  simp only [alike, hnr, hnl, hr, hl, and_self]

/-- Equality does not see the order of attributes. -/
theorem Rearranged.eq_congr (h : Rearranged a b) (x : Value) :
    eq x a = eq x b ∧ eq a x = eq b x := by
  induction h generalizing x with
  | same v => exact ⟨rfl, rfl⟩
  | @list as bs label hl h ih =>
    have hi : List.Forall₂ Interchangeable as bs := by
      refine List.forall₂_iff_get.mpr ⟨hl, fun i hi hj => ?_⟩
      have ha : as[i]? = some (as.get ⟨i, hi⟩) := List.getElem?_eq_getElem hi
      have hb : bs[i]? = some (bs.get ⟨i, hj⟩) := List.getElem?_eq_getElem hj
      exact (h i _ _ ha hb).interchangeable (ih i _ _ ha hb)
    cases x with
    | list xs l =>
      obtain ⟨hr, hl⟩ := eqItems_congr hi xs
      simp only [eq, hr, hl, and_self]
    | _ => exact ⟨rfl, rfl⟩
  | @record cls as bs hd hn h ih =>
    have hlen : as.length = bs.length := by simpa using hn.length_eq
    have hi : ∀ name a b, (name, a) ∈ as → (name, b) ∈ bs → Interchangeable a b :=
      fun name a b ha hb => (h name a b ha hb).interchangeable (ih name a b ha hb)
    cases x with
    | record d xs =>
      obtain ⟨hr, hl⟩ := eqAttrs_congr hn hi xs
      simp only [eq, hr, hl, hlen, and_self]
    | _ => exact ⟨rfl, rfl⟩

/-- Rearranging keeps the JSON kind of a value. -/
theorem Rearranged.kind (h : Rearranged a b) : a.kind = b.kind := by
  cases h <;> rfl

/-- Rearranging keeps whether a value is a number. -/
theorem Rearranged.isNumber (h : Rearranged a b) : a.isNumber = b.isNumber := by
  rw [Value.isNumber, Value.isNumber, h.kind]

/-- Loose equality does not see that a value is rearranged. -/
theorem Rearranged.looseEq (h : Rearranged a b) (x : Value) :
    looseEq x a = looseEq x b ∧ looseEq a x = looseEq b x := by
  obtain ⟨hr, hl⟩ := h.eq_congr x
  cases h with
  | same => exact ⟨rfl, rfl⟩
  | list label _ _ =>
    unfold SchemaBinding.looseEq
    rw [hr, hl]
    cases x <;> exact ⟨rfl, rfl⟩
  | record cls _ _ _ =>
    unfold SchemaBinding.looseEq
    rw [hr, hl]
    cases x <;> exact ⟨rfl, rfl⟩

end Value

/-! ### Rules -/

variable {a b : Value}

private theorem Comparison.holds_rearranged (c : Comparison) (h : a.Rearranged b) :
    c.holds a = c.holds b := by
  unfold holds
  rw [(h.looseEq c.bound).2]
  have ho : a.numberOrder? c.bound = b.numberOrder? c.bound := by
    cases h <;> rfl
  rw [ho]

private theorem Comparison.passes_rearranged (c : Comparison) (h : a.Rearranged b) :
    c.Passes a ↔ c.Passes b := by
  rw [Passes, Passes, h.isNumber, c.holds_rearranged h]

private theorem isMember_rearranged (h : a.Rearranged b) (members : List Value) :
    isMember a members = isMember b members := by
  induction members with
  | nil => rfl
  | cons m rest ih => rw [isMember, isMember, (h.looseEq m).1, ih]

namespace Binding

private theorem checkMembers_rearranged (typeName field : String) (members : Option Members)
    (h : a.Rearranged b) (hc : checkMembers typeName field members a = .ok ()) :
    checkMembers typeName field members b = .ok () := by
  cases members with
  | none => rfl
  | some m =>
    obtain ⟨found, hf, hc⟩ := bind_ok_iff.mp hc
    rw [isMember_rearranged h] at hf
    refine bind_ok_iff.mpr ⟨found, hf, ?_⟩
    cases found with
    | true => rfl
    | false => cases hc

private theorem checkComparisons_rearranged (typeName field : String) (cs : List Check)
    (h : a.Rearranged b) (hc : checkComparisons typeName field a cs = .ok ()) :
    checkComparisons typeName field b cs = .ok () := by
  induction cs with
  | nil => rfl
  | cons c cs ih =>
    cases c with
    | comparison c =>
      obtain ⟨⟨⟩, hp, hc⟩ := bind_ok_iff.mp hc
      rw [c.check_ok_iff, c.passes_rearranged h] at hp
      exact bind_ok_iff.mpr ⟨(), (c.check_ok_iff typeName field b).mpr hp, ih hc⟩
    | custom f => exact ih hc

private theorem checkIntegral_rearranged (typeName field : String) (integer : Bool)
    (h : a.Rearranged b)
    (hc : checkIntegral typeName field integer a = .ok ()) :
    checkIntegral typeName field integer b = .ok () := by
  cases h with
  | same => exact hc
  | list | record =>
    cases integer with
    | false => rfl
    | true => cases hc

/-- The rules of a field admit a value exactly if they admit its rearrangements. -/
theorem checkRules_rearranged (typeName : String) (plan : FieldPlan) (h : a.Rearranged b)
    (hc : checkRules typeName plan a = .ok ()) : checkRules typeName plan b = .ok () := by
  obtain ⟨⟨⟩, hm, hc⟩ := bind_ok_iff.mp hc
  obtain ⟨⟨⟩, hk, hi⟩ := bind_ok_iff.mp hc
  refine bind_ok_iff.mpr ⟨(), checkMembers_rearranged _ _ _ h hm, ?_⟩
  exact bind_ok_iff.mpr ⟨(), checkComparisons_rearranged _ _ _ h hk,
    checkIntegral_rearranged _ _ _ h hi⟩

end Binding

end SchemaBinding
