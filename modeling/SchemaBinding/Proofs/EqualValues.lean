import SchemaBinding.Proofs.BoundAttributes
import SchemaBinding.Proofs.LooseNumbers
import SchemaBinding.Proofs.RearrangedValues

/-!
# Equality is symmetric

A dictionary is well keyed if no two of its keys are alike, and a record if no two of its attributes
have one name; setting an entry or an attribute keeps them so. On values that are well keyed
throughout equality is symmetric and transitive, and so is being alike. For dictionaries and records
this is a matter of counting: if each entry of the one has its like among as many of the other, then
no entry of the other is left over.
-/

namespace SchemaBinding

namespace InstanceRef

variable {r s : InstanceRef}

private theorem eq_of_identity (hc : r.toClassRef = s.toClassRef) (hi : r.identity = s.identity) :
    r = s := by
  cases r
  cases s
  cases hc
  cases hi
  rfl

/-- Instances of one class that are compared by their attributes are not told apart otherwise. -/
theorem eq_of_structural (hc : r.toClassRef = s.toClassRef) (hr : r.structural = true) : r = s := by
  have hs : s.structural = true := hc ▸ hr
  exact eq_of_identity hc ((r.identity_eq_none hr).trans (s.identity_eq_none hs).symm)

/-- Instances are known to be one if they share an identity. -/
theorem same_iff : r.same s = true ↔ r = s ∧ r.identity.isSome = true := by
  simp only [same, Bool.and_eq_true, beq_iff_eq]
  constructor
  · rintro ⟨⟨hc, hi⟩, he⟩
    exact ⟨eq_of_identity hc he, hi⟩
  · rintro ⟨rfl, hi⟩
    exact ⟨⟨rfl, hi⟩, rfl⟩

end InstanceRef

namespace Value

/-! ### Well-keyed values -/

/-- The values that a value is made of: items, keys and values of entries, values of attributes. -/
def parts : Value → List Value
  | .list items _ => items
  | .tuple items => items
  | .dict entries => entries.map Prod.fst ++ entries.map Prod.snd
  | .record _ attrs => attrs.map Prod.snd
  | _ => []

/-- No two entries have keys alike. -/
def DistinctKeys (entries : List (Value × Value)) : Prop :=
  entries.Pairwise fun a b => alike a.1 b.1 = false

/-- No two keys of a dictionary are alike, and no two attributes of a record have one name. -/
def Distinct : Value → Prop
  | .dict entries => DistinctKeys entries
  | .record _ attrs => (attrs.map Prod.fst).Nodup
  | _ => True

/-- A value has distinct keys and names, and so do all values in it. -/
inductive WellKeyed : Value → Prop
  | intro (v : Value) (hd : v.Distinct) (hp : ∀ p ∈ v.parts, WellKeyed p) : WellKeyed v

/-- A value without parts is well keyed. -/
theorem WellKeyed.of_parts_eq_nil {v : Value} (hp : v.parts = []) (hd : v.Distinct) :
    v.WellKeyed := .intro v hd (hp ▸ List.forall_mem_nil _)

/-- A list of well-keyed values is well-keyed. -/
theorem WellKeyed.list {items : List Value} (h : ∀ v ∈ items, v.WellKeyed) (label : Option Nat) :
    (list items label).WellKeyed := .intro _ trivial h

section SetEntry

variable {entries : List (Value × Value)} (key value : Value)

/-- The entries of a dictionary in which one has been set. -/
theorem mem_setEntry {e : Value × Value} (h : e ∈ setEntry entries key value) :
    (e.1 = key ∨ e.1 ∈ entries.map Prod.fst) ∧ (e.2 = value ∨ e.2 ∈ entries.map Prod.snd) := by
  induction entries with
  | nil =>
    cases List.mem_singleton.mp h
    exact ⟨.inl rfl, .inl rfl⟩
  | cons d rest ih =>
    rw [setEntry] at h
    split at h <;> rcases List.mem_cons.mp h with rfl | h
    · exact ⟨.inr List.mem_cons_self, .inl rfl⟩
    · exact ⟨.inr (List.mem_cons_of_mem _ (List.mem_map_of_mem h)),
        .inr (List.mem_cons_of_mem _ (List.mem_map_of_mem h))⟩
    · exact ⟨.inr List.mem_cons_self, .inr List.mem_cons_self⟩
    · obtain ⟨hk, hv⟩ := ih h
      exact ⟨hk.imp_right (List.mem_cons_of_mem _), hv.imp_right (List.mem_cons_of_mem _)⟩

/-- Setting an entry leaves the keys distinct: a key alike keeps its form. -/
theorem DistinctKeys.setEntry (h : DistinctKeys entries) :
    DistinctKeys (setEntry entries key value) := by
  induction entries with
  | nil => exact List.pairwise_singleton _ _
  | cons d rest ih =>
    obtain ⟨hd, hrest⟩ := List.pairwise_cons.mp h
    rw [Value.setEntry]
    split
    · exact List.pairwise_cons.mpr ⟨hd, hrest⟩
    · next hk =>
      refine List.pairwise_cons.mpr ⟨fun e he => ?_, ih hrest⟩
      rcases (mem_setEntry key value he).1 with hek | hek
      · exact hek ▸ Bool.eq_false_iff.mpr hk
      · obtain ⟨c, hc, hce⟩ := List.mem_map.mp hek
        exact hce ▸ hd c hc

/-- A dictionary stays well keyed when an entry is set. -/
theorem WellKeyed.setEntry (h : (dict entries).WellKeyed) (hk : key.WellKeyed)
    (hv : value.WellKeyed) : (dict (setEntry entries key value)).WellKeyed := by
  cases h with
  | intro _ hd hp =>
    refine .intro _ (DistinctKeys.setEntry key value hd) fun p hpm => ?_
    rcases List.mem_append.mp hpm with hpm | hpm <;> obtain ⟨e, he, rfl⟩ := List.mem_map.mp hpm
    · rcases (mem_setEntry key value he).1 with h | h
      · exact h ▸ hk
      · exact hp _ (List.mem_append_left _ h)
    · rcases (mem_setEntry key value he).2 with h | h
      · exact h ▸ hv
      · exact hp _ (List.mem_append_right _ h)

end SetEntry

section SetAttr

variable {cls : ClassRef} {attrs : List (String × Value)} (name : String) {value : Value}

private theorem mem_setAttr {a : String × Value} (h : a ∈ setAttr attrs name value) :
    a.2 = value ∨ a.2 ∈ attrs.map Prod.snd := by
  induction attrs with
  | nil =>
    cases List.mem_singleton.mp h
    exact .inl rfl
  | cons b rest ih =>
    rw [setAttr] at h
    split at h <;> rcases List.mem_cons.mp h with rfl | h
    · exact .inl rfl
    · exact .inr (List.mem_cons_of_mem _ (List.mem_map_of_mem h))
    · exact .inr List.mem_cons_self
    · exact (ih h).imp_right (List.mem_cons_of_mem _)

/-- A record stays well keyed when an attribute is set. -/
theorem WellKeyed.setAttr (h : (record cls attrs).WellKeyed) (hv : value.WellKeyed) :
    (record cls (setAttr attrs name value)).WellKeyed := by
  cases h with
  | intro _ hd hp =>
    refine .intro _ (nodup_setAttr hd name value) fun p hpm => ?_
    obtain ⟨a, ha, rfl⟩ := List.mem_map.mp hpm
    rcases mem_setAttr name ha with h | h
    · exact h ▸ hv
    · exact hp _ h

end SetAttr

private theorem sizeOf_lt_of_mem_parts {p v : Value} (h : p ∈ v.parts) : sizeOf p < sizeOf v := by
  cases v with
  | list items label =>
    have := List.sizeOf_lt_of_mem (show p ∈ items from h)
    simp only [list.sizeOf_spec]
    omega
  | tuple items =>
    have := List.sizeOf_lt_of_mem (show p ∈ items from h)
    simp only [tuple.sizeOf_spec]
    omega
  | dict entries =>
    simp only [dict.sizeOf_spec]
    rcases List.mem_append.mp h with h | h
    · obtain ⟨⟨k, v⟩, he, rfl⟩ := List.mem_map.mp h
      have := List.sizeOf_lt_of_mem he
      simp only [Prod.mk.sizeOf_spec] at *
      omega
    · obtain ⟨⟨k, v⟩, he, rfl⟩ := List.mem_map.mp h
      have := List.sizeOf_lt_of_mem he
      simp only [Prod.mk.sizeOf_spec] at *
      omega
  | record cls attrs =>
    obtain ⟨⟨n, v⟩, ha, rfl⟩ := List.mem_map.mp h
    have := List.sizeOf_lt_of_mem ha
    simp only [record.sizeOf_spec, Prod.mk.sizeOf_spec] at *
    omega
  | _ => cases h

/-! ### What a value is equal to -/

section Inversion

variable {a b : Value}

private theorem eq_null_iff : eq .null b = true ↔ b = .null := by
  cases b <;> simp [eq, sameNumber, asInt?]

private theorem eq_str_iff {s : String} : eq (.str s) b = true ↔ b = .str s := by
  cases b <;> simp [eq, sameNumber, asInt?, @Eq.comm _ s]

private theorem eq_bytes_iff {bs : List UInt8} : eq (.bytes bs) b = true ↔ b = .bytes bs := by
  cases b <;> simp [eq, sameNumber, asInt?, @Eq.comm _ bs]

private theorem eq_date_iff {d : Calendar.Date} : eq (.date d) b = true ↔ b = .date d := by
  cases b <;> simp [eq, sameNumber, asInt?, @Eq.comm _ d]

private theorem eq_time_iff {t : Calendar.Time} : eq (.time t) b = true ↔ b = .time t := by
  cases b <;> simp [eq, sameNumber, asInt?, @Eq.comm _ t]

private theorem eq_dateTime_iff {d : Calendar.DateTime} :
    eq (.dateTime d) b = true ↔ ∃ e, b = .dateTime e ∧ d.same e = true := by
  cases b <;> simp [eq, sameNumber, asInt?]

private theorem eq_list_iff {as : List Value} {l : Option Nat} :
    eq (.list as l) b = true ↔ ∃ bs m, b = .list bs m ∧ eqItems as bs = true := by
  cases b <;> simp [eq, sameNumber, asInt?]

private theorem eq_tuple_iff {as : List Value} :
    eq (.tuple as) b = true ↔ ∃ bs, b = .tuple bs ∧ eqItems as bs = true := by
  cases b <;> simp [eq, sameNumber, asInt?]

private theorem eq_dict_iff {as : List (Value × Value)} :
    eq (.dict as) b = true ↔
      ∃ bs, b = .dict bs ∧ as.length = bs.length ∧ eqEntries as bs = true := by
  cases b <;> simp [eq, sameNumber, asInt?]

/-- Two records are one instance, or instances of one class with attributes alike if that is how
they are compared. -/
theorem eq_record_iff {r : InstanceRef} {as : List (String × Value)} :
    eq (.record r as) b = true ↔ ∃ bs, b = .record r bs ∧
      (r.structural = true ∧ as.length = bs.length ∧ eqAttrs as bs = true ∨
        r.structural = false ∧ r.identity.isSome = true) := by
  cases b with
  | record s bs =>
    cases hr : r.structural with
    | true =>
      simp only [eq, hr, if_true, Bool.and_eq_true, beq_iff_eq, record.injEq, true_and,
        Bool.true_eq_false, false_and, or_false]
      constructor
      · rintro ⟨⟨hc, hl⟩, he⟩
        exact ⟨bs, ⟨(InstanceRef.eq_of_structural hc hr).symm, rfl⟩, hl, he⟩
      · rintro ⟨bs, ⟨rfl, rfl⟩, hl, he⟩
        exact ⟨⟨rfl, hl⟩, he⟩
    | false =>
      simp only [eq, hr, Bool.false_eq_true, if_false, InstanceRef.same_iff, record.injEq,
        false_and, false_or, true_and]
      constructor
      · rintro ⟨rfl, hi⟩
        exact ⟨bs, ⟨rfl, rfl⟩, hi⟩
      · rintro ⟨bs, ⟨rfl, rfl⟩, hi⟩
        exact ⟨rfl, hi⟩
  | _ => simp [eq, sameNumber, asInt?]

private theorem eq_of_isOnLine_left (h : a.isOnLine = true) : eq a b = sameNumber a b := by
  rcases isOnLine_cases h with ⟨c, rfl⟩ | ⟨i, rfl⟩ | ⟨x, rfl⟩ <;> cases b <;> rfl

private theorem eq_of_isOnLine_right (h : b.isOnLine = true) : eq a b = sameNumber a b := by
  rcases isOnLine_cases h with ⟨c, rfl⟩ | ⟨i, rfl⟩ | ⟨x, rfl⟩ <;> cases a <;> rfl

private theorem isOnLine_of_number? {n : ExtendedRat} (h : a.number? = some n) :
    a.isOnLine = true := by
  cases a with
  | bool | int | float => rfl
  | _ => cases h

private theorem alike_iff : alike a b = true ↔ sameNaN a b = true ∨ eq a b = true := by
  rw [alike, Bool.or_eq_true]

/-- The same not-a-number is one value. -/
theorem sameNaN_eq (h : sameNaN a b = true) : a = b := by
  unfold sameNaN at h
  split at h
  · rw [beq_iff_eq.mp h]
  · cases h

end Inversion

/-! ### Containers whose parts are told apart -/

/-- Of the values of a sort, being alike is symmetric and transitive. -/
structure Coherent (P : Value → Prop) : Prop where
  symm {a b : Value} : P a → P b → alike a b = true → alike b a = true
  trans {a b c : Value} : P a → P b → P c → alike a b = true → alike b c = true → alike a c = true

/-- The entries have keys alike and values alike. -/
def AlikeEntries (a b : Value × Value) : Prop := alike a.1 b.1 = true ∧ alike a.2 b.2 = true

/-- The attributes have one name and values alike. -/
def AlikeAttrs (a b : String × Value) : Prop := a.1 = b.1 ∧ alike a.2 b.2 = true

/-- If every item of a list is matched by one of no more items, but no two by the same, then none of
these is left over. -/
theorem exists_match_of_length_le {α β : Type} {R : α → β → Prop} {as : List α} {bs : List β}
    (hl : bs.length ≤ as.length) (hd : as.Pairwise fun a a' => ∀ b ∈ bs, R a b → ¬ R a' b)
    (h : ∀ a ∈ as, ∃ b ∈ bs, R a b) : ∀ b ∈ bs, ∃ a ∈ as, R a b := by
  choose f hmem hmatch using h
  have hn : (as.pmap f fun _ ha => ha).Nodup := by
    refine (List.pairwise_pmap _).mpr (hd.imp fun {a a'} hne ha ha' he => ?_)
    exact hne _ (hmem a ha) (hmatch a ha) (he ▸ hmatch a' ha')
  have hs : as.pmap f (fun _ ha => ha) ⊆ bs := by
    intro b hb
    obtain ⟨a, ha, rfl⟩ := List.mem_pmap.mp hb
    exact hmem a ha
  -- The matches are all different, and there are as many as there can be.
  have hp := (List.subperm_of_subset hn hs).perm_of_length_le (by rwa [List.length_pmap])
  intro b hb
  obtain ⟨a, ha, rfl⟩ := List.mem_pmap.mp (hp.mem_iff.mpr hb)
  exact ⟨a, ha, hmatch a ha⟩

private theorem eqItems_iff {as bs : List Value} :
    eqItems as bs = true ↔ List.Forall₂ (fun a b => alike a b = true) as bs := by
  induction as generalizing bs with
  | nil => cases bs <;> simp [eqItems]
  | cons a as ih => cases bs <;> simp [eqItems, alike, ih]

private theorem eqEntry_eq_any (a : Value × Value) (bs : List (Value × Value)) :
    eqEntry a bs = (bs.find? fun b => alike a.1 b.1).any fun b => alike a.2 b.2 := by
  obtain ⟨k, v⟩ := a
  rw [eqEntry]
  change _ = (bs.find? fun b => sameNaN k b.1 || eq k b.1).any _
  cases bs.find? fun b => sameNaN k b.1 || eq k b.1 <;> rfl

private theorem eqEntries_eq_all (as bs : List (Value × Value)) :
    eqEntries as bs = as.all fun a => eqEntry a bs := by
  induction as with
  | nil => rfl
  | cons a as ih => rw [eqEntries, ih, List.all_cons]

/-- Records have like attributes if each attribute of the one has its like in the other. -/
theorem eqAttrs_iff {as bs : List (String × Value)} (hd : (bs.map Prod.fst).Nodup) :
    eqAttrs as bs = true ↔ ∀ a ∈ as, ∃ b ∈ bs, AlikeAttrs a b := by
  rw [eqAttrs_eq_all, List.all_eq_true]
  refine forall₂_congr fun a _ => ?_
  rw [eqAttr_eq_any, Option.any_eq_true]
  constructor
  · rintro ⟨v, hv, ha⟩
    exact ⟨_, mem_of_attr? hv, rfl, ha⟩
  · rintro ⟨⟨name, v⟩, hb, hn, ha⟩
    cases hn
    exact ⟨v, attr?_of_mem hd hb, ha⟩

namespace Coherent

variable {P : Value → Prop} (h : Coherent P)
include h

section Entries

variable {as bs cs : List (Value × Value)} (ha : ∀ e ∈ as, P e.1 ∧ P e.2)
  (hb : ∀ e ∈ bs, P e.1 ∧ P e.2) (hc : ∀ e ∈ cs, P e.1 ∧ P e.2)

include ha in
/-- Of entries with distinct keys, those with keys alike are one. -/
theorem entry_eq (hd : DistinctKeys as) {a b : Value × Value} (ham : a ∈ as) (hbm : b ∈ as)
    (hk : alike a.1 b.1 = true) : a = b := by
  have hl : as.Pairwise fun a b => alike a.1 b.1 = true → a = b :=
    hd.imp fun hn hab => Bool.noConfusion (hn.symm.trans hab)
  have hr : as.Pairwise fun a b => alike b.1 a.1 = true → b = a :=
    hd.imp_of_mem fun ham hbm hn hba =>
      Bool.noConfusion (hn.symm.trans (h.symm (ha _ hbm).1 (ha _ ham).1 hba))
  exact hl.forall_of_forall_of_flip (fun _ _ _ => rfl) hr ham hbm hk

include hb in
/-- A dictionary has the like of an entry if one of its entries is alike. -/
theorem eqEntry_iff (hd : DistinctKeys bs) {a : Value × Value} (ha : P a.1) :
    eqEntry a bs = true ↔ ∃ b ∈ bs, AlikeEntries a b := by
  rw [eqEntry_eq_any]
  cases hf : bs.find? fun b => alike a.1 b.1 with
  | none =>
    refine iff_of_false Bool.false_ne_true ?_
    rintro ⟨b, hbm, hk, -⟩
    exact List.find?_eq_none.mp hf b hbm hk
  | some b =>
    have hbm := List.mem_of_find?_eq_some hf
    have hk : alike a.1 b.1 = true := by simpa using List.find?_some hf
    constructor
    · exact fun hv => ⟨b, hbm, hk, hv⟩
    · rintro ⟨c, hcm, hkc, hvc⟩
      -- What is found has a key alike to that of the entry at hand, and so it is that entry.
      have hbc := h.trans (hb b hbm).1 ha (hb c hcm).1 (h.symm ha (hb b hbm).1 hk) hkc
      rw [h.entry_eq hb hd hbm hcm hbc]
      exact hvc

include ha hb in
/-- Dictionaries have like entries if each entry of the one has its like in the other. -/
theorem eqEntries_iff (hd : DistinctKeys bs) :
    eqEntries as bs = true ↔ ∀ a ∈ as, ∃ b ∈ bs, AlikeEntries a b := by
  rw [eqEntries_eq_all, List.all_eq_true]
  exact forall₂_congr fun a ham => h.eqEntry_iff hb hd (ha a ham).1

include ha hb in
/-- Of as many entries with distinct keys, those of either one have their like in the other. -/
theorem eqEntries_symm (hda : DistinctKeys as) (hdb : DistinctKeys bs)
    (hl : as.length = bs.length) (he : eqEntries as bs = true) : eqEntries bs as = true := by
  rw [h.eqEntries_iff ha hb hdb] at he
  rw [h.eqEntries_iff hb ha hda]
  have hd : as.Pairwise fun a a' => ∀ b ∈ bs, AlikeEntries a b → ¬ AlikeEntries a' b := by
    refine hda.imp_of_mem fun {a a'} ham ham' hn b hbm hab hab' => ?_
    have hba := h.symm (ha a' ham').1 (hb b hbm).1 hab'.1
    exact Bool.noConfusion
      (hn.symm.trans (h.trans (ha a ham).1 (hb b hbm).1 (ha a' ham').1 hab.1 hba))
  intro b hbm
  obtain ⟨a, ham, hk, hv⟩ := exists_match_of_length_le hl.ge hd he b hbm
  exact ⟨a, ham, h.symm (ha a ham).1 (hb b hbm).1 hk, h.symm (ha a ham).2 (hb b hbm).2 hv⟩

include ha hb hc in
private theorem eqEntries_trans (hdb : DistinctKeys bs) (hdc : DistinctKeys cs)
    (hab : eqEntries as bs = true) (hbc : eqEntries bs cs = true) : eqEntries as cs = true := by
  rw [h.eqEntries_iff ha hb hdb] at hab
  rw [h.eqEntries_iff hb hc hdc] at hbc
  rw [h.eqEntries_iff ha hc hdc]
  intro a ham
  obtain ⟨b, hbm, hkb, hvb⟩ := hab a ham
  obtain ⟨c, hcm, hkc, hvc⟩ := hbc b hbm
  exact ⟨c, hcm, h.trans (ha a ham).1 (hb b hbm).1 (hc c hcm).1 hkb hkc,
    h.trans (ha a ham).2 (hb b hbm).2 (hc c hcm).2 hvb hvc⟩

end Entries

section Attributes

variable {as bs cs : List (String × Value)} (ha : ∀ a ∈ as, P a.2) (hb : ∀ b ∈ bs, P b.2)
  (hc : ∀ c ∈ cs, P c.2)

include ha hb in
private theorem eqAttrs_symm (hda : (as.map Prod.fst).Nodup) (hdb : (bs.map Prod.fst).Nodup)
    (hl : as.length = bs.length) (he : eqAttrs as bs = true) : eqAttrs bs as = true := by
  rw [eqAttrs_iff hdb] at he
  rw [eqAttrs_iff hda]
  have hd : as.Pairwise fun a a' => ∀ b ∈ bs, AlikeAttrs a b → ¬ AlikeAttrs a' b :=
    (List.pairwise_map.mp hda).imp fun hne _ _ hab hab' => hne (hab.1.trans hab'.1.symm)
  intro b hbm
  obtain ⟨a, ham, hn, hv⟩ := exists_match_of_length_le hl.ge hd he b hbm
  exact ⟨a, ham, hn.symm, h.symm (ha a ham) (hb b hbm) hv⟩

include ha hb hc in
private theorem eqAttrs_trans (hdb : (bs.map Prod.fst).Nodup) (hdc : (cs.map Prod.fst).Nodup)
    (hab : eqAttrs as bs = true) (hbc : eqAttrs bs cs = true) : eqAttrs as cs = true := by
  rw [eqAttrs_iff hdb] at hab
  rw [eqAttrs_iff hdc] at hbc ⊢
  intro a ham
  obtain ⟨b, hbm, hnb, hvb⟩ := hab a ham
  obtain ⟨c, hcm, hnc, hvc⟩ := hbc b hbm
  exact ⟨c, hcm, hnb.trans hnc, h.trans (ha a ham) (hb b hbm) (hc c hcm) hvb hvc⟩

end Attributes

section Items

variable {as bs cs : List Value} (ha : ∀ a ∈ as, P a) (hb : ∀ b ∈ bs, P b) (hc : ∀ c ∈ cs, P c)

include ha hb in
private theorem eqItems_symm (he : eqItems as bs = true) : eqItems bs as = true := by
  rw [eqItems_iff] at he ⊢
  induction he with
  | nil => exact .nil
  | cons hab _ ih =>
    obtain ⟨ha, has⟩ := List.forall_mem_cons.mp ha
    obtain ⟨hb, hbs⟩ := List.forall_mem_cons.mp hb
    exact .cons (h.symm ha hb hab) (ih has hbs)

include ha hb hc in
private theorem eqItems_trans (hab : eqItems as bs = true) (hbc : eqItems bs cs = true) :
    eqItems as cs = true := by
  rw [eqItems_iff] at hab hbc ⊢
  induction hab generalizing cs with
  | nil => exact hbc
  | cons hab _ ih =>
    cases hbc with
    | cons hbc hs =>
      obtain ⟨ha, has⟩ := List.forall_mem_cons.mp ha
      obtain ⟨hb, hbs⟩ := List.forall_mem_cons.mp hb
      obtain ⟨hc, hcs⟩ := List.forall_mem_cons.mp hc
      exact .cons (h.trans ha hb hc hab hbc) (ih has hbs hcs hs)

end Items

end Coherent

/-! ### Values over coherent parts -/

/-- A value has distinct keys and names, and is made of values of a sort. -/
structure MadeOf (P : Value → Prop) (v : Value) : Prop where
  distinct : v.Distinct
  parts {p : Value} : p ∈ v.parts → P p

/-- The keys and values of a dictionary are what it is made of. -/
theorem MadeOf.entries {P : Value → Prop} {entries : List (Value × Value)}
    (h : MadeOf P (.dict entries)) : ∀ e ∈ entries, P e.1 ∧ P e.2 := fun _ he =>
  ⟨h.parts (List.mem_append_left _ (List.mem_map_of_mem he)),
    h.parts (List.mem_append_right _ (List.mem_map_of_mem he))⟩

/-- The attributes of a record are what it is made of. -/
theorem MadeOf.attrs {P : Value → Prop} {cls : InstanceRef} {attrs : List (String × Value)}
    (h : MadeOf P (.record cls attrs)) : ∀ a ∈ attrs, P a.2 := fun _ ha =>
  h.parts (List.mem_map_of_mem ha)

namespace Coherent

variable {P : Value → Prop} (h : Coherent P) {a b c : Value}
include h

private theorem eq_symm (ha : MadeOf P a) (hb : MadeOf P b) (he : eq a b = true) :
    eq b a = true := by
  cases a with
  | null => rw [eq_null_iff.mp he, eq_null_iff]
  | str s => rw [eq_str_iff.mp he, eq_str_iff]
  | bytes bs => rw [eq_bytes_iff.mp he, eq_bytes_iff]
  | date d => rw [eq_date_iff.mp he, eq_date_iff]
  | time t => rw [eq_time_iff.mp he, eq_time_iff]
  | dateTime d =>
    obtain ⟨e, rfl, hs⟩ := eq_dateTime_iff.mp he
    refine eq_dateTime_iff.mpr ⟨d, rfl, ?_⟩
    simpa only [Calendar.DateTime.same, Bool.and_eq_true, beq_iff_eq, @Eq.comm _ d.instant,
      @Eq.comm _ d.offset.isSome] using hs
  | list as l =>
    obtain ⟨bs, m, rfl, hs⟩ := eq_list_iff.mp he
    exact eq_list_iff.mpr ⟨as, l, rfl,
      h.eqItems_symm (fun _ => ha.parts) (fun _ => hb.parts) hs⟩
  | tuple as =>
    obtain ⟨bs, rfl, hs⟩ := eq_tuple_iff.mp he
    exact eq_tuple_iff.mpr ⟨as, rfl,
      h.eqItems_symm (fun _ => ha.parts) (fun _ => hb.parts) hs⟩
  | dict as =>
    obtain ⟨bs, rfl, hl, hs⟩ := eq_dict_iff.mp he
    exact eq_dict_iff.mpr ⟨as, rfl, hl.symm,
      h.eqEntries_symm ha.entries hb.entries ha.distinct hb.distinct hl hs⟩
  | record cls as =>
    obtain ⟨bs, rfl, ⟨hc, hl, hs⟩ | hi⟩ := eq_record_iff.mp he
    · exact eq_record_iff.mpr ⟨as, rfl, .inl ⟨hc, hl.symm,
        h.eqAttrs_symm ha.attrs hb.attrs ha.distinct hb.distinct hl hs⟩⟩
    · exact eq_record_iff.mpr ⟨as, rfl, .inr hi⟩
  | bool | int | float =>
    rw [eq_of_isOnLine_left rfl] at he
    rw [eq_of_isOnLine_right rfl]
    obtain ⟨n, hn, hm⟩ := sameNumber_iff.mp he
    exact sameNumber_iff.mpr ⟨n, hm, hn⟩

private theorem eq_trans (ha : MadeOf P a) (hb : MadeOf P b) (hc : MadeOf P c) (hab : eq a b = true)
    (hbc : eq b c = true) : eq a c = true := by
  cases a with
  | null => rwa [eq_null_iff.mp hab] at hbc
  | str s => rwa [eq_str_iff.mp hab] at hbc
  | bytes bs => rwa [eq_bytes_iff.mp hab] at hbc
  | date d => rwa [eq_date_iff.mp hab] at hbc
  | time t => rwa [eq_time_iff.mp hab] at hbc
  | dateTime d =>
    obtain ⟨e, rfl, hs⟩ := eq_dateTime_iff.mp hab
    obtain ⟨f, rfl, ht⟩ := eq_dateTime_iff.mp hbc
    refine eq_dateTime_iff.mpr ⟨f, rfl, ?_⟩
    simp only [Calendar.DateTime.same, Bool.and_eq_true, beq_iff_eq] at hs ht ⊢
    exact ⟨hs.1.trans ht.1, hs.2.trans ht.2⟩
  | list as l =>
    obtain ⟨bs, _, rfl, hs⟩ := eq_list_iff.mp hab
    obtain ⟨cs, m, rfl, ht⟩ := eq_list_iff.mp hbc
    exact eq_list_iff.mpr ⟨cs, m, rfl,
      h.eqItems_trans (fun _ => ha.parts) (fun _ => hb.parts) (fun _ => hc.parts) hs ht⟩
  | tuple as =>
    obtain ⟨bs, rfl, hs⟩ := eq_tuple_iff.mp hab
    obtain ⟨cs, rfl, ht⟩ := eq_tuple_iff.mp hbc
    exact eq_tuple_iff.mpr ⟨cs, rfl,
      h.eqItems_trans (fun _ => ha.parts) (fun _ => hb.parts) (fun _ => hc.parts) hs ht⟩
  | dict as =>
    obtain ⟨bs, rfl, hl, hs⟩ := eq_dict_iff.mp hab
    obtain ⟨cs, rfl, hm, ht⟩ := eq_dict_iff.mp hbc
    exact eq_dict_iff.mpr ⟨cs, rfl, hl.trans hm,
      h.eqEntries_trans ha.entries hb.entries hc.entries hb.distinct hc.distinct hs ht⟩
  | record cls as =>
    obtain ⟨bs, rfl, ⟨hcls, hl, hs⟩ | hi⟩ := eq_record_iff.mp hab
    · obtain ⟨cs, rfl, ⟨-, hm, ht⟩ | hi⟩ := eq_record_iff.mp hbc
      · exact eq_record_iff.mpr ⟨cs, rfl, .inl ⟨hcls, hl.trans hm,
          h.eqAttrs_trans ha.attrs hb.attrs hc.attrs hb.distinct hc.distinct hs ht⟩⟩
      · exact eq_record_iff.mpr ⟨cs, rfl, .inr hi⟩
    · obtain ⟨cs, rfl, -⟩ := eq_record_iff.mp hbc
      exact eq_record_iff.mpr ⟨cs, rfl, .inr hi⟩
  | bool | int | float =>
    rw [eq_of_isOnLine_left rfl] at hab ⊢
    obtain ⟨n, hn, hm⟩ := sameNumber_iff.mp hab
    rw [eq_of_isOnLine_left (isOnLine_of_number? hm)] at hbc
    obtain ⟨k, hk, hl⟩ := sameNumber_iff.mp hbc
    cases hm.symm.trans hk
    exact sameNumber_iff.mpr ⟨n, hn, hl⟩

/-- What is made of coherent values with distinct keys and names is coherent. -/
theorem madeOf : Coherent (MadeOf P) where
  symm {a b} ha hb hab := by
    rw [alike_iff] at hab ⊢
    rcases hab with hab | hab
    · exact .inl (sameNaN_eq hab ▸ hab)
    · exact .inr (h.eq_symm ha hb hab)
  trans {a b c} ha hb hc hab hbc := by
    rw [alike_iff] at hab hbc ⊢
    rcases hab with hab | hab
    · exact sameNaN_eq hab ▸ hbc
    · rcases hbc with hbc | hbc
      · exact .inr (sameNaN_eq hbc ▸ hab)
      · exact .inr (h.eq_trans ha hb hc hab hbc)

end Coherent

/-! ### All well-keyed values -/

/-- Well-keyed values up to any size are coherent: each step of the induction goes from the parts of
values to the values. -/
theorem coherent_wellKeyed_lt (n : Nat) : Coherent fun v => v.WellKeyed ∧ sizeOf v < n := by
  induction n with
  | zero =>
    exact ⟨fun ha => absurd ha.2 (Nat.not_lt_zero _), fun ha => absurd ha.2 (Nat.not_lt_zero _)⟩
  | succ n ih =>
    have hmade : ∀ v : Value, v.WellKeyed ∧ sizeOf v < n + 1 →
        MadeOf (fun p => p.WellKeyed ∧ sizeOf p < n) v := by
      rintro v ⟨⟨_, hd, hp⟩, hn⟩
      exact ⟨hd, fun hm => ⟨hp _ hm,
        Nat.lt_of_lt_of_le (sizeOf_lt_of_mem_parts hm) (Nat.lt_succ_iff.mp hn)⟩⟩
    have hc := ih.madeOf
    exact ⟨fun ha hb => hc.symm (hmade _ ha) (hmade _ hb),
      fun ha hb hc' => hc.trans (hmade _ ha) (hmade _ hb) (hmade _ hc')⟩

/-- Being alike is symmetric and transitive. -/
theorem coherent_wellKeyed : Coherent WellKeyed where
  symm {a b} ha hb :=
    (coherent_wellKeyed_lt (sizeOf a + sizeOf b + 1)).symm ⟨ha, by omega⟩ ⟨hb, by omega⟩
  trans {a b c} ha hb hc :=
    (coherent_wellKeyed_lt (sizeOf a + sizeOf b + sizeOf c + 1)).trans ⟨ha, by omega⟩
      ⟨hb, by omega⟩ ⟨hc, by omega⟩

private theorem WellKeyed.madeOf {v : Value} (h : v.WellKeyed) : MadeOf WellKeyed v := by
  cases h with
  | intro _ hd hp => exact ⟨hd, fun hm => hp _ hm⟩

/-- Equality of well-keyed values does not depend on which one stands on the left. -/
theorem WellKeyed.eq_comm {a b : Value} (ha : a.WellKeyed) (hb : b.WellKeyed) :
    eq a b = eq b a := by
  rw [Bool.eq_iff_iff]
  exact ⟨coherent_wellKeyed.eq_symm ha.madeOf hb.madeOf,
    coherent_wellKeyed.eq_symm hb.madeOf ha.madeOf⟩

end Value

end SchemaBinding
