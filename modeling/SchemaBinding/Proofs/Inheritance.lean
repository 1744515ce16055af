import Mathlib.Data.List.Nodup
import SchemaBinding.Proofs.Compilation

/-!
# Inheritance

The order of a new class is merged from those of its bases. Nothing is lost and nothing added: the
merge holds the classes of all the orders and no others. So a table that is built class by class is
closed: whatever a class inherits from is in the table, and what that inherits from in turn is in
the order of the class.
-/

namespace SchemaBinding

namespace ClassTable

variable {t : ClassTable} {c k : ClassRef}

/-! ### Merging orders -/

/-- How many classes lists hold together. -/
def total (lists : List (List ClassRef)) : Nat := lists.foldr (fun l n => l.length + n) 0

private theorem exists_of_nextClass? {lists : List (List ClassRef)}
    (h : nextClass? lists = some c) :
    ∃ l ∈ lists, l.head? = some c := by
  obtain ⟨l, hl, hf⟩ := List.exists_of_findSome?_eq_some h
  exact ⟨l, hl, (Option.filter_eq_some_iff.mp hf).1⟩

private theorem mem_dropFront_iff {lists : List (List ClassRef)} {l : List ClassRef} :
    l ∈ dropFront c lists ↔
      l ≠ [] ∧ ∃ m ∈ lists, (if m.head? == some c then m.tail else m) = l := by
  simp [dropFront, and_comm]

/-- Dropping a class from the fronts leaves all others. -/
theorem exists_mem_dropFront_iff {lists : List (List ClassRef)} (hk : k ≠ c) :
    (∃ l ∈ dropFront c lists, k ∈ l) ↔ ∃ l ∈ lists, k ∈ l := by
  constructor
  · rintro ⟨l, hl, hkl⟩
    obtain ⟨-, m, hm, rfl⟩ := mem_dropFront_iff.mp hl
    split at hkl
    · exact ⟨m, hm, List.mem_of_mem_tail hkl⟩
    · exact ⟨m, hm, hkl⟩
  · rintro ⟨m, hm, hkm⟩
    have hkd : k ∈ (if m.head? == some c then m.tail else m) := by
      split
      · next hh =>
        cases m with
        | nil => cases hkm
        | cons d m =>
          have hd : d = c := by simpa using hh
          rcases List.mem_cons.mp hkm with rfl | hkm
          · exact absurd hd hk
          · exact hkm
      · exact hkm
    exact ⟨_, mem_dropFront_iff.mpr ⟨List.ne_nil_of_mem hkd, m, hm, rfl⟩, hkd⟩

/-- A list with a class at its front is one class shorter without it; any other stays. -/
theorem total_dropFront_cons (c : ClassRef) (l : List ClassRef) (lists : List (List ClassRef)) :
    total (dropFront c (l :: lists)) + (if l.head? = some c then 1 else 0) =
      l.length + total (dropFront c lists) := by
  have hd : total (dropFront c (l :: lists)) =
      (if l.head? == some c then l.tail else l).length + total (dropFront c lists) := by
    rw [dropFront, List.map_cons, List.filter_cons, ← dropFront]
    generalize (if l.head? == some c then l.tail else l) = left
    cases left with
    | nil => simp
    | cons d left => rfl
  rw [hd]
  cases l with
  | nil => simp
  | cons d l =>
    by_cases hc : d = c
    · simp only [List.head?_cons, hc, beq_self_eq_true, if_true, List.tail_cons, List.length_cons]
      omega
    · simp [hc]

private theorem total_dropFront_le (c : ClassRef) (lists : List (List ClassRef)) :
    total (dropFront c lists) ≤ total lists := by
  induction lists with
  | nil => exact Nat.le_refl 0
  | cons l lists ih =>
    have hc := total_dropFront_cons c l lists
    have ht : total (l :: lists) = l.length + total lists := rfl
    omega

/-- There are fewer classes once one has been dropped from the front of a list. -/
theorem total_dropFront_lt {lists : List (List ClassRef)} {l : List ClassRef} (hl : l ∈ lists)
    (hc : l.head? = some c) : total (dropFront c lists) < total lists := by
  induction lists with
  | nil => cases hl
  | cons m lists ih =>
    have hm := total_dropFront_cons c m lists
    have hle := total_dropFront_le c lists
    have ht : total (m :: lists) = m.length + total lists := rfl
    rcases List.mem_cons.mp hl with rfl | hl
    · rw [if_pos hc] at hm
      omega
    · have hlt := ih hl
      omega

private theorem eq_nil_of_total_eq_zero {lists : List (List ClassRef)} (hn : ∀ l ∈ lists, l ≠ [])
    (h : total lists = 0) : lists = [] := by
  cases lists with
  | nil => rfl
  | cons l lists =>
    have hl := List.length_pos_iff.mpr (hn l (List.mem_cons_self ..))
    have ht : total (l :: lists) = l.length + total lists := rfl
    omega

/-- A merge holds the classes of all the lists and no others. -/
theorem mem_merge_iff {fuel : Nat} {lists : List (List ClassRef)} {merged : List ClassRef}
    (hn : ∀ l ∈ lists, l ≠ []) (hf : total lists ≤ fuel) (h : merge fuel lists = .ok merged) :
    k ∈ merged ↔ ∃ l ∈ lists, k ∈ l := by
  induction fuel generalizing lists merged with
  | zero =>
    have hl := eq_nil_of_total_eq_zero hn (by omega)
    cases h
    simp [hl]
  | succ fuel ih =>
    by_cases hl : lists = []
    · subst hl
      cases h
      simp
    · rw [merge] at h
      · cases hc : nextClass? lists with
        | none =>
          rw [hc] at h
          cases h
        | some c =>
          rw [hc] at h
          obtain ⟨l, hl, hlc⟩ := exists_of_nextClass? hc
          have hlt := total_dropFront_lt hl hlc
          have hne : ∀ m ∈ dropFront c lists, m ≠ [] := fun m hm => (mem_dropFront_iff.mp hm).1
          obtain ⟨rest, hr, rfl⟩ := map_eq_ok_iff.mp h
          rw [List.mem_cons, ih hne (by omega) hr]
          by_cases hk : k = c
          · subst hk
            have hkl : k ∈ l := List.mem_of_head? hlc
            exact ⟨fun _ => ⟨l, hl, hkl⟩, fun _ => .inl rfl⟩
          · rw [exists_mem_dropFront_iff hk]
            simp [hk]
      · exact hl

/-- What a new class inherits from: its bases and what they inherit from, and nothing else. -/
theorem mem_mergeBases_iff {bases inherited : List ClassRef}
    (h : t.mergeBases bases = .ok inherited) :
    k ∈ inherited ↔ k ∈ bases ∨ ∃ b ∈ bases, k ∈ t.order b := by
  have hm := mem_merge_iff (k := k) (fun l hl => by simpa using (List.mem_filter.mp hl).2)
    (Nat.le_refl _) h
  rw [hm]
  constructor
  · rintro ⟨l, hl, hk⟩
    rcases List.mem_append.mp (List.mem_of_mem_filter hl) with hl | hl
    · obtain ⟨b, hb, rfl⟩ := List.mem_map.mp hl
      exact .inr ⟨b, hb, hk⟩
    · rw [List.mem_singleton.mp hl] at hk
      exact .inl hk
  · rintro (hk | ⟨b, hb, hk⟩)
    · refine ⟨bases, List.mem_filter.mpr ⟨?_, by simpa using List.ne_nil_of_mem hk⟩, hk⟩
      exact List.mem_append_right _ (List.mem_singleton_self bases)
    · refine ⟨t.order b, List.mem_filter.mpr ⟨?_, by simpa using List.ne_nil_of_mem hk⟩, hk⟩
      exact List.mem_append_left _ (List.mem_map_of_mem hb)

/-! ### Tables that are built class by class -/

/-- A class is in the table. -/
def Has (t : ClassTable) (c : ClassRef) : Prop := ∃ info ∈ t, info.ref = c

/-- What a table says of one of the classes that exist from the start: it inherits from these
classes, was given no binder, and nothing stands in the place of a binder. -/
structure Roots (info : ClassInfo) (c : ClassRef) (order : List ClassRef) : Prop where
  ref : info.ref = c
  order : info.order = order
  binder : info.binder = none
  attributes : ∀ a ∈ info.attributes, a.1 ≠ binderName

/-- The name of the method that tells the binder of a class. -/
def binderMethod : String := "_binder"

/-- A class has the methods of the base of the schema classes. -/
def HasMethods (info : ClassInfo) : Prop :=
  ∀ name ∈ methods, (info.attributes.find? fun a => a.1 == name).map Prod.snd = some .method

/-- A table in which every class has the number of its place, comes first in its own order, and
inherits from classes of the table and from all that they inherit from. -/
structure Lawful (t : ClassTable) : Prop where
  /-- Classes are numbered by their places. -/
  ids : t.map (fun info => info.ref.id) = List.range t.length
  /-- A class comes first in its own order. -/
  head : ∀ info ∈ t, info.order.head? = some info.ref
  /-- What a class inherits from is in the table, with no more than the class inherits from. -/
  closed : ∀ info ∈ t, ∀ k ∈ info.order, ∃ other ∈ t, other.ref = k ∧ other.order ⊆ info.order
  /-- The root of all classes inherits from nothing. -/
  object : ∃ info ∈ t, Roots info .object [.object]
  /-- The base of the schema classes inherits from the root alone. -/
  schemaBase : ∃ info ∈ t, Roots info .schemaBase [.schemaBase, .object] ∧ HasMethods info
  /-- The instances of a schema class can be given attributes. -/
  attributed : ∀ info ∈ t, ClassRef.schemaBase ∈ info.order → info.hasAttributes = true

/-- The classes that exist from the start are lawful. -/
theorem lawful_initial : Lawful initial where
  ids := rfl
  head := by decide
  closed := by decide
  object := ⟨_, List.mem_cons_self .., rfl, rfl, rfl, by decide⟩
  schemaBase := ⟨_, List.mem_cons_of_mem _ (List.mem_cons_self ..), ⟨rfl, rfl, rfl, by decide⟩,
    by unfold HasMethods; decide⟩
  attributed := by decide

/-- Setting an attribute of a class to the absent value changes nothing of a table without it. -/
theorem setNull_of_forall_ne (hc : ∀ info ∈ t, info.ref ≠ c) (name : String) :
    t.setNull c name = t := by
  have hid : ∀ info ∈ t, info.putNull c name = id info := fun info hi =>
    info.putNull_of_ne c name (hc info hi)
  rw [setNull_eq_map, List.map_congr_left hid, List.map_id]

/-- A root of the classes stays one when a class gets an absent attribute, other than a binder. -/
private theorem Roots.putNull {info : ClassInfo} {d : ClassRef} {order : List ClassRef}
    (h : Roots info d order) {name : String} (hn : name ≠ binderName) :
    Roots (info.putNull c name) d order where
  ref := (info.ref_putNull c name).trans h.ref
  order := (info.order_putNull c name).trans h.order
  binder := (info.binder_putNull c name).trans h.binder
  attributes a ha := by
    rw [ClassInfo.putNull] at ha
    split at ha
    · rcases List.mem_append.mp ha with ha | ha
      · exact h.attributes a (List.mem_of_mem_filter ha)
      · rw [List.mem_singleton.mp ha]
        exact hn
    · exact h.attributes a ha

/-- A class keeps its methods when a class gets an absent attribute that is none of them. -/
private theorem HasMethods.putNull {info : ClassInfo} (h : HasMethods info) {name : String}
    (hn : info.ref = c → name ∉ methods) : HasMethods (info.putNull c name) := by
  intro method hm
  rw [info.find?_putNull c name method, if_neg fun ⟨hc, he⟩ => hn hc (he ▸ hm)]
  exact h method hm

namespace Lawful

variable (h : t.Lawful)

include h

/-- No class is twice in a lawful table. -/
theorem nodup_ref : (t.map ClassInfo.ref).Nodup := by
  have hids : ((t.map ClassInfo.ref).map ClassRef.id).Nodup := by
    rw [List.map_map]
    change (t.map fun info => info.ref.id).Nodup
    rw [h.ids]
    exact List.nodup_range
  exact hids.of_map _

/-- A class has one place in the table. -/
theorem eq_of_ref {info other : ClassInfo} (hi : info ∈ t) (ho : other ∈ t)
    (hr : info.ref = other.ref) : info = other :=
  List.inj_on_of_nodup_map h.nodup_ref hi ho hr

/-- What a table says of a class is what stands in it. -/
theorem info?_of_mem {info : ClassInfo} (hi : info ∈ t) : t.info? info.ref = some info := by
  cases hf : t.info? info.ref with
  | none =>
    have hn := List.find?_eq_none.mp hf info hi
    simp at hn
  | some other =>
    have hr : other.ref = info.ref := by simpa using List.find?_some hf
    rw [h.eq_of_ref (List.mem_of_find?_eq_some hf) hi hr]

/-- The order of a class is what stands in the table. -/
theorem order_of_mem {info : ClassInfo} (hi : info ∈ t) : t.order info.ref = info.order := by
  rw [order, h.info?_of_mem hi]
  rfl

/-- The table has the base of the schema classes, with its methods. -/
theorem info?_schemaBase : ∃ base, t.info? .schemaBase = some base ∧
    Roots base .schemaBase [.schemaBase, .object] ∧ HasMethods base := by
  obtain ⟨base, hb, hroots, hmethods⟩ := h.schemaBase
  refine ⟨base, ?_, hroots, hmethods⟩
  rw [← hroots.ref]
  exact h.info?_of_mem hb

/-- The table has the root of all classes. -/
theorem info?_object : ∃ root, t.info? .object = some root ∧ Roots root .object [.object] := by
  obtain ⟨root, hr, hroots⟩ := h.object
  refine ⟨root, ?_, hroots⟩
  rw [← hroots.ref]
  exact h.info?_of_mem hr

/-- The base of the schema classes inherits from the root alone. -/
theorem order_schemaBase : t.order .schemaBase = [.schemaBase, .object] := by
  obtain ⟨base, hb, hroots, -⟩ := h.info?_schemaBase
  rw [order, hb, Option.map_some, Option.getD_some, hroots.order]

/-- A class of the table is numbered by its place. -/
theorem id_lt (hc : t.Has c) : c.id < t.length := by
  obtain ⟨info, hi, rfl⟩ := hc
  have hm := List.mem_map_of_mem (f := fun info : ClassInfo => info.ref.id) hi
  rw [h.ids] at hm
  exact List.mem_range.mp hm

omit h in
/-- Only a class of the table inherits. -/
theorem has_of_mem_order (hk : k ∈ t.order c) : t.Has c := by
  rw [order] at hk
  cases hf : t.info? c with
  | none =>
    rw [hf] at hk
    cases hk
  | some info =>
    have hr : info.ref = c := by simpa using List.find?_some hf
    exact ⟨info, List.mem_of_find?_eq_some hf, hr⟩

/-- A class of the table comes first in its own order. -/
theorem order_eq_cons (hc : t.Has c) : t.order c = c :: (t.order c).tail := by
  obtain ⟨info, hi, rfl⟩ := hc
  rw [h.order_of_mem hi]
  have hh := h.head info hi
  cases ho : info.order with
  | nil =>
    rw [ho] at hh
    cases hh
  | cons d rest =>
    rw [ho] at hh
    cases hh
    rfl

/-- A class of the table is in its own order. -/
theorem mem_order_self (hc : t.Has c) : c ∈ t.order c := by
  rw [h.order_eq_cons hc]
  exact List.mem_cons_self ..

/-- A class inherits from classes of the table. -/
theorem has_of_mem (hk : k ∈ t.order c) : t.Has k := by
  obtain ⟨info, hi, rfl⟩ := has_of_mem_order hk
  rw [h.order_of_mem hi] at hk
  obtain ⟨other, ho, hr, -⟩ := h.closed info hi k hk
  exact ⟨other, ho, hr⟩

/-- A class inherits from what a class inherits from that it inherits from. -/
theorem order_subset (hk : k ∈ t.order c) : t.order k ⊆ t.order c := by
  obtain ⟨info, hi, rfl⟩ := has_of_mem_order hk
  rw [h.order_of_mem hi] at hk ⊢
  obtain ⟨other, ho, rfl, hs⟩ := h.closed info hi k hk
  rw [h.order_of_mem ho]
  exact hs

/-- The instances of a schema class can be given attributes. -/
theorem hasAttributes (hc : t.isSchemaClass c = true) : t.hasAttributes c = true := by
  have hmem : .schemaBase ∈ t.order c := List.contains_iff_mem.mp hc
  obtain ⟨info, hi, rfl⟩ := has_of_mem_order hmem
  rw [h.order_of_mem hi] at hmem
  rw [ClassTable.hasAttributes, h.info?_of_mem hi, Option.any_some, h.attributed info hi hmem]

/-- A table stays lawful when a class is added whose order is merged from those of its bases. -/
theorem append {bases inherited : List ClassRef} (hb : ∀ b ∈ bases, t.Has b)
    (hm : t.mergeBases bases = .ok inherited) {info : ClassInfo} (hid : info.ref.id = t.length)
    (ho : info.order = info.ref :: inherited) (ha : info.hasAttributes = true) :
    Lawful (t ++ [info]) := by
  have hsub : ∀ {x : ClassInfo}, x ∈ t → x ∈ t ++ [info] := List.mem_append_left _
  refine ⟨?_, ?_, ?_, ?_, ?_, ?_⟩
  · rw [List.map_append, h.ids, List.map_singleton, hid, List.length_append, List.length_singleton,
      List.range_succ]
  · intro x hx
    rcases List.mem_append.mp hx with hx | hx
    · exact h.head x hx
    · rw [List.mem_singleton.mp hx, ho]
      rfl
  · intro x hx k hk
    rcases List.mem_append.mp hx with hx | hx
    · obtain ⟨other, hother, hr, hs⟩ := h.closed x hx k hk
      exact ⟨other, hsub hother, hr, hs⟩
    · have hxi := List.mem_singleton.mp hx
      subst hxi
      rw [ho] at hk
      rcases List.mem_cons.mp hk with rfl | hk
      · exact ⟨x, List.mem_append_right t hx, rfl, fun _ => id⟩
      · have hk' : k ∈ bases ∨ ∃ b ∈ bases, k ∈ t.order b := (mem_mergeBases_iff hm).mp hk
        have hhas : t.Has k := by
          rcases hk' with hk | ⟨b, -, hk⟩
          · exact hb k hk
          · exact h.has_of_mem hk
        obtain ⟨other, hother, hr⟩ := hhas
        refine ⟨other, hsub hother, hr, fun y hy => ?_⟩
        rw [← h.order_of_mem hother, hr] at hy
        rw [ho]
        refine List.mem_cons_of_mem _ ((mem_mergeBases_iff hm).mpr (.inr ?_))
        rcases hk' with hk | ⟨b, hb, hk⟩
        · exact ⟨k, hk, hy⟩
        · exact ⟨b, hb, h.order_subset hk hy⟩
  · obtain ⟨x, hx, hr⟩ := h.object
    exact ⟨x, hsub hx, hr⟩
  · obtain ⟨x, hx, hr⟩ := h.schemaBase
    exact ⟨x, hsub hx, hr⟩
  · intro x hx hs
    rcases List.mem_append.mp hx with hx | hx
    · exact h.attributed x hx hs
    · rw [List.mem_singleton.mp hx, ha]

/-- A table stays lawful when a class gets an absent attribute, other than a binder or, for the base
of the schema classes, a method. -/
theorem setNull {name : String} (hn : name ≠ binderName)
    (hb : c = .schemaBase → name ∉ methods) : Lawful (t.setNull c name) := by
  rw [setNull_eq_map]
  refine ⟨?_, ?_, ?_, ?_, ?_, ?_⟩
  · simp only [List.map_map, Function.comp_def, ClassInfo.ref_putNull, List.length_map]
    exact h.ids
  · intro x hx
    obtain ⟨i, hi, rfl⟩ := List.mem_map.mp hx
    rw [i.ref_putNull, i.order_putNull]
    exact h.head i hi
  · intro x hx k hk
    obtain ⟨i, hi, rfl⟩ := List.mem_map.mp hx
    rw [i.order_putNull] at hk ⊢
    obtain ⟨other, ho, hr, hs⟩ := h.closed i hi k hk
    refine ⟨_, List.mem_map_of_mem ho, (other.ref_putNull c name).trans hr, ?_⟩
    rw [other.order_putNull]
    exact hs
  · obtain ⟨x, hx, hr⟩ := h.object
    exact ⟨_, List.mem_map_of_mem hx, hr.putNull hn⟩
  · obtain ⟨x, hx, hr, ht⟩ := h.schemaBase
    exact ⟨_, List.mem_map_of_mem hx, hr.putNull hn,
      ht.putNull fun hc => hb (hc.symm.trans hr.ref)⟩
  · intro x hx hs
    obtain ⟨i, hi, rfl⟩ := List.mem_map.mp hx
    rw [i.order_putNull] at hs
    rw [i.hasAttributes_putNull]
    exact h.attributed i hi hs

end Lawful

end ClassTable

end SchemaBinding
