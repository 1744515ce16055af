import SchemaBinding.Proofs.BindProjection
import SchemaBinding.Proofs.CopiedValues
import SchemaBinding.Proofs.GroundedSessions
import SchemaBinding.Proofs.RelatedPayloads

/-!
# Defaults are input

Filling a payload puts the default of each field under its key, where the payload has nothing or
null, and fills the mappings that the payload has for nested schemas likewise. What is put there is
the default itself, while a bind hands out a deep copy of it (specification §3.1). Where every field
of a schema has a key of its own, and a copy of a default holds what the default holds, a payload is
bound as the filled one is: a default goes the way of what a payload holds. The copy of an instance
that equals only itself is no member of a union that the instance is a member of.
-/

namespace SchemaBinding

namespace Binding

/-- The default of a field itself, null without one. -/
def defaultOf (plan : FieldPlan) : Value := plan.requirement.default?.getD .null

/-- A value, or the default of a field in the place of null. -/
def orDefault (plan : FieldPlan) : Value → Value
  | .null => defaultOf plan
  | v => v

/-- The field that is read under a key. -/
def readUnder? (plans : List FieldPlan) : Value → Option FieldPlan
  | .str key => plans.find? fun plan => plan.sourceKey == key
  | _ => none

/-- The default of a field under its key, if there is nothing under it yet. -/
def absentDefault? (entries : List (Value × Value)) (plan : FieldPlan) : Option (Value × Value) :=
  match Value.lookup? plan.sourceKey entries, defaultOf plan with
  | some _, _ => none
  | none, .null => none
  | none, v => some (.str plan.sourceKey, v)

/-- What is handed out for a default holds what the default holds, if all instances in it are
compared by their attributes. -/
theorem defaultCopy_of_structural {plan : FieldPlan} (h : (defaultOf plan).Structural) :
    defaultCopy plan = (defaultOf plan).unlabelled := by
  unfold defaultCopy
  unfold defaultOf at h ⊢
  cases hd : plan.requirement.default? with
  | none => rfl
  | some d =>
    rw [hd] at h
    exact h.copied

private theorem named_defaultOf {plan : FieldPlan} (h : plan.requirement.Named) :
    (defaultOf plan).Named := by
  unfold defaultOf
  cases hr : plan.requirement with
  | defaulted v => exact h v hr
  | _ => exact .null

end Binding

namespace World

open Binding

mutual

/-- A value filled as one of a kind: a mapping for a nested schema, or each in an array of them.
Other values are left as they are. -/
def fillAs (w : World) (binder : Nat) (kind : Option ValueKind) (v : Value) : Value :=
  match v with
  | .dict entries =>
    match kind with
    | some (.scalar (.schema c)) =>
      let plans := w.dumpPlans (w.nestedBinder binder c) c
      .dict (fillEntries w (w.nestedBinder binder c) plans entries ++
        plans.filterMap (absentDefault? entries))
    | _ => .dict entries
  | .list items label =>
    match kind with
    | some (.array (some (.schema c))) =>
      .list (fillItems w binder (some (.scalar (.schema c))) items) none
    | _ => .list items label
  | .tuple items =>
    match kind with
    | some (.array (some (.schema c))) =>
      .tuple (fillItems w binder (some (.scalar (.schema c))) items)
    | _ => .tuple items
  | v => v
termination_by structural v

/-- Values filled one by one as those of a kind. -/
def fillItems (w : World) (binder : Nat) (kind : Option ValueKind) (vs : List Value) :
    List Value :=
  match vs with
  | [] => []
  | v :: vs => fillAs w binder kind v :: fillItems w binder kind vs
termination_by structural vs

/-- Entries filled one by one. -/
def fillEntries (w : World) (binder : Nat) (plans : List FieldPlan) (es : List (Value × Value)) :
    List (Value × Value) :=
  match es with
  | [] => []
  | e :: es => fillEntry w binder plans e :: fillEntries w binder plans es
termination_by structural es

/-- An entry filled, if a field is read under its key: the default of the field takes the place of
null. -/
def fillEntry (w : World) (binder : Nat) (plans : List FieldPlan) (e : Value × Value) :
    Value × Value :=
  match e with
  | (k, v) =>
    match readUnder? plans k with
    | some plan => (k, orDefault plan (fillAs w binder plan.kind v))
    | none => (k, v)
termination_by structural e

end

/-- The entries of a payload filled for a schema, and after them the defaults for which it has no
entry. -/
def filled (w : World) (binder : Nat) (cls : ClassRef) (entries : List (Value × Value)) :
    List (Value × Value) :=
  entries.map (w.fillEntry binder (w.dumpPlans binder cls)) ++
    (w.dumpPlans binder cls).filterMap (absentDefault? entries)

/-- The payload of a bind with the defaults filled in. An absent payload counts as an empty one. -/
def fill (w : World) (binder : Nat) (cls : ClassRef) (data : Value) : Value :=
  match rootPayload data with
  | .dict entries => .dict (w.filled binder cls entries)
  | v => v

section Fill

variable (w : World) (binder : Nat)

private theorem fillItems_eq (kind : Option ValueKind) (vs : List Value) :
    w.fillItems binder kind vs = vs.map (w.fillAs binder kind) := by
  induction vs with
  | nil => rfl
  | cons v vs ih =>
    rw [List.map_cons, ← ih]
    rfl

private theorem fillEntries_eq (plans : List FieldPlan) (es : List (Value × Value)) :
    w.fillEntries binder plans es = es.map (w.fillEntry binder plans) := by
  induction es with
  | nil => rfl
  | cons e es ih =>
    rw [List.map_cons, ← ih]
    rfl

private theorem fillAs_schema (cls : ClassRef) (entries : List (Value × Value)) :
    w.fillAs binder (some (.scalar (.schema cls))) (.dict entries) =
      .dict (w.filled (w.nestedBinder binder cls) cls entries) := by
  rw [filled, ← fillEntries_eq]
  rfl

private theorem fillAs_list (cls : ClassRef) (items : List Value) (label : Option Nat) :
    w.fillAs binder (some (.array (some (.schema cls)))) (.list items label) =
      .list (items.map (w.fillAs binder (some (.scalar (.schema cls))))) none := by
  rw [← fillItems_eq]
  rfl

private theorem fillAs_tuple (cls : ClassRef) (items : List Value) :
    w.fillAs binder (some (.array (some (.schema cls)))) (.tuple items) =
      .tuple (items.map (w.fillAs binder (some (.scalar (.schema cls))))) := by
  rw [← fillItems_eq]
  rfl

section Unfilled

variable {w binder} {kind : Option ValueKind}

private theorem fillAs_dict_of_ne (h : ∀ c, kind ≠ some (.scalar (.schema c)))
    (entries : List (Value × Value)) : w.fillAs binder kind (.dict entries) = .dict entries := by
  rcases kind with _ | (scalar | element)
  · rfl
  · cases scalar with
    | schema c => exact absurd rfl (h c)
    | _ => rfl
  · rfl

private theorem fillAs_list_of_ne (h : ∀ c, kind ≠ some (.array (some (.schema c))))
    (items : List Value) (label : Option Nat) :
    w.fillAs binder kind (.list items label) = .list items label := by
  rcases kind with _ | (scalar | (_ | element))
  · rfl
  · rfl
  · rfl
  · cases element with
    | schema c => exact absurd rfl (h c)
    | _ => rfl

private theorem fillAs_tuple_of_ne (h : ∀ c, kind ≠ some (.array (some (.schema c))))
    (items : List Value) : w.fillAs binder kind (.tuple items) = .tuple items := by
  rcases kind with _ | (scalar | (_ | element))
  · rfl
  · rfl
  · rfl
  · cases element with
    | schema c => exact absurd rfl (h c)
    | _ => rfl

end Unfilled

/-- Only mappings for a nested schema and arrays of such are filled. -/
theorem fillAs_cases (kind : Option ValueKind) (v : Value) :
    w.fillAs binder kind v = v ∨
      (∃ c entries, kind = some (.scalar (.schema c)) ∧ v = .dict entries) ∨
      ∃ c items, kind = some (.array (some (.schema c))) ∧ arrayItems? v = some items := by
  by_cases hs : ∃ c, kind = some (.scalar (.schema c))
  · obtain ⟨c, rfl⟩ := hs
    cases v with
    | dict entries => exact .inr (.inl ⟨c, entries, rfl, rfl⟩)
    | _ => exact .inl rfl
  · by_cases ha : ∃ c, kind = some (.array (some (.schema c)))
    · obtain ⟨c, rfl⟩ := ha
      cases v with
      | list items label => exact .inr (.inr ⟨c, items, rfl, rfl⟩)
      | tuple items => exact .inr (.inr ⟨c, items, rfl, rfl⟩)
      | _ => exact .inl rfl
    · left
      cases v with
      | dict entries => exact fillAs_dict_of_ne (fun c h => hs ⟨c, h⟩) entries
      | list items label => exact fillAs_list_of_ne (fun c h => ha ⟨c, h⟩) items label
      | tuple items => exact fillAs_tuple_of_ne (fun c h => ha ⟨c, h⟩) items
      | _ => rfl

private theorem fillAs_eq_null_iff (kind : Option ValueKind) (v : Value) :
    w.fillAs binder kind v = .null ↔ v = .null := by
  rcases fillAs_cases w binder kind v with h | ⟨c, entries, rfl, rfl⟩ | ⟨c, items, rfl, hi⟩
  · rw [h]
  · simp [fillAs_schema]
  · cases v with
    | list items label => simp [fillAs_list]
    | tuple items => simp [fillAs_tuple]
    | _ => cases hi

/-! ### What a filled payload has under a key -/

section Keys

variable {plans : List FieldPlan} {plan : FieldPlan}

private theorem readUnder?_sourceKey (hk : (plans.map FieldPlan.sourceKey).Nodup)
    (hp : plan ∈ plans) :
    readUnder? plans (.str plan.sourceKey) = some plan := by
  cases hf : plans.find? fun p => p.sourceKey == plan.sourceKey with
  | none => exact absurd (beq_self_eq_true plan.sourceKey) (List.find?_eq_none.mp hf plan hp)
  | some p =>
    have hs := List.find?_some hf
    have he := List.inj_on_of_nodup_map hk (List.mem_of_find?_eq_some hf) hp (eq_of_beq hs)
    rw [readUnder?, hf, he]

private theorem fst_fillEntry (e : Value × Value) : (w.fillEntry binder plans e).1 = e.1 := by
  obtain ⟨k, v⟩ := e
  rw [fillEntry]
  split <;> rfl

private theorem lookup?_fillEntry (hk : (plans.map FieldPlan.sourceKey).Nodup) (hp : plan ∈ plans)
    (entries : List (Value × Value)) :
    Value.lookup? plan.sourceKey (entries.map (w.fillEntry binder plans)) =
      (Value.lookup? plan.sourceKey entries).map
        fun v => orDefault plan (w.fillAs binder plan.kind v) := by
  induction entries with
  | nil => rfl
  | cons e rest ih =>
    obtain ⟨k, v⟩ := e
    by_cases h : k = .str plan.sourceKey
    · subst h
      rw [List.map_cons, fillEntry, readUnder?_sourceKey hk hp]
      simp [Value.lookup?_cons_self]
    · have hf : w.fillEntry binder plans (k, v) = (k, (w.fillEntry binder plans (k, v)).2) :=
        Prod.ext (fst_fillEntry w binder _) rfl
      rw [List.map_cons, hf, Value.lookup?_cons_of_ne h, Value.lookup?_cons_of_ne h, ih]

private theorem absentDefault?_key {entries : List (Value × Value)} {e : Value × Value}
    (h : absentDefault? entries plan = some e) : e.1 = .str plan.sourceKey := by
  unfold absentDefault? at h
  split at h
  · cases h
  · cases h
  · cases h
    rfl

/-- A field finds its default among those of the fields for which a payload has nothing. -/
theorem given_absentDefaults (hk : (plans.map FieldPlan.sourceKey).Nodup) (hp : plan ∈ plans)
    {entries : List (Value × Value)} (h : Value.lookup? plan.sourceKey entries = none) :
    Value.given plan.sourceKey (plans.filterMap (absentDefault? entries)) = defaultOf plan := by
  induction plans with
  | nil => cases hp
  | cons p rest ih =>
    obtain ⟨hn, hk⟩ := List.nodup_cons.mp hk
    rcases List.mem_cons.mp hp with rfl | hp
    · have hrest :
        Value.lookup? plan.sourceKey (rest.filterMap (absentDefault? entries)) = none := by
        apply Value.lookup?_eq_none
        intro hm
        obtain ⟨e, he, hke⟩ := List.mem_map.mp hm
        obtain ⟨q, hq, hqe⟩ := List.mem_filterMap.mp he
        have hkey := hke.symm.trans (absentDefault?_key hqe)
        exact hn (List.mem_map.mpr ⟨q, hq, (Value.str.inj hkey).symm⟩)
      rw [List.filterMap_cons]
      cases hd : defaultOf plan with
      | null => simp [absentDefault?, h, hd, Value.given, hrest]
      | _ => simp [absentDefault?, h, hd, Value.given, Value.lookup?_cons_self]
    · have hne : Value.str p.sourceKey ≠ .str plan.sourceKey := by
        intro he
        exact hn (List.mem_map.mpr ⟨plan, hp, (Value.str.inj he).symm⟩)
      rw [List.filterMap_cons]
      cases ha : absentDefault? entries p with
      | none => exact ih hk hp
      | some e =>
        obtain ⟨k, v⟩ := e
        obtain rfl : k = .str p.sourceKey := absentDefault?_key ha
        rw [Value.given, Value.lookup?_cons_of_ne hne]
        exact ih hk hp

/-- Where every field has a key of its own, a filled payload has under it what the payload has,
filled, or the default. -/
theorem given_filled {cls : ClassRef} (hc : w.plansFor binder cls = .ok plans)
    (hk : (plans.map FieldPlan.sourceKey).Nodup) (hp : plan ∈ plans)
    (entries : List (Value × Value)) :
    Value.given plan.sourceKey (w.filled binder cls entries) =
      orDefault plan (w.fillAs binder plan.kind (Value.given plan.sourceKey entries)) := by
  have hd : w.dumpPlans binder cls = plans := by rw [dumpPlans, hc]; rfl
  rw [filled, hd, Value.given, Value.lookup?_append, lookup?_fillEntry w binder hk hp]
  cases h : Value.lookup? plan.sourceKey entries with
  | some v => simp [Value.given, h]
  | none => simpa [Value.given, h, fillAs, orDefault] using given_absentDefaults hk hp h

end Keys

/-! ### Filling and telling apart -/

/-- Telling apart the keys of a payload leaves the texts among them as they are. -/
theorem readUnder?_labelled (plans : List FieldPlan) (k : Value) (n : Supply) :
    readUnder? plans (k.labelled.run n).1 = readUnder? plans k := by
  by_cases h : ∃ key, k = .str key
  · obtain ⟨key, rfl⟩ := h
    rfl
  · have hnone : ∀ {u : Value}, (∀ key, u ≠ .str key) → readUnder? plans u = none := by
      intro u hu
      cases u with
      | str key => exact absurd rfl (hu key)
      | _ => rfl
    have hl : ∀ key, (k.labelled.run n).1 ≠ .str key := by
      intro key hk
      exact h ⟨key, (Value.labelled_eq_iff (.inr ⟨key, rfl⟩) k n).mp hk⟩
    rw [hnone hl, hnone fun key hk => h ⟨key, hk⟩]

private theorem lookup?_labelled_eq_none_iff (key : String) (entries : List (Value × Value))
    (n : Supply) :
    Value.lookup? key ((entries.mapM Value.labelledEntry).run n).1 = none ↔
      Value.lookup? key entries = none := by
  induction entries generalizing n with
  | nil => rfl
  | cons e rest ih =>
    obtain ⟨k, v⟩ := e
    have hk := Value.labelled_eq_iff (.inr ⟨key, rfl⟩) k n
    rw [Value.run_mapM_cons, Value.run_labelledEntry]
    by_cases he : k = .str key
    · rw [hk.mpr he, he, Value.lookup?_cons_self, Value.lookup?_cons_self]
      simp
    · rw [Value.lookup?_cons_of_ne (mt hk.mp he), Value.lookup?_cons_of_ne he, ih]

private theorem absentDefault?_labelled (entries : List (Value × Value)) (n : Supply) :
    absentDefault? ((entries.mapM Value.labelledEntry).run n).1 = absentDefault? entries := by
  funext plan
  have h := lookup?_labelled_eq_none_iff plan.sourceKey entries n
  unfold absentDefault?
  cases hl : Value.lookup? plan.sourceKey entries with
  | none => rw [h.mpr hl]
  | some v =>
    cases ht : Value.lookup? plan.sourceKey ((entries.mapM Value.labelledEntry).run n).1 with
    | none => rw [h.mp ht] at hl; cases hl
    | some u => rfl

/-- A value can be filled before it is told apart from others as well as after it: it takes the same
origins, and holds the same in the end. -/
def FillsTold (w : World) (v : Value) : Prop :=
  ∀ (binder : Nat) (kind : Option ValueKind) (n m : Supply), n.origin = m.origin →
    ((w.fillAs binder kind v).labelled.run n).1.unlabelled =
        (w.fillAs binder kind (v.labelled.run m).1).unlabelled ∧
      ((w.fillAs binder kind v).labelled.run n).2.origin = (v.labelled.run m).2.origin

variable {w}

private theorem orDefault_of_ne_null (plan : FieldPlan) {v : Value} (h : v ≠ .null) :
    orDefault plan v = v := by
  cases v with
  | null => exact absurd rfl h
  | _ => rfl

/-- A default is told apart like null in its place: it takes no origins. -/
theorem labelled_defaultOf {plan : FieldPlan} (h : plan.requirement.Named) (n : Supply) :
    ((defaultOf plan).labelled.run n).1.unlabelled = (defaultOf plan).unlabelled ∧
      ((defaultOf plan).labelled.run n).2.origin = n.origin := by
  have hn := named_defaultOf h
  exact ⟨((defaultOf plan).labelled_toldApart n).2 hn, hn.origin_labelled n⟩

private theorem fillsTold_fillEntry {plans : List FieldPlan}
    (hd : ∀ plan ∈ plans, plan.requirement.Named)
    {e : Value × Value} (h : w.FillsTold e.2) {n m : Supply} (ho : n.origin = m.origin) :
    Value.unlabelledEntry ((Value.labelledEntry (w.fillEntry binder plans e)).run n).1 =
        Value.unlabelledEntry (w.fillEntry binder plans ((Value.labelledEntry e).run m).1) ∧
      ((Value.labelledEntry (w.fillEntry binder plans e)).run n).2.origin =
        ((Value.labelledEntry e).run m).2.origin := by
  obtain ⟨k, v⟩ := e
  obtain ⟨hk, hko⟩ := Value.labelled_congr k ho
  simp only [Value.run_labelledEntry, fillEntry, readUnder?_labelled]
  cases hr : readUnder? plans k with
  | none =>
    obtain ⟨hv, hvo⟩ := Value.labelled_congr v hko
    exact ⟨Prod.ext hk hv, hvo⟩
  | some plan =>
    dsimp only
    by_cases hn : v = .null
    · subst hn
      have hp : plan ∈ plans := by
        cases k with
        | str key => exact List.mem_of_find?_eq_some hr
        | _ => cases hr
      obtain ⟨hv, hvo⟩ := labelled_defaultOf (hd plan hp) (k.labelled.run n).2
      exact ⟨Prod.ext hk hv, hvo.trans hko⟩
    · obtain ⟨hv, hvo⟩ := h binder plan.kind _ _ hko
      have hl : (v.labelled.run (k.labelled.run m).2).1 ≠ .null :=
        mt (Value.labelled_eq_iff (.inl rfl) v _).mp hn
      rw [orDefault_of_ne_null plan (mt (fillAs_eq_null_iff w binder _ _).mp hn),
        orDefault_of_ne_null plan (mt (fillAs_eq_null_iff w binder _ _).mp hl)]
      exact ⟨Prod.ext hk hv, hvo⟩

private theorem named_absentDefaults {plans : List FieldPlan}
    (hd : ∀ plan ∈ plans, plan.requirement.Named) (entries : List (Value × Value)) :
    (Value.dict (plans.filterMap (absentDefault? entries))).Named := by
  have h : ∀ e ∈ plans.filterMap (absentDefault? entries), e.1.Named ∧ e.2.Named := by
    intro e he
    obtain ⟨plan, hp, hpe⟩ := List.mem_filterMap.mp he
    have hn := named_defaultOf (hd plan hp)
    unfold absentDefault? at hpe
    split at hpe
    · cases hpe
    · cases hpe
    · cases hpe
      exact ⟨.str _, hn⟩
  exact .dict _ (fun e he => (h e he).1) fun e he => (h e he).2

/-- Entries can be filled before they are told apart as well as after it. -/
theorem labelled_filled {cls : ClassRef} (hd : ∀ plan ∈ w.dumpPlans binder cls,
      plan.requirement.Named) {entries : List (Value × Value)}
    (h : ∀ e ∈ entries, w.FillsTold e.2) {n m : Supply} (ho : n.origin = m.origin) :
    ((Value.dict (w.filled binder cls entries)).labelled.run n).1.unlabelled =
        (Value.dict
          (w.filled binder cls ((entries.mapM Value.labelledEntry).run m).1)).unlabelled ∧
      ((Value.dict (w.filled binder cls entries)).labelled.run n).2.origin =
        ((entries.mapM Value.labelledEntry).run m).2.origin := by
  obtain ⟨hpresent, hpo⟩ := Value.run_mapM_congr (f := Value.labelledEntry)
    (g := w.fillEntry binder (w.dumpPlans binder cls)) (c := Value.unlabelledEntry)
    (d := Value.unlabelledEntry ∘ w.fillEntry binder (w.dumpPlans binder cls))
    (fun e he _ _ ho => fillsTold_fillEntry binder hd (h e he) ho) ho
  obtain ⟨habsent, hao⟩ := (named_absentDefaults hd entries).run_labelledEntries
    (((entries.map (w.fillEntry binder (w.dumpPlans binder cls))).mapM
      Value.labelledEntry).run n).2
  rw [Value.labelled_dict]
  simp only [filled, Value.run_mapM_append, Value.unlabelled_dict, List.map_append,
    absentDefault?_labelled, List.map_map]
  rw [hpresent, habsent, hao, hpo]
  exact ⟨rfl, rfl⟩

private theorem named_dumpPlans (hw : w.Consistent) (binder : Nat) (cls : ClassRef) :
    ∀ plan ∈ w.dumpPlans binder cls, plan.requirement.Named := by
  unfold dumpPlans
  cases hp : w.plansFor binder cls with
  | error f => exact fun plan hm => absurd hm List.not_mem_nil
  | ok plans => exact (hw.named _).plans hp

/-- Items can be filled before they are told apart as well as after it. -/
theorem labelled_items {items : List Value} (h : ∀ v ∈ items, w.FillsTold v)
    (kind : Option ValueKind) {n m : Supply} (ho : n.origin = m.origin) :
    (((items.map (w.fillAs binder kind)).mapM Value.labelled).run n).1.map Value.unlabelled =
        (((items.mapM Value.labelled).run m).1.map (w.fillAs binder kind)).map Value.unlabelled ∧
      (((items.map (w.fillAs binder kind)).mapM Value.labelled).run n).2.origin =
        ((items.mapM Value.labelled).run m).2.origin := by
  rw [List.map_map]
  exact Value.run_mapM_congr (fun v hv n m ho => h v hv binder kind n m ho) ho

/-- What is left as it is before it is told apart, and after it. -/
theorem fillsTold_of_eq {v : Value} {kind : Option ValueKind} {n m : Supply}
    (hv : w.fillAs binder kind v = v)
    (hl : w.fillAs binder kind (v.labelled.run m).1 = (v.labelled.run m).1)
    (ho : n.origin = m.origin) :
    ((w.fillAs binder kind v).labelled.run n).1.unlabelled =
        (w.fillAs binder kind (v.labelled.run m).1).unlabelled ∧
      ((w.fillAs binder kind v).labelled.run n).2.origin = (v.labelled.run m).2.origin := by
  rw [hv, hl]
  exact Value.labelled_congr v ho

/-- Values can be filled before they are told apart as well as after it. -/
theorem fillsTold (hw : w.Consistent) (v : Value) : w.FillsTold v := by
  induction v with
  | dict entries ih =>
    intro binder kind n m ho
    by_cases hk : ∃ c, kind = some (.scalar (.schema c))
    · obtain ⟨c, rfl⟩ := hk
      rw [Value.labelled_dict, fillAs_schema, fillAs_schema]
      exact labelled_filled _ (named_dumpPlans hw _ _) (fun e he => (ih e he).2) ho
    · have hne : ∀ c, kind ≠ some (.scalar (.schema c)) := fun c h => hk ⟨c, h⟩
      apply fillsTold_of_eq binder (fillAs_dict_of_ne hne _) _ ho
      rw [Value.labelled_dict, fillAs_dict_of_ne hne]
  | list items label ih =>
    intro binder kind n m ho
    by_cases hk : ∃ c, kind = some (.array (some (.schema c)))
    · obtain ⟨c, rfl⟩ := hk
      obtain ⟨hi, hio⟩ := labelled_items binder ih (some (.scalar (.schema c))) ho
      rw [fillAs_list, Value.labelled_list, Value.labelled_list]
      cases label <;>
        simp only [fillAs_list, Value.unlabelled_list, hi, hio, and_self]
    · have hne : ∀ c, kind ≠ some (.array (some (.schema c))) := fun c h => hk ⟨c, h⟩
      apply fillsTold_of_eq binder (fillAs_list_of_ne hne _ _) _ ho
      rw [Value.labelled_list]
      cases label <;> exact fillAs_list_of_ne hne _ _
  | tuple items ih =>
    intro binder kind n m ho
    by_cases hk : ∃ c, kind = some (.array (some (.schema c)))
    · obtain ⟨c, rfl⟩ := hk
      obtain ⟨hi, hio⟩ := labelled_items binder ih (some (.scalar (.schema c))) ho
      rw [fillAs_tuple, Value.labelled_tuple, Value.labelled_tuple, fillAs_tuple]
      simp only [Value.unlabelled_tuple, hi, hio, and_self]
    · have hne : ∀ c, kind ≠ some (.array (some (.schema c))) := fun c h => hk ⟨c, h⟩
      apply fillsTold_of_eq binder (fillAs_tuple_of_ne hne _) _ ho
      rw [Value.labelled_tuple, fillAs_tuple_of_ne hne]
  | record cls attrs ih =>
    intro binder kind n m ho
    apply fillsTold_of_eq binder rfl _ ho
    rw [Value.labelled_record]
    rfl
  | float x =>
    intro binder kind n m ho
    apply fillsTold_of_eq binder rfl _ ho
    cases x with
    | nan origin => cases origin <;> rfl
    | _ => rfl
  | _ => exact fun binder kind n m ho => ⟨rfl, ho⟩

end Fill

/-- Every instance in a default of a schema, or of a schema nested in it, is compared by its
attributes. -/
def StructuralDefaults (w : World) : (binder : Nat) → ClassRef → Prop :=
  w.Throughout fun plans => ∀ plan ∈ plans, (defaultOf plan).Structural

/-- No two fields of a schema are read from one key, and a copy of a default holds what the default
holds; nor is it otherwise in a schema nested in it. -/
structure Fillable (w : World) (binder : Nat) (cls : ClassRef) : Prop where
  keyed : w.Keyed binder cls
  structural : w.StructuralDefaults binder cls

/-- If payloads of a schema can be filled, so can those of a schema nested in it. -/
theorem Fillable.nested {w : World} {binder : Nat} {cls nested : ClassRef} {plans : List FieldPlan}
    {plan : FieldPlan} {kind : ValueKind} (h : w.Fillable binder cls)
    (hc : w.plansFor binder cls = .ok plans) (hp : plan ∈ plans) (hk : plan.kind = some kind)
    (hs : kind.schema? = some nested) : w.Fillable (w.nestedBinder binder nested) nested :=
  ⟨h.keyed.nested hc hp hk hs, h.structural.nested hc hp hk hs⟩

/-- A payload of a schema that can be filled, and another that holds what the first holds once it is
filled. -/
def FilledFrom (w : World) (binder : Nat) (cls : ClassRef) (es fs : List (Value × Value)) : Prop :=
  w.Fillable binder cls ∧
    (Value.dict fs).unlabelled = (Value.dict (w.filled binder cls es)).unlabelled

end World

namespace Value

private theorem unlabelled_eq_dict {v : Value} {entries : List (Value × Value)}
    (h : v.unlabelled = .dict entries) : ∃ es, v = .dict es := by
  cases v with
  | dict es => exact ⟨es, rfl⟩
  | list items label => simp at h
  | tuple items => simp at h
  | record cls attrs => simp at h
  | _ => cases h

/-- Values that hold the same are arrays of items that hold the same. -/
theorem unlabelled_items {v u : Value} (h : v.unlabelled = u.unlabelled) {items : List Value}
    (hi : Binding.arrayItems? u = some items) :
    ∃ vs, Binding.arrayItems? v = some vs ∧ vs.map unlabelled = items.map unlabelled := by
  cases u with
  | list us l =>
    cases hi
    cases v with
    | list vs m => exact ⟨vs, rfl, by simpa using h⟩
    | tuple vs => simp at h
    | dict es => simp at h
    | record cls attrs => simp at h
    | _ => simp at h
  | tuple us =>
    cases hi
    cases v with
    | tuple vs => exact ⟨vs, rfl, by simpa using h⟩
    | list vs m => simp at h
    | dict es => simp at h
    | record cls attrs => simp at h
    | _ => simp at h
  | _ => cases hi

end Value

namespace Binding

open World

variable {w₀ : World} {E : Fault → Prop} {binder : Nat}

/-- A value of a kind that is no array, and what holds the filled value, are related. -/
theorem scalarLike_filled {kind : ScalarKind}
    (hk : ∀ c, kind = .schema c → w₀.Fillable (w₀.nestedBinder binder c) c) {x y : Value}
    (hx : x.Settled) (hy : y.Settled)
    (h : y.unlabelled = (w₀.fillAs binder (some (.scalar kind)) x).unlabelled) :
    ScalarLike Value.Alike (NestedRelated w₀ w₀.FilledFrom binder) kind x y := by
  rcases fillAs_cases w₀ binder (some (.scalar kind)) x with hf | ⟨c, es, hc, rfl⟩ |
    ⟨c, items, hc, _⟩
  · rw [hf] at h
    exact .alike (hx.alike hy h.symm)
  · obtain rfl : kind = .schema c := by simpa using hc
    rw [fillAs_schema] at h
    obtain ⟨fs, rfl⟩ := Value.unlabelled_eq_dict (h.trans (Value.unlabelled_dict _))
    exact .nested ⟨hx, hy, hk c rfl, h⟩
  · simp at hc

private theorem forall₂_filled {kind : ScalarKind}
    (hk : ∀ c, kind = .schema c → w₀.Fillable (w₀.nestedBinder binder c) c) {xs ys : List Value}
    (hx : ∀ x ∈ xs, x.Settled) (hy : ∀ y ∈ ys, y.Settled)
    (h : ys.map Value.unlabelled =
      (xs.map (w₀.fillAs binder (some (.scalar kind)))).map Value.unlabelled) :
    List.Forall₂ (ScalarLike Value.Alike (NestedRelated w₀ w₀.FilledFrom binder) kind) xs ys := by
  induction xs generalizing ys with
  | nil =>
    rw [List.map_eq_nil_iff.mp h]
    exact .nil
  | cons x xs ih =>
    obtain ⟨y, ys, rfl, hxy, hs⟩ := List.map_eq_cons_iff.mp h
    obtain ⟨hx, hxs⟩ := List.forall_mem_cons.mp hx
    obtain ⟨hy, hys⟩ := List.forall_mem_cons.mp hy
    exact .cons (scalarLike_filled hk hx hy hxy) (ih hxs hys hs)

/-- A value of a kind, and what holds the filled value, are related. -/
theorem rawLike_filled {kind : Option ValueKind}
    (hk : ∀ k c, kind = some k → k.schema? = some c → w₀.Fillable (w₀.nestedBinder binder c) c)
    {x y : Value} (hx : x.Settled) (hy : y.Settled)
    (h : y.unlabelled = (w₀.fillAs binder kind x).unlabelled) :
    RawLike Value.Alike (NestedRelated w₀ w₀.FilledFrom binder) kind x y := by
  have hnested : ∀ c k, ScalarKind.schema c = .schema k →
      kind = some (.scalar (.schema c)) ∨ kind = some (.array (some (.schema c))) →
      w₀.Fillable (w₀.nestedBinder binder k) k := by
    rintro c k hc (rfl | rfl)
    · exact hk _ k rfl (congrArg some (ScalarKind.schema.inj hc))
    · exact hk _ k rfl (congrArg some (ScalarKind.schema.inj hc))
  rcases fillAs_cases w₀ binder kind x with hf | ⟨c, es, rfl, rfl⟩ | ⟨c, items, rfl, hi⟩
  · rw [hf] at h
    exact .alike (hx.alike hy h.symm)
  · exact .scalar hx hy (scalarLike_filled (fun k hc => hnested c k hc (.inl rfl)) hx hy h)
  · have hfi : arrayItems? (w₀.fillAs binder (some (.array (some (.schema c)))) x) =
        some (items.map (w₀.fillAs binder (some (.scalar (.schema c))))) := by
      cases x with
      | list xs label => cases hi; rw [fillAs_list]; rfl
      | tuple xs => cases hi; rw [fillAs_tuple]; rfl
      | _ => cases hi
    obtain ⟨ys, hys, hs⟩ := Value.unlabelled_items h hfi
    exact .items hx hy hi hys (forall₂_filled (fun k hc => hnested c k hc (.inr rfl))
      (hx.items hi) (hy.items hys) hs)

/-- A default is told apart as a value that holds the same, and was told apart before. -/
theorem toldLike_default {N : ClassRef → List (Value × Value) → List (Value × Value) → Prop}
    {kind : Option ValueKind} {d v : Value} (hd : d.Named) (hv : v.Settled)
    (h : v.unlabelled = d.unlabelled) :
    ToldLike Value.Alike (Paired w₀) E N kind d v := by
  constructor
  · rw [← Value.unlabelled_eq_null_iff d, ← h, Value.unlabelled_eq_null_iff]
  · apply sideBySide_adopt_of
    intro w u hs
    constructor
    · rw [adopted_of_settled hv]
      have hl := (unlabelled_adopted w hd).trans h.symm
      exact .alike ((Value.settled_labelled d w.supply).alike hv hl)
    · apply hs.adopting
      rw [adopting_of_settled hv]
      exact (hd.origin_labelled _).trans hs.origin

/-- What a filled payload has for a field is told apart as what the payload has. -/
theorem fieldwise_filled (hw : w₀.Consistent) : Fieldwise w₀ E w₀.FilledFrom := by
  intro binder cls es fs plans hes hfs h hp plan hm
  obtain ⟨hk, h⟩ := h
  have hg : (Value.given plan.sourceKey fs).unlabelled =
      (orDefault plan (w₀.fillAs binder plan.kind (Value.given plan.sourceKey es))).unlabelled := by
    rw [Value.unlabelled_dict, Value.unlabelled_dict, Value.dict.injEq] at h
    rw [← given_filled w₀ binder hp (hk.keyed.plans hp) hm, ← given_unlabelled, h,
      given_unlabelled]
  have hse := settled_given hes plan.sourceKey
  have hsf := settled_given hfs plan.sourceKey
  have hd := named_defaultCopy ((hw.named _).plans hp plan hm)
  by_cases hn : Value.given plan.sourceKey es = .null
  · rw [hn] at hg
    rw [rawValue_of_null hn]
    by_cases hf : Value.given plan.sourceKey fs = .null
    · rw [rawValue_of_null hf]
      exact RawLike.told Value.likeness_alike (twinned_paired w₀) (.alike rfl)
    · have hcopy := defaultCopy_of_structural (hk.structural.plans hp plan hm)
      rw [rawValue_of_ne_null hf]
      apply toldLike_default hd hsf
      rw [hcopy, Value.unlabelled_unlabelled]
      exact hg
  · have hv := mt (fillAs_eq_null_iff w₀ binder plan.kind _).mp hn
    rw [orDefault_of_ne_null plan hv] at hg
    have hf : Value.given plan.sourceKey fs ≠ .null := by
      rwa [Ne, ← Value.unlabelled_eq_null_iff, hg, Value.unlabelled_eq_null_iff]
    rw [rawValue_of_ne_null hn, rawValue_of_ne_null hf]
    exact (rawLike_filled (fun k c hk' hc => hk.nested hp hm hk' hc) hse hsf hg).told
      Value.likeness_alike (twinned_paired w₀)

/-- A value and the payload that is filled from it are told apart as payloads that are related. -/
theorem sideBySide_adopt_fill (hw : w₀.Consistent) {cls : ClassRef} (hk : w₀.Fillable binder cls)
    (data : Value) :
    SideBySide (Paired w₀) E (FaultLike Value.Alike)
      (fun x y => PayloadLike w₀.FilledFrom binder cls (rootPayload x) (rootPayload y))
      (adopt data) (adopt (w₀.fill binder cls data)) := by
  by_cases hd : ∃ es, rootPayload data = .dict es
  · obtain ⟨es, hes⟩ := hd
    have hf : w₀.fill binder cls data = .dict (w₀.filled binder cls es) := by rw [fill, hes]
    rw [hf]
    apply sideBySide_adopt_of
    intro w u hs
    -- An absent payload is told apart as an empty one is.
    have hx : rootPayload (w.adopted data) = ((Value.dict es).labelled.run w.supply).1 ∧
        (w.adopting data).supply = ((Value.dict es).labelled.run w.supply).2 := by
      cases data with
      | null => cases hes; exact ⟨rfl, rfl⟩
      | dict entries => cases hes; exact ⟨rfl, rfl⟩
      | _ => cases hes
    obtain ⟨hl, ho⟩ := labelled_filled binder (named_dumpPlans hw binder cls)
      (fun e (_ : e ∈ es) => fillsTold hw e.2) hs.origin.symm
    have hsx := Value.settled_labelled (.dict es) w.supply
    have hsy := Value.settled_labelled (.dict (w₀.filled binder cls es)) u.supply
    constructor
    · rw [hx.1, adopted]
      rw [Value.labelled_dict] at hsx hsy hl ⊢
      rw [Value.labelled_dict]
      exact .related hsx hsy ⟨hk, hl⟩
    · apply hs.adopting
      rw [hx.2, Value.labelled_dict]
      exact ho.symm
  · have hf : w₀.fill binder cls data = data := by
      cases data with
      | null => exact absurd ⟨[], rfl⟩ hd
      | dict es => exact absurd ⟨es, rfl⟩ hd
      | _ => rfl
    rw [hf]
    apply (sideBySide_adopt (twinned_paired w₀) rfl).imp
    exact fun x y hxy => .alike (alike_rootPayload hxy)

/-- Where no two fields have one key, and every instance in a default is compared by its attributes,
a payload is bound as it is with the defaults filled in: with the same outcome, an instance or an
error, and the same calls of functions. -/
theorem bind_filled {s : Session} (hs : s.Reachable) {cls : ClassRef}
    (hk : s.world.Keyed binder cls) (hd : s.world.StructuralDefaults binder cls) (data : Value) :
    BoundAlike s.world binder cls data (s.world.fill binder cls data) :=
  boundAlike_of_sideBySide hs.consistent (sideBySide_bindAttrs_related
    (fieldwise_filled hs.consistent) (sideBySide_adopt_fill hs.consistent ⟨hk, hd⟩ data))

end Binding

namespace Session

open Binding

/-- The creation of a class with a text that must be there and one with a default. -/
def newAddress : Operation := .newClass "Address" [.schemaBase] none [
  ("city", ⟨.basic .str, [.requirement .required]⟩),
  ("country", ⟨.basic .str, [.requirement (.defaulted (.str "IT"))]⟩)]

/-- The class that `newAddress` creates in a new session. -/
def address : ClassRef := ⟨5, "Address", true⟩

/-- A predicate that accepts every value. -/
def weighed : UserFunction := ⟨"weighed", .null, fun _ _ _ => .returned [] (.made .null)⟩

/-- The creation of a class with a nested schema, an array of it, a list and a number, whose
defaults are a mapping for the schema, none, a list and a number that a predicate looks at. -/
def newParcel : Operation := .newClass "Parcel" [.schemaBase] none [
  ("to", ⟨.cls address, [.requirement (.defaulted (.dict [(.str "city", .str "Rome")])),
    .sourceKey ⟨"dest", by decide⟩]⟩),
  ("stops", ⟨.listOf (.cls address), []⟩),
  ("tags", ⟨.anyList, [.requirement (.defaulted (.list [.str "std"] none))]⟩),
  ("weight", ⟨.basic .int, [.requirement (.defaulted (.int 1)), .check (.custom weighed)]⟩)]

/-- The class that `newParcel` creates after `newAddress`. -/
def parcel : ClassRef := ⟨6, "Parcel", true⟩

/-- The session with the classes of addresses and of parcels. -/
def posting : Session := initial.after [newAddress, newParcel]

private theorem posting_grounded : posting.Grounded := Grounded.initial.after (by decide +kernel)

private theorem posting_keyed : posting.world.Keyed 0 parcel := by
  have hc : posting.world.closed (fun plans => (plans.map FieldPlan.sourceKey).Nodup)
      [(0, parcel), (0, address)] = true := by decide +kernel
  exact World.throughout_of_closed hc (List.mem_cons_self ..)

private theorem posting_structural : posting.world.StructuralDefaults 0 parcel := by
  have hc : posting.world.closed (fun plans => ∀ plan ∈ plans, (defaultOf plan).Structural)
      [(0, parcel), (0, address)] = true := by decide +kernel
  exact World.throughout_of_closed hc (List.mem_cons_self ..)

/-- A parcel with two stops and a null for its weight. -/
def shipment : Value := .dict [
  (.str "stops", .list [.dict [(.str "city", .str "Bari")],
    .dict [(.str "city", .str "Pisa"), (.str "country", .null)]] none),
  (.str "weight", .null)]

/-- The parcel in `shipment` is the one in what it is filled to: its stops are filled, a default is
not. -/
theorem shipment_filled : BoundAlike posting.world 0 parcel shipment
      (posting.world.fill 0 parcel shipment) ∧
    (posting.world.fill 0 parcel shipment).text =
      "\x7b'stops': [\x7b'city': 'Bari', 'country': 'IT'\x7d, " ++
        "\x7b'city': 'Pisa', 'country': 'IT'\x7d], 'weight': 1, " ++
        "'dest': \x7b'city': 'Rome'\x7d, 'tags': ['std']\x7d" ∧
    (exec (bind 0 parcel shipment) posting.world).1.toOption.map Value.text =
      some ("Parcel(to=Address(city='Rome', country='IT'), stops=[Address(city='Bari', " ++
        "country='IT'), Address(city='Pisa', country='IT')], tags=['std'], weight=1)") ∧
    (exec (bind 0 parcel shipment) posting.world).2.calls.map Call.label = ["weighed"] :=
  ⟨bind_filled posting_grounded.reachable posting_keyed posting_structural shipment,
    by decide +kernel,
    by decide +kernel, by decide +kernel⟩

/-! ### Defaults that are not input -/

/-- An instance that equals only itself. -/
def medal : Value := .record ⟨.object, some 0, by decide⟩ []

/-- The session with a class of gates. One instance opens a gate, which is also the default for what
is held to it. -/
def guarded : Session := initial.after [.newClass "Gate" [.schemaBase] none
  [("held", ⟨.basic .object, [.requirement (.defaulted medal), .union ⟨[medal], by decide⟩]⟩)]]

/-- The class of gates. -/
def gate : ClassRef := ⟨5, "Gate", true⟩

/-- The instance itself opens the gate, but its copy does not, which is handed out where none is
held to it. -/
theorem medal_not_filled : guarded.Reachable ∧ guarded.world.Keyed 0 gate ∧
    ¬ BoundAlike guarded.world 0 gate (.dict []) (guarded.world.fill 0 gate (.dict [])) := by
  have hc : guarded.world.closed (fun plans => (plans.map FieldPlan.sourceKey).Nodup)
      [(0, gate)] = true := by decide +kernel
  have hg : guarded.Grounded := Grounded.initial.after (by decide +kernel)
  have hcopy : (exec (bind 0 gate (.dict [])) guarded.world).1.isOk = false := by decide +kernel
  have hself : (exec (bind 0 gate (guarded.world.fill 0 gate (.dict []))) guarded.world).1.isOk =
      true := by decide +kernel
  refine ⟨hg.reachable, World.throughout_of_closed hc (List.mem_cons_self ..), fun h => ?_⟩
  rw [h.1.isOk_eq, hself] at hcopy
  cases hcopy

end Session

end SchemaBinding
