import SchemaBinding.Proofs.SideBySide

/-!
# Labels

A value is settled if all its lists have labels and the origins of all its not-a-numbers are known:
such a value has been told apart from all others, and telling it apart again changes nothing. Values
are alike up to labels if they differ only in which labels their lists have. Telling apart two such
values takes the same origins for the one as for the other and leaves them alike up to labels,
whatever labels are in use.
-/

namespace SchemaBinding

namespace Value

/-- All lists of a value have labels, and the origin of every not-a-number in it is known. -/
inductive Settled : Value → Prop
  | null : Settled .null
  | bool (b : Bool) : Settled (.bool b)
  | int (i : Int) : Settled (.int i)
  | float (x : Double) (h : x ≠ .nan none) : Settled (.float x)
  | str (s : String) : Settled (.str s)
  | list (items : List Value) (label : Nat) (h : ∀ v ∈ items, Settled v) :
    Settled (.list items (some label))
  | tuple (items : List Value) (h : ∀ v ∈ items, Settled v) : Settled (.tuple items)
  | dict (entries : List (Value × Value)) (hk : ∀ e ∈ entries, Settled e.1)
    (hv : ∀ e ∈ entries, Settled e.2) : Settled (.dict entries)
  | bytes (bs : List UInt8) : Settled (.bytes bs)
  | dateTime (d : Calendar.DateTime) : Settled (.dateTime d)
  | date (d : Calendar.Date) : Settled (.date d)
  | time (t : Calendar.Time) : Settled (.time t)
  | record (cls : InstanceRef) (attrs : List (String × Value)) (h : ∀ a ∈ attrs, Settled a.2) :
    Settled (.record cls attrs)

section Sequence

variable {α : Type} {f : α → StateM Supply α}

private theorem run_mapM_of_fixed {xs : List α} (h : ∀ x ∈ xs, ∀ n, (f x).run n = (x, n))
    (n : Supply) : (xs.mapM f).run n = (xs, n) := by
  induction xs with
  | nil => rfl
  | cons x xs ih =>
    obtain ⟨hx, hxs⟩ := List.forall_mem_cons.mp h
    rw [run_mapM_cons, hx n, ih hxs]

private theorem forall_mem_run_mapM {P : α → Prop} {xs : List α}
    (h : ∀ x ∈ xs, ∀ n, P ((f x).run n).1) (n : Supply) : ∀ y ∈ ((xs.mapM f).run n).1, P y := by
  induction xs generalizing n with
  | nil => exact fun y hy => absurd hy List.not_mem_nil
  | cons x xs ih =>
    obtain ⟨hx, hxs⟩ := List.forall_mem_cons.mp h
    rw [run_mapM_cons]
    exact List.forall_mem_cons.mpr ⟨hx n, ih hxs _⟩

/-- From supplies with the same origins, runs over the two lists take the same origins and leave the
same up to `c` and `d`, if they do so item by item. -/
theorem run_mapM_congr {β : Type} {g : α → α} {c d : α → β} {xs : List α}
    (h : ∀ x ∈ xs, ∀ n m : Supply, n.origin = m.origin →
      c ((f (g x)).run n).1 = d ((f x).run m).1 ∧
        ((f (g x)).run n).2.origin = ((f x).run m).2.origin) {n m : Supply}
    (hn : n.origin = m.origin) :
    (((xs.map g).mapM f).run n).1.map c = ((xs.mapM f).run m).1.map d ∧
      (((xs.map g).mapM f).run n).2.origin = ((xs.mapM f).run m).2.origin := by
  induction xs generalizing n m with
  | nil => exact ⟨rfl, hn⟩
  | cons x xs ih =>
    obtain ⟨hx, hxs⟩ := List.forall_mem_cons.mp h
    have hr := ih hxs (hx n m hn).2
    rw [List.map_cons, run_mapM_cons, run_mapM_cons]
    refine ⟨?_, hr.2⟩
    rw [List.map_cons, List.map_cons, (hx n m hn).1, hr.1]

/-- The front of a list is told apart before the rest. -/
theorem run_mapM_append (xs ys : List α) (n : Supply) :
    ((xs ++ ys).mapM f).run n =
      (((xs.mapM f).run n).1 ++ ((ys.mapM f).run ((xs.mapM f).run n).2).1,
        ((ys.mapM f).run ((xs.mapM f).run n).2).2) := by
  induction xs generalizing n with
  | nil => rfl
  | cons x xs ih => rw [List.cons_append, run_mapM_cons, run_mapM_cons, ih, List.cons_append]

private theorem origin_run_mapM {xs : List α} (h : ∀ x ∈ xs, ∀ n, ((f x).run n).2.origin = n.origin)
    (n : Supply) : ((xs.mapM f).run n).2.origin = n.origin := by
  induction xs generalizing n with
  | nil => rfl
  | cons x xs ih =>
    obtain ⟨hx, hxs⟩ := List.forall_mem_cons.mp h
    rw [run_mapM_cons]
    exact (ih hxs _).trans (hx n)

end Sequence

/-! ### Settled values -/

/-- Telling apart a settled value changes nothing. -/
theorem Settled.run_labelled {v : Value} (h : v.Settled) (n : Supply) :
    v.labelled.run n = (v, n) := by
  induction v generalizing n with
  | float x =>
    cases h with
    | float _ h =>
      cases x with
      | nan origin =>
        cases origin with
        | none => exact absurd rfl h
        | some m => rfl
      | _ => rfl
  | list items label ih =>
    cases h with
    | list _ l h => rw [labelled_list, run_mapM_of_fixed fun v hv => ih v hv (h v hv)]
  | tuple items ih =>
    cases h with
    | tuple _ h => rw [labelled_tuple, run_mapM_of_fixed fun v hv => ih v hv (h v hv)]
  | dict entries ih =>
    cases h with
    | dict _ hk hv =>
      have he : ∀ e ∈ entries, ∀ n, (labelledEntry e).run n = (e, n) := by
        intro e he n
        rw [run_labelledEntry, (ih e he).1 (hk e he), (ih e he).2 (hv e he)]
      rw [labelled_dict, run_mapM_of_fixed he]
  | record cls attrs ih =>
    cases h with
    | record _ _ h =>
      have ha : ∀ a ∈ attrs, ∀ n, (labelledAttr a).run n = (a, n) := by
        intro a ha n
        rw [run_labelledAttr, ih a ha (h a ha)]
      rw [labelled_record, run_mapM_of_fixed ha]
  | _ => rfl

/-- A value that has been told apart is settled. -/
theorem settled_labelled (v : Value) (n : Supply) : (v.labelled.run n).1.Settled := by
  induction v generalizing n with
  | float x =>
    cases x with
    | nan origin => cases origin <;> exact .float _ (by simp)
    | infinite negative => exact .float _ (by simp)
    | finite negative exponent fraction => exact .float _ (by simp)
  | list items label ih =>
    have hi := forall_mem_run_mapM ih n
    rw [labelled_list]
    cases label <;> exact .list _ _ hi
  | tuple items ih =>
    rw [labelled_tuple]
    exact .tuple _ (forall_mem_run_mapM ih n)
  | dict entries ih =>
    rw [labelled_dict]
    have he : ∀ e ∈ entries, ∀ n, ((labelledEntry e).run n).1.1.Settled ∧
        ((labelledEntry e).run n).1.2.Settled := by
      intro e he n
      rw [run_labelledEntry]
      exact ⟨(ih e he).1 n, (ih e he).2 _⟩
    have hs := forall_mem_run_mapM (P := fun e : Value × Value => e.1.Settled ∧ e.2.Settled) he n
    exact .dict _ (fun e he => (hs e he).1) (fun e he => (hs e he).2)
  | record cls attrs ih =>
    rw [labelled_record]
    have ha : ∀ a ∈ attrs, ∀ n, ((labelledAttr a).run n).1.2.Settled := by
      intro a ha n
      rw [run_labelledAttr]
      exact ih a ha n
    exact .record _ _ (forall_mem_run_mapM (P := fun a : String × Value => a.2.Settled) ha n)
  | null => exact .null
  | bool b => exact .bool b
  | int i => exact .int i
  | str s => exact .str s
  | bytes bs => exact .bytes bs
  | dateTime d => exact .dateTime d
  | date d => exact .date d
  | time t => exact .time t

/-- Telling a dictionary apart tells its entries apart one after another. -/
theorem exists_labelled_cons (k v : Value) (rest : List (Value × Value)) (n : Supply) :
    ∃ m l told, ((dict rest).labelled.run l).1 = .dict told ∧
      ((dict ((k, v) :: rest)).labelled.run n).1 =
        .dict (((k.labelled.run n).1, (v.labelled.run m).1) :: told) := by
  let l := (v.labelled.run (k.labelled.run n).2).2
  refine ⟨(k.labelled.run n).2, l, ((rest.mapM labelledEntry).run l).1, ?_, ?_⟩
  · rw [labelled_dict]
  · rw [labelled_dict, run_mapM_cons, run_labelledEntry]

/-- Telling a value apart makes no null and no text of it that it was not. -/
theorem labelled_eq_iff {u : Value} (hu : u = .null ∨ ∃ s, u = .str s) (v : Value) (n : Supply) :
    (v.labelled.run n).1 = u ↔ v = u := by
  cases v with
  | float x =>
    have hx : ∃ y, ((float x).labelled.run n).1 = .float y := by
      cases x with
      | nan origin => cases origin <;> exact ⟨_, rfl⟩
      | _ => exact ⟨_, rfl⟩
    obtain ⟨y, hy⟩ := hx
    rw [hy]
    rcases hu with rfl | ⟨s, rfl⟩ <;> simp
  | list items label =>
    rw [labelled_list]
    rcases hu with rfl | ⟨s, rfl⟩ <;> cases label <;> simp
  | tuple items =>
    rw [labelled_tuple]
    rcases hu with rfl | ⟨s, rfl⟩ <;> simp
  | dict entries =>
    rw [labelled_dict]
    rcases hu with rfl | ⟨s, rfl⟩ <;> simp
  | record cls attrs =>
    rw [labelled_record]
    rcases hu with rfl | ⟨s, rfl⟩ <;> simp
  | _ => exact Iff.rfl

/-- The items of a settled array are settled. -/
theorem Settled.items {v : Value} {items : List Value} (h : v.Settled)
    (hi : Binding.arrayItems? v = some items) : ∀ u ∈ items, u.Settled := by
  cases h with
  | list _ _ h => cases hi; exact h
  | tuple _ h => cases hi; exact h
  | _ => cases hi

/-- What a settled dictionary has under a key is settled. -/
theorem Settled.lookup? {entries : List (Value × Value)} (h : (Value.dict entries).Settled)
    {key : String} {v : Value} (hl : Value.lookup? key entries = some v) : v.Settled := by
  obtain ⟨k, hk⟩ := mem_of_lookup? hl
  cases h with
  | dict _ _ hv => exact hv (k, v) hk

/-! ### Other labels -/

/-- A value whose lists have other labels. -/
def relabel (f : Option Nat → Option Nat) (v : Value) : Value :=
  Id.run (rebuild (fun items label => pure (.list items (f label))) (fun x => pure (.float x))
    pure v)

section Relabel

variable (f g : Option Nat → Option Nat)

/-- An entry whose lists have other labels. -/
def relabelEntry (e : Value × Value) : Value × Value := (e.1.relabel f, e.2.relabel f)

/-- An attribute whose lists have other labels. -/
def relabelAttr (a : String × Value) : String × Value := (a.1, a.2.relabel f)

/-- A list gets another label, and so do the lists in it. -/
@[simp] theorem relabel_list (items : List Value) (label : Option Nat) :
    (list items label).relabel f = .list (items.map (relabel f)) (f label) := by
  simp only [relabel, rebuild_list, Id.run_bind, Id.run_pure, List.idRun_mapM]
  rfl

/-- The lists in a tuple get other labels. -/
@[simp] theorem relabel_tuple (items : List Value) :
    (tuple items).relabel f = .tuple (items.map (relabel f)) := by
  simp only [relabel, rebuild_tuple, Id.run_bind, Id.run_pure, List.idRun_mapM]
  rfl

/-- The lists in the keys and values of a dictionary get other labels. -/
@[simp] theorem relabel_dict (entries : List (Value × Value)) :
    (dict entries).relabel f = .dict (entries.map (relabelEntry f)) := by
  simp only [relabel, rebuild_dict, Id.run_bind, Id.run_pure, List.idRun_mapM,
    dict.injEq, List.map_inj_left]
  rintro ⟨k, v⟩ -
  rfl

/-- The lists in the attributes of a record get other labels. -/
@[simp] theorem relabel_record (cls : InstanceRef) (attrs : List (String × Value)) :
    (record cls attrs).relabel f = .record cls (attrs.map (relabelAttr f)) := by
  simp only [relabel, rebuild_record, Id.run_bind, Id.run_pure, List.idRun_mapM,
    record.injEq, List.map_inj_left, true_and]
  rintro ⟨name, v⟩ -
  rfl

private theorem relabel_relabel (v : Value) : (v.relabel f).relabel g = v.relabel (g ∘ f) := by
  induction v with
  | list items label ih => simpa using ih
  | tuple items ih => simpa using ih
  | dict entries ih =>
    simp only [relabel_dict, List.map_map, dict.injEq, List.map_inj_left]
    intro e he
    simp [relabelEntry, ih e he]
  | record cls attrs ih =>
    simp only [relabel_record, List.map_map, record.injEq, List.map_inj_left, true_and]
    intro a ha
    simp [relabelAttr, ih a ha]
  | _ => rfl

variable {f g}

/-- In a settled value only the labels matter that there are. -/
theorem Settled.relabel_congr {v : Value} (h : v.Settled)
    (hfg : ∀ n, f (some n) = g (some n)) :
    v.relabel f = v.relabel g := by
  induction v with
  | list items label ih =>
    cases h with
    | list _ l h =>
      rw [relabel_list, relabel_list, hfg, List.map_inj_left.mpr fun u hu => ih u hu (h u hu)]
  | tuple items ih =>
    cases h with
    | tuple _ h =>
      rw [relabel_tuple, relabel_tuple, List.map_inj_left.mpr fun u hu => ih u hu (h u hu)]
  | dict entries ih =>
    cases h with
    | dict _ hk hv =>
      rw [relabel_dict, relabel_dict, List.map_inj_left.mpr]
      intro e he
      rw [relabelEntry, relabelEntry, (ih e he).1 (hk e he), (ih e he).2 (hv e he)]
  | record cls attrs ih =>
    cases h with
    | record _ _ h =>
      rw [relabel_record, relabel_record, List.map_inj_left.mpr]
      intro a ha
      rw [relabelAttr, relabelAttr, ih a ha (h a ha)]
  | _ => rfl

/-- What a dictionary has under a text, with other labels. -/
theorem lookup?_relabel (key : String) (entries : List (Value × Value)) :
    Value.lookup? key (entries.map (relabelEntry f)) =
      (Value.lookup? key entries).map (relabel f) := by
  induction entries with
  | nil => rfl
  | cons e rest ih =>
    obtain ⟨k, v⟩ := e
    cases k with
    | str s =>
      change Value.lookup? key ((.str s, v.relabel f) :: rest.map (relabelEntry f)) = _
      simp only [Value.lookup?]
      split
      · rfl
      · exact ih
    | _ => exact ih

end Relabel

/-! ### Values that are alike up to labels -/

/-- Shows of a label only that there is one. -/
def blur : Option Nat → Option Nat
  | some _ => some 0
  | none => none

/-- The two values differ at most in which labels their lists have. -/
def Alike (a b : Value) : Prop := a.relabel blur = b.relabel blur

/-- What a value holds does not depend on its labels. -/
theorem unlabelled_relabel (f : Option Nat → Option Nat) (v : Value) :
    (v.relabel f).unlabelled = v.unlabelled := relabel_relabel f (fun _ => none) v

/-- Which labels a value has, and which ones it takes, matters neither to the origins that it takes
nor, up to labels, to what comes of it. -/
theorem labelled_blur (v : Value) {n m : Supply} (h : n.origin = m.origin) :
    ((v.relabel blur).labelled.run n).1.relabel blur = (v.labelled.run m).1.relabel blur ∧
      ((v.relabel blur).labelled.run n).2.origin = (v.labelled.run m).2.origin := by
  induction v generalizing n m with
  | float x =>
    cases x with
    | nan origin =>
      cases origin with
      | none => exact ⟨congrArg (fun k => Value.float (.nan (some k))) h, congrArg (· + 1) h⟩
      | some k => exact ⟨rfl, h⟩
    | _ => exact ⟨rfl, h⟩
  | list items label ih =>
    have hi := run_mapM_congr (fun v hv n m => ih v hv) h
    rw [relabel_list, labelled_list, labelled_list]
    cases label with
    | none => simp only [blur, relabel_list, hi.1, hi.2, and_self]
    | some l => simp only [blur, relabel_list, hi.1, hi.2, and_self]
  | tuple items ih =>
    have hi := run_mapM_congr (fun v hv n m => ih v hv) h
    rw [relabel_tuple, labelled_tuple, labelled_tuple]
    simp only [relabel_tuple, hi.1, hi.2, and_self]
  | dict entries ih =>
    have he : ∀ e ∈ entries, ∀ n m : Supply, n.origin = m.origin →
        relabelEntry blur ((labelledEntry (relabelEntry blur e)).run n).1 =
            relabelEntry blur ((labelledEntry e).run m).1 ∧
          ((labelledEntry (relabelEntry blur e)).run n).2.origin =
            ((labelledEntry e).run m).2.origin := by
      intro e he n m hn
      have hk := (ih e he).1 hn
      have hv := (ih e he).2 hk.2
      simp only [run_labelledEntry, relabelEntry, hk.1, hv.1, hv.2, and_self]
    have hi := run_mapM_congr he h
    rw [relabel_dict, labelled_dict, labelled_dict]
    simp only [relabel_dict, hi.1, hi.2, and_self]
  | record cls attrs ih =>
    have ha : ∀ a ∈ attrs, ∀ n m : Supply, n.origin = m.origin →
        relabelAttr blur ((labelledAttr (relabelAttr blur a)).run n).1 =
            relabelAttr blur ((labelledAttr a).run m).1 ∧
          ((labelledAttr (relabelAttr blur a)).run n).2.origin =
            ((labelledAttr a).run m).2.origin := by
      intro a ha n m hn
      simp only [run_labelledAttr, relabelAttr, (ih a ha hn).1, (ih a ha hn).2, and_self]
    have hi := run_mapM_congr ha h
    rw [relabel_record, labelled_record, labelled_record]
    simp only [relabel_record, hi.1, hi.2, and_self]
  | _ => exact ⟨rfl, h⟩

/-- What comes of a value, and the origins that it takes, do not depend on the labels in use. -/
theorem labelled_congr (v : Value) {n m : Supply} (h : n.origin = m.origin) :
    (v.labelled.run n).1.unlabelled = (v.labelled.run m).1.unlabelled ∧
      (v.labelled.run n).2.origin = (v.labelled.run m).2.origin := by
  have hn := labelled_blur v (rfl : n.origin = n.origin)
  have hm := labelled_blur v h
  refine ⟨?_, hn.2.symm.trans hm.2⟩
  rw [← unlabelled_relabel blur, ← hn.1, hm.1, unlabelled_relabel]

/-- A value whose not-a-numbers are known takes no origins. -/
theorem Named.origin_labelled {v : Value} (h : v.Named) (n : Supply) :
    (v.labelled.run n).2.origin = n.origin := by
  induction v generalizing n with
  | float x =>
    cases h with
    | float _ hx =>
      cases x with
      | nan origin =>
        cases origin with
        | none => exact absurd rfl hx
        | some m => rfl
      | _ => rfl
  | list items label ih =>
    cases h with
    | list _ _ h =>
      have hi := origin_run_mapM (fun v hv n => ih v hv (h v hv) n) n
      rw [labelled_list]
      cases label <;> exact hi
  | tuple items ih =>
    cases h with
    | tuple _ h =>
      rw [labelled_tuple]
      exact origin_run_mapM (fun v hv n => ih v hv (h v hv) n) n
  | dict entries ih =>
    cases h with
    | dict _ hk hv =>
      rw [labelled_dict]
      refine origin_run_mapM (fun e he n => ?_) n
      rw [run_labelledEntry]
      exact ((ih e he).2 (hv e he) _).trans ((ih e he).1 (hk e he) n)
  | record cls attrs ih =>
    cases h with
    | record _ _ h =>
      rw [labelled_record]
      refine origin_run_mapM (fun a ha n => ?_) n
      rw [run_labelledAttr]
      exact ih a ha (h a ha) n
  | _ => rfl

/-- Entries whose not-a-numbers are known are told apart as what they hold, and take no origins. -/
theorem Named.run_labelledEntries {entries : List (Value × Value)}
    (h : (Value.dict entries).Named) (n : Supply) :
    ((entries.mapM labelledEntry).run n).1.map unlabelledEntry = entries.map unlabelledEntry ∧
      ((entries.mapM labelledEntry).run n).2.origin = n.origin := by
  have hl := ((Value.dict entries).labelled_toldApart n).2 h
  have ho := h.origin_labelled n
  rw [labelled_dict, unlabelled_dict, unlabelled_dict] at hl
  rw [labelled_dict] at ho
  exact ⟨Value.dict.inj hl, ho⟩

/-- Settled values that hold the same are alike up to labels. -/
theorem Settled.alike {a b : Value} (ha : a.Settled) (hb : b.Settled)
    (h : a.unlabelled = b.unlabelled) : a.Alike b := by
  have hs : ∀ {v : Value}, v.Settled →
      v.unlabelled.relabel (fun _ => some 0) = v.relabel blur := by
    intro v hv
    have hl : ∀ n, (fun _ => some 0) (some n) = blur (some n) := fun _ => rfl
    calc v.unlabelled.relabel (fun _ => some 0)
        = v.relabel (fun _ => some 0) := relabel_relabel (fun _ => none) _ v
      _ = v.relabel blur := hv.relabel_congr hl
  rw [Alike, ← hs ha, h, hs hb]

private theorem alike_items_iff (xs ys : List Value) :
    List.Forall₂ Alike xs ys ↔ xs.map (relabel blur) = ys.map (relabel blur) := by
  rw [← List.forall₂_eq_eq_eq, List.forall₂_map_left_iff, List.forall₂_map_right_iff]
  rfl

private theorem alike_attrs_iff (as bs : List (String × Value)) :
    AttrsLike Alike as bs ↔ as.map (relabelAttr blur) = bs.map (relabelAttr blur) := by
  rw [← List.forall₂_eq_eq_eq, List.forall₂_map_left_iff, List.forall₂_map_right_iff]
  simp only [relabelAttr, Prod.mk.injEq]
  rfl

/-- To differ in labels only is a likeness of values. -/
theorem likeness_alike : Likeness Alike where
  refl _ := rfl
  contents {a b} h := by rw [← unlabelled_relabel blur a, h, unlabelled_relabel]
  items {a b xs ys} h ha hb := by
    rw [alike_items_iff]
    unfold Alike at h
    cases a with
    | list _ l =>
      cases ha
      cases b with
      | list _ m =>
        cases hb
        simp only [relabel_list, list.injEq] at h
        exact h.1
      | tuple _ => simp at h
      | _ => cases hb
    | tuple _ =>
      cases ha
      cases b with
      | tuple _ => cases hb; simpa using h
      | list _ m => simp at h
      | _ => cases hb
    | _ => cases ha
  list h := by
    rw [alike_items_iff] at h
    rw [Alike, relabel_list, relabel_list, h]
  tuple h := by
    rw [alike_items_iff] at h
    rw [Alike, relabel_tuple, relabel_tuple, h]
  record h := by
    have hs := (alike_attrs_iff _ _).mp h
    rw [Alike, relabel_record, relabel_record, hs]

/-- Alike dictionaries have alike values under each text. -/
theorem Alike.lookup? {es fs : List (Value × Value)} (h : Alike (.dict es) (.dict fs))
    (key : String) :
    (Value.lookup? key es).map (relabel blur) = (Value.lookup? key fs).map (relabel blur) := by
  simp only [Alike, relabel_dict, dict.injEq] at h
  rw [← lookup?_relabel, h, lookup?_relabel]

end Value

namespace World

variable {w u : World}

/-- A settled value is told apart already. -/
theorem adopted_of_settled {v : Value} (h : v.Settled) (w : World) : w.adopted v = v := by
  rw [adopted, h.run_labelled]

/-- Telling a settled value apart takes nothing from the supply. -/
theorem adopting_of_settled {v : Value} (h : v.Settled) (w : World) : w.adopting v = w := by
  rw [adopting, h.run_labelled]

/-- Alike values are alike after they have been told apart. -/
theorem alike_adopted {a b : Value} (h : a.Alike b) (hn : w.supply.origin = u.supply.origin) :
    (w.adopted a).Alike (u.adopted b) := by
  rw [Value.Alike, adopted, adopted, ← (Value.labelled_blur a rfl).1, h,
    (Value.labelled_blur b hn).1]

/-- Telling alike values apart takes the same origins. -/
theorem origin_adopting {a b : Value} (h : a.Alike b) (hn : w.supply.origin = u.supply.origin) :
    (w.adopting a).supply.origin = (u.adopting b).supply.origin := by
  rw [adopting, adopting, ← (Value.labelled_blur a rfl).2, h, (Value.labelled_blur b hn).2]

end World

end SchemaBinding
