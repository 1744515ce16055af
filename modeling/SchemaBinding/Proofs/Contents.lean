import SchemaBinding.Proofs.Execution

/-!
# What a value holds

Which lists are one does not matter to what values hold: `Value.unlabelled` forgets it. A value is
named if the origin of every not-a-number in it is known. Telling a value apart from all others
names it, and leaves what a named value holds as it was. Equality, membership, conversion and all
that words need of a value depend on its contents only.
-/

namespace SchemaBinding

/-- A new instance of a class is one of that class. -/
@[simp] theorem InstanceRef.toClassRef_new (cls : ClassRef) : (new cls).toClassRef = cls := rfl

/-- A new instance in the place of another is of the same class. -/
@[simp] theorem InstanceRef.toClassRef_renewed (r : InstanceRef) :
    r.renewed.toClassRef = r.toClassRef := rfl

namespace Value

/-- Induction over values, with a hypothesis for each part of a list, a tuple, a dictionary or a
record. -/
@[elab_as_elim, induction_eliminator]
theorem inductParts {motive : Value → Prop} (null : motive .null) (bool : ∀ b, motive (.bool b))
    (int : ∀ i, motive (.int i)) (float : ∀ x, motive (.float x)) (str : ∀ s, motive (.str s))
    (list : ∀ items label, (∀ v ∈ items, motive v) → motive (.list items label))
    (tuple : ∀ items, (∀ v ∈ items, motive v) → motive (.tuple items))
    (dict : ∀ entries : List (Value × Value), (∀ e ∈ entries, motive e.1 ∧ motive e.2) →
      motive (.dict entries))
    (bytes : ∀ bs, motive (.bytes bs)) (dateTime : ∀ d, motive (.dateTime d))
    (date : ∀ d, motive (.date d)) (time : ∀ t, motive (.time t))
    (record : ∀ cls (attrs : List (String × Value)), (∀ a ∈ attrs, motive a.2) →
      motive (.record cls attrs))
    (v : Value) : motive v :=
  match v with
  | .null => null
  | .bool b => bool b
  | .int i => int i
  | .float x => float x
  | .str s => str s
  | .list items label => list items label fun u _ =>
      inductParts null bool int float str list tuple dict bytes dateTime date time record u
  | .tuple items => tuple items fun u _ =>
      inductParts null bool int float str list tuple dict bytes dateTime date time record u
  | .dict entries => dict entries fun e _ =>
      ⟨inductParts null bool int float str list tuple dict bytes dateTime date time record e.1,
        inductParts null bool int float str list tuple dict bytes dateTime date time record e.2⟩
  | .bytes bs => bytes bs
  | .dateTime d => dateTime d
  | .date d => date d
  | .time t => time t
  | .record cls attrs => record cls attrs fun a _ =>
      inductParts null bool int float str list tuple dict bytes dateTime date time record a.2
termination_by sizeOf v
decreasing_by
  all_goals simp_wf
  · have := List.sizeOf_lt_of_mem ‹u ∈ items›; omega
  · have := List.sizeOf_lt_of_mem ‹u ∈ items›; omega
  · have := List.sizeOf_lt_of_mem ‹e ∈ entries›
    obtain ⟨k, v⟩ := e
    simp only [Prod.mk.sizeOf_spec] at *
    omega
  · have := List.sizeOf_lt_of_mem ‹e ∈ entries›
    obtain ⟨k, v⟩ := e
    simp only [Prod.mk.sizeOf_spec] at *
    omega
  · have := List.sizeOf_lt_of_mem ‹a ∈ attrs›
    obtain ⟨n, v⟩ := a
    simp only [Prod.mk.sizeOf_spec] at *
    omega

/-! ### Rebuilding a value -/

section Rebuild

variable {m : Type → Type} [Monad m] [LawfulMonad m] (onList : List Value → Option Nat → m Value)
  (onFloat : Double → m Value) (onInstance : InstanceRef → m InstanceRef)

private theorem rebuildItems_eq (vs : List Value) :
    rebuildItems onList onFloat onInstance vs = vs.mapM (rebuild onList onFloat onInstance) := by
  induction vs with
  | nil => rfl
  | cons v vs ih =>
    rw [List.mapM_cons, ← ih]
    rfl

private theorem rebuildEntries_eq (es : List (Value × Value)) :
    rebuildEntries onList onFloat onInstance es =
      es.mapM (rebuildEntry onList onFloat onInstance) := by
  induction es with
  | nil => rfl
  | cons e es ih =>
    rw [List.mapM_cons, ← ih]
    rfl

private theorem rebuildAttrs_eq (as : List (String × Value)) :
    rebuildAttrs onList onFloat onInstance as =
      as.mapM (rebuildAttr onList onFloat onInstance) := by
  induction as with
  | nil => rfl
  | cons a as ih =>
    rw [List.mapM_cons, ← ih]
    rfl

/-- The items of a list are rebuilt before the list. -/
theorem rebuild_list (items : List Value) (label : Option Nat) :
    rebuild onList onFloat onInstance (.list items label) = (do
      onList (← items.mapM (rebuild onList onFloat onInstance)) label) := by
  rw [← rebuildItems_eq]
  rfl

/-- A tuple is rebuilt item by item. -/
theorem rebuild_tuple (items : List Value) :
    rebuild onList onFloat onInstance (.tuple items) = (do
      return .tuple (← items.mapM (rebuild onList onFloat onInstance))) := by
  rw [← rebuildItems_eq]
  rfl

/-- A dictionary is rebuilt entry by entry. -/
theorem rebuild_dict (entries : List (Value × Value)) :
    rebuild onList onFloat onInstance (.dict entries) = (do
      return .dict (← entries.mapM (rebuildEntry onList onFloat onInstance))) := by
  rw [← rebuildEntries_eq]
  rfl

/-- The attributes of a record are rebuilt before what it is an instance of. -/
theorem rebuild_record (cls : InstanceRef) (attrs : List (String × Value)) :
    rebuild onList onFloat onInstance (.record cls attrs) = (do
      let attrs ← attrs.mapM (rebuildAttr onList onFloat onInstance)
      return .record (← onInstance cls) attrs) := by
  rw [← rebuildAttrs_eq]
  rfl

end Rebuild

/-- What the key and the value of an entry hold. -/
def unlabelledEntry (e : Value × Value) : Value × Value := (e.1.unlabelled, e.2.unlabelled)

/-- What an attribute holds. -/
def unlabelledAttr (a : String × Value) : String × Value := (a.1, a.2.unlabelled)

/-- A list holds what its items hold, whichever list it is. -/
@[simp] theorem unlabelled_list (items : List Value) (label : Option Nat) :
    (list items label).unlabelled = .list (items.map unlabelled) none := by
  simp only [unlabelled, rebuild_list, Id.run_bind, Id.run_pure, List.idRun_mapM]
  rfl

/-- A tuple holds what its items hold. -/
@[simp] theorem unlabelled_tuple (items : List Value) :
    (tuple items).unlabelled = .tuple (items.map unlabelled) := by
  simp only [unlabelled, rebuild_tuple, Id.run_bind, Id.run_pure, List.idRun_mapM]
  rfl

/-- A dictionary holds what its keys and values hold. -/
@[simp] theorem unlabelled_dict (entries : List (Value × Value)) :
    (dict entries).unlabelled = .dict (entries.map unlabelledEntry) := by
  simp only [unlabelled, rebuild_dict, Id.run_bind, Id.run_pure, List.idRun_mapM,
    dict.injEq, List.map_inj_left]
  rintro ⟨k, v⟩ -
  rfl

/-- A record holds what its attributes hold, and is an instance of its class. -/
@[simp] theorem unlabelled_record (cls : InstanceRef) (attrs : List (String × Value)) :
    (record cls attrs).unlabelled = .record cls (attrs.map unlabelledAttr) := by
  simp only [unlabelled, rebuild_record, Id.run_bind, Id.run_pure, List.idRun_mapM,
    record.injEq, List.map_inj_left, true_and]
  rintro ⟨name, v⟩ -
  rfl

/-- Null holds no lists. -/
@[simp] theorem unlabelled_null : null.unlabelled = .null := rfl

/-- A boolean holds no lists. -/
@[simp] theorem unlabelled_bool (b : Bool) : (bool b).unlabelled = .bool b := rfl

/-- An integer holds no lists. -/
@[simp] theorem unlabelled_int (i : Int) : (int i).unlabelled = .int i := rfl

/-- A floating-point number holds no lists. -/
@[simp] theorem unlabelled_float (x : Double) : (float x).unlabelled = .float x := rfl

/-- A text holds no lists. -/
@[simp] theorem unlabelled_str (s : String) : (str s).unlabelled = .str s := rfl

/-- Bytes hold no lists. -/
@[simp] theorem unlabelled_bytes (bs : List UInt8) : (bytes bs).unlabelled = .bytes bs := rfl

/-- A date-time holds no lists. -/
@[simp] theorem unlabelled_dateTime (d : Calendar.DateTime) :
    (dateTime d).unlabelled = .dateTime d := rfl

/-- A date holds no lists. -/
@[simp] theorem unlabelled_date (d : Calendar.Date) : (date d).unlabelled = .date d := rfl

/-- A time holds no lists. -/
@[simp] theorem unlabelled_time (t : Calendar.Time) : (time t).unlabelled = .time t := rfl

/-- Only null holds what null holds. -/
theorem unlabelled_eq_null_iff (v : Value) : v.unlabelled = .null ↔ v = .null := by
  cases v with
  | list items label => rw [unlabelled_list]; exact ⟨nofun, nofun⟩
  | tuple items => rw [unlabelled_tuple]; exact ⟨nofun, nofun⟩
  | dict entries => rw [unlabelled_dict]; exact ⟨nofun, nofun⟩
  | record cls attrs => rw [unlabelled_record]; exact ⟨nofun, nofun⟩
  | _ => rfl

/-- Forgetting which lists are one a second time changes nothing. -/
@[simp] theorem unlabelled_unlabelled (v : Value) : v.unlabelled.unlabelled = v.unlabelled := by
  induction v with
  | list items label ih => simpa using ih
  | tuple items ih => simpa using ih
  | dict entries ih =>
    simp only [unlabelled_dict, List.map_map, dict.injEq, List.map_inj_left]
    intro e he
    simp [unlabelledEntry, ih e he]
  | record cls attrs ih =>
    simp only [unlabelled_record, List.map_map, record.injEq, List.map_inj_left, true_and]
    intro a ha
    simp [unlabelledAttr, ih a ha]
  | _ => rfl

/-! ### Copies -/

/-- A copy of the key and the value of an entry. -/
def copiedEntry (e : Value × Value) : Value × Value := (e.1.copied, e.2.copied)

/-- An attribute with a copy of its value. -/
def copiedAttr (a : String × Value) : String × Value := (a.1, a.2.copied)

/-- A copy of a list is another list, of copies of the items. -/
@[simp] theorem copied_list (items : List Value) (label : Option Nat) :
    (list items label).copied = .list (items.map copied) none := by
  simp only [copied, rebuild_list, Id.run_bind, Id.run_pure, List.idRun_mapM]
  rfl

/-- A copy of a tuple has copies of its items. -/
@[simp] theorem copied_tuple (items : List Value) :
    (tuple items).copied = .tuple (items.map copied) := by
  simp only [copied, rebuild_tuple, Id.run_bind, Id.run_pure, List.idRun_mapM]
  rfl

/-- A copy of a dictionary has copies of its keys and values. -/
@[simp] theorem copied_dict (entries : List (Value × Value)) :
    (dict entries).copied = .dict (entries.map copiedEntry) := by
  simp only [copied, rebuild_dict, Id.run_bind, Id.run_pure, List.idRun_mapM,
    dict.injEq, List.map_inj_left]
  rintro ⟨k, v⟩ -
  rfl

/-- A copy of a record is another instance of its class, with copies of the attributes. -/
@[simp] theorem copied_record (r : InstanceRef) (attrs : List (String × Value)) :
    (record r attrs).copied = .record r.renewed (attrs.map copiedAttr) := by
  simp only [copied, rebuild_record, Id.run_bind, Id.run_pure, List.idRun_mapM,
    record.injEq, List.map_inj_left, true_and]
  rintro ⟨name, v⟩ -
  rfl

/-- Only null is copied to null. -/
theorem copied_eq_null_iff (v : Value) : v.copied = .null ↔ v = .null := by
  cases v with
  | list items label => rw [copied_list]; exact ⟨nofun, nofun⟩
  | tuple items => rw [copied_tuple]; exact ⟨nofun, nofun⟩
  | dict entries => rw [copied_dict]; exact ⟨nofun, nofun⟩
  | record cls attrs => rw [copied_record]; exact ⟨nofun, nofun⟩
  | _ => rfl

/-- No list of a copy has a label. -/
@[simp] theorem unlabelled_copied (v : Value) : v.copied.unlabelled = v.copied := by
  induction v with
  | list items label ih => simpa using ih
  | tuple items ih => simpa using ih
  | dict entries ih =>
    simp only [copied_dict, unlabelled_dict, List.map_map, dict.injEq, List.map_inj_left]
    intro e he
    simp [copiedEntry, unlabelledEntry, ih e he]
  | record cls attrs ih =>
    simp only [copied_record, unlabelled_record, List.map_map, record.injEq, List.map_inj_left,
      true_and]
    intro a ha
    simp [copiedAttr, unlabelledAttr, ih a ha]
  | _ => rfl

/-- A copy does not depend on labels. -/
@[simp] theorem copied_unlabelled (v : Value) : v.unlabelled.copied = v.copied := by
  induction v with
  | list items label ih => simpa using ih
  | tuple items ih => simpa using ih
  | dict entries ih =>
    simp only [copied_dict, unlabelled_dict, List.map_map, dict.injEq, List.map_inj_left]
    intro e he
    simp [copiedEntry, unlabelledEntry, ih e he]
  | record cls attrs ih =>
    simp only [copied_record, unlabelled_record, List.map_map, record.injEq, List.map_inj_left,
      true_and]
    intro a ha
    simp [copiedAttr, unlabelledAttr, ih a ha]
  | _ => rfl

/-! ### Values whose not-a-numbers are known -/

/-- The origin of every not-a-number in a value is known. -/
inductive Named : Value → Prop
  | null : Named .null
  | bool (b : Bool) : Named (.bool b)
  | int (i : Int) : Named (.int i)
  | float (x : Double) (h : x ≠ .nan none) : Named (.float x)
  | str (s : String) : Named (.str s)
  | list (items : List Value) (label : Option Nat) (h : ∀ v ∈ items, Named v) :
    Named (.list items label)
  | tuple (items : List Value) (h : ∀ v ∈ items, Named v) : Named (.tuple items)
  | dict (entries : List (Value × Value)) (hk : ∀ e ∈ entries, Named e.1)
    (hv : ∀ e ∈ entries, Named e.2) : Named (.dict entries)
  | bytes (bs : List UInt8) : Named (.bytes bs)
  | dateTime (d : Calendar.DateTime) : Named (.dateTime d)
  | date (d : Calendar.Date) : Named (.date d)
  | time (t : Calendar.Time) : Named (.time t)
  | record (cls : InstanceRef) (attrs : List (String × Value)) (h : ∀ a ∈ attrs, Named a.2) :
    Named (.record cls attrs)

/-- What a named value holds is named. -/
theorem Named.unlabelled {v : Value} (h : v.Named) : v.unlabelled.Named := by
  induction v with
  | list items label ih =>
    cases h with
    | list _ _ h =>
      rw [unlabelled_list]
      exact .list _ _ (List.forall_mem_map.mpr fun v hv => ih v hv (h v hv))
  | tuple items ih =>
    cases h with
    | tuple _ h =>
      rw [unlabelled_tuple]
      exact .tuple _ (List.forall_mem_map.mpr fun v hv => ih v hv (h v hv))
  | dict entries ih =>
    cases h with
    | dict _ hk hv =>
      rw [unlabelled_dict]
      exact .dict _ (List.forall_mem_map.mpr fun e he => (ih e he).1 (hk e he))
        (List.forall_mem_map.mpr fun e he => (ih e he).2 (hv e he))
  | record cls attrs ih =>
    cases h with
    | record _ _ h =>
      rw [unlabelled_record]
      exact .record _ _ (List.forall_mem_map.mpr fun a ha => ih a ha (h a ha))
  | _ => exact h

/-- The not-a-numbers of a copy are those of the value. -/
theorem Named.copied {v : Value} (h : v.Named) : v.copied.Named := by
  induction v with
  | list items label ih =>
    cases h with
    | list _ _ h =>
      rw [copied_list]
      exact .list _ _ (List.forall_mem_map.mpr fun v hv => ih v hv (h v hv))
  | tuple items ih =>
    cases h with
    | tuple _ h =>
      rw [copied_tuple]
      exact .tuple _ (List.forall_mem_map.mpr fun v hv => ih v hv (h v hv))
  | dict entries ih =>
    cases h with
    | dict _ hk hv =>
      rw [copied_dict]
      exact .dict _ (List.forall_mem_map.mpr fun e he => (ih e he).1 (hk e he))
        (List.forall_mem_map.mpr fun e he => (ih e he).2 (hv e he))
  | record cls attrs ih =>
    cases h with
    | record _ _ h =>
      rw [copied_record]
      exact .record _ _ (List.forall_mem_map.mpr fun a ha => ih a ha (h a ha))
  | _ => exact h

/-- A named value that holds what another value is. -/
def Holds (v u : Value) : Prop := v.Named ∧ v.unlabelled = u

/-- A value that is the other one told apart from all others: it is named, and holds what the other
one holds if that was named. -/
def ToldApart (v u : Value) : Prop := u.Named ∧ (v.Named → u.unlabelled = v.unlabelled)

/-! ### How labels are given out -/

private def labelList (items : List Value) (label : Option Nat) : StateM Supply Value :=
  match label with
  | some n => return .list items (some n)
  | none => return .list items (some (← Supply.freshLabel))

private def labelFloat (x : Double) : StateM Supply Value :=
  match x with
  | .nan none => return .float (.nan (some (← Supply.freshOrigin)))
  | x => return .float x

/-- The key and the value of an entry told apart from all other values. -/
def labelledEntry : Value × Value → StateM Supply (Value × Value) :=
  rebuildEntry labelList labelFloat pure

/-- An attribute whose value is told apart from all others. -/
def labelledAttr : String × Value → StateM Supply (String × Value) :=
  rebuildAttr labelList labelFloat pure

/-- A list keeps its label, or takes the next one after its items have taken theirs. -/
theorem labelled_list (items : List Value) (label : Option Nat) (n : Supply) :
    (list items label).labelled.run n = match label with
      | some l => (.list ((items.mapM labelled).run n).1 (some l), ((items.mapM labelled).run n).2)
      | none => (.list ((items.mapM labelled).run n).1 (some ((items.mapM labelled).run n).2.label),
          { ((items.mapM labelled).run n).2 with
            label := ((items.mapM labelled).run n).2.label + 1 }) := by
  simp only [labelled, rebuild_list]
  cases label <;> rfl

/-- The items of a tuple are told apart from left to right. -/
theorem labelled_tuple (items : List Value) (n : Supply) :
    (tuple items).labelled.run n =
      (.tuple ((items.mapM labelled).run n).1, ((items.mapM labelled).run n).2) := by
  simp only [labelled, rebuild_tuple]
  rfl

/-- The entries of a dictionary are told apart in order. -/
theorem labelled_dict (entries : List (Value × Value)) (n : Supply) :
    (dict entries).labelled.run n =
      (.dict ((entries.mapM labelledEntry).run n).1, ((entries.mapM labelledEntry).run n).2) := by
  simp only [labelled, rebuild_dict]
  rfl

/-- The attributes of a record are told apart in order. -/
theorem labelled_record (cls : InstanceRef) (attrs : List (String × Value)) (n : Supply) :
    (record cls attrs).labelled.run n =
      (.record cls ((attrs.mapM labelledAttr).run n).1, ((attrs.mapM labelledAttr).run n).2) := by
  simp only [labelled, rebuild_record]
  rfl

/-- The key of an entry is told apart before its value. -/
theorem run_labelledEntry (e : Value × Value) (n : Supply) :
    (labelledEntry e).run n =
      (((e.1.labelled.run n).1, (e.2.labelled.run (e.1.labelled.run n).2).1),
        (e.2.labelled.run (e.1.labelled.run n).2).2) := by
  obtain ⟨k, v⟩ := e
  rfl

/-- An attribute is told apart by its value. -/
theorem run_labelledAttr (a : String × Value) (n : Supply) :
    (labelledAttr a).run n = ((a.1, (a.2.labelled.run n).1), (a.2.labelled.run n).2) := by
  obtain ⟨name, v⟩ := a
  rfl

/-- The head of a list is told apart before its tail. -/
theorem run_mapM_cons {α : Type} {f : α → StateM Supply α} (x : α) (xs : List α) (n : Supply) :
    ((x :: xs).mapM f).run n =
      (((f x).run n).1 :: ((xs.mapM f).run ((f x).run n).2).1,
        ((xs.mapM f).run ((f x).run n).2).2) := by
  rw [List.mapM_cons]
  rfl

private theorem mapM_toldApart {α : Type} {f : α → StateM Supply α} {P : α → Prop} {c : α → α}
    (xs : List α) (h : ∀ x ∈ xs, ∀ n, P ((f x).run n).1 ∧ (P x → c ((f x).run n).1 = c x))
    (n : Supply) :
    (∀ y ∈ ((xs.mapM f).run n).1, P y) ∧
      ((∀ x ∈ xs, P x) → ((xs.mapM f).run n).1.map c = xs.map c) := by
  induction xs generalizing n with
  | nil =>
    rw [List.mapM_nil]
    exact ⟨fun y hy => absurd hy List.not_mem_nil, fun _ => rfl⟩
  | cons x xs ih =>
    have hx := h x (List.mem_cons_self ..) n
    have hs := ih (fun y hy => h y (List.mem_cons_of_mem x hy)) ((f x).run n).2
    rw [run_mapM_cons]
    refine ⟨List.forall_mem_cons.mpr ⟨hx.1, hs.1⟩, fun hp => ?_⟩
    obtain ⟨hpx, hps⟩ := List.forall_mem_cons.mp hp
    rw [List.map_cons, List.map_cons, hx.2 hpx, hs.2 hps]

private theorem labelledEntry_toldApart (e : Value × Value)
    (h : (∀ n, e.1.ToldApart (e.1.labelled.run n).1) ∧
      ∀ n, e.2.ToldApart (e.2.labelled.run n).1) (n : Supply) :
    (((labelledEntry e).run n).1.1.Named ∧ ((labelledEntry e).run n).1.2.Named) ∧
      (e.1.Named ∧ e.2.Named →
        unlabelledEntry ((labelledEntry e).run n).1 = unlabelledEntry e) := by
  have hk := h.1 n
  have hv := h.2 (e.1.labelled.run n).2
  rw [run_labelledEntry]
  exact ⟨⟨hk.1, hv.1⟩, fun hn => Prod.ext (hk.2 hn.1) (hv.2 hn.2)⟩

private theorem labelledAttr_toldApart (a : String × Value)
    (h : ∀ n, a.2.ToldApart (a.2.labelled.run n).1) (n : Supply) :
    ((labelledAttr a).run n).1.2.Named ∧
      (a.2.Named → unlabelledAttr ((labelledAttr a).run n).1 = unlabelledAttr a) := by
  rw [run_labelledAttr]
  exact ⟨(h n).1, fun hn => Prod.ext rfl ((h n).2 hn)⟩

/-- A value is told apart by labels, wherever the labels start. -/
theorem labelled_toldApart (v : Value) (n : Supply) : v.ToldApart (v.labelled.run n).1 := by
  induction v generalizing n with
  | float x =>
    cases x with
    | nan origin =>
      cases origin with
      | none => exact ⟨.float _ (by simp), fun h => by cases h; contradiction⟩
      | some m => exact ⟨.float _ (by simp), fun _ => rfl⟩
    | infinite negative => exact ⟨.float _ (by simp), fun _ => rfl⟩
    | finite negative exponent fraction => exact ⟨.float _ (by simp), fun _ => rfl⟩
  | list items label ih =>
    have hi := mapM_toldApart items ih n
    have hr : ∃ l, ((list items label).labelled.run n).1 =
        .list ((items.mapM labelled).run n).1 l := by
      rw [labelled_list]
      cases label <;> exact ⟨_, rfl⟩
    obtain ⟨l, hr⟩ := hr
    rw [hr]
    refine ⟨.list _ _ hi.1, fun h => ?_⟩
    cases h with
    | list _ _ h => rw [unlabelled_list, unlabelled_list, hi.2 h]
  | tuple items ih =>
    have hi := mapM_toldApart items ih n
    rw [labelled_tuple]
    refine ⟨.tuple _ hi.1, fun h => ?_⟩
    cases h with
    | tuple _ h => rw [unlabelled_tuple, unlabelled_tuple, hi.2 h]
  | dict entries ih =>
    have hi := mapM_toldApart (f := labelledEntry) (P := fun e => e.1.Named ∧ e.2.Named)
      (c := unlabelledEntry) entries (fun e he n => labelledEntry_toldApart e (ih e he) n) n
    rw [labelled_dict]
    refine ⟨.dict _ (fun e he => (hi.1 e he).1) (fun e he => (hi.1 e he).2), fun h => ?_⟩
    cases h with
    | dict _ hk hv =>
      rw [unlabelled_dict, unlabelled_dict, hi.2 fun e he => ⟨hk e he, hv e he⟩]
  | record cls attrs ih =>
    have hi := mapM_toldApart (f := labelledAttr) (P := fun a => a.2.Named)
      (c := unlabelledAttr) attrs (fun a ha n => labelledAttr_toldApart a (ih a ha) n) n
    rw [labelled_record]
    refine ⟨.record _ _ hi.1, fun h => ?_⟩
    cases h with
    | record _ _ h => rw [unlabelled_record, unlabelled_record, hi.2 h]
  | null => exact ⟨.null, fun _ => rfl⟩
  | bool b => exact ⟨.bool b, fun _ => rfl⟩
  | int i => exact ⟨.int i, fun _ => rfl⟩
  | str s => exact ⟨.str s, fun _ => rfl⟩
  | bytes bs => exact ⟨.bytes bs, fun _ => rfl⟩
  | dateTime d => exact ⟨.dateTime d, fun _ => rfl⟩
  | date d => exact ⟨.date d, fun _ => rfl⟩
  | time t => exact ⟨.time t, fun _ => rfl⟩

end Value

namespace World

/-- A value as it is once it has been told apart from all others. -/
def adopted (w : World) (v : Value) : Value := (v.labelled.run w.supply).1

/-- The world in which the labels that a value takes are in use. -/
def adopting (w : World) (v : Value) : World :=
  { w with supply := (v.labelled.run w.supply).2 }

/-- Telling a value apart in a world takes numbers from its supply and does nothing else. -/
theorem exec_adopt (v : Value) (w : World) :
    exec (adopt v) w = (.ok (w.adopted v), w.adopting v) := rfl

/-- The not-a-numbers of a value that has been told apart are known. -/
theorem named_adopted (w : World) (v : Value) : (w.adopted v).Named :=
  (v.labelled_toldApart w.supply).1

/-- A named value holds the same after it has been told apart. -/
theorem unlabelled_adopted (w : World) {v : Value} (h : v.Named) :
    (w.adopted v).unlabelled = v.unlabelled :=
  (v.labelled_toldApart w.supply).2 h

end World

end SchemaBinding
