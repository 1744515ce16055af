import SchemaBinding.Proofs.DeclaredFields
import SchemaBinding.Proofs.MadeCalls

/-!
# Fields that a payload leaves unset

A record has no attribute for a field that a payload leaves unset; reading it asks the class. A
class answers with the absent value if the field was declared in the body of a class that it
inherits from, or through one, itself included. A field that was only ever declared in registries is
not known to any class, and reading it fails.
-/

namespace SchemaBinding

namespace ClassTable

/-- Nothing but absent values stands under a name in the classes that a class inherits from, itself
included. -/
def Free (t : ClassTable) (c : ClassRef) (name : String) : Prop :=
  ∀ k ∈ t.order c, ∀ a ∈ t.ownAttribute? k name, a = .null

instance (t : ClassTable) (c : ClassRef) (name : String) : Decidable (t.Free c name) :=
  inferInstanceAs (Decidable (∀ k ∈ t.order c, ∀ a ∈ t.ownAttribute? k name, a = .null))

variable {t : ClassTable} {c : ClassRef} {name : String}

/-- A class has an attribute because a class that it inherits from has it. -/
theorem exists_own_of_attribute? {a : ClassAttribute} (h : t.attribute? c name = some a) :
    ∃ k ∈ t.order c, t.ownAttribute? k name = some a := by
  rw [attribute?_eq_findSome?] at h
  exact List.exists_of_findSome?_eq_some h

private theorem Free.attribute?_eq_null (h : t.Free c name) (ha : (t.attribute? c name).isSome) :
    t.attribute? c name = some .null := by
  obtain ⟨a, ha⟩ := Option.isSome_iff_exists.mp ha
  obtain ⟨k, hk, hown⟩ := exists_own_of_attribute? ha
  rw [ha, h k hk a hown]

/-- A class answers to a name under which a class that it inherits from has something. -/
theorem isSome_attribute?_of_not_free (h : ¬ t.Free c name) : (t.attribute? c name).isSome := by
  simp only [Free, not_forall] at h
  obtain ⟨k, hk, a, ha, -⟩ := h
  rw [isSome_attribute?_iff]
  exact ⟨k, hk, by rw [Option.mem_def.mp ha]; rfl⟩

/-- A class answers to the names to which a class answers that it inherits from. -/
theorem Lawful.isSome_attribute?_of_mem (ht : t.Lawful) {k : ClassRef} (hk : k ∈ t.order c)
    (h : (t.attribute? k name).isSome) : (t.attribute? c name).isSome := by
  obtain ⟨m, hm, ha⟩ := isSome_attribute?_iff.mp h
  exact isSome_attribute?_iff.mpr ⟨m, ht.order_subset hk hm, ha⟩

end ClassTable

/-! ### Declared fields and the calls that declared them -/

/-- A call that succeeds declares a field for the classes that inherit from its class. -/
def DeclareCall.Declares (t : ClassTable) (call : DeclareCall) (c : ClassRef) (name : String) :
    Prop :=
  call.cls ∈ t.order c ∧ call.field = name

instance (t : ClassTable) (call : DeclareCall) (c : ClassRef) (name : String) :
    Decidable (call.Declares t c name) :=
  inferInstanceAs (Decidable (call.cls ∈ t.order c ∧ call.field = name))

/-- A call that succeeds makes known a field to the classes that inherit from its class. -/
def DeclareCall.Reveals (t : ClassTable) (call : DeclareCall) (c : ClassRef) (name : String) :
    Prop :=
  ∃ k ∈ t.order c, call.Enters k name

instance (call : DeclareCall) (c : ClassRef) (name : String) : Decidable (call.Enters c name) := by
  unfold DeclareCall.Enters
  cases call.site <;> infer_instance

instance (t : ClassTable) (call : DeclareCall) (c : ClassRef) (name : String) :
    Decidable (call.Reveals t c name) :=
  inferInstanceAs (Decidable (∃ k ∈ t.order c, call.Enters k name))

private theorem DeclareCall.exists_made_of_mem_allChanges {i : Nat} {w : World}
    {calls : List DeclareCall}
    {d : Declaration} (h : .declared d ∈ allChanges i w calls) :
    ∃ call ∈ made w calls, call.cls = d.cls ∧ call.field = d.field := by
  induction calls generalizing w with
  | nil => cases h
  | cons call rest ih =>
    rw [allChanges] at h
    rw [made]
    rcases hr : exec call.run w with ⟨e | ⟨⟩, v⟩
    · rw [hr] at h
      cases h
    · rw [hr] at h
      rcases List.mem_append.mp h with h | h
      · rw [changes] at h
        split at h
        · cases List.mem_singleton.mp h
          exact ⟨call, List.mem_cons_self .., rfl, rfl⟩
        · cases h
      · obtain ⟨made, hm, hd⟩ := ih h
        exact ⟨made, List.mem_cons_of_mem _ hm, hd⟩

namespace Session

open World Binding

/-- What a step declares is declared by one of its calls. -/
theorem exists_made_of_mem_changes {i : Nat} {s : Session} {op : Operation} {d : Declaration}
    (h : .declared d ∈ s.changes i op) :
    ∃ call ∈ s.made op, call.cls = d.cls ∧ call.field = d.field := by
  rcases List.mem_append.mp h with h | h
  · exact absurd h (op.declared_not_mem_forgets i d)
  · rw [opened] at h
    rw [made]
    generalize exec op.opens s.fresh.world = r at h ⊢
    obtain ⟨e | calls, v⟩ := r
    · cases h
    · exact DeclareCall.exists_made_of_mem_allChanges h

private theorem exists_made_of_mem_history {i : Nat} {s : Session} {ops : List Operation}
    {d : Declaration}
    (h : .declared d ∈ history i s ops) :
    ∃ call ∈ s.madeBy ops, call.cls = d.cls ∧ call.field = d.field := by
  induction ops generalizing s with
  | nil => cases h
  | cons op ops ih =>
    rcases List.mem_append.mp h with h | h
    · obtain ⟨call, hm, hd⟩ := exists_made_of_mem_changes h
      exact ⟨call, List.mem_append_left _ hm, hd⟩
    · obtain ⟨call, hm, hd⟩ := ih h
      exact ⟨call, List.mem_append_right _ hm, hd⟩

/-- A field that a class has in a registry was declared by a call. -/
theorem exists_made_of_mem_fields {ops : List Operation} {i : Nat} {c : ClassRef} {name : String}
    (h : name ∈
      (((initial.after ops).world.registry i).fields (initial.after ops).world.classes c).map
        FieldContract.name) :
    ∃ call ∈ initial.madeBy ops, call.Declares (initial.after ops).world.classes c name := by
  obtain ⟨f, hf, rfl⟩ := List.mem_map.mp h
  obtain ⟨k, hk, hown⟩ := Registry.exists_own_of_mem_fields hf
  rw [own_after] at hown
  obtain ⟨name, hname, rfl⟩ := List.mem_map.mp hown
  obtain ⟨d, hd, rfl⟩ := (Declaration.mem_names _).mp hname
  obtain ⟨call, hm, hcls, hfield⟩ :=
    exists_made_of_mem_history (ContractChange.mem_of_mem_latest hd)
  have hc := hcls.trans (ContractChange.cls_of_mem_latest hd)
  refine ⟨call, hm, hc ▸ hk, ?_⟩
  rw [hfield, Declaration.name_contract]

/-! ### Reading what is unset -/

variable {s t : Session} {c : ClassRef} {name : String}

/-- A class answers to a name under which there are only absent values exactly if a call made the
field known to it. -/
theorem isSome_attribute?_iff_reveals {ops : List Operation} (ho : initial.AllGrounded ops)
    (hfree : (initial.after ops).world.classes.Free c name) :
    ((initial.after ops).world.classes.attribute? c name).isSome ↔
      ∃ call ∈ initial.madeBy ops, call.Reveals (initial.after ops).world.classes c name := by
  constructor
  · intro ha
    obtain ⟨k, hk, hnull⟩ :=
      ClassTable.exists_own_of_attribute? (hfree.attribute?_eq_null ha)
    rcases (extends_after .initial ops).nulls k name hnull with h | ⟨call, hm, he⟩
    · have hnone : ∀ info ∈ ClassTable.initial, ∀ a ∈ info.attributes, a.2 ≠ .null := by decide
      obtain ⟨info, hi, h⟩ := Option.bind_eq_some_iff.mp h
      obtain ⟨a, hfind, hnull⟩ := Option.map_eq_some_iff.mp h
      exact absurd hnull
        (hnone info (List.mem_of_find?_eq_some hi) a (List.mem_of_find?_eq_some hfind))
    · exact ⟨call, hm, k, hk, he⟩
  · rintro ⟨call, hm, k, hk, he⟩
    have hl := (Grounded.initial.after ho).established.lawful
    exact hl.isSome_attribute?_of_mem hk (answers_after .initial ho hm he)

/-- The kept record of a bind is of the class that was asked for. -/
theorem cls_of_bindTarget {way : BindWay} {data : Value} {w v : World} {k : Kept}
    (h : exec (bindTarget planOf way (.cls c) data) w = (.ok k, v)) : k.cls = c := by
  cases way with
  | call =>
    rw [bindTarget, exec_bind_of_ok (exec_get w)] at h
    split at h
    · obtain ⟨_, u, -, h⟩ := exec_bind_eq_ok_iff.mp h
      obtain ⟨attrs, x, -, h⟩ := exec_bind_eq_ok_iff.mp h
      cases h
      rfl
    · cases h
  | fromDict =>
    rw [bindTarget, exec_bind_of_ok (exec_get w)] at h
    obtain ⟨_, u, -, h⟩ := exec_bind_eq_ok_iff.mp h
    obtain ⟨attrs, x, -, h⟩ := exec_bind_eq_ok_iff.mp h
    cases h
    rfl
  | binder i =>
    rw [exec_bindTarget] at h
    split at h <;> cases h
    rfl

/-- A bind that succeeds keeps a record of its class, and leaves the classes as they are. -/
theorem exists_view_of_bind (hs : s.Reachable) {way : BindWay} {data : Value} {o : Outcome}
    (h : s.step (.bind way (.cls c) data true) = (.ok o, t)) :
    t.world.classes = s.world.classes ∧ ∃ k, t.view s.records.length = some k ∧ k.cls = c := by
  have hw : s.fresh.world.Consistent := hs.consistent.clearJournal
  have hcalm := (calm_of_agree hw fun K hK => agree_bindTarget hK way (.cls c) data).2
  change exec (act (bindTarget planOf way (.cls c) data) >>= fun k =>
    keep k >>= fun _ => shown k.toValue) s.fresh = _ at h
  rw [exec_bind_act] at h
  rcases hb : exec (bindTarget planOf way (.cls c) data) s.fresh.world with ⟨e | k, w⟩
  · rw [hb] at h
    cases h
  · rw [hb] at h hcalm
    dsimp only at h
    rw [exec_bind_of_ok (exec_keep _ _), exec_shown] at h
    obtain rfl : { s.fresh with world := w, records := s.records ++ [k] } = t :=
      congrArg Prod.snd h
    have hcls := cls_of_bindTarget hb
    refine ⟨hcalm.classes, k.current w.growth, ?_, hcls⟩
    rw [view, List.getElem?_concat_length]
    rfl

/-- Reading an attribute that a record has not is reading what its class has under the name. -/
theorem step_getAttr_of_unset {n : Nat} {k : Kept} (hk : t.view n = some k)
    (hn : Value.attr? name k.attrs = none) :
    (t.step (.getAttr n name)).1 = match t.world.classes.attribute? k.cls name with
      | some .null => .ok (.value .null)
      | some _ => .ok .noValue
      | none => .error (.attribute (.ofInstance k.cls.name name)) := by
  have hr : exec (record n) t.fresh = (.ok k, t.fresh) := by
    have hv : t.fresh.view n = some k := hk
    rw [exec_record, hv]
    rfl
  have ha : readAttr t.fresh.world.classes k name =
      match t.world.classes.attribute? k.cls name with
      | some .null => .ok (.value .null)
      | some _ => .ok .noValue
      | none => .error (.attribute (.ofInstance k.cls.name name)) := by
    rw [readAttr, hn]
    rfl
  rw [step_eq, run, exec_bind_of_ok hr, exec_bind_of_ok (exec_get _), ha]
  rcases t.world.classes.attribute? k.cls name with _ | a
  · rfl
  · cases a <;> rfl

/-- An attribute that a record has not, and under whose name there are only absent values, reads as
the absent value if its class answers to the name, and else there is no such attribute. -/
theorem step_getAttr_of_free {n : Nat} {k : Kept} (hk : t.view n = some k)
    (hn : Value.attr? name k.attrs = none) (hfree : t.world.classes.Free k.cls name) :
    (t.step (.getAttr n name)).1 = if (t.world.classes.attribute? k.cls name).isSome then
      .ok (.value .null) else .error (.attribute (.ofInstance k.cls.name name)) := by
  rw [step_getAttr_of_unset hk hn]
  cases ha : t.world.classes.attribute? k.cls name with
  | none => rfl
  | some a =>
    have hnull := hfree.attribute?_eq_null (by rw [ha]; rfl)
    cases ha.symm.trans hnull
    rfl

/-- A field that a class has in some registry was declared by a call. If a payload leaves it unset
and nothing but absent values stands under its name, it reads as the absent value exactly if such a
call was made in the body of a class or through one; if all of them were made in registries, reading
it fails. Where a class has something else under the name, reading it does not fail. -/
theorem unset_field_read {ops : List Operation} (ho : initial.AllGrounded ops) {c : ClassRef}
    {i : Nat} {name : String}
    (hf : name ∈ (((initial.after ops).world.registry i).fields
      (initial.after ops).world.classes c).map FieldContract.name)
    {way : BindWay} {data : Value} {o : Outcome} {t : Session}
    (hb : (initial.after ops).step (.bind way (.cls c) data true) = (.ok o, t)) :
    let classes := (initial.after ops).world.classes
    let n := (initial.after ops).records.length
    let read := (t.step (.getAttr n name)).1
    (∃ call ∈ initial.madeBy ops, call.Declares classes c name) ∧
      ∃ k, t.view n = some k ∧ k.cls = c ∧ (Value.attr? name k.attrs = none →
        (classes.Free c name →
          (read = .ok (.value .null) ↔
            ∃ call ∈ initial.madeBy ops, call.Reveals classes c name) ∧
          (read = .error (.attribute (.ofInstance c.name name)) ↔
            ∀ call ∈ initial.madeBy ops, ¬ call.Reveals classes c name)) ∧
        (¬ classes.Free c name → ∀ f, read ≠ .error f)) := by
  intro classes n read
  obtain ⟨hclasses, k, hk, rfl⟩ := exists_view_of_bind (reachable_after .initial ops) hb
  refine ⟨exists_made_of_mem_fields hf, k, hk, rfl, fun hn => ⟨fun hfree => ?_, fun hfree f => ?_⟩⟩
  · have hread : read = if (classes.attribute? k.cls name).isSome then .ok (.value .null)
        else .error (.attribute (.ofInstance k.cls.name name)) := by
      have hr := step_getAttr_of_free hk hn (by rw [hclasses]; exact hfree)
      rwa [hclasses] at hr
    have hreveals := isSome_attribute?_iff_reveals ho hfree
    by_cases ha : (classes.attribute? k.cls name).isSome = true
    · rw [hread, if_pos ha]
      have he := hreveals.mp ha
      exact ⟨iff_of_true rfl he, iff_of_false (by simp) fun hno => by
        obtain ⟨call, hm, hr⟩ := he
        exact hno call hm hr⟩
    · rw [hread, if_neg ha]
      have he := mt hreveals.mpr ha
      exact ⟨iff_of_false (by simp) he, iff_of_true rfl fun call hm hr => he ⟨call, hm, hr⟩⟩
  · have hsome := ClassTable.isSome_attribute?_of_not_free hfree
    obtain ⟨a, ha⟩ := Option.isSome_iff_exists.mp hsome
    have hread := step_getAttr_of_unset hk hn
    rw [hclasses, ha] at hread
    change (t.step (.getAttr n name)).1 ≠ .error f
    rw [hread]
    cases a <;> simp

/-- A class of leaves with a field that is declared in its body. -/
def leaf : ClassRef := ⟨5, "Leaf", true⟩

/-- A class of leaves without fields of its own. -/
def petal : ClassRef := ⟨6, "Petal", true⟩

/-- Leaves get two more fields in the default registry, one of them named like a method. -/
def growing : List Operation := [
  .newClass "Leaf" [.schemaBase] none [("size", ⟨.basic .int, []⟩)],
  .newClass "Petal" [leaf] none [],
  .declare 0 (.cls leaf) (.str "hue") [] none,
  .declare 0 (.cls leaf) (.str "contracts") [] none]

/-- The session after that, with a petal that no field is set of. -/
def grown : Session := ((initial.after growing).step (.bind .call (.cls petal) (.dict []) true)).2

/-- A petal without fields reads as absent what is declared in the body of the class of leaves. It
has no attribute for what was declared in the registry, unless there is a method of that name. -/
theorem petal_read :
    (grown.step (.getAttr 0 "size")).1 = .ok (.value .null) ∧
      (grown.step (.getAttr 0 "hue")).1 = .error (.attribute (.ofInstance "Petal" "hue")) ∧
      ∀ f, (grown.step (.getAttr 0 "contracts")).1 ≠ .error f := by
  have hok : ((initial.after growing).step
      (.bind .call (.cls petal) (.dict []) true)).1.toOption.map (fun _ => ()) = some () := by
    decide +kernel
  obtain ⟨o, ho, -⟩ := exists_ok_of_map_toOption hok
  have hlength : (initial.after growing).records.length = 0 := by decide +kernel
  have hview : (grown.view 0).map (fun k => k.attrs.length) = some 0 := by decide +kernel
  have hground : initial.AllGrounded growing := by decide +kernel
  have hread := fun (name : String) (hf : name ∈ _) =>
    unset_field_read (i := 0) hground hf (Prod.ext ho rfl : _ = (Except.ok o, grown))
  simp only [hlength] at hread
  have hunset : ∀ k, grown.view 0 = some k → ∀ name, Value.attr? name k.attrs = none := by
    intro k hk name
    rw [hk] at hview
    rw [List.length_eq_zero_iff.mp (Option.some.inj hview)]
    rfl
  refine ⟨?_, ?_, ?_⟩
  · obtain ⟨-, k, hk, -, hr⟩ := hread "size" (by decide +kernel)
    exact ((hr (hunset k hk _)).1 (by decide +kernel)).1.mpr (by decide +kernel)
  · obtain ⟨-, k, hk, -, hr⟩ := hread "hue" (by decide +kernel)
    exact ((hr (hunset k hk _)).1 (by decide +kernel)).2.mpr (by decide +kernel)
  · obtain ⟨-, k, hk, -, hr⟩ := hread "contracts" (by decide +kernel)
    exact (hr (hunset k hk _)).2 (by decide +kernel)

end Session

end SchemaBinding
