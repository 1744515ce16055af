import SchemaBinding.Proofs.GroundedSessions
import SchemaBinding.Proofs.TableSpecs

/-!
# Schema classes that a world gains

The classes of a table are created one after another, before any field is declared. This module says
what the world has gained by that: new classes that inherit from the base of the schema classes
alone, have one binder and are known to its registry. So much stays true while fields are declared.
-/

namespace SchemaBinding

namespace World

variable {w v u : World} {binder : Option Nat} {cs : List ClassRef} {c : ClassRef}

/-! ### Schema classes that a world gains -/

/-- What a table says of a class that inherits from the base of the schema classes alone. -/
structure IsSchemaOf (info : ClassInfo) (binder : Option Nat) : Prop where
  order : info.order = [info.ref, .schemaBase, .object]
  binder : info.binder = binder

/-- The registry of schemas that are given a binder; the default one, if they are given none. -/
def registryFor (w : World) (binder : Option Nat) : Nat := (w.binder (binder.getD 0)).registry

private theorem registryFor_congr (h : v.binders = w.binders) : v.registryFor = w.registryFor := by
  funext binder
  rw [registryFor, registryFor, World.binder, World.binder, h]

/-- The binder of a schema is the one that it was given. -/
theorem Established.registryOf_eq (h : w.Established) {info : ClassInfo} (hi : info ∈ w.classes)
    (hs : IsSchemaOf info binder) : w.registryOf info.ref = w.registryFor binder := by
  obtain ⟨base, hbase, hbaseRoots, -⟩ := h.lawful.info?_schemaBase
  obtain ⟨root, hroot, hrootRoots⟩ := h.lawful.info?_object
  have hinfo := h.lawful.info?_of_mem hi
  have hbinder : w.classes.binder? info.ref = binder := by
    rw [ClassTable.binder?, h.lawful.order_of_mem hi, hs.order]
    cases binder <;>
      simp [hinfo, hbase, hroot, hs.binder, hbaseRoots.binder, hrootRoots.binder]
  rw [World.registryOf, binderOf, hbinder, registryFor]

/-- A world has some more schema classes than another. They have one binder, and are all that its
registry knows more. -/
structure Gains (w : World) (binder : Option Nat) (cs : List ClassRef) (v : World) : Prop where
  established : v.Established
  classes : ∃ added : ClassTable, v.classes = w.classes ++ added ∧ added.map ClassInfo.ref = cs ∧
    ∀ info ∈ added, IsSchemaOf info binder
  binders : v.binders = w.binders
  knows : ∀ c, (v.registry (w.registryFor binder)).knows c = true ↔
    (w.registry (w.registryFor binder)).knows c = true ∨ c ∈ cs

/-- An established world has gained no schemas over itself. -/
theorem Established.gains (h : w.Established) (binder : Option Nat) : w.Gains binder [] w where
  established := h
  classes := ⟨[], (List.append_nil _).symm, rfl, by simp⟩
  binders := rfl
  knows c := by simp

namespace Gains

variable (h : w.Gains binder cs v)

include h

private theorem exists_info (hc : c ∈ cs) :
    ∃ info ∈ v.classes, info.ref = c ∧ IsSchemaOf info binder := by
  obtain ⟨added, hv, rfl, hall⟩ := h.classes
  obtain ⟨info, hi, rfl⟩ := List.mem_map.mp hc
  refine ⟨info, ?_, rfl, hall info hi⟩
  rw [hv]
  exact List.mem_append_right _ hi

/-- A schema that was gained is in the table. -/
theorem has (hc : c ∈ cs) : v.classes.Has c := by
  obtain ⟨info, hi, hr, -⟩ := h.exists_info hc
  exact ⟨info, hi, hr⟩

/-- A schema that was gained inherits from the base of the schemas alone. -/
theorem order (hc : c ∈ cs) : v.classes.order c = [c, .schemaBase, .object] := by
  obtain ⟨info, hi, rfl, hs⟩ := h.exists_info hc
  rw [h.established.lawful.order_of_mem hi, hs.order]

/-- Schemas that were gained are new. -/
theorem nodup_append : (w.classes.map ClassInfo.ref ++ cs).Nodup := by
  obtain ⟨added, hv, rfl, -⟩ := h.classes
  rw [← List.map_append, ← hv]
  exact h.established.lawful.nodup_ref

/-- The classes are different from one another. -/
theorem nodup : cs.Nodup := (List.nodup_append.mp h.nodup_append).2.1

/-- The classes are new. -/
theorem not_has (hc : c ∈ cs) : ¬ w.classes.Has c := by
  rintro ⟨info, hi, rfl⟩
  exact (List.nodup_append.mp h.nodup_append).2.2 _ (List.mem_map_of_mem hi) _ hc rfl

private theorem ne_schemaBase (hc : c ∈ cs) : c ≠ .schemaBase := by
  rintro rfl
  have ho := h.order hc
  rw [h.established.lawful.order_schemaBase] at ho
  simp at ho

/-- The binder of the classes is the one that they were given. -/
theorem registryOf (hc : c ∈ cs) : v.registryOf c = w.registryFor binder := by
  obtain ⟨info, hi, rfl, hs⟩ := h.exists_info hc
  rw [h.established.registryOf_eq hi hs, registryFor_congr h.binders]

/-- What else changes in the world matters not, as long as the same classes are known. -/
theorem of_eq (hu : u.Established) (hc : u.classes = v.classes) (hb : u.binders = v.binders)
    (hk : (u.registry (w.registryFor binder)).knows = (v.registry (w.registryFor binder)).knows) :
    w.Gains binder cs u where
  established := hu
  classes := hc ▸ h.classes
  binders := hb.trans h.binders
  knows c := by rw [hk, h.knows]

/-- An attribute of one of the classes may be set to the absent value. -/
theorem setNull (hc : c ∈ cs) {name : String} (hn : name ≠ ClassTable.binderName) :
    w.Gains binder cs { v with classes := v.classes.setNull c name } where
  established := (h.established.setNull hn fun hb => absurd hb (h.ne_schemaBase hc)).established
  classes := by
    obtain ⟨added, hv, rfl, hall⟩ := h.classes
    have hold : ClassTable.setNull w.classes c name = w.classes := by
      apply ClassTable.setNull_of_forall_ne
      rintro info hi rfl
      exact h.not_has hc ⟨info, hi, rfl⟩
    refine ⟨ClassTable.setNull added c name, ?_, ?_, ?_⟩
    · rw [hv, ClassTable.setNull, List.map_append, ← ClassTable.setNull, ← ClassTable.setNull, hold]
    · rw [ClassTable.setNull, List.map_map]
      exact List.map_congr_left fun info _ => info.ref_putNull c name
    · intro info hi
      obtain ⟨other, ho, rfl⟩ := List.mem_map.mp hi
      split
      · exact ⟨(hall other ho).order, (hall other ho).binder⟩
      · exact hall other ho
  binders := h.binders
  knows := h.knows

end Gains

/-! ### Creating the classes -/

/-- A schema class has the binder of the base of the schema classes, if nothing stands in its
place. -/
theorem Established.requireBinder_ok (h : w.Established) {info : ClassInfo} (hi : info ∈ w.classes)
    (hs : IsSchemaOf info binder) (ha : info.attributes = []) :
    requireBinder w.classes info.ref = .ok () := by
  obtain ⟨base, hbase, hbaseRoots, hmethods⟩ := h.lawful.info?_schemaBase
  obtain ⟨root, hroot, hrootRoots⟩ := h.lawful.info?_object
  have hinfo := h.lawful.info?_of_mem hi
  have ho : w.classes.order info.ref = [info.ref, .schemaBase, .object] := by
    rw [h.lawful.order_of_mem hi, hs.order]
  have hmethod : w.classes.attribute? info.ref ClassTable.binderMethod = some .method := by
    rw [ClassTable.attribute?, ho, List.findSome?_cons, hinfo, Option.bind_some, ha,
      List.findSome?_cons, hbase, Option.bind_some,
      hmethods ClassTable.binderMethod (by decide)]
    rfl
  have hrequire : requireMethod w.classes info.ref ClassTable.binderMethod = .ok () := by
    rw [requireMethod, hmethod]
  have hplain : ∀ {x : ClassInfo} {d order}, ClassTable.Roots x d order →
      (x.binder.isSome || x.attributes.any fun a => a.1 == ClassTable.binderName) = false := by
    intro x d order hx
    rw [hx.binder, Option.isSome_none, Bool.false_or, List.any_eq_false]
    intro a hm he
    exact hx.attributes a hm (eq_of_beq he)
  have hhides : w.classes.hidesBinder info.ref = false := by
    rw [ClassTable.hidesBinder, ho]
    cases hb : info.binder <;> simp [hinfo, hbase, hroot, ha, hb,
      hplain hbaseRoots, hplain hrootRoots]
  rw [requireBinder]
  change (requireMethod w.classes info.ref ClassTable.binderMethod >>= fun _ => _) = _
  rw [hrequire, hhides]
  rfl

/-- An identifier holds no null character. -/
theorem not_contains_null {name : String} (h : Text.isIdentifier name = true) :
    name.toList.contains '\x00' = false := by
  have hstart : Text.isIdentifierStart '\x00' = false := by decide
  have hcontinue : Text.isIdentifierContinue '\x00' = false := by decide
  unfold Text.isIdentifier at h
  cases hl : name.toList with
  | nil => rfl
  | cons c cs =>
    rw [hl] at h
    obtain ⟨hc, hcs⟩ := Bool.and_eq_true_iff.mp h
    rw [List.contains_eq_mem, decide_eq_false_iff_not]
    intro hm
    rcases List.mem_cons.mp hm with rfl | hm
    · rw [hstart] at hc
      cases hc
    · rw [List.all_eq_true.mp hcs _ hm] at hcontinue
      cases hcontinue

/-- A schema without fields in its body can be entered under a valid name. -/
theorem Established.enterable (h : w.Established) (binder : Option Nat) {name : String}
    (hn : Table.ValidName name) :
    w.Enterable name [.schemaBase] binder [] [.schemaBase, .object] where
  body := by
    rw [checkBody, not_contains_null hn.1]
    rfl
  distinct := rfl
  merged := by
    have hbases : basesOf [.schemaBase] = [.schemaBase] := rfl
    rw [hbases, ClassTable.mergeBases, List.map_singleton, h.lawful.order_schemaBase]
    rfl
  keywords := by cases binder <;> rfl

/-- What the table will say of a schema without fields in its body. -/
def schemaInfo (w : World) (name : String) (binder : Option Nat) : ClassInfo :=
  w.newInfo name [.schemaBase, .object] binder []

private theorem isSchemaOf_schemaInfo (w : World) (name : String) (binder : Option Nat) :
    IsSchemaOf (w.schemaInfo name binder) binder := ⟨rfl, rfl⟩

section Create

variable (h : w.Established) (binder : Option Nat) {name : String} (hn : Table.ValidName name)

include h hn

private theorem Established.enter_schemaInfo : (w.enter (w.schemaInfo name binder)).Established ∧
    w.schemaInfo name binder ∈ (w.enter (w.schemaInfo name binder)).classes :=
  ⟨(h.enter h.has_bases (h.enterable binder hn)).established,
    List.mem_append_right _ (List.mem_singleton_self _)⟩

private theorem Established.registryOf_schemaInfo :
    (w.enter (w.schemaInfo name binder)).registryOf (w.schemaInfo name binder).ref =
      w.registryFor binder := by
  obtain ⟨hx, hm⟩ := h.enter_schemaInfo binder hn
  rw [hx.registryOf_eq hm (isSchemaOf_schemaInfo w name binder)]
  exact congrFun (registryFor_congr rfl) binder

/-- A schema without fields in its body is created. -/
theorem Established.exec_createClass : exec (createClass name [.schemaBase] binder []) w =
    (.ok (w.schemaInfo name binder).ref, w.enroll (w.schemaInfo name binder)) := by
  have he := h.enterable binder hn
  obtain ⟨hx, hm⟩ := h.enter_schemaInfo binder hn
  have hschema : [ClassRef.schemaBase, .object].contains .schemaBase = true := rfl
  have hrequire : requireBinder (w.classes ++ [w.schemaInfo name binder])
      (w.schemaInfo name binder).ref = .ok () :=
    hx.requireBinder_ok hm (isSchemaOf_schemaInfo w name binder) rfl
  have hopen : exec (openClass name [.schemaBase] binder []) w =
      (.ok ((w.schemaInfo name binder).ref, some (w.registryFor binder)),
        w.enroll (w.schemaInfo name binder)) := by
    rw [schemaInfo] at hrequire
    rw [he.exec_openClass, if_pos hschema, hrequire, ← schemaInfo,
      h.registryOf_schemaInfo binder hn]
  exact exec_bind_of_ok hopen _

/-- It is known to the registry of its binder. -/
theorem Established.registry_enroll :
    (w.enroll (w.schemaInfo name binder)).registry (w.registryFor binder) =
      (w.registry (w.registryFor binder)).register (w.schemaInfo name binder).ref := by
  obtain ⟨hx, -⟩ := h.enter_schemaInfo binder hn
  have hi := h.registryOf_schemaInfo binder hn
  have hl : w.registryFor binder < (w.enter (w.schemaInfo name binder)).registries.length := by
    rw [← hi]
    exact hx.registry _
  rw [World.enroll, hi, registry_setRegistry, if_pos ⟨rfl, hl⟩]
  rfl

end Create

/-- A schema without fields in its body is one more class that the world gains. -/
theorem Gains.exec_createClass (h : w.Gains binder cs v) {name : String}
    (hn : Table.ValidName name) :
    ∃ c u, exec (createClass name [.schemaBase] binder []) v = (.ok c, u) ∧
      w.Gains binder (cs ++ [c]) u ∧ c.name = name ∧
      ∀ d, (u.registry (w.registryFor binder)).own d =
        (v.registry (w.registryFor binder)).own d := by
  let info := v.schemaInfo name binder
  have he := h.established.enterable binder hn
  have hreg := h.established.registry_enroll binder hn
  rw [registryFor_congr h.binders] at hreg
  refine ⟨info.ref, v.enroll info, h.established.exec_createClass binder hn, ?_, rfl, ?_⟩
  · refine ⟨(h.established.enroll h.established.has_bases he).established, ?_, h.binders, ?_⟩
    · obtain ⟨added, hv, rfl, hall⟩ := h.classes
      refine ⟨added ++ [info], ?_, List.map_append, ?_⟩
      · rw [← List.append_assoc, ← hv]
        rfl
      · intro other ho
        rcases List.mem_append.mp ho with ho | ho
        · exact hall other ho
        · rw [List.mem_singleton.mp ho]
          exact isSchemaOf_schemaInfo v name binder
    · intro c
      rw [hreg]
      change ((v.registry (w.registryFor binder)).know info.ref).knows c = true ↔ _
      rw [Registry.knows_know, Bool.or_eq_true, h.knows, beq_iff_eq, List.mem_append,
        List.mem_singleton, or_assoc, @eq_comm _ info.ref]
  · intro d
    rw [hreg]
    exact Registry.own_know _ _ d

/-- The classes of schemas are created in order, and nothing is declared on them. -/
theorem Gains.exec_createAll (h : w.Gains binder cs v) {specs : List Table.SchemaSpec}
    (hn : ∀ s ∈ specs, Table.ValidName s.name) :
    ∃ ds u, exec (Table.createAll binder specs) v = (.ok ds, u) ∧ w.Gains binder (cs ++ ds) u ∧
      ds.map ClassRef.name = specs.map Table.SchemaSpec.name ∧
      ∀ d, (u.registry (w.registryFor binder)).own d =
        (v.registry (w.registryFor binder)).own d := by
  induction specs generalizing cs v with
  | nil =>
    rw [← List.append_nil cs] at h
    exact ⟨[], v, rfl, h, rfl, fun _ => rfl⟩
  | cons s rest ih =>
    obtain ⟨hs, hrest⟩ := List.forall_mem_cons.mp hn
    obtain ⟨c, x, hc, hx, hname, hown⟩ := h.exec_createClass hs
    obtain ⟨ds, u, hds, hu, hnames, howns⟩ := ih hx hrest
    refine ⟨c :: ds, u, ?_, ?_, ?_, fun d => (howns d).trans (hown d)⟩
    · rw [Table.createAll, exec_bind_of_ok hc, exec_bind_of_ok hds]
      rfl
    · rw [List.append_assoc] at hu
      exact hu
    · rw [List.map_cons, List.map_cons, hname, hnames]

end World

end SchemaBinding
