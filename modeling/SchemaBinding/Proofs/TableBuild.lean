import SchemaBinding.Proofs.ContentFunctions
import SchemaBinding.Proofs.GainedSchemas
import SchemaBinding.Proofs.TableContracts

/-!
# Building the schemas of a table

The schemas of a table are built all or nothing. A table with issues is refused before anything has
happened. A table without issues becomes one class for each of its schemas, in order, with one field
for each of its entries, in order; and the plan of each class can be compiled, whatever schemas of
the table refer to one another.
-/

namespace SchemaBinding

/-! ### Lists that correspond item by item -/

section Correspond

variable {α β γ : Type} {R : α → β → Prop} {S : β → γ → Prop} {xs : List α} {ys : List β}

/-- Each of the second values is related to one of the first. -/
theorem exists_of_mem_forall₂ (h : List.Forall₂ R xs ys) {y : β} (hy : y ∈ ys) :
    ∃ x ∈ xs, R x y := by
  induction h with
  | nil => cases hy
  | @cons x z xs zs hxz _ ih =>
    rcases List.mem_cons.mp hy with rfl | hy
    · exact ⟨x, List.mem_cons_self .., hxz⟩
    · obtain ⟨x', hx', hr⟩ := ih hy
      exact ⟨x', List.mem_cons_of_mem x hx', hr⟩

/-- Values that are related one by one are so by what the relation implies of them. -/
theorem forall₂_imp_of_mem {T : α → β → Prop} (h : List.Forall₂ R xs ys)
    (k : ∀ x, ∀ y ∈ ys, R x y → T x y) : List.Forall₂ T xs ys := by
  induction h with
  | nil => exact .nil
  | @cons x y xs ys hxy _ ih =>
    have hys : ∀ a, ∀ z ∈ ys, R a z → T a z := fun a z hz => k a z (List.mem_cons_of_mem y hz)
    exact .cons (k x y (List.mem_cons_self ..) hxy) (ih hys)

/-- Relations of values one by one compose. -/
theorem forall₂_comp {T : α → γ → Prop} {zs : List γ} (h : List.Forall₂ R xs ys)
    (k : List.Forall₂ S ys zs) (ht : ∀ x y z, R x y → S y z → T x z) : List.Forall₂ T xs zs := by
  induction h generalizing zs with
  | nil =>
    cases k
    exact .nil
  | cons hxy _ ih =>
    cases k with
    | cons hyz hrest => exact .cons (ht _ _ _ hxy hyz) (ih hrest)

end Correspond

namespace World

variable {w v u : World} {binder : Option Nat} {cs : List ClassRef} {c : ClassRef}

/-! ### Declaring the fields -/

/-- A contract is what a field became when it was declared. -/
def Fulfils (cs : List ClassRef) (f : Table.FieldSpec) (g : FieldContract) : Prop :=
  ∃ w, g = f.contract cs w

/-- A contract has the name of the field that it fulfils. -/
theorem Fulfils.name {f : Table.FieldSpec} {g : FieldContract} (h : Fulfils cs f g) :
    g.name = f.name := by
  obtain ⟨w, rfl⟩ := h
  exact f.name_contract cs w

/-- Contracts have the names of the fields that they fulfil, in order. -/
theorem map_name_eq_of_fulfils {fs : List Table.FieldSpec} {gs : List FieldContract}
    (h : List.Forall₂ (Fulfils cs) fs gs) :
    gs.map FieldContract.name = fs.map Table.FieldSpec.name := by
  rw [← List.forall₂_eq_eq_eq, List.forall₂_map_left_iff, List.forall₂_map_right_iff]
  exact h.flip.imp fun g f hg => Fulfils.name hg

/-- Contracts are declared on a class, after its others, and nothing on any other class. -/
structure Appends (i : Nat) (c : ClassRef) (gs : List FieldContract) (v u : World) : Prop where
  own : (u.registry i).own c = (v.registry i).own c ++ gs
  others : ∀ d, d ≠ c → (u.registry i).own d = (v.registry i).own d

/-- No contracts are declared by doing nothing. -/
theorem Appends.nil (i : Nat) (c : ClassRef) (v : World) : Appends i c [] v v where
  own := (List.append_nil _).symm
  others _ _ := rfl

/-- Contracts that are declared one after the other are declared together. -/
theorem Appends.trans {i : Nat} {gs fs : List FieldContract} {x : World}
    (h : Appends i c gs v u) (k : Appends i c fs u x) : Appends i c (gs ++ fs) v x where
  own := by rw [k.own, h.own, List.append_assoc]
  others d hd := (k.others d hd).trans (h.others d hd)

namespace Gains

variable (h : w.Gains binder cs v) (hc : c ∈ cs)

include h hc

section Field

variable {f : Table.FieldSpec} (hf : f.Sound (cs.map ClassRef.name))
  (hn : f.name ∉ ((v.registry (w.registryFor binder)).own c).map FieldContract.name)

include hf hn

/-- A sound field that a class of the table does not have can be declared on it, after its
others. -/
theorem exec_declareField :
    ∃ u g, exec (declareField (w.registryFor binder) c (.str f.name)
        ((f.fragments cs).map .fragment) (some (f.declared.resolve cs))) v = (.ok g, u) ∧
      w.Gains binder cs u ∧ Fulfils cs f g ∧ Appends (w.registryFor binder) c [g] v u := by
  let i := w.registryFor binder
  have hl : i < v.registries.length := by
    have hr := h.established.registry (v.binderOf c)
    rw [← World.registryOf, h.registryOf hc] at hr
    exact hr
  obtain ⟨hfirst, hargs⟩ := Argument.fragments_map (f.fragments cs)
  have hcount : (v.adoptedFragments (f.fragments cs)).countP Fragment.isRequirement ≤ 1 := by
    rw [countP_isRequirement_adoptedFragments]
    exact hf.countP_isRequirement
  obtain ⟨r, g, first, hd, hg, hown, hothers⟩ :=
    Registry.exists_declare hn hcount (f.declared.resolve cs)
  rw [← hargs] at hd
  obtain ⟨n, e, hexec⟩ := exec_declareField_of_ok (hf.name.checkFieldName c.name) hfirst hd
  let u := ({ v with supply := n }.setRegistry i r).log e
  have hreg : u.registry i = r := by
    change World.registry ({ v with supply := n }.setRegistry i r) i = r
    rw [registry_setRegistry, if_pos ⟨rfl, hl⟩]
  have hu : w.Gains binder cs u := by
    have hs := (sustainedBy_declareField h.established (h.has hc) i _ _ _).of_ok hexec
    have hknown : (v.registry i).knows c = true := (h.knows c).mpr (.inr hc)
    refine h.of_eq hs.established rfl rfl (funext fun d => ?_)
    change (u.registry i).knows d = (v.registry i).knows d
    rw [hreg, knows_declare_ok hd, Registry.know, if_pos hknown]
  refine ⟨u, g, hexec, hu, ⟨v, hg⟩, ?_, fun d hne => ?_⟩
  · change (u.registry i).own c = _
    rw [hreg, hown]
  · change (u.registry i).own d = _
    rw [hreg, hothers d hne]

/-- So it can be declared through the class. -/
theorem exec_declareOnClass :
    ∃ u g, exec (declareOnClass c (.str f.name) ((f.fragments cs).map .fragment)
        (some (f.declared.resolve cs))) v = (.ok (), u) ∧
      w.Gains binder cs u ∧ Fulfils cs f g ∧ Appends (w.registryFor binder) c [g] v u := by
  obtain ⟨u, g, he, hu, hg, happ⟩ := h.exec_declareField hc hf hn
  rw [World.exec_declareOnClass, h.registryOf hc, he]
  dsimp only
  by_cases ha : u.classes.answersTo c g.name = true
  · rw [if_pos ha]
    exact ⟨u, g, rfl, hu, hg, happ⟩
  · rw [if_neg ha]
    have hname : g.name ≠ ClassTable.binderName := by
      rw [hg.name]
      exact ne_binderName_of_checkFieldName (hf.name.checkFieldName c.name)
    exact ⟨_, g, rfl, hu.setNull hc hname, hg, happ.own, happ.others⟩

end Field

/-- Sound fields of different names that a class of the table does not have are declared on it in
order, after its others. -/
theorem exec_declareFields {fs : List Table.FieldSpec}
    (hf : ∀ f ∈ fs, f.Sound (cs.map ClassRef.name))
    (hn : (((v.registry (w.registryFor binder)).own c).map FieldContract.name ++
      fs.map Table.FieldSpec.name).Nodup) :
    ∃ u gs, exec (Table.declareFields cs c fs) v = (.ok (), u) ∧ w.Gains binder cs u ∧
      List.Forall₂ (Fulfils cs) fs gs ∧ Appends (w.registryFor binder) c gs v u := by
  -- Over the fields left: those declared so far are contracts of the class in the world by then.
  induction fs generalizing v with
  | nil => exact ⟨v, [], rfl, h, .nil, .nil _ c v⟩
  | cons f rest ih =>
    obtain ⟨hf, hrest⟩ := List.forall_mem_cons.mp hf
    have hfresh : f.name ∉ ((v.registry (w.registryFor binder)).own c).map FieldContract.name :=
      fun hm => (List.nodup_append.mp hn).2.2 _ hm _ (List.mem_cons_self ..) rfl
    obtain ⟨x, g, he, hx, hg, happ⟩ := h.exec_declareOnClass hc hf hfresh
    have hnx : (((x.registry (w.registryFor binder)).own c).map FieldContract.name ++
        rest.map Table.FieldSpec.name).Nodup := by
      rw [happ.own, List.map_append, List.map_singleton, hg.name, List.append_assoc]
      exact hn
    obtain ⟨u, gs, hes, hu, hgs, happs⟩ := ih hx hrest hnx
    refine ⟨u, g :: gs, ?_, hu, .cons hg hgs, happ.trans happs⟩
    rw [Table.FieldSpec.fragments, List.map_map] at he
    exact (exec_bind_of_ok he _).trans hes

end Gains

/-- The class of a schema is there, without fields, and the fields of the schema are sound and have
different names. -/
structure Ready (i : Nat) (cs : List ClassRef) (v : World) (s : Table.SchemaSpec) : Prop where
  created : s.name ∈ cs.map ClassRef.name
  fields : ∀ f ∈ s.fields, f.Sound (cs.map ClassRef.name)
  distinct : (s.fields.map Table.FieldSpec.name).Nodup
  bare : (v.registry i).own (Table.classOf cs s.name) = []

/-- The fields of schemas are declared on their classes, and nothing on any other class. -/
theorem Gains.exec_declareAll (h : w.Gains binder cs v) {specs : List Table.SchemaSpec}
    (hs : ∀ s ∈ specs, Ready (w.registryFor binder) cs v s)
    (hd : (specs.map fun s => Table.classOf cs s.name).Nodup) :
    ∃ u, exec (Table.declareAll cs specs) v = (.ok (), u) ∧ w.Gains binder cs u ∧
      (∀ s ∈ specs, List.Forall₂ (Fulfils cs) s.fields
        ((u.registry (w.registryFor binder)).own (Table.classOf cs s.name))) ∧
      ∀ d, d ∉ specs.map (fun s => Table.classOf cs s.name) →
        (u.registry (w.registryFor binder)).own d = (v.registry (w.registryFor binder)).own d := by
  induction specs generalizing v with
  | nil =>
    refine ⟨v, rfl, h, ?_, fun _ _ => rfl⟩
    intro s hs
    cases hs
  | cons s rest ih =>
    obtain ⟨hs, hrest⟩ := List.forall_mem_cons.mp hs
    obtain ⟨hnew, hd⟩ := List.nodup_cons.mp hd
    have hc := Table.classOf_mem hs.created
    have hn : (((v.registry (w.registryFor binder)).own (Table.classOf cs s.name)).map
        FieldContract.name ++ s.fields.map Table.FieldSpec.name).Nodup := by
      rw [hs.bare]
      exact hs.distinct
    obtain ⟨x, gs, he, hx, hgs, happ⟩ := h.exec_declareFields hc hs.fields hn
    -- The classes of the schemas left are other ones, and so still without fields.
    have hready : ∀ t ∈ rest, Ready (w.registryFor binder) cs x t := by
      intro t ht
      obtain ⟨hcreated, hfields, hdistinct, hbare⟩ := hrest t ht
      refine ⟨hcreated, hfields, hdistinct, ?_⟩
      rw [happ.others]
      · exact hbare
      · intro he
        exact hnew (List.mem_map.mpr ⟨t, ht, he⟩)
    obtain ⟨u, hes, hu, hown, hothers⟩ := ih hx hready hd
    refine ⟨u, (exec_bind_of_ok he _).trans hes, hu, ?_, ?_⟩
    · intro t ht
      rcases List.mem_cons.mp ht with rfl | ht
      · rw [hothers _ hnew, happ.own, hs.bare]
        exact hgs
      · exact hown t ht
    · intro d hm
      rw [List.map_cons, List.mem_cons, not_or] at hm
      rw [hothers d hm.2, happ.others d hm.1]

/-! ### What is built -/

namespace Gains

variable (h : w.Gains binder cs v)

include h

/-- A class of the table has the fields that are declared on it, laid over those of the base of the
schema classes. -/
theorem fields_eq_overlay (hc : c ∈ cs) (r : Registry) : r.fields v.classes c =
    Registry.overlay (r.fields v.classes .schemaBase) (r.own c) := by
  rw [Registry.fields, Registry.fields, h.order hc, h.established.lawful.order_schemaBase]
  rfl

/-- Where nothing is declared on the classes that all schemas inherit from, a class of the table has
the fields that are declared on it. -/
theorem fields (hc : c ∈ cs) {r : Registry}
    (hb : ∀ d ∈ [ClassRef.schemaBase, .object], r.own d = [])
    (hn : ((r.own c).map FieldContract.name).Nodup) : r.fields v.classes c = r.own c := by
  have hbase : r.fields v.classes .schemaBase = [] := by
    rw [Registry.fields, h.established.lawful.order_schemaBase]
    simp [hb, Registry.overlay]
  rw [h.fields_eq_overlay hc, hbase]
  exact Registry.overlay_of_nodup hn

/-- A class of the table is a schema, and so fields may be declared with it. -/
theorem isSchema (hc : c ∈ cs) :
    (v.registry (w.registryFor binder)).isSchema v.classes c = true := by
  rw [Registry.isSchema, h.order hc, List.any_cons, (h.knows c).mpr (.inr hc), Bool.true_or]

/-- A schema that was built may be nested. -/
theorem acceptsNested (hc : c ∈ cs) :
    (v.registry (w.registryFor binder)).acceptsNested v.classes c = true := by
  rw [Registry.acceptsNested, h.isSchema hc, Bool.true_or]

end Gains

/-- Building a table leaves a world consistent. -/
theorem Consistent.build (h : w.Consistent) (binder : Option Nat) (table : Value) :
    (exec (Table.build binder table) w).2.Consistent := by
  have hb := Table.agree_build (K := fun _ => True) (fun _ _ _ _ => trivial) binder table w w
    ⟨h.refl_alike, trivial⟩
  exact hb.2.1.consistent

end World

namespace Table

/-- What is wrong with a table. -/
def issuesOf : Value → List Issue
  | .dict entries => (read entries).issues
  | v => [typeIssue rootField "object" v]

/-- The texts among the keys of a table differ from one another, and so do those among the keys of
each of its schemas. -/
structure DistinctKeys (entries : List (Value × Value)) : Prop where
  schemas : (textKeys entries).Nodup
  fields : ∀ e ∈ entries, (textKeys (entriesOf e.2)).Nodup

section DistinctKeys

variable {entries : List (Value × Value)} (hk : DistinctKeys entries)
    (hi : (read entries).issues = [])

include hk hi

/-- The schemas of a table have different names. -/
theorem DistinctKeys.nodup_schemas : ((read entries).result.map SchemaSpec.name).Nodup := by
  rw [(map_name_eq_of_sound (forall₂_read hi)).2]
  exact hk.schemas

omit hk in
/-- The fields of a schema of a table are sound. -/
theorem sound_of_mem_read {s : SchemaSpec} (hs : s ∈ (read entries).result) :
    ∀ f ∈ s.fields, f.Sound (schemaNames entries) := by
  intro f hf
  obtain ⟨e, -, hse⟩ := exists_of_mem_forall₂ (forall₂_read hi) hs
  obtain ⟨_, -, hd⟩ := exists_of_mem_forall₂ hse.fields hf
  exact hd.2

/-- The fields of a schema of a table have different names. -/
theorem DistinctKeys.nodup_fields {s : SchemaSpec} (hs : s ∈ (read entries).result) :
    (s.fields.map FieldSpec.name).Nodup := by
  obtain ⟨e, he, hse⟩ := exists_of_mem_forall₂ (forall₂_read hi) hs
  rw [map_name_eq_of_describes hse.fields]
  exact hk.fields e he

end DistinctKeys

/-- A table of which not all keys can be shown is refused, and nothing has happened. -/
theorem exec_build_of_not_printable {entries : List (Value × Value)}
    (hp : printable entries = false)
    (binder : Option Nat) (w : World) :
    exec (build binder (.dict entries)) w = (.error (.value .digits), w) := by
  simp only [build, hp]
  rfl

/-- A table with issues is refused, and nothing has happened. -/
theorem exec_build_of_read {entries : List (Value × Value)} (hp : printable entries = true)
    (hi : (read entries).issues ≠ []) (binder : Option Nat) (w : World) :
    exec (build binder (.dict entries)) w = (.error (.table (read entries).issues), w) := by
  simp only [build, hp, accepted_read, if_neg hi]
  rfl

/-- A table without issues is built by creating its classes and then declaring their fields. -/
theorem exec_build_of_ok {entries : List (Value × Value)} {binder : Option Nat} {w v u : World}
    {cs : List ClassRef} (hp : printable entries = true)
    (hi : (read entries).issues = [])
    (hc : exec (createAll binder (read entries).result) w = (.ok cs, v))
    (hd : exec (declareAll cs (read entries).result) v = (.ok (), u)) :
    exec (build binder (.dict entries)) w =
      (.ok cs, u.log (.tableBuilt (cs.map ClassRef.name))) := by
  simp only [build, hp, accepted_read, if_pos hi]
  refine (exec_bind_of_ok hc _).trans ?_
  exact (exec_bind_of_ok hd _).trans rfl

end Table

namespace World

variable {w v u : World} {binder : Option Nat} {cs : List ClassRef} {c : ClassRef}

/-- A schema of a table whose class is new can have its fields declared. -/
theorem Gains.ready (h : w.Gains binder cs v) (hw : w.Established)
    (hown : ∀ d, (v.registry (w.registryFor binder)).own d =
      (w.registry (w.registryFor binder)).own d)
    {s : Table.SchemaSpec} (hm : s.name ∈ cs.map ClassRef.name)
    (hs : ∀ f ∈ s.fields, f.Sound (cs.map ClassRef.name))
    (hd : (s.fields.map Table.FieldSpec.name).Nodup) : Ready (w.registryFor binder) cs v s := by
  refine ⟨hm, hs, hd, ?_⟩
  rw [hown]
  apply Registry.own_of_not_knows
  intro hknows
  exact h.not_has (Table.classOf_mem hm) (hw.known _ _ hknows)

/-- What building schemas makes of a world: it has one more class for each of them, in order, on
which its fields are declared. Nothing is declared on any other class. -/
structure Built (w : World) (binder : Option Nat) (specs : List Table.SchemaSpec)
    (cs : List ClassRef) (v : World) : Prop where
  gains : w.Gains binder cs v
  names : cs.map ClassRef.name = specs.map Table.SchemaSpec.name
  fields : ∀ s ∈ specs, List.Forall₂ (Fulfils cs) s.fields
    ((v.registry (w.registryFor binder)).own (Table.classOf cs s.name))
  others : ∀ d, d ∉ cs → (v.registry (w.registryFor binder)).own d =
    (w.registry (w.registryFor binder)).own d

/-- A schema has a class of its name. -/
theorem Built.name_mem {specs : List Table.SchemaSpec} (h : w.Built binder specs cs v)
    {s : Table.SchemaSpec} (hs : s ∈ specs) : s.name ∈ cs.map ClassRef.name := by
  rw [h.names]
  exact List.mem_map_of_mem hs

/-- The schemas of a table without issues are built. -/
theorem Established.exec_build_read (h : w.Established) (binder : Option Nat)
    {entries : List (Value × Value)} (hp : Table.printable entries = true)
    (hk : Table.DistinctKeys entries) (hi : (Table.read entries).issues = []) :
    ∃ cs u, exec (Table.build binder (.dict entries)) w = (.ok cs, u) ∧
      w.Built binder (Table.read entries).result cs u := by
  let specs := (Table.read entries).result
  have hsound := Table.forall₂_read hi
  have hschemas := (Table.map_name_eq_of_sound hsound).1
  have hvalid : ∀ s ∈ specs, Table.ValidName s.name := by
    intro s hs
    obtain ⟨e, -, hse⟩ := exists_of_mem_forall₂ hsound hs
    exact hse.name
  obtain ⟨cs, x, hcreate, hx, hnames, hown⟩ := (h.gains binder).exec_createAll hvalid
  rw [List.nil_append] at hx
  have hclasses := Table.map_classOf_eq_of_name hnames (hk.nodup_schemas hi)
  have hready : ∀ s ∈ specs, Ready (w.registryFor binder) cs x s := by
    intro s hs
    have hm : s.name ∈ cs.map ClassRef.name := by
      rw [hnames]
      exact List.mem_map_of_mem hs
    have hf := Table.sound_of_mem_read hi hs
    rw [← hschemas, ← hnames] at hf
    exact hx.ready h hown hm hf (hk.nodup_fields hi hs)
  have hnodup : (specs.map fun s => Table.classOf cs s.name).Nodup := by
    rw [hclasses]
    exact hx.nodup
  obtain ⟨u, hdeclare, hu, hfields, hothers⟩ := hx.exec_declareAll hready hnodup
  have hlog : Sustains u (u.log (.tableBuilt (cs.map ClassRef.name))) :=
    hu.established.of_eq rfl rfl rfl
  rw [hclasses] at hothers
  exact ⟨cs, _, Table.exec_build_of_ok hp hi hcreate hdeclare,
    hu.of_eq hlog.established rfl rfl rfl, hnames, hfields,
    fun d hd => (hothers d hd).trans (hown d)⟩

end World

namespace Session

open World

/-- A session with a strict registry and a binder of it. -/
def strictBinder : Session := initial.after [.newRegistry true, .newBinder 1 none]

/-- A table of schemas that refer to themselves and to one another. One has the name of a builtin
type. -/
def references : Value := .dict [
  (.str "str", .dict [
    (.str "next", .str "str"),
    (.str "owner", .dict [(.str "type", .str "Person"), (.str "required", .bool true)])]),
  (.str "Person", .dict [
    (.str "homes", .dict [(.str "type", .str "array"), (.str "items", .str "str"),
      (.str "default", .list [] none)]),
    (.str "grid", .dict [(.str "type", .str "list"), (.str "items", .str "array"),
      (.str "passthrough", .bool true), (.str "required", .bool false)]),
    (.str "age", .dict [(.str "type", .str "int"), (.str "gte", .int 0)])]),
  (.str "Empty", .null)]

end Session

end SchemaBinding
