import SchemaBinding.Proofs.DeclaredFields
import SchemaBinding.Proofs.RenamedClasses
import SchemaBinding.Proofs.ShuffledTables

/-!
# The order of a table

Whether a table is accepted does not depend on the order of its schemas and of their fields, and
neither do its issues or, but for the order of the fields, the plans of its classes: schemas of a
table refer to one another by name, and all classes are there before any field is declared.
-/

namespace SchemaBinding

/-! ### Contracts laid over others in another order -/

namespace Registry

section Overlay

variable {fields own others : List FieldContract}

/-- The contract of a name is the only one among contracts of different names. -/
theorem find?_eq_some_iff (hn : (fields.map FieldContract.name).Nodup) (name : String)
    (f : FieldContract) :
    fields.find? (fun g => g.name == name) = some f ↔ f ∈ fields ∧ f.name = name := by
  constructor
  · intro h
    exact ⟨List.mem_of_find?_eq_some h, by simpa using List.find?_some h⟩
  · rintro ⟨hf, rfl⟩
    cases hg : fields.find? fun g => g.name == f.name with
    | none =>
      have hne := List.find?_eq_none.mp hg f hf
      simp at hne
    | some g =>
      have hname : g.name = f.name := by simpa using List.find?_some hg
      rw [List.inj_on_of_nodup_map hn (List.mem_of_find?_eq_some hg) hf hname]

/-- Contracts of different names are laid over others in any order. -/
theorem overlay_perm (hf : (fields.map FieldContract.name).Nodup)
    (hn : (own.map FieldContract.name).Nodup) (hp : own.Perm others) :
    (overlay fields own).Perm (overlay fields others) := by
  have hm : (others.map FieldContract.name).Nodup := (hp.map _).nodup_iff.mp hn
  have hfind : ∀ name, own.find? (fun g => g.name == name) =
      others.find? fun g => g.name == name := by
    intro name
    apply Option.ext
    intro f
    rw [find?_eq_some_iff hn, find?_eq_some_iff hm, hp.mem_iff]
  have hfo := nodup_overlay own hf
  have hfm := nodup_overlay others hf
  apply (List.perm_ext_iff_of_nodup (hfo.of_map _) (hfm.of_map _)).mpr
  intro f
  have hown := find?_eq_some_iff hfo f.name f
  have hothers := find?_eq_some_iff hfm f.name f
  simp only [and_true] at hown hothers
  rw [← hown, ← hothers, find?_overlay _ hn, find?_overlay _ hm, hfind]

variable {R : FieldContract → FieldContract → Prop} (hR : ∀ f g, R f g → f.name = g.name)

include hR

private theorem forall₂_putContract {f g : FieldContract} {xs ys : List FieldContract} (hfg : R f g)
    (h : List.Forall₂ R xs ys) : List.Forall₂ R (putContract xs f) (putContract ys g) := by
  induction h with
  | nil => exact .cons hfg .nil
  | @cons x y xs ys hxy hrest ih =>
    rw [putContract, putContract, hR x y hxy, hR f g hfg]
    split
    · exact .cons hfg hrest
    · exact .cons hxy ih

/-- Contracts that correspond are laid over contracts that correspond. -/
theorem forall₂_overlay {xs ys : List FieldContract} (h : List.Forall₂ R xs ys)
    (ho : List.Forall₂ R own others) : List.Forall₂ R (overlay xs own) (overlay ys others) := by
  induction ho generalizing xs ys with
  | nil => exact h
  | cons hfg _ ih => exact ih (forall₂_putContract hR hfg h)

end Overlay

end Registry

/-! ### Plans of contracts in another order -/

/-- The plans of one schema, with other schemas and in any order; or no plans. -/
inductive SamePlans (σ : ClassRef → ClassRef) :
    Except Fault (List FieldPlan) → Except Fault (List FieldPlan) → Prop
  | planned {ps rs qs : List FieldPlan} (hp : ps.Perm rs)
      (hr : List.Forall₂ (fun p q => (p.rename σ).Twins q) rs qs) : SamePlans σ (.ok ps) (.ok qs)
  | failed (e f : Fault) : SamePlans σ (.error e) (.error f)

namespace Registry

section Compile

variable {σ : ClassRef → ClassRef} {p p' : ClassRef → Bool} {fs gs : List FieldContract}

/-- The contracts have plans that correspond, or neither has one. -/
def PlannedAlike (σ : ClassRef → ClassRef) (p p' : ClassRef → Bool) (f g : FieldContract) : Prop :=
  Option.Rel (fun x y => (x.rename σ).Twins y) (f.plan p).toOption (g.plan p').toOption

/-- Of two contracts, both have plans, which correspond, or neither has one. -/
theorem PlannedAlike.cases {f g : FieldContract} (h : PlannedAlike σ p p' f g) :
    (∃ x y, f.plan p = .ok x ∧ g.plan p' = .ok y ∧ (x.rename σ).Twins y) ∨
      ∃ e e', f.plan p = .error e ∧ g.plan p' = .error e' := by
  unfold PlannedAlike at h
  cases hf : f.plan p <;> cases hg : g.plan p' <;> rw [hf, hg] at h <;> cases h
  · exact .inr ⟨_, _, rfl, rfl⟩
  · next hxy => exact .inl ⟨_, _, rfl, rfl, hxy⟩

variable (h : List.Forall₂ (PlannedAlike σ p p') fs gs)

include h

private theorem exists_plans_right {xs : List FieldPlan}
    (hx : List.Forall₂ (fun f x => f.plan p = .ok x) fs xs) :
    ∃ ys, List.Forall₂ (fun g y => g.plan p' = .ok y) gs ys ∧
      List.Forall₂ (fun x y => (x.rename σ).Twins y) xs ys := by
  induction h generalizing xs with
  | nil =>
    cases hx
    exact ⟨[], .nil, .nil⟩
  | cons hfg _ ih =>
    cases hx with
    | cons hfx hrest =>
      obtain ⟨ys, hys, hxys⟩ := ih hrest
      rcases hfg.cases with ⟨x, y, hf, hg, hxy⟩ | ⟨e, e', hf, -⟩
      · rw [hf] at hfx
        cases hfx
        exact ⟨y :: ys, .cons hg hys, .cons hxy hxys⟩
      · rw [hf] at hfx
        cases hfx

private theorem exists_plans_left {ys : List FieldPlan}
    (hy : List.Forall₂ (fun g y => g.plan p' = .ok y) gs ys) :
    ∃ xs, List.Forall₂ (fun f x => f.plan p = .ok x) fs xs := by
  induction h generalizing ys with
  | nil => exact ⟨[], .nil⟩
  | cons hfg _ ih =>
    cases hy with
    | cons hgy hrest =>
      obtain ⟨xs, hxs⟩ := ih hrest
      rcases hfg.cases with ⟨x, y, hf, -, -⟩ | ⟨e, e', -, hg⟩
      · exact ⟨x :: xs, .cons hf hxs⟩
      · rw [hg] at hgy
        cases hgy

end Compile

/-- Contracts that correspond, in any order, are compiled to plans that do. -/
theorem samePlans_compile {σ : ClassRef → ClassRef} {t u : ClassTable} {r q : Registry}
    {c d : ClassRef} (hc : r.isSchema t c = true) (hd : q.isSchema u d = true)
    {fs : List FieldContract} (hp : (r.fields t c).Perm fs)
    (h : List.Forall₂ (PlannedAlike σ (r.acceptsNested t) (q.acceptsNested u)) fs
      (q.fields u d)) :
    SamePlans σ (r.compile t c) (q.compile u d) := by
  cases hr : r.compile t c with
  | ok ps =>
    have hps := ((compile_ok_iff t r c ps).mp hr).2
    obtain ⟨rs, hrs, hperm⟩ := List.perm_comp_forall₂ hp.symm hps
    obtain ⟨qs, hqs, hrqs⟩ := exists_plans_right h hrs
    rw [(compile_ok_iff u q d qs).mpr ⟨hd, hqs⟩]
    exact .planned hperm.symm hrqs
  | error e =>
    cases hq : q.compile u d with
    | ok qs =>
      have hqs := ((compile_ok_iff u q d qs).mp hq).2
      obtain ⟨rs, hrs⟩ := exists_plans_left h hqs
      obtain ⟨ps, hps, -⟩ := List.perm_comp_forall₂ hp hrs
      rw [(compile_ok_iff t r c ps).mpr ⟨hc, hps⟩] at hr
      cases hr
    | error f => exact .failed e f

end Registry

namespace World

variable {w v u : World} {binder : Option Nat} {cs ds : List ClassRef} {c d : ClassRef}

/-! ### Classes that were there before a table -/

private theorem Established.head_order (h : w.Established) (hc : w.classes.Has c) :
    (w.classes.order c).head? = some c := by
  obtain ⟨info, hi, rfl⟩ := hc
  rw [h.lawful.order_of_mem hi]
  exact h.lawful.head info hi

/-- A class inherits from classes that are there. -/
theorem Established.has_of_mem_order (h : w.Established) (hc : w.classes.Has c) {k : ClassRef}
    (hk : k ∈ w.classes.order c) : w.classes.Has k := by
  obtain ⟨info, hi, rfl⟩ := hc
  rw [h.lawful.order_of_mem hi] at hk
  obtain ⟨other, ho, rfl, -⟩ := h.lawful.closed info hi k hk
  exact ⟨other, ho, rfl⟩

section Old

variable (h : w.Gains binder cs v) (hw : w.Established)

include h hw

private theorem Gains.order_of_has (hc : w.classes.Has c) :
    v.classes.order c = w.classes.order c := by
  obtain ⟨added, hv, -, -⟩ := h.classes
  rw [hv, ClassTable.order_append]
  intro hnil
  have hhead := hw.head_order hc
  rw [hnil] at hhead
  cases hhead

/-- A class that was there may be nested if it might before. -/
theorem Gains.acceptsNested_of_has (hc : w.classes.Has c) :
    (v.registry (w.registryFor binder)).acceptsNested v.classes c =
      (w.registry (w.registryFor binder)).acceptsNested w.classes c := by
  have hk : ∀ k ∈ w.classes.order c, (v.registry (w.registryFor binder)).knows k =
      (w.registry (w.registryFor binder)).knows k := by
    intro k hk
    have hnot : k ∉ cs := fun hm => h.not_has hm (hw.has_of_mem_order hc hk)
    rw [Bool.eq_iff_iff, h.knows, or_iff_left hnot]
  have hany : ∀ p : ClassRef → Bool, (w.classes.order c).any p =
      ((w.classes.order c).map p).any id := fun p => by simp
  rw [Registry.acceptsNested, Registry.acceptsNested, Registry.isSchema, Registry.isSchema,
    ClassTable.isSchemaClass, ClassTable.isSchemaClass, h.order_of_has hw hc, hany, hany,
    List.map_congr_left hk]

end Old

private theorem counterpart_of_has (h : w.Gains binder cs v) (hc : w.classes.Has c) :
    Table.counterpart cs ds c = c := if_neg fun hm => h.not_has hm hc

section Counterparts

variable (hw : w.Established) (hv : w.Gains binder cs v) (hu : w.Gains binder ds u)
  (hn : (cs.map ClassRef.name).Perm (ds.map ClassRef.name))

include hw hv hu hn

/-- A class may be nested just as the one that has its name in the other order of the table. -/
theorem acceptsNested_counterpart (hc : w.classes.Has c ∨ c ∈ cs) :
    (u.registry (w.registryFor binder)).acceptsNested u.classes (Table.counterpart cs ds c) =
      (v.registry (w.registryFor binder)).acceptsNested v.classes c := by
  rcases hc with hc | hc
  · rw [counterpart_of_has hv hc, hu.acceptsNested_of_has hw hc, hv.acceptsNested_of_has hw hc]
  · have hm : c.name ∈ ds.map ClassRef.name := hn.mem_iff.mp (List.mem_map_of_mem hc)
    rw [Table.counterpart, if_pos hc, hu.acceptsNested (Table.classOf_mem hm), hv.acceptsNested hc]

/-- Contracts that differ only in the classes of the table have the same plans but for those. -/
theorem plannedAlike_of_twins {f g : FieldContract}
    (hf : ∀ c ∈ f.classes, w.classes.Has c ∨ c ∈ cs)
    (hfg : (f.rename (Table.counterpart cs ds)).Twins g) :
    Registry.PlannedAlike (Table.counterpart cs ds)
      ((v.registry (w.registryFor binder)).acceptsNested v.classes)
      ((u.registry (w.registryFor binder)).acceptsNested u.classes) f g := by
  have hp := f.plan_rename fun c hc => acceptsNested_counterpart hw hv hu hn (hf c hc)
  have ht := hfg.plan ((u.registry (w.registryFor binder)).acceptsNested u.classes)
  rw [hp] at ht
  unfold Registry.PlannedAlike
  cases hx : (f.plan ((v.registry (w.registryFor binder)).acceptsNested v.classes)).toOption <;>
    cases hy : (g.plan ((u.registry (w.registryFor binder)).acceptsNested u.classes)).toOption <;>
    rw [hx, hy] at ht <;> cases ht
  · exact .none
  · next hxy => exact .some hxy

end Counterparts

/-! ### Contracts of a table in another order -/

/-- What the fields of a schema become in one order of a table is, in the other order and with its
classes, what they become there. -/
theorem exists_perm_twins {fields others : List Table.FieldSpec} (hp : fields.Perm others)
    (hs : ∀ f ∈ fields, f.Sound (cs.map ClassRef.name)) {xs ys : List FieldContract}
    (hx : List.Forall₂ (Fulfils cs) fields xs) (hy : List.Forall₂ (Fulfils ds) others ys) :
    ∃ zs, xs.Perm zs ∧
      List.Forall₂ (fun f g => (f.rename (Table.counterpart cs ds)).Twins g) zs ys := by
  obtain ⟨zs, hz, hzx⟩ := List.perm_comp_forall₂ hp.symm hx
  have hsound : List.Forall₂ (fun g f => f.Sound (cs.map ClassRef.name) ∧ Fulfils cs f g)
      zs others :=
    forall₂_imp_of_mem hz.flip fun g f hf hg => ⟨hs f (hp.mem_iff.mpr hf), hg⟩
  refine ⟨zs, hzx.symm, forall₂_comp hsound hy ?_⟩
  rintro g f g' ⟨hf, x, rfl⟩ ⟨y, rfl⟩
  exact hf.contract_twins x y

/-- What the fields of a schema become names no classes but those of the table. -/
theorem classes_of_fulfils {fields : List Table.FieldSpec}
    (hs : ∀ f ∈ fields, f.Sound (cs.map ClassRef.name)) {xs : List FieldContract}
    (hx : List.Forall₂ (Fulfils cs) fields xs) : ∀ f ∈ xs, ∀ k ∈ f.classes, k ∈ cs := by
  induction hx with
  | nil =>
    intro f hf
    cases hf
  | cons hfg _ ih =>
    obtain ⟨hf, hrest⟩ := List.forall_mem_cons.mp hs
    obtain ⟨x, rfl⟩ := hfg
    exact List.forall_mem_cons.mpr ⟨hf.classes_contract x, ih hrest⟩

/-- What is declared on the classes that all schemas inherit from names only classes that there
are. -/
def BaseGrounded (w : World) (i : Nat) : Prop :=
  ∀ c ∈ [ClassRef.schemaBase, .object], ∀ f ∈ (w.registry i).own c, ∀ d ∈ f.classes, w.classes.Has d

section Built

variable {specs others : List Table.SchemaSpec} (hw : w.Established)

include hw

/-- The fields of the base of the schemas name only classes that there are. -/
theorem BaseGrounded.fields (hb : w.BaseGrounded (w.registryFor binder)) :
    ∀ f ∈ (w.registry (w.registryFor binder)).fields w.classes .schemaBase,
      ∀ k ∈ f.classes, w.classes.Has k := by
  apply Registry.forall_mem_fields
  rw [hw.lawful.order_schemaBase]
  exact hb

/-- A class of a table has the fields that are declared on it, laid over those that the base of the
schema classes had before. -/
theorem Built.fields_eq_overlay (h : w.Built binder specs cs v) (hc : c ∈ cs) :
    (v.registry (w.registryFor binder)).fields v.classes c =
      Registry.overlay ((w.registry (w.registryFor binder)).fields w.classes .schemaBase)
        ((v.registry (w.registryFor binder)).own c) := by
  have hbase : ClassRef.schemaBase ∉ cs := fun hm => h.gains.not_has hm hw.has_schemaBase
  have hroot : ClassRef.object ∉ cs := fun hm => h.gains.not_has hm hw.has_object
  have hfields : (v.registry (w.registryFor binder)).fields v.classes .schemaBase =
      (w.registry (w.registryFor binder)).fields w.classes .schemaBase := by
    rw [Registry.fields, Registry.fields, h.gains.established.lawful.order_schemaBase,
      hw.lawful.order_schemaBase]
    simp [h.others _ hbase, h.others _ hroot]
  rw [h.gains.fields_eq_overlay hc, hfields]

variable (hb : w.BaseGrounded (w.registryFor binder)) (hv : w.Built binder specs cs v)
  (hu : w.Built binder others ds u) {s t : Table.SchemaSpec} (hs : s ∈ specs) (ht : t ∈ others)
  (hst : Table.ShuffledSpec s t) (hsound : ∀ f ∈ s.fields, f.Sound (cs.map ClassRef.name))

include hb hv hu hs ht hst hsound

/-- The fields of the class of a schema are, in another order and with other classes of the table,
those of the class that it has in the other order of the table. -/
theorem exists_fields_twins (hd : (s.fields.map Table.FieldSpec.name).Nodup) :
    ∃ fs, ((v.registry (w.registryFor binder)).fields v.classes (Table.classOf cs s.name)).Perm fs ∧
      (∀ f ∈ fs, ∀ k ∈ f.classes, w.classes.Has k ∨ k ∈ cs) ∧
      List.Forall₂ (fun f g => (f.rename (Table.counterpart cs ds)).Twins g) fs
        ((u.registry (w.registryFor binder)).fields u.classes (Table.classOf ds t.name)) := by
  let base := (w.registry (w.registryFor binder)).fields w.classes .schemaBase
  have hold : ∀ f ∈ base, ∀ k ∈ f.classes, w.classes.Has k := BaseGrounded.fields hw hb
  have hown := hv.fields s hs
  obtain ⟨zs, hperm, hzs⟩ := exists_perm_twins hst.fields hsound hown (hu.fields t ht)
  rw [hv.fields_eq_overlay hw (Table.classOf_mem (hv.name_mem hs)),
    hu.fields_eq_overlay hw (Table.classOf_mem (hu.name_mem ht))]
  refine ⟨Registry.overlay base zs, ?_, ?_, ?_⟩
  · apply Registry.overlay_perm (Registry.nodup_fields _ _ _) _ hperm
    rw [map_name_eq_of_fulfils hown]
    exact hd
  · apply Registry.forall_mem_overlay
    · exact fun f hf k hk => .inl (hold f hf k hk)
    · exact fun f hf k hk => .inr (classes_of_fulfils hsound hown f (hperm.mem_iff.mpr hf) k hk)
  · refine Registry.forall₂_overlay (fun f g hfg => ?_) ?_ hzs
    · rw [← hfg.others]
      rfl
    · -- The fields of the base name no class of the table, so that they stay as they are.
      rw [List.forall₂_same]
      intro f hf
      have hself : f.rename (Table.counterpart cs ds) = f :=
        f.rename_eq_self fun k hk => counterpart_of_has hv.gains (hold f hf k hk)
      rw [hself]
      exact .refl f

/-- The classes of one schema have the same plans in both orders of a table. -/
theorem samePlans_of_built (hn : (cs.map ClassRef.name).Perm (ds.map ClassRef.name))
    (hd : (s.fields.map Table.FieldSpec.name).Nodup) :
    SamePlans (Table.counterpart cs ds)
      ((v.registry (w.registryFor binder)).compile v.classes (Table.classOf cs s.name))
      ((u.registry (w.registryFor binder)).compile u.classes (Table.classOf ds t.name)) := by
  obtain ⟨fs, hperm, hclasses, htwins⟩ := exists_fields_twins hw hb hv hu hs ht hst hsound hd
  have hplanned := forall₂_imp_of_mem htwins.flip fun g f hf hfg =>
    plannedAlike_of_twins hw hv.gains hu.gains hn (hclasses f hf) hfg
  exact Registry.samePlans_compile (hv.gains.isSchema (Table.classOf_mem (hv.name_mem hs)))
    (hu.gains.isSchema (Table.classOf_mem (hu.name_mem ht))) hperm hplanned.flip

end Built

/-- The classes of one name have the same plans in both orders of a table. -/
theorem samePlans_of_read (hw : w.Established) (hb : w.BaseGrounded (w.registryFor binder))
    {entries others : List (Value × Value)} (hk : Table.DistinctKeys entries)
    (hi : (Table.read entries).issues = []) (hl : Table.DistinctKeys others)
    (hj : (Table.read others).issues = [])
    (hs : Table.ShuffledSpecs (Table.read entries).result (Table.read others).result)
    (hv : w.Built binder (Table.read entries).result cs v)
    (hu : w.Built binder (Table.read others).result ds u) (hc : c ∈ cs) (hd : d ∈ ds)
    (hcd : c.name = d.name) :
    SamePlans (Table.counterpart cs ds) ((v.registry (w.registryFor binder)).compile v.classes c)
      ((u.registry (w.registryFor binder)).compile u.classes d) := by
  have hcs : (cs.map ClassRef.name).Nodup := hv.names ▸ hk.nodup_schemas hi
  have hds : (ds.map ClassRef.name).Nodup := hu.names ▸ hl.nodup_schemas hj
  have hn : (cs.map ClassRef.name).Perm (ds.map ClassRef.name) := by
    rw [hv.names, hu.names]
    exact hs.map_name
  have hm : d.name ∈ (Table.read others).result.map Table.SchemaSpec.name := by
    rw [← hu.names]
    exact List.mem_map_of_mem hd
  obtain ⟨t, ht, htd⟩ := List.mem_map.mp hm
  obtain ⟨s, hs, hst⟩ := hs.exists_left ht
  have hsc : Table.classOf cs s.name = c := by
    rw [hst.name, htd, ← hcd, Table.classOf_name hcs hc]
  have htd : Table.classOf ds t.name = d := by rw [htd, Table.classOf_name hds hd]
  have hsound := Table.sound_of_mem_read hi hs
  rw [← (Table.map_name_eq_of_sound (Table.forall₂_read hi)).1, ← hv.names] at hsound
  rw [← hsc, ← htd]
  exact samePlans_of_built hw hb hv hu hs ht hst hsound hn (hk.nodup_fields hi hs)

/-- Two orders of a table are built alike: both are refused, with the same issues in any order, and
nothing has happened; or both become classes of the same names, and those of one name have the same
plans, the schemas of the table identified by name and the fields in any order. -/
inductive BuiltAlike (w : World) :
    Except Fault (List ClassRef) × World → Except Fault (List ClassRef) × World → Prop
  | unshown : BuiltAlike w (.error (.value .digits), w) (.error (.value .digits), w)
  | refused {is js : List Issue} (h : is.Perm js) :
    BuiltAlike w (.error (.table is), w) (.error (.table js), w)
  | built {cs ds : List ClassRef} {v u : World}
    (names : (cs.map ClassRef.name).Perm (ds.map ClassRef.name))
    (plans : ∀ c ∈ cs, ∀ d ∈ ds, c.name = d.name → SamePlans (Table.counterpart cs ds)
      (exec (planOf (v.registryOf c) c) v).1 (exec (planOf (u.registryOf d) d) u).1) :
    BuiltAlike w (.ok cs, v) (.ok ds, u)

end World

namespace Session

open World

/-- Whether a table is accepted, its issues, and the plans of its classes do not depend on the order
of its schemas and of the fields of each. -/
theorem Grounded.build_shuffled {s : Session} (h : s.Grounded) (binder : Option Nat)
    {entries others : List (Value × Value)} (hs : Table.Shuffled entries others)
    (hk : Table.DistinctKeys entries)
    (hb : s.world.BaseGrounded (s.world.registryFor binder)) :
    s.world.BuiltAlike (exec (Table.build binder (.dict entries)) s.world)
      (exec (Table.build binder (.dict others)) s.world) := by
  obtain ⟨hspecs, hissues⟩ := hs.read
  cases hp : Table.printable entries with
  | false =>
    rw [Table.exec_build_of_not_printable hp,
      Table.exec_build_of_not_printable (hs.printable ▸ hp)]
    exact .unshown
  | true =>
    have hq : Table.printable others = true := hs.printable ▸ hp
    by_cases hi : (Table.read entries).issues = []
    · have hj : (Table.read others).issues = [] := by
        rw [hi] at hissues
        exact hissues.nil_eq.symm
      have hl := hs.distinctKeys hk
      obtain ⟨cs, v, hv, hbv⟩ := h.established.exec_build_read binder hp hk hi
      obtain ⟨ds, u, hu, hbu⟩ := h.established.exec_build_read binder hq hl hj
      have hcv := h.reachable.consistent.build binder (.dict entries)
      have hcu := h.reachable.consistent.build binder (.dict others)
      rw [hv] at hcv
      rw [hu] at hcu
      rw [hv, hu]
      refine .built (by rw [hbv.names, hbu.names]; exact hspecs.map_name) ?_
      intro c hc d hd hcd
      rw [fst_exec_planOf hcv, fst_exec_planOf hcu, hbv.gains.registryOf hc,
        hbu.gains.registryOf hd]
      exact samePlans_of_read h.established hb hk hi hl hj hspecs hbv hbu hc hd hcd
    · have hj : (Table.read others).issues ≠ [] := by
        intro hj
        rw [hj] at hissues
        exact hi hissues.eq_nil
      rw [Table.exec_build_of_read hp hi, Table.exec_build_of_read hq hj]
      exact .refused hissues

/-- A table with its schemas, and the fields of each, in the opposite order. -/
def backward (entries : List (Value × Value)) : List (Value × Value) :=
  entries.reverse.map fun e =>
    match e.2 with
    | .dict fields => (e.1, .dict fields.reverse)
    | _ => e

private theorem shuffled_backward (entries : List (Value × Value)) :
    Table.Shuffled entries (backward entries) := by
  refine ⟨entries.reverse, (List.reverse_perm entries).symm, ?_⟩
  rw [backward, List.forall₂_map_right_iff, List.forall₂_same]
  rintro ⟨key, v⟩ -
  cases v with
  | dict fields => exact .fields key (List.reverse_perm fields).symm
  | _ => exact .same _

/-- A schema class that was there before a table. -/
def tag : ClassRef := ⟨5, "Tag", true⟩

/-- A session with a strict registry and a binder of it, in which every schema has a tag. -/
def tagging : Session := strictBinder.after [
  .newClass "Tag" [.schemaBase] (some 1) [],
  .declare 1 (.cls .schemaBase) (.str "tag") [] (some (.cls tag))]

/-- The names and the kinds of the fields of the class that a table becomes under a name. -/
def builtKinds (s : Session) (binder : Option Nat) (entries : List (Value × Value))
    (name : String) : Option (List (String × String)) :=
  match exec (Table.build binder (.dict entries)) s.world with
  | (.ok cs, v) =>
    let c := Table.classOf cs name
    (exec (planOf (v.registryOf c) c) v).1.toOption.map
      (List.map fun p => (p.name, planKindName p))
  | (.error _, _) => none

/-- A table with issues: a reserved name, types that there are not, and something that is no
schema. -/
def faulty : List (Value × Value) := [
  (.str "class", .dict [(.str "next", .str "Order")]),
  (.str "Order", .dict [
    (.str "lines", .dict [(.str "type", .str "array"), (.str "items", .str "Line")]),
    (.str "buyer", .str "Buyer"),
    (.str "total", .dict [(.str "type", .str "number"), (.str "gte", .str "0")])]),
  (.str "Line", .int 3)]

/-- The schemas of `references` refer alike to themselves, to one another and to the class of every
tag, whatever the order of the table; and `faulty` has the same issues in any order. -/
theorem references_backward :
    tagging.Grounded ∧ Table.DistinctKeys (Table.entriesOf references) ∧
      Table.DistinctKeys faulty ∧
      tagging.world.BaseGrounded (tagging.world.registryFor (some 1)) ∧
      (tagging.world.BuiltAlike
          (exec (Table.build (some 1) (.dict (Table.entriesOf references))) tagging.world)
          (exec (Table.build (some 1) (.dict (backward (Table.entriesOf references))))
            tagging.world) ∧
        tagging.builtKinds (some 1) (Table.entriesOf references) "str" =
          some [("tag", "Tag"), ("next", "str"), ("owner", "Person")] ∧
        tagging.builtKinds (some 1) (backward (Table.entriesOf references)) "str" =
          some [("tag", "Tag"), ("owner", "Person"), ("next", "str")] ∧
        tagging.builtKinds (some 1) (Table.entriesOf references) "Person" = some [("tag", "Tag"),
          ("homes", "array[str]"), ("grid", "passthrough"), ("age", "int")] ∧
        tagging.builtKinds (some 1) (backward (Table.entriesOf references)) "Person" =
          some [("tag", "Tag"), ("age", "int"), ("grid", "passthrough"),
            ("homes", "array[str]")]) ∧
      tagging.world.BuiltAlike (exec (Table.build (some 1) (.dict faulty)) tagging.world)
          (exec (Table.build (some 1) (.dict (backward faulty))) tagging.world) ∧
        (Table.issuesOf (.dict faulty)).map Issue.path =
          ["class", "Order.buyer.type", "Order.total.gte", "Line"] ∧
        (Table.issuesOf (.dict (backward faulty))).map Issue.path =
          ["class", "Line", "Order.total.gte", "Order.buyer.type"] := by
  have hs : tagging.Grounded :=
    (Grounded.initial.after (by decide +kernel)).after (by decide +kernel)
  have hr : Table.DistinctKeys (Table.entriesOf references) :=
    ⟨by decide +kernel, by decide +kernel⟩
  have hf : Table.DistinctKeys faulty := ⟨by decide +kernel, by decide +kernel⟩
  have hb : tagging.world.BaseGrounded (tagging.world.registryFor (some 1)) := by
    unfold BaseGrounded
    decide +kernel
  refine ⟨hs, hr, hf, hb, ⟨hs.build_shuffled (some 1) (shuffled_backward _) hr hb, ?_⟩,
    hs.build_shuffled (some 1) (shuffled_backward _) hf hb, ?_⟩
  all_goals decide +kernel

end Session

end SchemaBinding
