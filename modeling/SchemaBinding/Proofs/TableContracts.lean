import SchemaBinding.Proofs.DeclareCalls
import SchemaBinding.Proofs.TableSpecs

/-!
# The contracts of the fields of a table

A sound field of a table is declared once, on a class that has no field of its name. Then nothing
can conflict: it is said at most once whether the field must be there. And what comes of it has a
plan as soon as the classes of the table may be nested.
-/

namespace SchemaBinding

/-! ### Merging rules into a contract -/

/-- A rule says whether the field must be there. -/
def Fragment.isRequirement : Fragment → Bool
  | .requirement _ => true
  | _ => false

namespace FieldContract

/-- Rules do not conflict if at most one of them, or the contract, says whether the field must be
there. -/
theorem addAll_ok (once : Bool) {c : FieldContract} {fs : List Fragment}
    (h : fs.countP Fragment.isRequirement + (if c.requirement.isSome then 1 else 0) ≤ 1) :
    c.addAll once fs = .ok (fs.foldl merge c) := by
  induction fs generalizing c with
  | nil => rfl
  | cons f fs ih =>
    rw [List.countP_cons] at h
    cases f with
    | requirement q =>
      -- This is the one rule that says it, so that the contract does not yet, and no later rule
      -- does.
      have hn : c.requirement = none := by
        cases hc : c.requirement with
        | none => rfl
        | some r => simp [hc, Fragment.isRequirement] at h
      have hadd : c.add once (.requirement q) = .ok (c.merge (.requirement q)) := by
        simp only [add, hn]
        cases once <;> rfl
      have hcount : fs.countP Fragment.isRequirement = 0 := by
        simp only [hn, Fragment.isRequirement, if_true, Option.isSome_none] at h
        omega
      rw [addAll, hadd]
      apply ih
      rw [hcount]
      split <;> decide
    | _ => exact ih h

/-- A rule that the value be kept as it is stays in force. -/
theorem passthrough_merge {c : FieldContract} (h : c.passthrough = true) (f : Fragment) :
    (c.merge f).passthrough = true := by
  cases f with
  | passthrough => rfl
  | _ => exact h

private theorem passthrough_foldl_merge {c : FieldContract} {fs : List Fragment}
    (h : c.passthrough = true ∨ .passthrough ∈ fs) : (fs.foldl merge c).passthrough = true := by
  induction fs generalizing c with
  | nil => exact h.resolve_right List.not_mem_nil
  | cons f fs ih =>
    apply ih
    rcases h with h | h
    · exact .inl (passthrough_merge h f)
    · rcases List.mem_cons.mp h with rfl | h
      · exact .inl rfl
      · exact .inr h

/-- The type of the elements is one that a rule gives. -/
theorem element_foldl_merge {c : FieldContract} {fs : List Fragment} {e : DeclaredType}
    (h : (fs.foldl merge c).element = some e) : c.element = some e ∨ .arrayOf e ∈ fs := by
  induction fs generalizing c with
  | nil => exact .inl h
  | cons f fs ih =>
    rcases ih h with hc | hm
    · cases f with
      | arrayOf t =>
        cases hc
        exact .inr (List.mem_cons_self ..)
      | _ => exact .inl hc
    · exact .inr (List.mem_cons_of_mem f hm)

/-- A contract whose plan compiles as soon as some classes may be nested. -/
def Compiles (classes : List ClassRef) (f : FieldContract) : Prop :=
  ∀ p : ClassRef → Bool, (∀ c ∈ classes, p c = true) → ∃ plan, f.plan p = .ok plan

end FieldContract

namespace Registry

/-- A contract of a new name is put at the end. -/
theorem putContract_of_not_mem {fields : List FieldContract} {f : FieldContract}
    (h : f.name ∉ fields.map FieldContract.name) : putContract fields f = fields ++ [f] := by
  induction fields with
  | nil => rfl
  | cons g rest ih =>
    rw [List.map_cons, List.mem_cons, not_or] at h
    rw [putContract, if_neg fun he => h.1 (eq_of_beq he).symm, ih h.2]
    rfl

/-- Contracts of different names are laid over none as they are. -/
theorem overlay_of_nodup {fields own : List FieldContract}
    (h : ((fields ++ own).map FieldContract.name).Nodup) : overlay fields own = fields ++ own := by
  induction own generalizing fields with
  | nil => exact (List.append_nil fields).symm
  | cons f own ih =>
    have ho : overlay fields (f :: own) = overlay (putContract fields f) own := rfl
    have hf : f.name ∉ fields.map FieldContract.name := by
      rw [List.map_append, List.nodup_append] at h
      intro hm
      exact h.2.2 _ hm _ (List.mem_cons_self ..) rfl
    rw [ho, putContract_of_not_mem hf, ih]
    · rw [List.append_assoc]
      rfl
    · rw [List.append_assoc]
      exact h

variable {r : Registry} {c : ClassRef} {name : String} {fragments : List Fragment}

/-- A field that a class does not have can be declared if its rules say at most once whether it must
be there. -/
theorem exists_declare (hn : name ∉ (r.own c).map FieldContract.name)
    (hr : fragments.countP Fragment.isRequirement ≤ 1) (t : DeclaredType) :
    ∃ q contract first, r.declare c name fragments (some t) = (q, .ok (contract, first)) ∧
      contract = { fragments.foldl FieldContract.merge (.empty name) with declared := t } ∧
      q.own c = r.own c ++ [contract] ∧ ∀ d, d ≠ c → q.own d = r.own d := by
  let contract := { fragments.foldl FieldContract.merge (.empty name) with declared := t }
  have hfind : (r.own c).find? (fun f => f.name == name) = none := by
    rw [List.find?_eq_none]
    intro f hf he
    exact hn (List.mem_map.mpr ⟨f, hf, eq_of_beq he⟩)
  have hd : ∃ q first, r.declare c name fragments (some t) = (q, .ok (contract, first)) := by
    have hadd :=
      FieldContract.addAll_ok r.strict (c := .empty name) (by simpa [FieldContract.empty])
    rw [declare, ownField?, own_know, hfind]
    dsimp only [Option.getD_none]
    rw [hadd]
    exact ⟨_, _, rfl⟩
  obtain ⟨q, first, hd⟩ := hd
  have hown := own_declare_ok hd
  refine ⟨q, contract, first, hd, rfl, ?_, fun d hne => ?_⟩
  · have hname : contract.name = name := FieldContract.name_foldl_merge _ _
    rw [hown, ContractChange.effect, if_pos rfl, Declaration.putInto, hfind]
    exact putContract_of_not_mem (by rw [← hname] at hn; exact hn)
  · rw [hown, ContractChange.effect, if_neg fun h => hne h.symm]

end Registry

/-! ### Rules that are told apart -/

namespace World

/-- Telling rules apart keeps how many say whether a field must be there. -/
theorem countP_isRequirement_adoptedFragments (w : World) (fs : List Fragment) :
    (w.adoptedFragments fs).countP Fragment.isRequirement = fs.countP Fragment.isRequirement := by
  have h : Fragment.isRequirement = Fragment.isRequirement ∘ Fragment.outline := by
    funext f
    cases f <;> rfl
  rw [h, ← List.countP_map, ← List.countP_map, map_outline_adoptedFragments]

/-- Whether a value is kept as it is does not change, and neither does the type of its elements. -/
theorem mem_adoptedFragments_iff {f : Fragment} (h : f = .passthrough ∨ ∃ e, f = .arrayOf e)
    (w : World) (fs : List Fragment) : f ∈ w.adoptedFragments fs ↔ f ∈ fs := by
  have ho : ∀ g : Fragment, g.outline = f ↔ g = f := by
    intro g
    rcases h with rfl | ⟨e, rfl⟩ <;> cases g <;> simp [Fragment.outline]
  have hm : ∀ gs : List Fragment, f ∈ gs ↔ f ∈ gs.map Fragment.outline := by
    intro gs
    simp [ho]
  rw [hm, hm fs, map_outline_adoptedFragments]

end World

/-! ### Kinds of the types of a table -/

namespace DeclaredType

variable (p : ClassRef → Bool)

/-- Every basic type has a kind. -/
theorem exists_kind_basic (b : BasicType) : ∃ k, (basic b).kind p none = .ok k := by
  cases b <;> exact ⟨_, rfl⟩

/-- A basic type that is neither a list nor a tuple may be that of elements. -/
theorem exists_arrayKind_basic {b : BasicType} (hl : b ≠ .list) (ht : b ≠ .tuple) :
    ∃ k, (basic b).arrayKind p = .ok k := by
  cases b with
  | list => exact absurd rfl hl
  | tuple => exact absurd rfl ht
  | _ => exact ⟨_, rfl⟩

variable {p} {c : ClassRef} (hc : p c = true)

include hc

/-- A class that may be nested has a kind, and may be that of elements. -/
theorem kind_cls : (cls c).kind p none = .ok (.scalar (.schema c)) := by
  simp [kind, scalarKind, hc, Except.map]

private theorem arrayKind_cls : (cls c).arrayKind p = .ok (.array (some (.schema c))) := by
  simp [arrayKind, isListType, scalarKind, hc, Except.map]

end DeclaredType

namespace Table

variable {cs : List ClassRef} {p : ClassRef → Bool}

/-- The class of a schema of a table is one of its classes, and has its name. -/
theorem classOf_mem_and_name {name : String} (h : name ∈ cs.map ClassRef.name) :
    classOf cs name ∈ cs ∧ (classOf cs name).name = name := by
  obtain ⟨c, hc, rfl⟩ := List.mem_map.mp h
  rw [classOf]
  cases hf : cs.find? fun d => d.name == c.name with
  | none =>
    have hne := List.find?_eq_none.mp hf c hc
    simp at hne
  | some d =>
    have hd := List.find?_some hf
    exact ⟨List.mem_of_find?_eq_some hf, eq_of_beq hd⟩

/-- The class of the name of a schema is one of the classes. -/
theorem classOf_mem {name : String} (h : name ∈ cs.map ClassRef.name) : classOf cs name ∈ cs :=
  (classOf_mem_and_name h).1

/-- The class of a schema is found by its name if no two have the same. -/
theorem classOf_name (hn : (cs.map ClassRef.name).Nodup) {c : ClassRef} (hc : c ∈ cs) :
    classOf cs c.name = c := by
  obtain ⟨hm, hname⟩ := classOf_mem_and_name (List.mem_map_of_mem (f := ClassRef.name) hc)
  exact List.inj_on_of_nodup_map hn hm hc hname

private theorem map_classOf (hn : (cs.map ClassRef.name).Nodup) :
    (cs.map ClassRef.name).map (classOf cs) = cs := by
  have h : ∀ c ∈ cs, (classOf cs ∘ ClassRef.name) c = id c := fun c hc => classOf_name hn hc
  rw [List.map_map, List.map_congr_left h, List.map_id]

/-- Classes with the names of schemas are found by them if no two schemas have the same. -/
theorem map_classOf_eq_of_name {specs : List SchemaSpec}
    (h : cs.map ClassRef.name = specs.map SchemaSpec.name)
    (hn : (specs.map SchemaSpec.name).Nodup) : specs.map (fun s => classOf cs s.name) = cs :=
  calc specs.map (fun s => classOf cs s.name)
      = (specs.map SchemaSpec.name).map (classOf cs) := by rw [List.map_map]; rfl
    _ = (cs.map ClassRef.name).map (classOf cs) := by rw [h]
    _ = cs := map_classOf (h ▸ hn)

/-- Only the builtin array type is a list or a tuple. -/
theorem ne_tuple_of_builtin : ∀ b ∈ builtinTypes, b.2 ≠ .tuple := by decide

/-- A type of a table has a kind if the classes of the table may be nested. -/
theorem TypeRef.exists_kind {t : TypeRef} (ht : t.In (cs.map ClassRef.name))
    (hp : ∀ c ∈ cs, p c = true) : ∃ k, (t.resolve cs).kind p none = .ok k := by
  cases t with
  | builtin d =>
    obtain ⟨b, -, rfl⟩ := ht
    exact DeclaredType.exists_kind_basic p b.2
  | schema name => exact ⟨_, DeclaredType.kind_cls (hp _ (classOf_mem ht))⟩

/-- It may be that of elements unless it is the builtin array type. -/
theorem TypeRef.exists_arrayKind {t : TypeRef} (ht : t.In (cs.map ClassRef.name))
    (hl : t ≠ .builtin (.basic .list)) (hp : ∀ c ∈ cs, p c = true) :
    ∃ k, (t.resolve cs).arrayKind p = .ok k := by
  cases t with
  | builtin d =>
    obtain ⟨b, hb, rfl⟩ := ht
    have hne : b.2 ≠ .list := fun h => hl (by rw [h])
    exact DeclaredType.exists_arrayKind_basic p hne (ne_tuple_of_builtin b hb)
  | schema name => exact ⟨_, DeclaredType.arrayKind_cls (hp _ (classOf_mem ht))⟩

/-! ### The contract of a field -/

/-- The rules of a field, as they are declared. -/
def FieldSpec.fragments (f : FieldSpec) (cs : List ClassRef) : List Fragment :=
  f.rules.map (SpecRule.resolve cs)

/-- What a field becomes when it is declared, once, in a world. -/
def FieldSpec.contract (f : FieldSpec) (cs : List ClassRef) (w : World) : FieldContract :=
  { (w.adoptedFragments (f.fragments cs)).foldl FieldContract.merge (.empty f.name) with
    declared := f.declared.resolve cs }

/-- The contract of a field of a table bears its name. -/
theorem FieldSpec.name_contract (f : FieldSpec) (cs : List ClassRef) (w : World) :
    (f.contract cs w).name = f.name := FieldContract.name_foldl_merge _ _

namespace FieldSpec.Sound

variable {f : FieldSpec} (h : f.Sound (cs.map ClassRef.name))

include h

/-- A field of a table says at most once whether it must be there. -/
theorem countP_isRequirement : (f.fragments cs).countP Fragment.isRequirement ≤ 1 := by
  have hr : Fragment.isRequirement ∘ SpecRule.resolve cs = SpecRule.requires := by
    funext r
    cases r with
    | rule g => cases g <;> rfl
    | arrayOf e => rfl
  rw [FieldSpec.fragments, List.countP_map, hr]
  exact h.requires

/-- What is declared of elements is their type. It may be that of elements, unless the value is kept
as it is. -/
theorem exists_element {e : DeclaredType} (he : .arrayOf e ∈ f.fragments cs) :
    ∃ t : TypeRef, e = t.resolve cs ∧ t.In (cs.map ClassRef.name) ∧
      (.passthrough ∈ f.fragments cs ∨ t ≠ .builtin (.basic .list)) := by
  obtain ⟨r, hr, hre⟩ := List.mem_map.mp he
  have hel : r.ofElements = true := by
    cases r with
    | rule g =>
      have hg : g = .arrayOf e := hre
      rw [hg]
      rfl
    | arrayOf t => rfl
  obtain ⟨t, rfl, hin, hlist⟩ := h.elements r hr hel
  refine ⟨t, (Fragment.arrayOf.inj hre).symm, hin, hlist.imp_left fun hpass => ?_⟩
  exact List.mem_map.mpr ⟨_, hpass, rfl⟩

/-- The type of the elements is one that is declared of them. -/
theorem exists_element_contract {w : World} {e : DeclaredType}
    (he : (f.contract cs w).element = some e) :
    ∃ t : TypeRef, e = t.resolve cs ∧ t.In (cs.map ClassRef.name) ∧
      (.passthrough ∈ f.fragments cs ∨ t ≠ .builtin (.basic .list)) := by
  rcases FieldContract.element_foldl_merge he with hnone | hm
  · cases hnone
  · exact h.exists_element ((World.mem_adoptedFragments_iff (.inr ⟨e, rfl⟩) w _).mp hm)

/-- What comes of a sound field that is declared once has a plan if the classes of the table may be
nested. -/
theorem compiles (w : World) : (f.contract cs w).Compiles cs := by
  intro p hp
  have hkind : (f.contract cs w).passthrough = false →
      ∃ k, (f.contract cs w).declared.kind p (f.contract cs w).element = .ok k := by
    intro hpass
    have hnot : .passthrough ∉ f.fragments cs := by
      intro hm
      have hin := (World.mem_adoptedFragments_iff (.inl rfl) w (f.fragments cs)).mpr hm
      have htrue : (f.contract cs w).passthrough = true :=
        FieldContract.passthrough_foldl_merge (.inr hin)
      rw [htrue] at hpass
      cases hpass
    cases he : (f.contract cs w).element with
    | none => exact TypeRef.exists_kind h.declared hp
    | some e =>
      obtain ⟨t, rfl, hin, hlist⟩ := h.exists_element_contract he
      exact TypeRef.exists_arrayKind hin (hlist.resolve_left hnot) hp
  cases hpass : (f.contract cs w).passthrough with
  | true =>
    exact ⟨_, (Registry.plan_ok_iff p _ _).mpr ⟨none, by rw [hpass]; rfl, rfl⟩⟩
  | false =>
    obtain ⟨k, hk⟩ := hkind hpass
    refine ⟨_, (Registry.plan_ok_iff p _ _).mpr ⟨some k, ?_, rfl⟩⟩
    rw [hpass, hk]
    rfl

end FieldSpec.Sound

end Table

end SchemaBinding
