import SchemaBinding.Proofs.ContractHistory

/-!
# The declared fields of a class

The fields of a class are those declared on the classes that it inherits from. The contract of a
field is the one of the first class, in the order of inheritance, on which the field is declared.
Every field of a class that a session declares is an identifier.
-/

namespace SchemaBinding

namespace Registry

variable {t : ClassTable} {r q : Registry}

/-- The contract of a class for a field, declared on the class or inherited. -/
def field? (t : ClassTable) (r : Registry) (c : ClassRef) (name : String) : Option FieldContract :=
  (r.fields t c).find? fun f => f.name == name

/-- A class has at most one contract of its own for each field. -/
def Distinct (r : Registry) : Prop := ∀ c, ((r.own c).map FieldContract.name).Nodup

/-- After a contract has been put, it stands under its name, and all others as before. -/
theorem find?_putContract (fields : List FieldContract) (f : FieldContract) (name : String) :
    (putContract fields f).find? (fun g => g.name == name) =
      if f.name = name then some f else fields.find? fun g => g.name == name := by
  induction fields with
  | nil => by_cases hf : f.name = name <;> simp [putContract, hf]
  | cons g rest ih =>
    rw [putContract]
    by_cases hg : g.name = f.name
    · by_cases hf : f.name = name
      · simp [hg, hf]
      · simp [hg, hf]
    · by_cases hf : f.name = name
      · have hn : ¬ g.name = name := fun h => hg (h.trans hf.symm)
        simp [hf, hn, ih]
      · rw [if_neg (by simpa using hg), List.find?_cons, List.find?_cons, ih, if_neg hf, if_neg hf]

/-- Contracts laid over others stand before them. -/
theorem find?_overlay (fields : List FieldContract) {own : List FieldContract}
    (hn : (own.map FieldContract.name).Nodup) (name : String) :
    (overlay fields own).find? (fun g => g.name == name) =
      (own.find? fun g => g.name == name).or (fields.find? fun g => g.name == name) := by
  induction own generalizing fields with
  | nil => rfl
  | cons f own ih =>
    obtain ⟨hf, hown⟩ := List.nodup_cons.mp hn
    have ho : overlay fields (f :: own) = overlay (putContract fields f) own := rfl
    rw [ho, ih _ hown, find?_putContract, List.find?_cons]
    by_cases he : f.name = name
    · have hnone : own.find? (fun g => g.name == name) = none := by
        rw [List.find?_eq_none]
        intro g hg hgn
        exact hf (List.mem_map.mpr ⟨g, hg, (eq_of_beq hgn).trans he.symm⟩)
      simp [he, hnone]
    · rw [if_neg he, beq_false_of_ne he]

/-- The contract of a class for a field is that of the first class it inherits from which has
one of its own. -/
theorem field?_eq_findSome? (hr : r.Distinct) (c : ClassRef) (name : String) :
    r.field? t c name = (t.order c).findSome? fun k => r.ownField? k name := by
  have h : ∀ ks : List ClassRef,
      (ks.reverse.foldl (fun fields k => overlay fields (r.own k)) []).find?
          (fun g => g.name == name) = ks.findSome? fun k => r.ownField? k name := by
    intro ks
    induction ks with
    | nil => rfl
    | cons k ks ih =>
      rw [List.reverse_cons, List.foldl_concat, find?_overlay _ (hr k), ih, List.findSome?_cons,
        ← ownField?]
      cases r.ownField? k name <;> rfl
  exact h _

private theorem name_of_field? {c : ClassRef} {name : String} {f : FieldContract}
    (h : r.field? t c name = some f) : f.name = name := by
  have hf := List.find?_some h
  simpa using hf

/-- A field of a class is one that it has a contract for. -/
theorem mem_names_iff (c : ClassRef) (name : String) :
    name ∈ (r.fields t c).map FieldContract.name ↔ ∃ f, r.field? t c name = some f := by
  constructor
  · intro h
    obtain ⟨f, hf, hn⟩ := List.mem_map.mp h
    have hs : ((r.fields t c).find? fun g => g.name == name).isSome := by
      rw [List.find?_isSome]
      exact ⟨f, hf, by simp [hn]⟩
    exact Option.isSome_iff_exists.mp hs
  · rintro ⟨f, hf⟩
    exact List.mem_map.mpr ⟨f, List.mem_of_find?_eq_some hf, name_of_field? hf⟩

/-- A contract of a class is the one that it has for the field. -/
theorem field?_of_mem {c : ClassRef} {f : FieldContract} (h : f ∈ r.fields t c) :
    r.field? t c f.name = some f := by
  have hn := nodup_fields t r c
  obtain ⟨g, hg⟩ := (mem_names_iff c f.name).mp (List.mem_map.mpr ⟨f, h, rfl⟩)
  have hgf : g = f :=
    List.inj_on_of_nodup_map hn (List.mem_of_find?_eq_some hg) h (name_of_field? hg)
  rw [hg, hgf]

/-- A field of a class is declared on it or on a class that it inherits from. -/
theorem exists_own_of_mem_fields {c : ClassRef} {f : FieldContract} (h : f ∈ r.fields t c) :
    ∃ k ∈ t.order c, f ∈ r.own k := by
  revert f
  apply forall_mem_fields
  intro k hk f hf
  exact ⟨k, hk, hf⟩

end Registry

/-! ### Names of declared fields -/

/-- A declaration is of a name that its class may have for a field. -/
def Declaration.Valid (d : Declaration) : Prop :=
  checkFieldName d.cls.name (.str d.field) = .ok d.field

/-- A field with a valid declaration has an identifier for its name. -/
theorem Declaration.Valid.isIdentifier {d : Declaration} (h : d.Valid) :
    Text.isIdentifier d.field = true := by
  unfold Valid checkFieldName at h
  dsimp only at h
  split at h
  · cases h
  · next hi => simpa using hi

/-- The name that stands for a payload as a whole is no identifier. -/
theorem rootField_not_identifier : Text.isIdentifier rootField = false := by decide

/-- The declarations on a class since it was last forgotten are among the changes. -/
theorem ContractChange.mem_of_mem_latest {c : ClassRef} {changes : List ContractChange}
    {d : Declaration} (h : d ∈ latest c changes) : .declared d ∈ changes := by
  induction changes using List.reverseRecOn with
  | nil => cases h
  | append_singleton changes change ih =>
    rw [latest, List.foldl_concat] at h
    rw [List.mem_append, List.mem_singleton]
    cases change with
    | declared e =>
      rw [remember] at h
      split at h
      · rcases List.mem_append.mp h with h | h
        · exact .inl (ih h)
        · exact .inr (congrArg _ (List.mem_singleton.mp h))
      · exact .inl (ih h)
    | forgotten k =>
      rw [remember] at h
      split at h
      · cases h
      · exact .inl (ih h)
    | cleared => cases h

/-- The declarations on a class are of that class. -/
theorem ContractChange.cls_of_mem_latest {c : ClassRef} {changes : List ContractChange}
    {d : Declaration} (h : d ∈ latest c changes) : d.cls = c := by
  induction changes using List.reverseRecOn with
  | nil => cases h
  | append_singleton changes change ih =>
    rw [latest, List.foldl_concat] at h
    cases change with
    | declared e =>
      rw [remember] at h
      split at h
      · next he =>
        rcases List.mem_append.mp h with h | h
        · exact ih h
        · rw [List.mem_singleton.mp h, he]
      · exact ih h
    | forgotten k =>
      rw [remember] at h
      split at h
      · cases h
      · exact ih h
    | cleared => cases h

namespace DeclareCall

open World

/-- A call that succeeds is of a valid name. -/
theorem checkFieldName_of_run_ok {call : DeclareCall} {w v : World}
    (h : exec call.run w = (.ok (), v)) :
    checkFieldName call.cls.name (.str call.field) = .ok call.field := by
  obtain ⟨site, c, name, args, declared⟩ := call
  cases hn : checkFieldName c.name (.str name) with
  | ok field =>
    cases eq_str_of_checkFieldName hn
    rfl
  | error e =>
    have hd : ∀ i, exec (declareField i c (.str name) args declared) w = (.error e, w) := by
      intro i
      rw [declareField, hn]
      rfl
    exfalso
    cases site with
    | ofClass =>
      rw [run, declareOnClass, exec_bind_of_ok (exec_get w), exec_bind_of_error (hd _)] at h
      cases h
    | _ =>
      rw [run, exec_bind_of_error (hd _)] at h
      cases h

private theorem valid_of_mem_allChanges {i : Nat} {w : World} {calls : List DeclareCall}
    {d : Declaration}
    (h : .declared d ∈ allChanges i w calls) : d.Valid := by
  induction calls generalizing w with
  | nil => cases h
  | cons call rest ih =>
    rw [allChanges] at h
    rcases hr : exec call.run w with ⟨e | ⟨⟩, v⟩
    · rw [hr] at h
      cases h
    · rw [hr] at h
      rcases List.mem_append.mp h with h | h
      · rw [changes] at h
        split at h
        · cases List.mem_singleton.mp h
          exact checkFieldName_of_run_ok hr
        · cases h
      · exact ih h

end DeclareCall

/-- Forgetting declares nothing. -/
theorem Operation.declared_not_mem_forgets (op : Operation) (i : Nat) (d : Declaration) :
    .declared d ∉ op.forgets i := by
  have hf : ∀ target, .declared d ∉ Operation.forgotten target := by
    intro target hd
    unfold Operation.forgotten at hd
    split at hd <;> simp at hd
  intro h
  cases op with
  | clear j target =>
    rw [Operation.forgets] at h
    split at h
    · exact hf target h
    · cases h
  | _ => cases h

namespace Session

/-- Whatever a session declares is of a valid name. -/
theorem valid_of_mem_changes {i : Nat} {s : Session} {op : Operation} {d : Declaration}
    (h : .declared d ∈ s.changes i op) : d.Valid := by
  rcases List.mem_append.mp h with h | h
  · exact absurd h (op.declared_not_mem_forgets i d)
  · rw [opened] at h
    split at h
    · exact DeclareCall.valid_of_mem_allChanges h
    · cases h

/-- Every declaration of a history is valid. -/
theorem valid_of_mem_history {i : Nat} {s : Session} {ops : List Operation} {d : Declaration}
    (h : .declared d ∈ history i s ops) : d.Valid := by
  induction ops generalizing s with
  | nil => cases h
  | cons op ops ih =>
    rcases List.mem_append.mp h with h | h
    · exact valid_of_mem_changes h
    · exact ih h

private theorem Reachable.exists_after {s : Session} (h : s.Reachable) :
    ∃ ops, s = Session.initial.after ops := by
  induction h with
  | initial => exact ⟨[], rfl⟩
  | step s op _ ih =>
    obtain ⟨ops, rfl⟩ := ih
    refine ⟨ops ++ [op], ?_⟩
    rw [after, after, List.foldl_concat]

/-- A class has at most one contract of its own for each field, whatever operations came before. -/
theorem Reachable.distinct {s : Session} (h : s.Reachable) (i : Nat) :
    (s.world.registry i).Distinct := by
  obtain ⟨ops, rfl⟩ := h.exists_after
  intro c
  let ds := ContractChange.latest c (history i Session.initial ops)
  have hn : (Declaration.contracts ds).map FieldContract.name = Declaration.names ds := by
    rw [Declaration.contracts, List.map_map]
    exact List.map_id'' (Declaration.name_contract ds) _
  rw [own_after, hn]
  exact Declaration.nodup_names ds

/-- Every field of a class is an identifier, whatever operations came before. -/
theorem Reachable.isIdentifier {s : Session} (h : s.Reachable) {i : Nat} {c : ClassRef}
    {f : FieldContract} (hf : f ∈ (s.world.registry i).fields s.world.classes c) :
    Text.isIdentifier f.name = true := by
  obtain ⟨k, -, hk⟩ := Registry.exists_own_of_mem_fields hf
  obtain ⟨ops, rfl⟩ := h.exists_after
  rw [own_after] at hk
  obtain ⟨name, hname, rfl⟩ := List.mem_map.mp hk
  obtain ⟨d, hd, rfl⟩ := (Declaration.mem_names _).mp hname
  have hv := valid_of_mem_history (ContractChange.mem_of_mem_latest hd)
  rw [Declaration.name_contract]
  exact hv.isIdentifier

end Session

end SchemaBinding
