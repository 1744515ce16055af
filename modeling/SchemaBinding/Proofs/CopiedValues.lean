import SchemaBinding.Proofs.Contents
import SchemaBinding.Session.Step

/-!
# Copies of values

A bind does not hand out a default itself but a deep copy of it (specification §3.1). The copy holds
what the default holds, as long as every instance in the default is compared by its attributes. A
copy of an instance that equals only itself is another one.
-/

namespace SchemaBinding

namespace Session

variable (p : ClassRef → Bool)

private theorem anyItem_eq (vs : List Value) : anyItem p vs = vs.any (holdsAny p) := by
  induction vs with
  | nil => rfl
  | cons v vs ih =>
    rw [List.any_cons, ← ih]
    rfl

private theorem anyEntry_eq (es : List (Value × Value)) :
    anyEntry p es = es.any fun e => holdsAny p e.1 || holdsAny p e.2 := by
  induction es with
  | nil => rfl
  | cons e es ih =>
    obtain ⟨k, v⟩ := e
    rw [List.any_cons, ← ih]
    rfl

private theorem anyAttr_eq (as : List (String × Value)) :
    anyAttr p as = as.any fun a => holdsAny p a.2 := by
  induction as with
  | nil => rfl
  | cons a as ih =>
    obtain ⟨name, v⟩ := a
    rw [List.any_cons, ← ih]
    rfl

/-- What is in a list is in one of its items. -/
theorem holdsAny_list (items : List Value) (label : Option Nat) :
    holdsAny p (.list items label) = items.any (holdsAny p) := by
  rw [← anyItem_eq]
  rfl

/-- What is in a tuple is in one of its items. -/
theorem holdsAny_tuple (items : List Value) :
    holdsAny p (.tuple items) = items.any (holdsAny p) := by
  rw [← anyItem_eq]
  rfl

/-- What is in a dictionary is in a key or a value of it. -/
theorem holdsAny_dict (entries : List (Value × Value)) :
    holdsAny p (.dict entries) = entries.any fun e => holdsAny p e.1 || holdsAny p e.2 := by
  rw [← anyEntry_eq]
  rfl

/-- What is in a record is the record or in one of its attributes. -/
theorem holdsAny_record (cls : InstanceRef) (attrs : List (String × Value)) :
    holdsAny p (.record cls attrs) = (p cls.toClassRef || attrs.any fun a => holdsAny p a.2) := by
  rw [← anyAttr_eq]
  rfl

end Session

/-- An instance that is compared by its attributes is not told from a new one. -/
theorem InstanceRef.renewed_of_structural {r : InstanceRef} (h : r.structural = true) :
    r.renewed = r := by
  obtain ⟨cls, identity, hi⟩ := r
  obtain rfl : identity = none := hi h
  rfl

namespace Value

/-- Every instance in a value is compared by its attributes, none by which one it is. -/
def Structural (v : Value) : Prop := Session.holdsAny (fun c => !c.structural) v = false

instance (v : Value) : Decidable v.Structural :=
  inferInstanceAs (Decidable (Session.holdsAny (fun c => !c.structural) v = false))

/-- A copy of a value holds what the value holds, if all instances in it are compared by their
attributes. -/
theorem Structural.copied {v : Value} (h : v.Structural) : v.copied = v.unlabelled := by
  induction v with
  | list items label ih =>
    rw [Structural, Session.holdsAny_list, List.any_eq_false] at h
    have hitems : items.map Value.copied = items.map unlabelled :=
      List.map_congr_left fun v hv => ih v hv (Bool.eq_false_iff.mpr (h v hv))
    rw [copied_list, unlabelled_list, hitems]
  | tuple items ih =>
    rw [Structural, Session.holdsAny_tuple, List.any_eq_false] at h
    have hitems : items.map Value.copied = items.map unlabelled :=
      List.map_congr_left fun v hv => ih v hv (Bool.eq_false_iff.mpr (h v hv))
    rw [copied_tuple, unlabelled_tuple, hitems]
  | dict entries ih =>
    rw [Structural, Session.holdsAny_dict, List.any_eq_false] at h
    have hentries : entries.map copiedEntry = entries.map unlabelledEntry := by
      refine List.map_congr_left fun e he => ?_
      have hparts := Bool.eq_false_iff.mpr (h e he)
      rw [Bool.or_eq_false_iff] at hparts
      exact Prod.ext ((ih e he).1 hparts.1) ((ih e he).2 hparts.2)
    rw [copied_dict, unlabelled_dict, hentries]
  | record cls attrs ih =>
    rw [Structural, Session.holdsAny_record, Bool.or_eq_false_iff, List.any_eq_false] at h
    have hcls : cls.structural = true := by simpa using h.1
    have hattrs : attrs.map copiedAttr = attrs.map unlabelledAttr :=
      List.map_congr_left fun a ha => Prod.ext rfl (ih a ha (Bool.eq_false_iff.mpr (h.2 a ha)))
    rw [copied_record, unlabelled_record, InstanceRef.renewed_of_structural hcls, hattrs]
  | _ => rfl

end Value

end SchemaBinding
