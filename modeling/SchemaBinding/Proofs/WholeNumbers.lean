import SchemaBinding.Proofs.ErrorOrigin

/-!
# Whole numbers that are refused as no integers

A field may ask for a number without a fractional part, and a number that has one is called no
integer. A whole number is called so too, where the field refuses numbers altogether: a text or a
boolean is asked for, or a floating-point number and the number is beyond these.
-/

namespace SchemaBinding

namespace Value

/-- Whether a value is a number that is finite and has no fractional part. -/
def isWhole : Value → Bool
  | .int _ => true
  | .float x => x.isIntegral
  | _ => false

private theorem isNumber_of_isWhole {v : Value} (h : v.isWhole = true) : v.isNumber = true := by
  cases v with
  | int i => rfl
  | float x => rfl
  | _ => cases h

private theorem ne_null_of_isWhole {v : Value} (h : v.isWhole = true) : v ≠ .null := by
  rintro rfl
  cases h

end Value

/-- Telling values apart makes no whole number, and leaves one as it is. -/
theorem World.adopted_eq_iff_of_isWhole {v : Value} (h : v.isWhole = true) (w : World) (u : Value) :
    w.adopted u = v ↔ u = v := by
  have hsame : ∀ u : Value, u.isWhole = true → w.adopted u = u := by
    intro u hu
    cases u with
    | int i => rfl
    | float x => exact adopted_of_settled (.float x fun hx => by rw [hx] at hu; cases hu) w
    | _ => cases hu
  have hwhole : (w.adopted u).isWhole = u.isWhole := by
    cases u with
    | float x =>
      cases x with
      | nan origin => cases origin <;> rfl
      | _ => rfl
    | list items label => cases label <;> rfl
    | _ => rfl
  constructor
  · intro he
    rw [← he, hsame]
    rw [← hwhole, he, h]
  · rintro rfl
    exact hsame u h

/-- A primitive kind refuses a whole number if it is one of texts or booleans, or one of
floating-point numbers, and the number is beyond these. -/
theorem Primitive.refuses_isWhole_iff {v : Value} (h : v.isWhole = true) (p : Primitive) :
    (∃ expected, p.convert v = .error expected) ↔
      p = .str ∨ p = .bool ∨ p = .float ∧ v.Overlarge := by
  rw [convert_eq_outcome]
  cases v with
  | int i =>
    cases p with
    | str => exact iff_of_true ⟨_, rfl⟩ (.inl rfl)
    | bool => exact iff_of_true ⟨_, rfl⟩ (.inr (.inl rfl))
    | float =>
      rw [overlarge_int_iff, outcome]
      cases Double.ofInt? i with
      | none => exact iff_of_true ⟨_, rfl⟩ (.inr (.inr ⟨rfl, rfl⟩))
      | some x => exact iff_of_false (by simp [orExpected]) (by simp)
    | int => exact iff_of_false (by simp [outcome]) (by simp)
    | number => exact iff_of_false (by simp [outcome]) (by simp)
  | float x =>
    obtain ⟨i, hi⟩ : ∃ i, x.toInt? = some i := Option.isSome_iff_exists.mp h
    cases p with
    | str => exact iff_of_true ⟨_, rfl⟩ (.inl rfl)
    | bool => exact iff_of_true ⟨_, rfl⟩ (.inr (.inl rfl))
    | int =>
      rw [outcome, hi]
      exact iff_of_false (by simp [orExpected]) (by simp)
    | float => exact iff_of_false (by simp [outcome]) (by simp [Value.Overlarge])
    | number => exact iff_of_false (by simp [outcome]) (by simp)
  | _ => cases h

namespace FieldPlan.CallsNoInteger

variable {plan : FieldPlan} {raw v : Value}

/-- What is called no integer is a number. -/
theorem isNumber (h : plan.CallsNoInteger raw v) : v.isNumber = true := by
  cases h with
  | refused _ hn => exact hn
  | fractional => rfl

/-- A whole number that a field calls no integer is the raw value, and the kind of the field refuses
it. -/
theorem of_isWhole (h : plan.CallsNoInteger raw v) (hv : v.isWhole = true) :
    v = raw ∧ plan.integer = true ∧ ∃ p, plan.kind = some (.scalar (.primitive p)) ∧
      (p = .str ∨ p = .bool ∨ p = .float ∧ v.Overlarge) := by
  cases h with
  | @refused p expected hi _ hk hr =>
    exact ⟨rfl, hi, p, hk, (p.refuses_isWhole_iff hv).mp ⟨expected, hr⟩⟩
  | fractional _ hx => exact absurd hv hx

end FieldPlan.CallsNoInteger

namespace Fault

/-- A fault that, if it is that a value is no integer, is one of a field with a raw value. -/
def Blames (cls : ClassRef) (plan : FieldPlan) (raw : Value) (f : Fault) : Prop :=
  ∀ typeName field v, f = .binding ⟨typeName, field, .notInteger v⟩ →
    typeName = cls.name ∧ field = plan.name ∧ v.printable = true ∧ plan.CallsNoInteger raw v

variable {cls : ClassRef} {plan : FieldPlan} {raw : Value}

private theorem covers_blames : Covers (Blames cls plan raw) cls.name plan.name where
  other h _ _ _ hf := absurd hf (h _)
  own h _ _ v hf := by
    have hcause := congrArg BindingError.cause (eq_of_ofBinding hf).1
    exact absurd hcause (h v)

private theorem blames_notInteger {v : Value} (h : plan.CallsNoInteger raw v) :
    Blames cls plan raw (.ofBinding ⟨cls.name, plan.name, .notInteger v⟩) := by
  intro typeName field u hf
  obtain ⟨he, hp⟩ := eq_of_ofBinding hf
  cases he
  exact ⟨rfl, rfl, hp, h⟩

end Fault

namespace Binding

open World Fault

variable {typeName field : String}

namespace Entry

variable {e : Entry}

/-- A field that a run comes to asks for an integer, and refuses a whole number by its kind: it asks
for a text or for a boolean, or for a floating-point number, and the number is beyond these. -/
structure Visit.Refuses (visit : e.Visit) (typeName field : String) (v : Value) : Prop where
  typeName_eq : e.cls.name = typeName
  field_eq : visit.plan.name = field
  raw_eq : visit.raw = v
  integer : visit.plan.integer = true
  kind : ∃ p, visit.plan.kind = some (.scalar (.primitive p)) ∧
    (p = .str ∨ p = .bool ∨ p = .float ∧ v.Overlarge)

/-- A run fails with the whole number that a field refuses. -/
theorem Visit.Refuses.run_error {visit : e.Visit} {v : Value} (h : visit.Refuses typeName field v)
    (hv : v.isWhole = true) (hp : v.printable = true) :
    e.run.1 = .error (.binding ⟨typeName, field, .notInteger v⟩) := by
  obtain ⟨rfl, rfl, hraw, hi, p, hk, hr⟩ := h
  obtain ⟨expected, hexpected⟩ := (p.refuses_isWhole_iff hv).mpr hr
  have hadopt : visit.world.adopted visit.raw = v :=
    (adopted_eq_iff_of_isWhole hv _ _).mpr hraw
  have hn : visit.raw ≠ .null := by
    rw [hraw]
    exact Value.ne_null_of_isWhole hv
  have hfail : ∀ w, exec (convertField e.enter e.cls.name visit.plan (.scalar (.primitive p)) v) w =
      (.error (.binding ⟨e.cls.name, visit.plan.name, .notInteger v⟩), w) := by
    intro w
    have hb : ofBinding ⟨e.cls.name, visit.plan.name, .notInteger v⟩ =
        .binding ⟨e.cls.name, visit.plan.name, .notInteger v⟩ := if_pos hp
    simp only [convertField, hexpected, hi, Value.isNumber_of_isWhole hv]
    rw [fail, hb]
    rfl
  refine congrArg Prod.fst (visit.run_error (x := visit.world.adopting visit.raw) ?_)
  rw [Visit.outcome, bindField_value hn, exec_bind_of_ok (exec_adopt _ _)]
  refine exec_bind_of_error ?_ _
  rw [resolve, hk]
  refine exec_bind_of_error ?_ _
  rw [← raw, hadopt]
  exact hfail _

/-- If a run fails because a number is no integer, and no entry that it makes does, then the number
is not whole, unless a field that the run has come to refuses it. -/
theorem exists_visit_of_notInteger (hw : e.world.Consistent)
    (ho : ∀ plans, e.world.plansFor e.binder e.cls = .ok plans → ∀ p ∈ plans, p.Ordinary)
    {v : Value} (h : e.run.1 = .error (.binding ⟨typeName, field, .notInteger v⟩))
    (hn : ∀ next, Next e next →
      next.run.1 ≠ .error (.binding ⟨typeName, field, .notInteger v⟩)) :
    v.isNumber = true ∧ v.printable = true ∧
      (v.isWhole = true → ∃ visit : e.Visit, visit.Refuses typeName field v) := by
  rcases run_binding_cases hw h with ⟨-, he⟩ | ⟨-, he⟩ | ⟨visit, hvisit⟩
  · cases he
  · cases he
  have hp := ho _ (visit.plansFor_eq hw) _ visit.plan_mem
  obtain ⟨htype, hfield, hprintable, hcalls⟩ := visit.failsOnly_outcome covers_blames hp
    (fun _ => blames_notInteger) h hn _ hvisit typeName field v rfl
  refine ⟨hcalls.isNumber, hprintable, fun hv => ?_⟩
  obtain ⟨hraw, hi, hk⟩ := hcalls.of_isWhole hv
  have hsame := (adopted_eq_iff_of_isWhole hv _ _).mp hraw.symm
  exact ⟨visit, htype.symm, hfield.symm, hsame, hi, hk⟩

end Entry

/-- A bind that calls a value no integer calls a number so, and one that is not whole, with these
exceptions: a whole number is called no integer exactly if it is the raw value of a field that asks
for an integer, to which the bind comes, and the kind of the field is one of texts or booleans, or
one of floating-point numbers, and the number is beyond these. This asks that the functions of the
caller raise no binding errors themselves. -/
theorem bind_notInteger {s : Session} (hs : s.Reachable) {binder : Nat} {cls : ClassRef}
    {data : Value} (ho : s.world.Throughout (fun plans => ∀ p ∈ plans, p.Ordinary) binder cls)
    (typeName field : String) (v : Value) :
    let raises := (exec (bind binder cls data) s.world).1 =
      .error (.binding ⟨typeName, field, .notInteger v⟩)
    (raises → v.isNumber = true) ∧
      (v.isWhole = true → (raises ↔ v.printable = true ∧
        ∃ path last, Entry.Leads (Entry.root s.world binder cls data) path last ∧
          ∃ visit : last.Visit, visit.Refuses typeName field v)) := by
  have hw : (Entry.root s.world binder cls data).world.Consistent := hs.consistent.adopting data
  rw [Entry.bind_eq_run]
  intro raises
  have horigin : raises → v.isNumber = true ∧ v.printable = true ∧
      (v.isWhole = true → ∃ path last,
        Entry.Leads (Entry.root s.world binder cls data) path last ∧
          ∃ visit : last.Visit, visit.Refuses typeName field v) := by
    intro h
    have hcalm := calm_adopting s.world data
    obtain ⟨path, last, hl, -, hr, hn, -⟩ :=
      Entry.exists_origin hcalm hw ho (eq_error_of_map h)
    obtain ⟨hnumber, hprintable, hwhole⟩ := Entry.exists_visit_of_notInteger (hl.calm hw).1
      (fun plans => hl.plans hw hcalm ho) hr hn
    exact ⟨hnumber, hprintable, fun hv => ⟨path, last, hl, hwhole hv⟩⟩
  refine ⟨fun h => (horigin h).1, fun hv => ⟨fun h => ?_, ?_⟩⟩
  · obtain ⟨-, hp, hvisit⟩ := horigin h
    exact ⟨hp, hvisit hv⟩
  · rintro ⟨hp, path, last, hl, visit, hvisit⟩
    have hroot := hl.run_error (Prod.ext (hvisit.run_error hv hp) rfl)
    exact congrArg (fun r => r.1.map (instanceOf cls)) hroot

end Binding

namespace Session

open Binding

/-- A class with a text that is asked to be an integer. -/
def labelling : Session :=
  initial.after [.newClass "Label" [.schemaBase] none [("code", ⟨.basic .str, [.integer]⟩)]]

/-- The class of `labelling`. -/
def label : ClassRef := ⟨5, "Label", true⟩

/-- The number that a cause calls no integer, if it is an integer all the same. -/
def refusedInt? : BindingCause → Option Int
  | .notInteger (.int i) => some i
  | _ => none

private theorem eq_of_refusedInt? {cause : BindingCause} {i : Int}
    (h : refusedInt? cause = some i) :
    cause = .notInteger (.int i) := by
  unfold refusedInt? at h
  split at h
  · cases h
    rfl
  · cases h

/-- A whole number in the place of a text is called no integer. -/
theorem label_refuses_five :
    let data : Value := .dict [(.str "code", .int 5)]
    labelling.world.Throughout (fun plans => ∀ p ∈ plans, p.Ordinary) 0 label ∧
      (exec (bind 0 label data) labelling.world).1 =
        .error (.binding ⟨"Label", "code", .notInteger (.int 5)⟩) ∧
      ∃ path last, Entry.Leads (Entry.root labelling.world 0 label data) path last ∧
        ∃ visit : last.Visit, visit.Refuses "Label" "code" (.int 5) := by
  intro data
  have hs : labelling.Reachable := reachable_after .initial _
  have hc : labelling.world.closed (fun plans => ∀ plan ∈ plans, plan.Plain) [(0, label)] =
      true := by decide +kernel
  have ho : labelling.world.Throughout (fun plans => ∀ p ∈ plans, p.Ordinary) 0 label := by
    intro next last hr plans hp p hmem
    have hplain := World.throughout_of_closed hc (List.mem_cons_self ..) next last hr plans hp
    exact (hplain p hmem).ordinary
  have hd : (bindingError? (exec (bind 0 label data) labelling.world).1).map
      (fun e => (e.typeName, e.fieldName, refusedInt? e.cause)) =
        some ("Label", "code", some 5) := by decide +kernel
  obtain ⟨⟨typeName, field, cause⟩, he, hn⟩ := Option.map_eq_some_iff.mp hd
  simp only [Prod.mk.injEq] at hn
  obtain ⟨rfl, rfl, hcause⟩ := hn
  cases eq_of_refusedInt? hcause
  have hr := eq_of_bindingError? he
  obtain ⟨-, hiff⟩ := bind_notInteger hs ho "Label" "code" (.int 5)
  exact ⟨ho, hr, ((hiff rfl).mp hr).2⟩

end Session

end SchemaBinding
