import SchemaBinding.Binding.Field
import SchemaBinding.Proofs.Conversions
import SchemaBinding.Proofs.Execution
import SchemaBinding.Proofs.NearestNumbers

/-!
# What the primitive kinds take

A primitive kind takes the values of its own JSON kind and no others: nothing is read as a text, as
a number or as a boolean that is none. Of the numbers, the integral ones are integers, and those
that are not beyond the floating-point numbers have a nearest one.
-/

namespace SchemaBinding

/-- What a primitive kind takes, and what it makes of it. -/
inductive Primitive.Takes : Primitive → Value → Value → Prop
  | text (s : String) : Takes .str (.str s) (.str s)
  | truth (b : Bool) : Takes .bool (.bool b) (.bool b)
  | anyInt (i : Int) : Takes .number (.int i) (.int i)
  | anyFloat (x : Double) : Takes .number (.float x) (.float x)
  | int (i : Int) : Takes .int (.int i) (.int i)
  /-- A floating-point number that is an integer becomes that integer. -/
  | integral (x : Double) (i : Int) (h : x.rat? = some i) : Takes .int (.float x) (.int i)
  | float (x : Double) : Takes .float (.float x) (.float x)
  /-- An integer becomes the floating-point number nearest to it, unless it is as near to the power
  of two after the largest finite number, or nearer. -/
  | nearest (i : Int) (h : i.natAbs < 2 ^ 1024 - 2 ^ 970) {exponent : Fin 2047}
    {fraction : Fin 4503599627370496} (hn : Double.NearestTo i exponent fraction) :
    Takes .float (.int i) (.float (.finite (i < 0) exponent fraction))

namespace Primitive

private theorem rat?_eq_int_iff (x : Double) (i : Int) :
    x.rat? = some (i : ℚ) ↔ x.toInt? = some i := by
  rw [Double.toInt?_eq_some_iff, ← Double.number?_eq_coe_iff, Double.number?_eq,
    Option.map_eq_some_iff]
  constructor
  · rintro ⟨p, hp, hn⟩
    rw [hp, Double.Place.number_injective (hn.trans (Double.number_placeOfInt i).symm)]
  · intro h
    exact ⟨_, h, Double.number_placeOfInt i⟩

private theorem converts_iff_takes (p : Primitive) (raw v : Value) :
    p.Converts raw v ↔ p.Takes raw v := by
  constructor
  · intro h
    cases h with
    | str s => exact .text s
    | bool b => exact .truth b
    | numberInt i => exact .anyInt i
    | numberFloat x => exact .anyFloat x
    | int i => exact .int i
    | integral x i h => exact .integral x i ((rat?_eq_int_iff x i).mpr h)
    | float x => exact .float x
    | nearest i x h =>
      obtain ⟨hi, exponent, fraction, rfl, hn⟩ := (Double.ofInt?_eq_some_iff i x).mp h
      exact .nearest i hi hn
  · intro h
    cases h with
    | text s => exact .str s
    | truth b => exact .bool b
    | anyInt i => exact .numberInt i
    | anyFloat x => exact .numberFloat x
    | int i => exact .int i
    | integral x i h => exact .integral x i ((rat?_eq_int_iff x i).mp h)
    | float x => exact .float x
    | nearest i hi hn =>
      exact .nearest i _ ((Double.ofInt?_eq_some_iff i _).mpr ⟨hi, _, _, rfl, hn⟩)

/-- A primitive kind takes values of its JSON kind only, and makes such values of them. -/
theorem Takes.kind_eq {p : Primitive} {v u : Value} (h : p.Takes v u) :
    v.kind = p.jsonKind ∧ u.kind = p.jsonKind := by
  cases h <;> exact ⟨rfl, rfl⟩

private theorem convert_ok_iff_takes (p : Primitive) (v u : Value) :
    p.convert v = .ok u ↔ p.Takes v u :=
  (p.convert_ok_iff v u).trans (p.converts_iff_takes v u)

/-- A primitive kind that refuses a value asks for itself or for its JSON kind. -/
theorem expected_of_convert {p : Primitive} {v : Value} {expected : String}
    (h : p.convert v = .error expected) : expected = p.name ∨ expected = p.jsonKind.name := by
  unfold convert at h
  split at h
  · exact .inl (Except.error.inj h).symm
  · split at h
    · cases h
    · exact .inr (Except.error.inj h).symm

end Primitive

namespace Binding

open World

/-- A field of a primitive kind, and an element of an array of one, takes exactly what the kind
takes, and becomes what the kind makes of it. Any other value is called a mismatch: of an element
with its index, and of a field without one; but a field that asks for an integer calls a number no
integer. -/
theorem convert_primitive (enter : Enter) (typeName field : String) (index : Option Nat)
    (plan : FieldPlan) (p : Primitive) (v : Value) (w : World) :
    let element := exec (convertScalar enter typeName field index v (.primitive p)) w
    let single := exec (convertField enter typeName plan (.scalar (.primitive p)) v) w
    (∀ u, element = (.ok u, w) ↔ p.Takes v u) ∧ (∀ u, single = (.ok u, w) ↔ p.Takes v u) ∧
      ((∃ u, p.Takes v u) ∨ ∃ expected, (expected = p.name ∨ expected = p.jsonKind.name) ∧
        element = (.error (.binding ⟨typeName, field, .mismatch expected v.kind index⟩), w) ∧
        single = (.error (if plan.integer && v.isNumber then
            .ofBinding ⟨typeName, plan.name, .notInteger v⟩
          else .binding ⟨typeName, plan.name, .mismatch expected v.kind none⟩), w)) := by
  intro element single
  have hiff := p.convert_ok_iff_takes v
  cases hc : p.convert v with
  | ok u =>
    have he : element = (.ok u, w) := by
      simp only [element, convertScalar, hc]
      rfl
    have hs : single = (.ok u, w) := by
      simp only [single, convertField, hc]
      rfl
    simp only [hc, Except.ok.injEq] at hiff
    rw [he, hs]
    simp only [Prod.mk.injEq, Except.ok.injEq, and_true, hiff, implies_true, true_and]
    exact .inl ⟨u, (hiff u).mp rfl⟩
  | error expected =>
    have he : element =
        (.error (.binding ⟨typeName, field, .mismatch expected v.kind index⟩), w) := by
      simp only [element, convertScalar, hc]
      rfl
    have hs : single = (.error (if plan.integer && v.isNumber then
            .ofBinding ⟨typeName, plan.name, .notInteger v⟩
          else .binding ⟨typeName, plan.name, .mismatch expected v.kind none⟩), w) := by
      simp only [single, convertField, hc]
      split <;> rfl
    have hnone : ∀ u, ¬ p.Takes v u := by
      intro u hu
      have := (hiff u).mpr hu
      rw [hc] at this
      cases this
    rw [he, hs]
    refine ⟨fun u => iff_of_false (fun h => ?_) (hnone u),
      fun u => iff_of_false (fun h => ?_) (hnone u),
      .inr ⟨expected, p.expected_of_convert hc, rfl, rfl⟩⟩
    · cases h
    · cases h

end Binding

end SchemaBinding
