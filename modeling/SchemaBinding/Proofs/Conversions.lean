import SchemaBinding.Kind.Conversion
import SchemaBinding.Proofs.Contents

/-!
# What conversions give

Which values a primitive kind accepts and what it makes of them, and what a date is read as. Much
can be made of a value that its kind refuses for having another kind then, and `Primitive.outcome`
says for each value what comes of it. A conversion accepts what it has given and gives it back.
-/

namespace SchemaBinding

namespace Double

private theorem ofScaled_cases (negative : Bool) (sig scale : Nat) :
    (ofScaled negative sig scale).isFinite = true ∨
      ofScaled negative sig scale = .infinite negative := by
  rw [ofScaled]
  split
  · exact .inl rfl
  · split
    · exact .inl rfl
    · exact .inr rfl

private theorem ofUnitRatio_cases (negative : Bool) (num den : Nat) :
    (ofUnitRatio negative num den).isFinite = true ∨
      ofUnitRatio negative num den = .infinite negative := by
  rw [ofUnitRatio]
  split
  · exact ofScaled_cases _ _ _
  · exact ofScaled_cases _ _ _

/-- The number nearest to an integer, where there is one, is finite. -/
theorem ofInt?_isFinite {i : Int} {x : Double} (h : ofInt? i = some x) : x.isFinite = true := by
  rw [ofInt?, ofRatio] at h
  rcases ofUnitRatio_cases (i < 0) (i.natAbs * Nat.pow 2 unitBits) 1 with hf | hi
  · generalize ofUnitRatio (i < 0) (i.natAbs * Nat.pow 2 unitBits) 1 = y at h hf
    cases y with
    | finite negative exponent fraction => cases h; rfl
    | _ => cases hf
  · rw [hi] at h
    cases h

/-- An integral number loses nothing with its fractional part. -/
theorem truncated?_of_toInt? {x : Double} {i : Int} (h : x.toInt? = some i) :
    x.truncated? = some i := by
  unfold toInt? at h
  unfold truncated?
  cases hu : x.units? with
  | none =>
    rw [hu] at h
    cases h
  | some u =>
    rw [hu] at h
    dsimp only at h
    split at h
    · next hd =>
      cases h
      rw [Option.map_some, Int.tdiv_eq_ediv_of_dvd (Int.dvd_of_emod_eq_zero hd)]
    · cases h

end Double

/-! ### Primitive kinds -/

namespace Primitive

/-- A value that was found, or else what was expected. -/
def orExpected (expected : String) : Option Value → Except String Value
  | some v => .ok v
  | none => .error expected

/-- What comes of a value by its type: the value that the kind makes of it, or what was expected
instead. -/
def outcome : Primitive → Value → Except String Value
  | .str, .str s => .ok (.str s)
  | .str, v => .error (if v.printable then JsonKind.string.name else Primitive.str.name)
  | .int, .int i => .ok (.int i)
  | .int, .float x => orExpected Primitive.int.name (x.toInt?.map .int)
  | .int, .bool _ => .error JsonKind.number.name
  | .int, _ => .error Primitive.int.name
  | .float, .float x => .ok (.float x)
  | .float, .int i => orExpected Primitive.float.name ((Double.ofInt? i).map .float)
  | .float, v =>
    .error (if v.toDouble?.isSome then JsonKind.number.name else Primitive.float.name)
  | .bool, .bool b => .ok (.bool b)
  | .bool, _ => .error JsonKind.boolean.name
  | .number, .int i => .ok (.int i)
  | .number, .float x => .ok (.float x)
  | .number, _ => .error Primitive.number.name

private theorem convert_of_none {p : Primitive} {v : Value} (h : p.coerce v = none) :
    p.convert v = .error p.name := by
  rw [convert, h]

private theorem convert_of_kind {p : Primitive} {v u : Value} (h : p.coerce v = some u)
    (hk : u.kind = v.kind) : p.convert v = .ok u := by
  rw [convert, h]
  exact if_pos hk

private theorem convert_of_other_kind {p : Primitive} {v u : Value} (h : p.coerce v = some u)
    (hk : u.kind ≠ v.kind) : p.convert v = .error p.jsonKind.name := by
  rw [convert, h]
  exact if_neg hk

/-- A text can be made of all that can be shown, and has the kind of texts. -/
private theorem convert_str_of_ne {v : Value} (hk : v.kind ≠ .string) :
    convert .str v =
      .error (if v.printable then JsonKind.string.name else Primitive.str.name) := by
  cases hp : v.printable with
  | true =>
    have hc : coerce .str v = some (.str v.words) := by rw [coerce, if_pos hp]
    exact convert_of_other_kind hc (Ne.symm hk)
  | false =>
    have hc : coerce .str v = none := by simp [coerce, hp]
    exact convert_of_none hc

private theorem convert_bool_of_ne {v : Value} (hk : v.kind ≠ .boolean) :
    convert .bool v = .error JsonKind.boolean.name :=
  convert_of_other_kind (u := .bool v.truth) rfl (Ne.symm hk)

/-- A floating-point number has the kind of numbers, whatever it is read from. -/
private theorem convert_float_of_ne {v : Value} (hk : v.kind ≠ .number) :
    convert .float v =
      .error (if v.toDouble?.isSome then JsonKind.number.name else Primitive.float.name) := by
  cases hd : v.toDouble? with
  | none =>
    have hc : coerce .float v = none := by rw [coerce, hd]; rfl
    exact convert_of_none hc
  | some x =>
    have hc : coerce .float v = some (.float x) := by rw [coerce, hd]; rfl
    exact convert_of_other_kind hc (Ne.symm hk)

/-- No text and no bytes are equal to the integer that they write. -/
private theorem coerce_int_of_ne {v : Value} (h : ∀ i, (Value.int i).eq v = false) :
    coerce .int v = none := by
  simp [coerce, h]

private theorem coerce_int_float (x : Double) :
    coerce .int (.float x) = x.toInt?.map .int := by
  have heq : ∀ i, (Value.int i).eq (.float x) = (x.toInt? == some i) := fun i => rfl
  simp only [coerce, Value.toInteger?, heq]
  cases hi : x.toInt? with
  | some i => simp [Double.truncated?_of_toInt? hi]
  | none => simp

private theorem coerce_int_int (i : Int) : coerce .int (.int i) = some (.int i) := by
  have heq : (Value.int i).eq (.int i) = true := by simp [Value.eq, Value.sameNumber, Value.asInt?]
  simp [coerce, Value.toInteger?, heq]

private theorem coerce_int_bool (b : Bool) :
    coerce .int (.bool b) = some (.int (if b then 1 else 0)) := by
  cases b <;> rfl

/-- The conversion to a primitive kind comes out by the type of the value: what the kind makes of it
has the JSON kind of the value only where no type is changed, or one of numbers to another. -/
theorem convert_eq_outcome (p : Primitive) (v : Value) : p.convert v = p.outcome v := by
  cases p with
  | str =>
    cases v with
    | str s => exact convert_of_kind (u := .str s) rfl rfl
    | _ => exact convert_str_of_ne (by simp [Value.kind])
  | int =>
    cases v with
    | int i => exact convert_of_kind (coerce_int_int i) rfl
    | float x =>
      have hc := coerce_int_float x
      rw [outcome]
      cases hi : x.toInt? with
      | none => exact convert_of_none (by rw [hc, hi]; rfl)
      | some i => exact convert_of_kind (by rw [hc, hi]; rfl) rfl
    | bool b => exact convert_of_other_kind (coerce_int_bool b) (by simp [Value.kind])
    | str s => exact convert_of_none (coerce_int_of_ne fun i => rfl)
    | bytes bs => exact convert_of_none (coerce_int_of_ne fun i => rfl)
    | _ => exact convert_of_none rfl
  | float =>
    cases v with
    | int i =>
      rw [outcome]
      cases hx : Double.ofInt? i with
      | none => exact convert_of_none (by simp [coerce, Value.toDouble?, hx])
      | some x => exact convert_of_kind (by simp [coerce, Value.toDouble?, hx]) rfl
    | float x => exact convert_of_kind (u := .float x) rfl rfl
    | _ => exact convert_float_of_ne (by simp [Value.kind])
  | bool =>
    cases v with
    | bool b => exact convert_of_kind (u := .bool b) rfl rfl
    | _ => exact convert_bool_of_ne (by simp [Value.kind])
  | number =>
    cases v with
    | int i => exact convert_of_kind (u := .int i) rfl rfl
    | float x => exact convert_of_kind (u := .float x) rfl rfl
    | _ => exact convert_of_none rfl

end Primitive

/-- What a primitive kind makes of a value that it accepts. -/
inductive Primitive.Converts : Primitive → Value → Value → Prop
  | str (s : String) : Converts .str (.str s) (.str s)
  | int (i : Int) : Converts .int (.int i) (.int i)
  | integral (x : Double) (i : Int) (h : x.toInt? = some i) : Converts .int (.float x) (.int i)
  | float (x : Double) : Converts .float (.float x) (.float x)
  | nearest (i : Int) (x : Double) (h : Double.ofInt? i = some x) :
    Converts .float (.int i) (.float x)
  | bool (b : Bool) : Converts .bool (.bool b) (.bool b)
  | numberInt (i : Int) : Converts .number (.int i) (.int i)
  | numberFloat (x : Double) : Converts .number (.float x) (.float x)

namespace Primitive

private theorem orExpected_ok_iff (expected : String) (o : Option Value) (v : Value) :
    orExpected expected o = .ok v ↔ o = some v := by
  cases o <;> simp [orExpected]

/-- A primitive kind accepts a value, and gives another, exactly as `Converts` says. -/
theorem convert_ok_iff (p : Primitive) (raw v : Value) :
    p.convert raw = .ok v ↔ p.Converts raw v := by
  rw [convert_eq_outcome]
  constructor
  · intro h
    cases p with
    | str =>
      cases raw with
      | str s => cases h; exact .str s
      | _ => cases h
    | int =>
      cases raw with
      | int i => cases h; exact .int i
      | float x =>
        obtain ⟨i, hi, rfl⟩ := Option.map_eq_some_iff.mp ((orExpected_ok_iff _ _ v).mp h)
        exact .integral x i hi
      | _ => cases h
    | float =>
      cases raw with
      | float x => cases h; exact .float x
      | int i =>
        obtain ⟨x, hx, rfl⟩ := Option.map_eq_some_iff.mp ((orExpected_ok_iff _ _ v).mp h)
        exact .nearest i x hx
      | _ => cases h
    | bool =>
      cases raw with
      | bool b => cases h; exact .bool b
      | _ => cases h
    | number =>
      cases raw with
      | int i => cases h; exact .numberInt i
      | float x => cases h; exact .numberFloat x
      | _ => cases h
  · intro h
    cases h with
    | integral x i h => exact (orExpected_ok_iff _ _ _).mpr (by rw [h]; rfl)
    | nearest i x h => exact (orExpected_ok_iff _ _ _).mpr (by rw [h]; rfl)
    | _ => rfl

/-- A primitive kind accepts what it has given, and gives it back. -/
theorem Converts.again {p : Primitive} {raw v : Value} (h : p.Converts raw v) :
    p.Converts v v := by
  cases h with
  | str s => exact .str s
  | int i => exact .int i
  | integral x i h => exact .int i
  | float x => exact .float x
  | nearest i x h => exact .float x
  | bool b => exact .bool b
  | numberInt i => exact .numberInt i
  | numberFloat x => exact .numberFloat x

/-- What a primitive kind makes of a named value is named and bears no labels. -/
theorem Converts.holds {p : Primitive} {raw v : Value} (h : p.Converts raw v)
    (hn : raw.Named) : v.Holds v := by
  cases h with
  | nearest i x h =>
    refine ⟨.float x fun he => ?_, rfl⟩
    have hf := Double.ofInt?_isFinite h
    rw [he] at hf
    cases hf
  | integral x i h => exact ⟨.int i, rfl⟩
  | _ => exact ⟨hn, rfl⟩

end Primitive

/-- What a kind of dates makes of values: plain dates, or date-times that are not naive. -/
inductive DateTarget.Gives : DateTarget → Value → Prop
  | date (d : Calendar.Date) : Gives .date (.date d)
  | dateTime (d : Calendar.DateTime) (h : d.offset.isSome = true) : Gives .dateTime (.dateTime d)

namespace DateTarget

private theorem gives_toValue (target : DateTarget) (m : Moment) :
    target.Gives (Moment.toValue target m) := by
  cases target with
  | date => cases m <;> exact .date _
  | dateTime =>
    cases m with
    | date d => exact .dateTime _ rfl
    | dateTime d =>
      refine .dateTime _ ?_
      unfold Calendar.DateTime.assumeUtc
      split
      · next h => rw [h]; rfl
      · rfl

/-- What a value is read as, where a date is asked for, is one. -/
theorem gives_of_parseDate {raw v : Value} {target : DateTarget}
    (h : parseDate raw target = .ok (some v)) : target.Gives v := by
  unfold parseDate at h
  cases hm : Moment.ofValue target raw with
  | error f => rw [hm] at h; cases h
  | ok found =>
    rw [hm] at h
    cases found with
    | none => cases h
    | some m => cases h; exact gives_toValue target m

/-- A date that was read is read again as itself. -/
theorem Gives.again {target : DateTarget} {v : Value} (h : target.Gives v) :
    parseDate v target = .ok (some v) := by
  cases h with
  | date d => rfl
  | dateTime d h =>
    have hu : d.assumeUtc = d := by
      obtain ⟨o, ho⟩ := Option.isSome_iff_exists.mp h
      unfold Calendar.DateTime.assumeUtc
      rw [ho]
    change Except.ok (some (Value.dateTime d.assumeUtc)) = _
    rw [hu]

/-- What a date is read as bears no labels. -/
theorem Gives.holds {target : DateTarget} {v : Value} (h : target.Gives v) : v.Holds v := by
  cases h with
  | date d => exact ⟨.date d, rfl⟩
  | dateTime d h => exact ⟨.dateTime d, rfl⟩

/-- What a date is read as is not null. -/
theorem Gives.ne_null {target : DateTarget} {v : Value} (h : target.Gives v) : v ≠ .null := by
  cases h <;> exact Value.noConfusion

end DateTarget

end SchemaBinding
