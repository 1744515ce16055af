import Mathlib
import SchemaBinding.Proofs.RuleFaults
import SchemaBinding.Proofs.Rounding

/-!
# Loose equality of numbers

Equality and the orderings of values go by the numbers that they are. Loose equality finds two
values equal if they are the same number, but it also compares the floating-point numbers nearest to
them, and so it blurs integers that are none: it takes different numbers for equal if these have the
same nearest one, and cannot tell them apart if one of them has none. For all other numbers it is
exact, and so are the checks that rest on it.
-/

namespace SchemaBinding

/-- A number on the extended rational line. -/
abbrev ExtendedRat := WithBot (WithTop ℚ)

namespace Double

/-- The number at a place on the line. -/
def Place.number : Place → ExtendedRat
  | .below => ⊥
  | .at units => ((units / 2 ^ unitBits : ℚ) : WithTop ℚ)
  | .above => ⊤

/-- Different places are those of different numbers. -/
theorem Place.number_injective : Function.Injective Place.number := by
  have hne : (2 ^ unitBits : ℚ) ≠ 0 := pow_ne_zero _ (by decide)
  intro p q h
  cases p <;> cases q
  case at.at u v =>
    have huv := WithTop.coe_injective (WithBot.coe_injective h)
    rw [div_left_inj' hne] at huv
    rw [Int.cast_injective huv]
  all_goals first | rfl | cases h

/-- The number that a floating-point number is; not-a-number is none. -/
def number? : Double → Option ExtendedRat
  | .nan _ => none
  | .infinite true => some ⊥
  | .infinite false => some ⊤
  | .finite negative exponent fraction =>
    some ((signed negative (magnitude exponent fraction) / 2 ^ unitBits : ℚ) : WithTop ℚ)

/-- The number of a floating-point number is that of its place. -/
theorem number?_eq (x : Double) : x.number? = x.place?.map Place.number := by
  cases x with
  | infinite negative => cases negative <;> rfl
  | _ => rfl

private theorem units_pos : (0 : Int) < Nat.pow 2 unitBits := by
  generalize unitBits = n
  exact Int.natCast_pos.mpr (Nat.two_pow_pos n)

/-- The place of an integer is that of its number. -/
theorem number_placeOfInt (i : Int) : (placeOfInt i).number = ((i : ℚ) : WithTop ℚ) := by
  have hne : (2 ^ unitBits : ℚ) ≠ 0 := pow_ne_zero _ (by decide)
  rw [placeOfInt, Place.number, Nat.pow_eq]
  push_cast
  rw [mul_div_cancel_right₀ _ hne]

/-- A number equals an integer if it stands where the integer does. -/
theorem toInt?_eq_some_iff (x : Double) (i : Int) :
    x.toInt? = some i ↔ x.place? = some (placeOfInt i) := by
  cases x with
  | finite negative exponent fraction =>
    rw [toInt?, units?, place?, placeOfInt]
    generalize signed negative (magnitude exponent fraction) = u
    dsimp only
    rw [Option.some.injEq, Place.at.injEq]
    split
    · next h =>
      rw [Option.some.injEq]
      constructor
      · rintro rfl
        exact (Int.ediv_mul_cancel (Int.dvd_of_emod_eq_zero h)).symm
      · rintro rfl
        exact Int.mul_ediv_cancel i units_pos.ne'
    · next h =>
      refine iff_of_false nofun ?_
      rintro rfl
      exact h (Int.mul_emod_left i _)
  | infinite negative => cases negative <;> exact iff_of_false nofun nofun
  | nan origin => exact iff_of_false nofun nofun

private theorem Place.compare_eq_iff {p q : Place} : p.compare q = .eq ↔ p = q := by
  cases p <;> cases q <;> simp [Place.compare]

/-- Two floating-point numbers are the same if they have one place. -/
theorem same_iff {x y : Double} : x.same y = true ↔ ∃ p, x.place? = some p ∧ y.place? = some p := by
  rw [same]
  cases x.place? with
  | none => simp
  | some p =>
    cases y.place? with
    | none => simp
    | some q =>
      simp only [beq_iff_eq, Option.some.injEq]
      exact ⟨fun h => ⟨p, rfl, h.symm⟩, fun ⟨_, hp, hq⟩ => hp.trans hq.symm⟩

end Double

namespace Value

/-- The number that a value is: an integer or a floating-point number is itself, true is one and
false is zero. -/
def number? : Value → Option ExtendedRat
  | .bool b => some ((if b then 1 else 0 : ℚ) : WithTop ℚ)
  | .int i => some ((i : ℚ) : WithTop ℚ)
  | .float x => x.number?
  | _ => none

/-- The number that a value is, is that of its place. -/
theorem number?_eq (v : Value) : v.number? = v.place?.map Double.Place.number := by
  cases v with
  | bool b => cases b <;> simp [number?, place?, asInt?, Double.number_placeOfInt]
  | int i => simp [number?, place?, asInt?, Double.number_placeOfInt]
  | float x => exact x.number?_eq
  | _ => rfl

/-- Two values are the same number. -/
def SameNumber (v w : Value) : Prop := ∃ a, v.number? = some a ∧ w.number? = some a

private theorem sameNumber_iff_place {v w : Value} :
    v.SameNumber w ↔ ∃ p, v.place? = some p ∧ w.place? = some p := by
  simp only [SameNumber, number?_eq, Option.map_eq_some_iff]
  constructor
  · rintro ⟨a, ⟨p, hp, rfl⟩, q, hq, he⟩
    exact ⟨p, hp, Double.Place.number_injective he ▸ hq⟩
  · rintro ⟨p, hp, hq⟩
    exact ⟨p.number, ⟨p, hp, rfl⟩, p, hq, rfl⟩

/-- The floating-point number that loose equality takes a number for. -/
def nearest? : Value → Option Double
  | .bool b => some (if b then .one else .zero false)
  | .int i => Double.ofInt? i
  | .float x => some x
  | _ => none

/-- Loose equality cannot tell two numbers apart, although they are different: their nearest
floating-point numbers, as far as they have any, are the same. -/
def Blurs (v w : Value) : Prop :=
  ¬ v.SameNumber w ∧ ∀ x y, v.nearest? = some x → w.nearest? = some y → x.same y = true

/-- Loose equality asks for the nearest floating-point number of a number that has none, as it does
with different numbers only. -/
def Overflows (v w : Value) : Prop :=
  ¬ v.SameNumber w ∧ ¬ (v.nearest?.isSome = true ∧ w.nearest?.isSome = true)

/-- A number is one of the floating-point numbers. -/
def IsDouble (v : Value) : Prop := ∃ x : Double, v.number? = x.number?

/-! ### Equality and order -/

variable {v w : Value}

/-- A floating-point number and a whole number are equal if they stand in one place. -/
private theorem toInt?_beq_iff (x : Double) (o : Option Int) :
    (o.isSome && x.toInt? == o) = true ↔
      ∃ p, x.place? = some p ∧ o.map Double.placeOfInt = some p := by
  cases o with
  | none => simp
  | some i => simp [Double.toInt?_eq_some_iff]

private theorem placeOfInt_injective : Function.Injective Double.placeOfInt := by
  intro i j h
  exact Int.eq_of_mul_eq_mul_right Double.units_pos.ne' (Double.Place.at.inj h)

private theorem place?_of_ne_float (h : ∀ x, v ≠ .float x) :
    v.place? = v.asInt?.map Double.placeOfInt := by
  cases v with
  | float x => exact absurd rfl (h x)
  | _ => rfl

private theorem sameNumber_float_left (x : Double) (h : ∀ y, w ≠ .float y) :
    (Value.float x).sameNumber w = (w.asInt?.isSome && x.toInt? == w.asInt?) := by
  cases w with
  | float y => exact absurd rfl (h y)
  | _ => rfl

private theorem sameNumber_float_right (y : Double) (h : ∀ x, v ≠ .float x) :
    v.sameNumber (.float y) = (v.asInt?.isSome && y.toInt? == v.asInt?) := by
  cases v with
  | float x => exact absurd rfl (h x)
  | _ => rfl

private theorem sameNumber_of_ne_float (hv : ∀ x, v ≠ .float x) (hw : ∀ y, w ≠ .float y) :
    v.sameNumber w = (v.asInt?.isSome && v.asInt? == w.asInt?) := by
  cases v with
  | float x => exact absurd rfl (hv x)
  | _ =>
    cases w with
    | float y => exact absurd rfl (hw y)
    | _ => rfl

/-- Numbers are equal if they are the same number. -/
theorem sameNumber_iff : v.sameNumber w = true ↔ v.SameNumber w := by
  rw [sameNumber_iff_place]
  by_cases hv : ∃ x, v = .float x <;> by_cases hw : ∃ y, w = .float y
  · obtain ⟨x, rfl⟩ := hv
    obtain ⟨y, rfl⟩ := hw
    exact Double.same_iff
  · obtain ⟨x, rfl⟩ := hv
    have hw := not_exists.mp hw
    rw [sameNumber_float_left x hw, toInt?_beq_iff, place?_of_ne_float hw]
    rfl
  · obtain ⟨y, rfl⟩ := hw
    have hv := not_exists.mp hv
    rw [sameNumber_float_right y hv, toInt?_beq_iff, place?_of_ne_float hv]
    exact exists_congr fun p => and_comm
  · have hv := not_exists.mp hv
    have hw := not_exists.mp hw
    rw [sameNumber_of_ne_float hv hw, place?_of_ne_float hv, place?_of_ne_float hw]
    cases v.asInt? with
    | none => simp
    | some i =>
      cases w.asInt? with
      | none => simp
      | some j =>
        simp only [Option.isSome_some, Bool.true_and, beq_iff_eq, Option.some.injEq,
          Option.map_some]
        constructor
        · rintro rfl
          exact ⟨_, rfl, rfl⟩
        · rintro ⟨p, hi, hj⟩
          exact placeOfInt_injective (hi.trans hj.symm)

/-- Values on the line are numbers of one of three types. -/
theorem isOnLine_cases (h : v.isOnLine = true) :
    (∃ b, v = .bool b) ∨ (∃ i, v = .int i) ∨ ∃ x, v = .float x := by
  cases v with
  | bool b => exact .inl ⟨b, rfl⟩
  | int i => exact .inr (.inl ⟨i, rfl⟩)
  | float x => exact .inr (.inr ⟨x, rfl⟩)
  | _ => cases h

/-- Two numbers are compared as such. -/
theorem eq_of_isOnLine (hv : v.isOnLine = true) (hw : w.isOnLine = true) :
    v.eq w = v.sameNumber w := by
  rcases isOnLine_cases hv with ⟨b, rfl⟩ | ⟨i, rfl⟩ | ⟨x, rfl⟩ <;>
    rcases isOnLine_cases hw with ⟨c, rfl⟩ | ⟨j, rfl⟩ | ⟨y, rfl⟩ <;> rfl

private theorem place?_of_asInt? {i : Int} (h : v.asInt? = some i) :
    v.place? = some (Double.placeOfInt i) := by
  have hv : ∀ x, v ≠ .float x := by
    rintro x rfl
    cases h
  rw [place?_of_ne_float hv, h]
  rfl

/-- The order of two numbers finds them equal if they are the same number. -/
theorem numberOrder?_eq_iff : v.numberOrder? w = some .eq ↔ v.SameNumber w := by
  rw [sameNumber_iff_place, numberOrder?]
  split
  · next i j hi hj =>
    rw [place?_of_asInt? hi, place?_of_asInt? hj, Option.some.injEq, compare_eq_iff_eq]
    constructor
    · rintro rfl
      exact ⟨_, rfl, rfl⟩
    · rintro ⟨p, hp, hq⟩
      exact placeOfInt_injective (Option.some.inj (hp.trans hq.symm))
  · split
    · next p q hp hq =>
      rw [hp, hq, Option.some.injEq, Double.Place.compare_eq_iff]
      constructor
      · rintro rfl
        exact ⟨_, rfl, rfl⟩
      · rintro ⟨_, h, h'⟩
        exact Option.some.inj (h.trans h'.symm)
    · next hn =>
      refine iff_of_false (by rintro ⟨⟩) ?_
      rintro ⟨p, hp, hq⟩
      exact hn p p hp hq

end Value

/-! ### Loose equality -/

open Value

variable {v w : Value}

/-- Loose equality reads a number as the floating-point number nearest to it. -/
theorem looseNumber_of_isOnLine (h : v.isOnLine = true) :
    looseNumber v = (orOverflow v.nearest?).map some := by
  rcases isOnLine_cases h with ⟨b, rfl⟩ | ⟨i, rfl⟩ | ⟨x, rfl⟩ <;> rfl

/-- Loose equality of numbers: they are the same, or their nearest floating-point numbers are. -/
theorem looseEq_of_isOnLine (hv : v.isOnLine = true) (hw : w.isOnLine = true) :
    looseEq v w = if v.sameNumber w then .ok true else do
      let x ← orOverflow v.nearest?
      let y ← orOverflow w.nearest?
      return x.same y := by
  unfold looseEq
  rw [eq_of_isOnLine hv hw]
  refine if_congr Iff.rfl rfl ?_
  split
  · cases hv
  · rw [looseNumber_of_isOnLine hv, looseNumber_of_isOnLine hw]
    cases v.nearest? <;> cases w.nearest? <;> rfl

/-- One number equals itself loosely. -/
theorem looseEq_of_sameNumber (hv : v.isOnLine = true) (hw : w.isOnLine = true)
    (h : v.SameNumber w) : looseEq v w = .ok true := by
  rw [looseEq_of_isOnLine hv hw, if_pos (sameNumber_iff.mpr h)]

private theorem looseEq_of_not_sameNumber (hv : v.isOnLine = true) (hw : w.isOnLine = true)
    (h : ¬ v.SameNumber w) :
    looseEq v w = do
      let x ← orOverflow v.nearest?
      let y ← orOverflow w.nearest?
      return x.same y := by
  rw [looseEq_of_isOnLine hv hw, if_neg (mt sameNumber_iff.mp h)]

/-- Loose equality refuses exactly the different numbers that it does not blur. -/
theorem looseEq_ok_false_iff (hv : v.isOnLine = true) (hw : w.isOnLine = true) :
    looseEq v w = .ok false ↔ ¬ v.SameNumber w ∧ ¬ v.Blurs w := by
  by_cases h : v.SameNumber w
  · rw [looseEq_of_sameNumber hv hw h]
    exact iff_of_false nofun fun hn => hn.1 h
  · rw [looseEq_of_not_sameNumber hv hw h, Blurs]
    cases v.nearest? with
    | none => exact iff_of_false nofun fun hn => hn.2 ⟨h, nofun⟩
    | some x =>
      cases w.nearest? with
      | none => exact iff_of_false nofun fun hn => hn.2 ⟨h, nofun⟩
      | some y =>
        change Except.ok (x.same y) = .ok false ↔ _
        simp [h]

/-- Loose equality takes for equal one number and numbers that it blurs, if both have a nearest
floating-point number. -/
theorem looseEq_ok_true_iff (hv : v.isOnLine = true) (hw : w.isOnLine = true) :
    looseEq v w = .ok true ↔
      v.SameNumber w ∨ v.Blurs w ∧ v.nearest?.isSome = true ∧ w.nearest?.isSome = true := by
  by_cases h : v.SameNumber w
  · exact iff_of_true (looseEq_of_sameNumber hv hw h) (.inl h)
  · rw [looseEq_of_not_sameNumber hv hw h, Blurs]
    cases v.nearest? with
    | none => exact iff_of_false nofun fun hn => hn.elim h fun hb => nomatch hb.2.1
    | some x =>
      cases w.nearest? with
      | none => exact iff_of_false nofun fun hn => hn.elim h fun hb => nomatch hb.2.2
      | some y =>
        change Except.ok (x.same y) = .ok true ↔ _
        simp [h]

/-- Loose equality of numbers fails in one way. -/
theorem looseEq_error_iff {f : Fault} (hv : v.isOnLine = true) (hw : w.isOnLine = true) :
    looseEq v w = .error f ↔ v.Overflows w ∧ f = .overflow .double := by
  by_cases h : v.SameNumber w
  · rw [looseEq_of_sameNumber hv hw h]
    exact iff_of_false nofun fun ho => ho.1.1 h
  · rw [looseEq_of_not_sameNumber hv hw h, Overflows]
    cases v.nearest? with
    | none =>
      change Except.error (Fault.overflow .double) = .error f ↔ _
      rw [Except.error.injEq]
      exact ⟨fun he => ⟨⟨h, fun hn => nomatch hn.1⟩, he.symm⟩, fun ho => ho.2.symm⟩
    | some x =>
      cases w.nearest? with
      | none =>
        change Except.error (Fault.overflow .double) = .error f ↔ _
        rw [Except.error.injEq]
        exact ⟨fun he => ⟨⟨h, fun hn => nomatch hn.2⟩, he.symm⟩, fun ho => ho.2.symm⟩
      | some y => exact iff_of_false nofun fun ho => ho.1.2 ⟨rfl, rfl⟩

/-! ### Floating-point numbers -/

namespace Double

/-- A sign leaves the size of a number. -/
theorem natAbs_signed (negative : Bool) (n : Nat) : (signed negative n).natAbs = n := by
  cases negative with
  | true => exact (Int.natAbs_neg n).trans (Int.natAbs_natCast n)
  | false => exact Int.natAbs_natCast n

/-- An integer is its magnitude with its sign, in whatever unit. -/
theorem signed_natAbs_mul (i : Int) (unit : Nat) : signed (i < 0) (i.natAbs * unit) = i * unit := by
  by_cases h : i < 0
  · have hi : (i.natAbs : Int) = -i := Int.ofNat_natAbs_of_nonpos h.le
    rw [signed, decide_eq_true h, if_pos rfl, Int.natCast_mul, hi, Int.neg_mul, Int.neg_neg]
  · have hi : (i.natAbs : Int) = i := Int.natAbs_of_nonneg (Int.not_lt.mp h)
    rw [signed, decide_eq_false h, if_neg Bool.false_ne_true, Int.natCast_mul, hi]

/-- An integer with the magnitude of a number is read as a number at its own place. -/
theorem place?_ofInt? {i : Int} {exponent : Fin 2047} {fraction : Fin 4503599627370496}
    (h : i.natAbs * 2 ^ unitBits = magnitude exponent fraction) :
    ∃ y, ofInt? i = some y ∧ y.place? = some (placeOfInt i) := by
  refine ⟨_, ofInt?_eq_finite h, ?_⟩
  rw [place?, ← h, signed_natAbs_mul, placeOfInt, Nat.pow_eq]

end Double

namespace Value

/-- A floating-point number is read as itself. -/
theorem place?_nearest? (hv : v.isOnLine = true) (hd : v.IsDouble) :
    ∃ y, v.nearest? = some y ∧ y.place? = v.place? := by
  rcases isOnLine_cases hv with ⟨b, rfl⟩ | ⟨i, rfl⟩ | ⟨x, rfl⟩
  · refine ⟨_, rfl, ?_⟩
    cases b <;> decide +kernel
  · obtain ⟨x, hx⟩ := hd
    have hp : x.place? = some (Double.placeOfInt i) := by
      rw [number?_eq, Double.number?_eq] at hx
      exact (Option.map_injective Double.Place.number_injective hx).symm
    cases x with
    | nan origin => cases hp
    | infinite negative => cases negative <;> cases hp
    | finite negative exponent fraction =>
      have hu := Double.Place.at.inj (Option.some.inj hp)
      have hm : i.natAbs * 2 ^ Double.unitBits = Double.magnitude exponent fraction := by
        rw [← Double.natAbs_signed negative (Double.magnitude exponent fraction), hu,
          Int.natAbs_mul, Int.natAbs_natCast, Nat.pow_eq]
      exact Double.place?_ofInt? hm
  · exact ⟨x, rfl, rfl⟩

/-- Loose equality does not blur floating-point numbers. -/
theorem not_blurs_of_isDouble (hv : v.isOnLine = true) (hw : w.isOnLine = true)
    (hdv : v.IsDouble) (hdw : w.IsDouble) : ¬ v.Blurs w := by
  rintro ⟨hn, hs⟩
  obtain ⟨x, hx, hpx⟩ := place?_nearest? hv hdv
  obtain ⟨y, hy, hpy⟩ := place?_nearest? hw hdw
  obtain ⟨p, hp, hq⟩ := Double.same_iff.mp (hs x y hx hy)
  exact hn (sameNumber_iff_place.mpr ⟨p, hpx.symm.trans hp, hpy.symm.trans hq⟩)

/-- An integer of at most 2⁵³ is a floating-point number. -/
theorem isDouble_of_natAbs_le {i : Int} (hi : i.natAbs ≤ 2 ^ 53) : (Value.int i).IsDouble := by
  obtain ⟨exponent, fraction, h⟩ := Double.exists_magnitude_of_natAbs_le hi
  obtain ⟨y, -, hp⟩ := Double.place?_ofInt? h
  refine ⟨y, ?_⟩
  rw [number?_eq, Double.number?_eq, hp]
  rfl

/-- An integer that has a nearest floating-point number has too few digits not to be shown. -/
theorem intPrintable_of_ofInt? {i : Int} {x : Double} (h : Double.ofInt? i = some x) :
    intPrintable i = true := by
  have hle : Double.topBits ≤ digitLimit := by decide
  have hlt := Double.natAbs_lt_of_ofInt? h
  rw [intPrintable, Nat.pow_eq, decide_eq_true_iff]
  generalize digitLimit = d at hle ⊢
  calc i.natAbs < 2 ^ Double.topBits := hlt
    _ ≤ 10 ^ Double.topBits := Nat.pow_le_pow_left (by decide) _
    _ ≤ 10 ^ d := Nat.pow_le_pow_right (by decide) hle

end Value

/-! ### Comparisons and unions -/

/-- A field accepts a value under a relation to a bound. -/
def Relation.Accepts (relation : Relation) (bound : Value) (typeName field : String)
    (value : Value) : Prop :=
  ∃ c, Comparison.of relation bound = .ok c ∧ c.check typeName field value = .ok ()

/-- A field accepts a value both as no less and as no greater than a bound. -/
def OrdersAccept (bound : Value) (typeName field : String) (value : Value) : Prop :=
  Relation.greaterOrEqual.Accepts bound typeName field value ∧
    Relation.lessOrEqual.Accepts bound typeName field value

private theorem isOnLine_of_isNumber (h : v.isNumber = true) : v.isOnLine = true := by
  rw [isOnLine, h, Bool.true_or]

private theorem Relation.accepts_iff {relation : Relation} {bound : Value} {typeName field : String}
    (hb : bound.isNumber = true) (hv : v.isNumber = true) :
    relation.Accepts bound typeName field v ↔
      Comparison.holds ⟨relation, bound, fun _ => hb⟩ v = .ok true := by
  have hof : Comparison.of relation bound = .ok ⟨relation, bound, fun _ => hb⟩ := dif_pos _
  constructor
  · rintro ⟨c, hc, h⟩
    rw [hof] at hc
    cases hc
    exact ((Comparison.check_ok_iff _ _ _ v).mp h).2
  · exact fun h => ⟨_, hof, (Comparison.check_ok_iff _ _ _ v).mpr ⟨fun _ => hv, h⟩⟩

/-- A value is neither less nor greater than a bound only if it is the same number. -/
theorem ordersAccept_iff {bound : Value} {typeName field : String}
    (hb : bound.isNumber = true) (hv : v.isNumber = true) :
    OrdersAccept bound typeName field v ↔ v.SameNumber bound := by
  rw [OrdersAccept, Relation.accepts_iff hb hv, Relation.accepts_iff hb hv, ← numberOrder?_eq_iff]
  simp only [Comparison.holds, Except.ok.injEq]
  cases v.numberOrder? bound with
  | none => simp
  | some o => cases o <;> simp [Relation.admits]

private theorem accepts_equal_iff {bound : Value} {typeName field : String}
    (hb : bound.isNumber = true) (hv : v.isNumber = true) :
    Relation.equal.Accepts bound typeName field v ↔ looseEq v bound = .ok true :=
  Relation.accepts_iff hb hv

private theorem accepts_notEqual_iff {bound : Value} {typeName field : String}
    (hb : bound.isNumber = true) (hv : v.isNumber = true) :
    Relation.notEqual.Accepts bound typeName field v ↔ looseEq v bound = .ok false := by
  rw [Relation.accepts_iff hb hv, Comparison.holds]
  cases looseEq v bound with
  | error f => exact iff_of_false (by rintro ⟨⟩) (by rintro ⟨⟩)
  | ok b => cases b <;> simp [Except.map]

/-- Equality and inequality agree with the orders exactly on numbers that are not blurred. -/
theorem accepts_equal_agrees_iff {bound : Value} {typeName field : String}
    (hb : bound.isNumber = true) (hv : v.isNumber = true) :
    (Relation.equal.Accepts bound typeName field v ↔ OrdersAccept bound typeName field v) ∧
        (Relation.notEqual.Accepts bound typeName field v ↔
          ¬ OrdersAccept bound typeName field v) ↔
      ¬ v.Blurs bound := by
  have hv' := isOnLine_of_isNumber hv
  have hb' := isOnLine_of_isNumber hb
  rw [ordersAccept_iff hb hv, accepts_equal_iff hb hv, accepts_notEqual_iff hb hv,
    looseEq_ok_true_iff hv' hb', looseEq_ok_false_iff hv' hb']
  have hd : v.Blurs bound → ¬ v.SameNumber bound := fun h => h.1
  tauto

section Union

variable {allowed : List Int} {i j : Int} {typeName field : String}

private theorem sameNumber_int_iff : (Value.int j).SameNumber (.int i) ↔ j = i := by
  rw [← sameNumber_iff]
  simp [sameNumber, asInt?]

/-- Different integers that are not blurred have too few digits not to be shown. -/
theorem intPrintable_of_not_blurs (hne : j ≠ i) (hb : ¬ (Value.int j).Blurs (.int i)) :
    intPrintable j = true ∧ intPrintable i = true := by
  have hs := mt sameNumber_int_iff.mp hne
  cases hj : Double.ofInt? j with
  | none =>
    refine absurd ⟨hs, fun x y hx _ => ?_⟩ hb
    cases hj.symm.trans hx
  | some x =>
    cases hi : Double.ofInt? i with
    | none =>
      refine absurd ⟨hs, fun x y _ hy => ?_⟩ hb
      cases hi.symm.trans hy
    | some y => exact ⟨intPrintable_of_ofInt? hj, intPrintable_of_ofInt? hi⟩

/-- A list is found to have an integer that it has, unless loose equality fails before it comes to
that integer or to one that it takes for it. -/
theorem isMember_int_ok_true_iff (hi : i ∈ allowed) :
    isMember (.int i) (allowed.map .int) = .ok true ↔
      ∀ front j behind, allowed = front ++ j :: behind → (Value.int j).Overflows (.int i) →
        ∃ k ∈ front, k = i ∨ (Value.int k).Blurs (.int i) := by
  induction allowed with
  | nil => exact absurd hi List.not_mem_nil
  | cons j rest ih =>
    rw [List.map_cons, isMember]
    cases hl : looseEq (.int j) (.int i) with
    | error f =>
      refine iff_of_false (by rintro ⟨⟩) fun h => ?_
      obtain ⟨k, hk, -⟩ := h [] j rest rfl ((looseEq_error_iff rfl rfl).mp hl).1
      exact absurd hk List.not_mem_nil
    | ok b =>
      have hnot : ¬ (Value.int j).Overflows (.int i) := fun ho => by
        cases hl.symm.trans ((looseEq_error_iff rfl rfl).mpr ⟨ho, rfl⟩)
      cases b with
      | true =>
        refine iff_of_true rfl fun front k behind he ho => ?_
        cases front with
        | nil =>
          obtain ⟨rfl, -⟩ := List.cons.inj he
          exact absurd ho hnot
        | cons d front =>
          obtain ⟨rfl, -⟩ := List.cons.inj he
          exact ⟨j, List.mem_cons_self,
            ((looseEq_ok_true_iff rfl rfl).mp hl).imp sameNumber_int_iff.mp And.left⟩
      | false =>
        obtain ⟨hd, hb⟩ := (looseEq_ok_false_iff rfl rfl).mp hl
        have hne : j ≠ i := mt sameNumber_int_iff.mpr hd
        refine (ih ((List.mem_cons.mp hi).resolve_left hne.symm)).trans ⟨?_, ?_⟩
        · intro h front k behind he ho
          cases front with
          | nil =>
            obtain ⟨rfl, -⟩ := List.cons.inj he
            exact absurd ho hnot
          | cons d front =>
            obtain ⟨-, he⟩ := List.cons.inj he
            obtain ⟨l, hl, hk⟩ := h front k behind he ho
            exact ⟨l, List.mem_cons_of_mem d hl, hk⟩
        · intro h front k behind he ho
          obtain ⟨l, hl, hk⟩ := h (j :: front) k behind (congrArg (j :: ·) he) ho
          rcases List.mem_cons.mp hl with rfl | hl
          · exact absurd hk (not_or.mpr ⟨hne, hb⟩)
          · exact ⟨l, hl, hk⟩

private theorem isMember_int_ok_false_iff (hi : i ∉ allowed) :
    isMember (.int i) (allowed.map .int) = .ok false ↔
      ∀ j ∈ allowed, ¬ (Value.int j).Blurs (.int i) := by
  rw [isMember_ok_false_iff, List.forall_mem_map]
  refine forall₂_congr fun j hj => ?_
  have hne : j ≠ i := fun h => hi (h ▸ hj)
  rw [looseEq_ok_false_iff rfl rfl, and_iff_right (mt sameNumber_int_iff.mp hne)]

private theorem isMember_int_error {f : Fault}
    (h : isMember (.int i) (allowed.map .int) = .error f) : f = .overflow .double := by
  induction allowed with
  | nil => cases h
  | cons j rest ih =>
    rw [List.map_cons, isMember] at h
    cases hl : looseEq (.int j) (.int i) with
    | error g =>
      rw [hl] at h
      cases h
      exact ((looseEq_error_iff rfl rfl).mp hl).2
    | ok b =>
      rw [hl] at h
      cases b with
      | true => cases h
      | false => exact ih h

private theorem checkUnion_int_ok_iff (hi : i ∈ allowed) :
    checkUnion typeName field (allowed.map .int) (.int i) = .ok () ↔
      ∀ front j behind, allowed = front ++ j :: behind → (Value.int j).Overflows (.int i) →
        ∃ k ∈ front, k = i ∨ (Value.int k).Blurs (.int i) := by
  rw [← isMember_int_ok_true_iff hi, checkUnion]
  cases isMember (.int i) (allowed.map .int) with
  | error f => exact iff_of_false (by rintro ⟨⟩) (by rintro ⟨⟩)
  | ok b =>
    cases b with
    | true => exact iff_of_true rfl rfl
    | false =>
      refine iff_of_false ?_ (by rintro ⟨⟩)
      change ¬ Except.error (Fault.ofBinding _) = _
      rintro ⟨⟩

/-- A union refuses a value that is none of its members if all these can be shown. -/
theorem checkUnion_int_error_iff :
    checkUnion typeName field (allowed.map .int) (.int i) =
        .error (.binding ⟨typeName, field, .notInUnion (allowed.map .int) (.int i)⟩) ↔
      isMember (.int i) (allowed.map .int) = .ok false ∧
        (∀ j ∈ allowed, intPrintable j = true) ∧ intPrintable i = true := by
  have hp : (BindingCause.notInUnion (allowed.map .int) (.int i)).printable = true ↔
      (∀ j ∈ allowed, intPrintable j = true) ∧ intPrintable i = true := by
    rw [BindingCause.printable, Bool.and_eq_true, List.all_map, List.all_eq_true]
    simp only [Function.comp_apply, printable]
  rw [← hp, checkUnion]
  cases hm : isMember (.int i) (allowed.map .int) with
  | error f =>
    rw [isMember_int_error hm]
    exact iff_of_false (by rintro ⟨⟩) (by rintro ⟨⟨⟩, -⟩)
  | ok b =>
    cases b with
    | true => exact iff_of_false (by rintro ⟨⟩) (by rintro ⟨⟨⟩, -⟩)
    | false =>
      rw [and_iff_right rfl]
      change Except.error (Fault.ofBinding _) = _ ↔ _
      rw [Fault.ofBinding]
      split
      · next h => exact iff_of_true rfl h
      · next h => exact iff_of_false (by rintro ⟨⟩) h

/-- A union of integers refuses a value that it does not list exactly if it does not blur it with
one that it lists. With an empty list, the value must not have too many digits. -/
theorem checkUnion_int_refuses_iff (hi : i ∉ allowed) :
    checkUnion typeName field (allowed.map .int) (.int i) =
        .error (.binding ⟨typeName, field, .notInUnion (allowed.map .int) (.int i)⟩) ↔
      (∀ j ∈ allowed, ¬ (Value.int j).Blurs (.int i)) ∧
        (allowed = [] → intPrintable i = true) := by
  rw [checkUnion_int_error_iff, isMember_int_ok_false_iff hi]
  refine and_congr_right fun hb => ?_
  have hs : ∀ j ∈ allowed, intPrintable j = true ∧ intPrintable i = true := fun j hj =>
    intPrintable_of_not_blurs (fun h => hi (h ▸ hj)) (hb j hj)
  constructor
  · exact fun h _ => h.2
  · intro h
    refine ⟨fun j hj => (hs j hj).1, ?_⟩
    cases allowed with
    | nil => exact h rfl
    | cons j rest => exact (hs j List.mem_cons_self).2

end Union

/-- Loose equality is exact on exactly the numbers that it does not blur, and exactly on these do
equality and inequality agree with the orders. A union of integers accepts what it lists unless
loose equality fails before it comes to it, and refuses anything else exactly if it blurs no integer
that it lists with the value. Floating-point numbers are not blurred, and so neither are integers of
at most 2⁵³. -/
theorem looseEq_exact_iff_not_blurs (v w : Value) (allowed : List Int) (i : Int)
    (typeName field : String) :
    (v.isOnLine = true → w.isOnLine = true →
      ((v.SameNumber w → looseEq v w = .ok true) ∧
          (¬ v.SameNumber w → looseEq v w = .ok false) ↔ ¬ v.Blurs w)) ∧
    (v.isNumber = true → w.isNumber = true →
      (OrdersAccept w typeName field v ↔ v.SameNumber w) ∧
      ((Relation.equal.Accepts w typeName field v ↔ OrdersAccept w typeName field v) ∧
          (Relation.notEqual.Accepts w typeName field v ↔ ¬ OrdersAccept w typeName field v) ↔
        ¬ v.Blurs w)) ∧
    (i ∈ allowed →
      (checkUnion typeName field (allowed.map .int) (.int i) = .ok () ↔
        ∀ front j behind, allowed = front ++ j :: behind → (Value.int j).Overflows (.int i) →
          ∃ k ∈ front, k = i ∨ (Value.int k).Blurs (.int i))) ∧
    (i ∉ allowed →
      (checkUnion typeName field (allowed.map .int) (.int i) =
          .error (.binding ⟨typeName, field, .notInUnion (allowed.map .int) (.int i)⟩) ↔
        (∀ j ∈ allowed, ¬ (Value.int j).Blurs (.int i)) ∧
          (allowed = [] → intPrintable i = true))) ∧
    (v.isOnLine = true → w.isOnLine = true → v.IsDouble → w.IsDouble → ¬ v.Blurs w) ∧
    (i.natAbs ≤ 2 ^ 53 → (Value.int i).IsDouble) := by
  refine ⟨fun hv hw => ?_, fun hv hw => ⟨ordersAccept_iff hw hv, accepts_equal_agrees_iff hw hv⟩,
    checkUnion_int_ok_iff, checkUnion_int_refuses_iff, not_blurs_of_isDouble, isDouble_of_natAbs_le⟩
  rw [and_iff_right (looseEq_of_sameNumber hv hw), looseEq_ok_false_iff hv hw]
  exact ⟨fun h hb => (h hb.1).2 hb, fun h hn => ⟨hn, h⟩⟩

/-- Beyond 2⁵³ an integer is blurred with its neighbour, which a union of it accepts; below, the
neighbour is refused. -/
theorem union_of_blurred_neighbour :
    (Value.int 9007199254740993).Blurs (.int 9007199254740992) ∧
    checkUnion "Tile" "id" [.int 9007199254740993] (.int 9007199254740992) = .ok () ∧
    checkUnion "Tile" "id" [.int 9007199254740992] (.int 9007199254740991) =
      .error (.binding ⟨"Tile", "id",
        .notInUnion [.int 9007199254740992] (.int 9007199254740991)⟩) := by
  have hexact := (looseEq_exact_iff_not_blurs (.int 9007199254740993) (.int 9007199254740992) [] 0
    "Tile" "id").1 rfl rfl
  obtain ⟨-, -, -, hunion, hdouble, hsmall⟩ := looseEq_exact_iff_not_blurs
    (.int 9007199254740992) (.int 9007199254740991) [9007199254740992] 9007199254740991 "Tile" "id"
  have hd : ¬ (Value.int 9007199254740993).SameNumber (.int 9007199254740992) :=
    mt sameNumber_int_iff.mp (by decide)
  have hl : looseEq (.int 9007199254740993) (.int 9007199254740992) = .ok true := by
    have hodd : Double.ofInt? 9007199254740993 = some (.finite false 1076 0) := by decide +kernel
    have heven : Double.ofInt? 9007199254740992 = some (.finite false 1076 0) := by decide +kernel
    rw [looseEq_of_not_sameNumber rfl rfl hd, nearest?, nearest?, hodd, heven]
    exact congrArg Except.ok (Double.same_iff.mpr ⟨_, rfl, rfl⟩)
  refine ⟨?_, ?_, (hunion (by decide)).mpr ⟨?_, nofun⟩⟩
  · by_contra hb
    cases hl.symm.trans ((hexact.mpr hb).2 hd)
  · rw [checkUnion, isMember, hl]
    rfl
  · intro j hj
    rw [List.mem_singleton.mp hj]
    exact hdouble rfl rfl (isDouble_of_natAbs_le (by decide)) (hsmall (by decide))

end SchemaBinding
