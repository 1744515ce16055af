import SchemaBinding.Proofs.BindSoundness
import SchemaBinding.Proofs.RuleFaults

/-!
# Faults that escape a bind

A bind answers a payload that it refuses with a binding error. Where the plans of a schema and of
all schemas nested in it compile, `World.Escapes` says exactly when another fault escapes instead,
and which: an integer beyond the floating-point numbers is read as a date or compared loosely, the
words of a binding error would show an integer with too many digits, or an attribute is to be set on
an instance of a class that can have none.
-/

namespace SchemaBinding

namespace World

open Binding

/-- The plans of a schema and of every schema nested in it compile. -/
def Compiles (w : World) (binder : Nat) (cls : ClassRef) : Prop :=
  ∀ next last, w.Reaches binder cls next last → ∃ plans, w.plansFor next last = .ok plans

/-- If the plans of a schema compile all the way down, so do those of a schema nested in it. -/
theorem Compiles.nested {w : World} {binder : Nat} {cls nested : ClassRef}
    (h : w.Compiles binder cls) {plans : List FieldPlan} {plan : FieldPlan} {kind : ValueKind}
    (hc : w.plansFor binder cls = .ok plans) (hp : plan ∈ plans) (hk : plan.kind = some kind)
    (hs : kind.schema? = some nested) : w.Compiles (w.nestedBinder binder nested) nested :=
  fun next last hr => h next last (.step hc hp hk hs hr)

private theorem compiles_of_closed {w : World} {Q : List FieldPlan → Prop} [DecidablePred Q]
    {schemas : List (Nat × ClassRef)} (h : w.closed Q schemas = true)
    (hc : (schemas.all fun s => (w.plansFor s.1 s.2).toOption.isSome) = true) {binder : Nat}
    {cls : ClassRef} (hs : (binder, cls) ∈ schemas) : w.Compiles binder cls := by
  intro next last hr
  have ho := List.all_eq_true.mp hc _ (mem_of_reaches h hs hr)
  cases hp : w.plansFor next last with
  | ok plans => exact ⟨plans, rfl⟩
  | error f => rw [hp] at ho; cases ho

/-- How schemas nested in a record at a depth are entered: with the levels that are left there. -/
def entering (w : World) (binder depth : Nat) : ClassRef → Value → Except Fault Value :=
  w.plainEnter (w.depthBound - depth) binder depth

mutual

/-- A fault escapes when a payload is bound: the schema is nested too deeply for the words that say
so to be written, or the fault escapes at a field, and all fields before it are bound. -/
inductive Escapes (w : World) : (binder depth : Nat) → ClassRef → (data : Value) → Fault → Prop
  | tooDeep {binder depth : Nat} {cls : ClassRef} {data : Value}
    (hd : (w.binder binder).maxDepth < depth)
    (hp : Value.intPrintable (w.binder binder).maxDepth = false) :
    Escapes w binder depth cls data (.value .digits)
  | field {binder depth : Nat} {cls : ClassRef} {entries : List (Value × Value)}
    {plans before after : List FieldPlan} {plan : FieldPlan} {f : Fault}
    (hd : depth ≤ (w.binder binder).maxDepth) (hp : w.plansFor binder cls = .ok plans)
    (hs : plans = before ++ plan :: after)
    (hb : ∀ q ∈ before, ∃ value,
      plainField (w.entering binder depth) cls (w.classes.hasAttributes cls) entries q = .ok value)
    (h : FieldEscapes w binder depth cls entries plan f) :
    Escapes w binder depth cls (.dict entries) f

/-- A fault escapes at a field that has a raw value: when the value is converted, when the rules of
the field are tried on the converted value, or when the attribute is set. -/
inductive FieldEscapes (w : World) : (binder depth : Nat) → ClassRef →
    (entries : List (Value × Value)) → FieldPlan → Fault → Prop
  | conversion {binder depth : Nat} {cls : ClassRef} {entries : List (Value × Value)}
    {plan : FieldPlan} {kind : ValueKind} {f : Fault} (hn : rawValue plan entries ≠ .null)
    (hk : plan.kind = some kind)
    (h : ConversionEscapes w binder depth cls plan kind (rawValue plan entries) f) :
    FieldEscapes w binder depth cls entries plan f
  | rules {binder depth : Nat} {cls : ClassRef} {entries : List (Value × Value)}
    {plan : FieldPlan} {kind : ValueKind} {v : Value} {f : Fault}
    (hn : rawValue plan entries ≠ .null) (hk : plan.kind = some kind)
    (hc : convertField (w.entering binder depth) cls.name plan kind (rawValue plan entries) = .ok v)
    (h : plan.RulesEscape v f) : FieldEscapes w binder depth cls entries plan f
  | unsettable {binder depth : Nat} {cls : ClassRef} {entries : List (Value × Value)}
    {plan : FieldPlan} {v : Value} (hn : rawValue plan entries ≠ .null)
    (hv : plainValue (w.entering binder depth) cls.name plan (rawValue plan entries) = .ok v)
    (ha : w.classes.hasAttributes cls = false) :
    FieldEscapes w binder depth cls entries plan (.attribute (.unsettable cls.name plan.name))

/-- A fault escapes when a value is converted to the kind of a field: it escapes for the value, or
for an element of the array and all elements before that are converted, or the value is a number
that is called no integer, and cannot be shown. -/
inductive ConversionEscapes (w : World) : (binder depth : Nat) → ClassRef → FieldPlan →
    ValueKind → (raw : Value) → Fault → Prop
  | scalar {binder depth : Nat} {cls : ClassRef} {plan : FieldPlan} {kind : ScalarKind}
    {raw : Value} {f : Fault} (h : ScalarEscapes w binder depth kind raw f) :
    ConversionEscapes w binder depth cls plan (.scalar kind) raw f
  | notInteger {binder depth : Nat} {cls : ClassRef} {plan : FieldPlan} {p : Primitive}
    {raw : Value} {expected : String} (hi : plan.integer = true) (hn : raw.isNumber = true)
    (hc : p.convert raw = .error expected) (hp : raw.printable = false) :
    ConversionEscapes w binder depth cls plan (.scalar (.primitive p)) raw (.value .digits)
  | element {binder depth : Nat} {cls : ClassRef} {plan : FieldPlan} {kind : ScalarKind}
    {raw item : Value} {items before after : List Value} {f : Fault}
    (hi : arrayItems? raw = some items) (hs : items = before ++ item :: after)
    (hb : ∀ u ∈ before, ∃ v,
      convertScalar (w.entering binder depth) cls.name plan.name none u kind = .ok v)
    (h : ScalarEscapes w binder depth kind item f) :
    ConversionEscapes w binder depth cls plan (.array (some kind)) raw f

/-- A fault escapes when a value is converted to a kind that is no array: the value is an overlarge
integer read as a date, or is no date and cannot be shown, or the fault escapes when a nested schema
is bound. -/
inductive ScalarEscapes (w : World) : (binder depth : Nat) → ScalarKind → (raw : Value) → Fault →
    Prop
  | overlarge {binder depth : Nat} {target : DateTarget} {raw : Value} (h : raw.Overlarge) :
    ScalarEscapes w binder depth (.date target) raw (.overflow .double)
  | noDate {binder depth : Nat} {target : DateTarget} {raw : Value}
    (h : parseDate raw target = .ok none) (hp : raw.printable = false) :
    ScalarEscapes w binder depth (.date target) raw (.value .digits)
  | nested {binder depth : Nat} {cls : ClassRef} {entries : List (Value × Value)} {f : Fault}
    (h : Escapes w (w.nestedBinder binder cls) (depth + 1) cls (.dict entries) f) :
    ScalarEscapes w binder depth (.schema cls) (.dict entries) f

end

/-- The faults that may escape from a bind. -/
inductive Escaping : Fault → Prop
  | overflow : Escaping (.overflow .double)
  | digits : Escaping (.value .digits)
  | unsettable (className name : String) : Escaping (.attribute (.unsettable className name))

private theorem escaping_of_rulesEscape {plan : FieldPlan} {v : Value} {f : Fault}
    (h : plan.RulesEscape v f) : Escaping f := by
  cases h with
  | union _ h =>
    cases h with
    | overlarge => exact .overflow
    | unprintable => exact .digits
  | check _ _ _ h =>
    cases h with
    | overlarge => exact .overflow
    | unprintable => exact .digits

mutual

/-- Nothing escapes from a bind but an overflow, an integer with too many digits, and an attribute
that cannot be set. -/
theorem Escapes.escaping {w : World} {binder depth : Nat} {cls : ClassRef} {data : Value}
    {f : Fault} : w.Escapes binder depth cls data f → Escaping f
  | .tooDeep _ _ => .digits
  | .field _ _ _ _ h => h.escaping

private theorem FieldEscapes.escaping {w : World} {binder depth : Nat} {cls : ClassRef}
    {entries : List (Value × Value)} {plan : FieldPlan} {f : Fault} :
    w.FieldEscapes binder depth cls entries plan f → Escaping f
  | .conversion _ _ h => h.escaping
  | .rules _ _ _ h => escaping_of_rulesEscape h
  | .unsettable _ _ _ => .unsettable _ _

private theorem ConversionEscapes.escaping {w : World} {binder depth : Nat} {cls : ClassRef}
    {plan : FieldPlan} {kind : ValueKind} {raw : Value} {f : Fault} :
    w.ConversionEscapes binder depth cls plan kind raw f → Escaping f
  | .scalar h => h.escaping
  | .notInteger _ _ _ _ => .digits
  | .element _ _ _ h => h.escaping

private theorem ScalarEscapes.escaping {w : World} {binder depth : Nat} {kind : ScalarKind}
    {raw : Value}
    {f : Fault} : w.ScalarEscapes binder depth kind raw f → Escaping f
  | .overlarge _ => .overflow
  | .noDate _ _ => .digits
  | .nested h => h.escaping

end

end World

namespace Binding

open World

private theorem letsOut_fail_iff {α : Type} (typeName field : String) (cause : BindingCause)
    {f : Fault} :
    LetsOut (fail typeName field cause : Except Fault α) f ↔
      cause.printable = false ∧ f = .value .digits := letsOut_ofBinding_iff _

/-- An integer is read as a date by way of the nearest floating-point number, if there is one. -/
theorem parseDate_int (i : Int) (target : DateTarget) :
    parseDate (.int i) target = (orOverflow (Double.ofInt? i)).map fun x =>
      (Moment.ofEpoch x).map (Moment.toValue target) := by
  rw [parseDate, Moment.ofValue, nearestDouble]
  generalize orOverflow (Double.ofInt? i) = found
  cases found <;> rfl

/-- Reading a date ends with a fault only for an integer beyond the floating-point numbers. -/
theorem parseDate_error {raw : Value} {target : DateTarget} {f : Fault}
    (h : parseDate raw target = .error f) : raw.Overlarge ∧ f = .overflow .double := by
  cases raw with
  | int i =>
    rw [parseDate_int] at h
    rw [overlarge_int_iff]
    generalize Double.ofInt? i = found at h
    cases found with
    | none => cases h; exact ⟨rfl, rfl⟩
    | some x => cases h
  | _ => cases h

private theorem parseDate_overlarge {raw : Value} (h : raw.Overlarge) (target : DateTarget) :
    parseDate raw target = .error (.overflow .double) := by
  obtain ⟨i, rfl, hi⟩ := h
  rw [parseDate_int, hi]
  rfl

/-! ### Conversions -/

section Convert

variable {w : World} {binder depth : Nat} {f : Fault}

/-- What is entered for a schema lets out what escapes from the bind one level deeper. -/
def EntersEscape (w : World) (binder depth : Nat) (cls : ClassRef) : Prop :=
  ∀ entries f, LetsOut (w.entering binder depth cls (.dict entries)) f ↔
    w.Escapes (w.nestedBinder binder cls) (depth + 1) cls (.dict entries) f

private theorem letsOut_mismatch_iff {α : Type} (typeName field expected : String) (kind : JsonKind)
    (index : Option Nat) :
    LetsOut (fail typeName field (.mismatch expected kind index) : Except Fault α) f ↔ False := by
  rw [letsOut_fail_iff]
  exact ⟨fun h => Bool.noConfusion h.1, False.elim⟩

private theorem letsOut_convertScalar_iff (typeName field : String) (index : Option Nat)
    (raw : Value)
    {kind : ScalarKind} (he : ∀ c, kind = .schema c → EntersEscape w binder depth c) :
    LetsOut (convertScalar (w.entering binder depth) typeName field index raw kind) f ↔
      w.ScalarEscapes binder depth kind raw f := by
  cases kind with
  | primitive p =>
    have hn : ¬ w.ScalarEscapes binder depth (.primitive p) raw f := fun h => by cases h
    simp only [convertScalar, hn, iff_false]
    split
    · exact (letsOut_ok_iff _).mp
    · exact (letsOut_mismatch_iff ..).mp
  | date target =>
    simp only [convertScalar]
    cases hd : parseDate raw target with
    | error g =>
      obtain ⟨ho, rfl⟩ := parseDate_error hd
      refine (letsOut_error_iff _).trans ⟨fun h => ?_, fun h => ?_⟩
      · cases h
        exact .overlarge ho
      · cases h with
        | overlarge _ => rfl
        | noDate h _ => rw [hd] at h; cases h
    | ok found =>
      have hn : ¬ raw.Overlarge := fun h => by
        rw [parseDate_overlarge h] at hd
        cases hd
      cases found with
      | some v =>
        refine (letsOut_ok_iff _).trans ⟨False.elim, fun h => ?_⟩
        cases h with
        | overlarge h => exact hn h
        | noDate h _ => rw [hd] at h; cases h
      | none =>
        refine (letsOut_fail_iff _ _ _).trans ⟨?_, fun h => ?_⟩
        · rintro ⟨hp, rfl⟩
          exact .noDate hd hp
        · cases h with
          | overlarge h => exact absurd h hn
          | noDate _ hp => exact ⟨hp, rfl⟩
  | schema cls =>
    cases raw with
    | dict entries =>
      refine (he cls rfl entries f).trans ⟨.nested, fun h => ?_⟩
      cases h with
      | nested h => exact h
    | _ => exact (letsOut_mismatch_iff ..).trans ⟨False.elim, fun h => by cases h⟩
  | mapping =>
    cases raw with
    | dict entries => exact (letsOut_ok_iff _).trans ⟨False.elim, fun h => by cases h⟩
    | _ => exact (letsOut_mismatch_iff ..).trans ⟨False.elim, fun h => by cases h⟩
  | any => exact (letsOut_ok_iff _).trans ⟨False.elim, fun h => by cases h⟩

/-- Whether a value is converted does not depend on its place in an array. -/
theorem convertScalar_index {enter : ClassRef → Value → Except Fault Value}
    {typeName field : String} {index : Option Nat} (other : Option Nat) {raw v : Value}
    {kind : ScalarKind} (h : convertScalar enter typeName field index raw kind = .ok v) :
    convertScalar enter typeName field other raw kind = .ok v := by
  cases kind with
  | primitive p =>
    simp only [convertScalar] at h ⊢
    split at h
    · exact h
    · cases h
  | schema cls =>
    cases raw with
    | dict entries => exact h
    | _ => cases h
  | mapping =>
    cases raw with
    | dict entries => exact h
    | _ => cases h
  | _ => exact h

private theorem letsOut_convertItems_iff (typeName field : String) {kind : ScalarKind}
    (he : ∀ c, kind = .schema c → EntersEscape w binder depth c) (index : Nat)
    (raws : List Value) :
    LetsOut (convertItems (w.entering binder depth) typeName field kind index raws) f ↔
      FirstIn (fun u => ∃ v,
          convertScalar (w.entering binder depth) typeName field none u kind = .ok v)
        (fun u => w.ScalarEscapes binder depth kind u f) raws := by
  induction raws generalizing index with
  | nil =>
    rw [firstIn_nil_iff]
    exact letsOut_ok_iff _
  | cons raw rest ih =>
    rw [convertItems, letsOut_bind_iff, letsOut_convertScalar_iff _ _ _ _ he, firstIn_cons_iff]
    refine or_congr_right ⟨?_, ?_⟩
    · rintro ⟨v, hv, h⟩
      rcases letsOut_bind_iff.mp h with h | ⟨vs, -, h⟩
      · exact ⟨⟨v, convertScalar_index none hv⟩, (ih (index + 1)).mp h⟩
      · exact ((letsOut_ok_iff _).mp h).elim
    · rintro ⟨⟨v, hv⟩, h⟩
      exact ⟨v, convertScalar_index _ hv,
        letsOut_bind_iff.mpr (.inl ((ih (index + 1)).mpr h))⟩

private theorem letsOut_convert_iff {cls : ClassRef} {plan : FieldPlan} (raw : Value)
    {kind : ValueKind}
    (he : ∀ c, kind.schema? = some c → EntersEscape w binder depth c)
    (hp : ∀ p, kind ≠ .scalar (.primitive p)) :
    LetsOut (convert (w.entering binder depth) cls.name plan.name raw kind) f ↔
      w.ConversionEscapes binder depth cls plan kind raw f := by
  cases kind with
  | scalar kind =>
    have hs := letsOut_convertScalar_iff (f := f) cls.name plan.name none raw
      (fun c hc => he c (by rw [hc]; rfl) : ∀ c, kind = .schema c → EntersEscape w binder depth c)
    refine hs.trans ⟨.scalar, fun h => ?_⟩
    cases h with
    | scalar h => exact h
    | notInteger => exact absurd rfl (hp _)
  | array element =>
    simp only [convert]
    cases hi : arrayItems? raw with
    | none =>
      refine (letsOut_mismatch_iff ..).trans ⟨False.elim, fun h => ?_⟩
      cases h with
      | element h _ _ _ => rw [hi] at h; cases h
    | some items =>
      cases element with
      | none => exact (letsOut_ok_iff _).trans ⟨False.elim, fun h => by cases h⟩
      | some kind =>
        have hs := letsOut_convertItems_iff (f := f) cls.name plan.name
          (fun c hc => he c (by rw [hc]; rfl) :
            ∀ c, kind = .schema c → EntersEscape w binder depth c) 0 items
        refine letsOut_bind_iff.trans ?_
        rw [hs]
        constructor
        · rintro (⟨before, item, after, hs, hb, h⟩ | ⟨vs, -, h⟩)
          · exact .element hi hs hb h
          · exact ((letsOut_ok_iff _).mp h).elim
        · intro h
          cases h with
          | element hr hs hb h =>
            rw [hi] at hr
            cases hr
            exact .inl ⟨_, _, _, hs, hb, h⟩

private theorem letsOut_convertField_iff {cls : ClassRef} {plan : FieldPlan} (raw : Value)
    {kind : ValueKind} (he : ∀ c, kind.schema? = some c → EntersEscape w binder depth c) :
    LetsOut (convertField (w.entering binder depth) cls.name plan kind raw) f ↔
      w.ConversionEscapes binder depth cls plan kind raw f := by
  cases kind with
  | array element => exact letsOut_convert_iff raw he fun _ h => by cases h
  | scalar kind =>
    cases kind with
    | primitive p =>
      simp only [convertField]
      cases hp : p.convert raw with
      | ok v =>
        refine (letsOut_ok_iff _).trans ⟨False.elim, fun h => ?_⟩
        cases h with
        | scalar h => cases h
        | notInteger _ _ hc _ => rw [hp] at hc; cases hc
      | error expected =>
        dsimp only
        split
        · next hi =>
          rw [Bool.and_eq_true] at hi
          refine (letsOut_fail_iff _ _ _).trans ⟨?_, fun h => ?_⟩
          · rintro ⟨hu, rfl⟩
            exact .notInteger hi.1 hi.2 hp hu
          · cases h with
            | scalar h => cases h
            | notInteger _ _ _ hu => exact ⟨hu, rfl⟩
        · next hi =>
          refine (letsOut_mismatch_iff ..).trans ⟨False.elim, fun h => ?_⟩
          cases h with
          | scalar h => cases h
          | notInteger hint hn _ _ => exact hi (by rw [hint, hn]; rfl)
    | _ => exact letsOut_convert_iff raw he fun _ h => by cases h

/-! ### Fields and records -/

private theorem letsOut_plainValue_iff {cls : ClassRef} {plan : FieldPlan} (raw : Value)
    (he : ∀ kind c, plan.kind = some kind → kind.schema? = some c → EntersEscape w binder depth c) :
    LetsOut (plainValue (w.entering binder depth) cls.name plan raw) f ↔
      ∃ kind, plan.kind = some kind ∧ (w.ConversionEscapes binder depth cls plan kind raw f ∨
        ∃ v, convertField (w.entering binder depth) cls.name plan kind raw = .ok v ∧
          plan.RulesEscape v f) := by
  unfold plainValue
  split
  · next hk =>
    rw [hk]
    exact (letsOut_ok_iff _).trans ⟨False.elim, fun ⟨_, h, _⟩ => nomatch h⟩
  · next kind hk =>
    rw [letsOut_bind_iff, letsOut_convertField_iff raw (he kind · hk)]
    have hr : ∀ v, LetsOut (do checkRules cls.name plan v; return v) f ↔ plan.RulesEscape v f := by
      intro v
      rw [letsOut_bind_iff, letsOut_checkRules_iff]
      refine ⟨?_, .inl⟩
      rintro (h | ⟨_, -, h⟩)
      · exact h
      · exact ((letsOut_ok_iff _).mp h).elim
    simp only [hr, hk, Option.some.injEq, exists_eq_left']

private theorem letsOut_plainField_iff {cls : ClassRef} {entries : List (Value × Value)}
    {plan : FieldPlan}
    (he : ∀ kind c, plan.kind = some kind → kind.schema? = some c → EntersEscape w binder depth c) :
    LetsOut
        (plainField (w.entering binder depth) cls (w.classes.hasAttributes cls) entries plan) f ↔
      w.FieldEscapes binder depth cls entries plan f := by
  by_cases hz : rawValue plan entries = .null
  · rw [plainField_null hz]
    have hn : ¬ w.FieldEscapes binder depth cls entries plan f := by
      intro h
      cases h <;> contradiction
    refine ⟨fun h => ?_, fun h => absurd h hn⟩
    split at h
    · exact Bool.noConfusion ((letsOut_fail_iff _ _ _).mp h).1
    · exact ((letsOut_ok_iff _).mp h).elim
  · rw [plainField_value hz, letsOut_bind_iff, letsOut_plainValue_iff _ he]
    constructor
    · rintro (⟨kind, hk, hc | ⟨v, hv, hr⟩⟩ | ⟨v, hv, h⟩)
      · exact .conversion hz hk hc
      · exact .rules hz hk hv hr
      · split at h
        · exact ((letsOut_ok_iff _).mp h).elim
        · next ha =>
          obtain ⟨_, hg, hf⟩ := h
          cases hg
          cases hf
          exact .unsettable hz hv (Bool.eq_false_iff.mpr ha)
    · intro h
      cases h with
      | conversion _ hk hc => exact .inl ⟨_, hk, .inl hc⟩
      | rules _ hk hv hr => exact .inl ⟨_, hk, .inr ⟨_, hv, hr⟩⟩
      | unsettable _ hv ha =>
        refine .inr ⟨_, hv, ?_⟩
        rw [ha]
        exact ⟨_, rfl, rfl⟩

private theorem letsOut_plainFields_iff {cls : ClassRef} {entries : List (Value × Value)}
    {plans : List FieldPlan}
    (he : ∀ plan ∈ plans, ∀ kind c, plan.kind = some kind → kind.schema? = some c →
      EntersEscape w binder depth c) :
    LetsOut
        (plainFields (w.entering binder depth) cls (w.classes.hasAttributes cls) entries plans) f ↔
      FirstIn (fun q => ∃ value, plainField (w.entering binder depth) cls
          (w.classes.hasAttributes cls) entries q = .ok value)
        (fun q => w.FieldEscapes binder depth cls entries q f) plans := by
  induction plans with
  | nil =>
    rw [firstIn_nil_iff]
    exact letsOut_ok_iff _
  | cons plan plans ih =>
    obtain ⟨hp, hps⟩ := List.forall_mem_cons.mp he
    rw [plainFields, letsOut_bind_iff, letsOut_plainField_iff hp, firstIn_cons_iff, ← ih hps]
    refine or_congr_right ⟨?_, ?_⟩
    · rintro ⟨value, hv, h⟩
      rcases letsOut_bind_iff.mp h with h | ⟨rest, -, h⟩
      · exact ⟨⟨value, hv⟩, h⟩
      · exact ((letsOut_ok_iff _).mp h).elim
    · rintro ⟨⟨value, hv⟩, h⟩
      exact ⟨value, hv, letsOut_bind_iff.mpr (.inl h)⟩

private theorem le_foldl_max (xs : List Nat) {n m : Nat} (h : m ≤ n ∨ m ∈ xs) :
    m ≤ xs.foldl max n := by
  induction xs generalizing n with
  | nil => exact h.resolve_right List.not_mem_nil
  | cons x xs ih =>
    refine ih ?_
    rcases h with h | h
    · exact .inl (Nat.le_trans h (Nat.le_max_left n x))
    · rcases List.mem_cons.mp h with rfl | h
      · exact .inl (Nat.le_max_right n m)
      · exact .inr h

/-- No binder allows more levels than the bound by which binding recurses. -/
theorem maxDepth_le_depthBound (w : World) (i : Nat) :
    (w.binder i).maxDepth ≤ w.depthBound := by
  refine le_foldl_max _ ?_
  cases hi : w.binders[i]? with
  | none => rw [World.binder, hi]; exact .inl (Nat.le_refl _)
  | some b =>
    rw [World.binder, hi]
    exact .inr (List.mem_map_of_mem (List.mem_of_getElem? hi))

/-- A schema beyond the depth limit lets out what escapes there. -/
theorem letsOut_tooDeep_iff {cls : ClassRef} (data : Value)
    (hd : (w.binder binder).maxDepth < depth) {α : Type} :
    LetsOut (fail cls.name rootField (.tooDeep (w.binder binder).maxDepth) : Except Fault α) f ↔
      w.Escapes binder depth cls data f := by
  refine (letsOut_fail_iff _ _ _).trans ⟨?_, fun h => ?_⟩
  · rintro ⟨hp, rfl⟩
    exact .tooDeep hd hp
  · cases h with
    | tooDeep _ hp => exact ⟨hp, rfl⟩
    | field hle _ _ _ _ => exact absurd hle (Nat.not_le_of_gt hd)

/-- What lets a record out of a bind at a depth, when as many levels are left as the depth limits
allow. -/
theorem letsOut_plainBind_iff {levels : Nat} {cls : ClassRef} (hc : w.Compiles binder cls)
    (hl : levels + depth = w.depthBound + 1) (data : Value) :
    LetsOut (w.plainBind levels binder depth cls data) f ↔ w.Escapes binder depth cls data f := by
  induction levels generalizing binder depth cls data f with
  | zero =>
    have hm := maxDepth_le_depthBound w binder
    exact letsOut_tooDeep_iff data (by omega)
  | succ levels ih =>
    have hlevels : levels = w.depthBound - depth := by omega
    cases data with
    | dict entries =>
      rw [plainBind_dict]
      split
      · next hd => exact letsOut_tooDeep_iff _ hd
      · next hd =>
        obtain ⟨plans, hp⟩ := hc binder cls (.refl binder cls)
        have he : ∀ plan ∈ plans, ∀ kind c, plan.kind = some kind → kind.schema? = some c →
            EntersEscape w binder depth c := by
          intro plan hpl kind c hk hs entries f
          rw [← ih (hc.nested hp hpl hk hs) (by omega), entering, ← hlevels]
          refine letsOut_bind_iff.trans ⟨?_, .inl⟩
          rintro (h | ⟨attrs, -, h⟩)
          · exact h
          · exact ((letsOut_ok_iff _).mp h).elim
        rw [hp, hlevels]
        refine (letsOut_plainFields_iff he).trans ⟨?_, fun h => ?_⟩
        · rintro ⟨before, plan, after, hs, hb, h⟩
          exact .field (Nat.le_of_not_gt hd) hp hs hb h
        · cases h with
          | tooDeep h _ => exact absurd h hd
          | field _ hp' hs hb h =>
            rw [hp] at hp'
            cases hp'
            exact ⟨_, _, _, hs, hb, h⟩
    | _ =>
      rw [plainBind_other _ _ _ _ _ (by simp)]
      split
      · next hd => exact letsOut_tooDeep_iff _ hd
      · next hd =>
        refine (letsOut_mismatch_iff ..).trans ⟨False.elim, fun h => ?_⟩
        cases h with
        | tooDeep h _ => exact hd h

end Convert

private theorem bind_letsOut_iff {s : Session} (hs : s.Reachable) {binder : Nat} {cls : ClassRef}
    (hp : s.world.Plain binder cls) (hc : s.world.Compiles binder cls) (data : Value) {f : Fault} :
    LetsOut (exec (bind binder cls data) s.world).1 f ↔
      s.world.Escapes binder 0 cls (s.world.payload data) f := by
  have hw := hs.consistent
  rw [(bind_plain hw (.refl hw) hp data).1.letsOut_iff, letsOut_map_iff]
  exact letsOut_plainBind_iff hc (Nat.add_zero _) _

/-- A bind returns an instance or fails with a binding error exactly if no other fault escapes, and
it fails with another fault exactly if that one escapes. -/
theorem bind_closed_iff {s : Session} (hs : s.Reachable) {binder : Nat} {cls : ClassRef}
    (hp : s.world.Plain binder cls) (hc : s.world.Compiles binder cls) (data : Value) :
    (((∃ o, (exec (bind binder cls data) s.world).1 = .ok o) ∨
        ∃ e, (exec (bind binder cls data) s.world).1 = .error (.binding e)) ↔
      ∀ f, ¬ s.world.Escapes binder 0 cls (s.world.payload data) f) ∧
    ∀ f, (∀ e, f ≠ .binding e) → ((exec (bind binder cls data) s.world).1 = .error f ↔
      s.world.Escapes binder 0 cls (s.world.payload data) f) := by
  have hl := fun f => bind_letsOut_iff (f := f) hs hp hc data
  generalize (exec (bind binder cls data) s.world).1 = result at hl ⊢
  refine ⟨?_, fun f hf => ?_⟩
  · rw [answers_iff]
    exact forall_congr' fun f => not_congr (hl f)
  · rw [← hl f, letsOut_iff_of_ne_binding hf]

/-- A bind that fails does so with a binding error or with one of the faults that may escape. -/
theorem bind_fault_cases {s : Session} (hs : s.Reachable) {binder : Nat} {cls : ClassRef}
    (hp : s.world.Plain binder cls) (hc : s.world.Compiles binder cls) {data : Value} {f : Fault}
    (h : (exec (bind binder cls data) s.world).1 = .error f) :
    (∃ e, f = .binding e) ∨ Escaping f := by
  by_cases hf : ∃ e, f = .binding e
  · exact .inl hf
  · have hl := (letsOut_iff_of_ne_binding (not_exists.mp hf)).mpr h
    exact .inr ((bind_letsOut_iff hs hp hc data).mp hl).escaping

end Binding

namespace Session

/-- The creation of a class with a date. -/
def newVisit : Operation := .newClass "Visit" [.schemaBase] none [("d", ⟨.basic .date, []⟩)]

/-- The class that `newVisit` creates in a new session. -/
def visit : ClassRef := ⟨5, "Visit", true⟩

/-- The session with the class of visits. -/
def visiting : Session := (initial.step newVisit).2

private theorem visiting_closed :
    visiting.world.closed (fun plans => ∀ plan ∈ plans, plan.Plain) [(0, visit)] = true := by
  decide +kernel

private theorem visiting_plain : visiting.world.Plain 0 visit :=
  World.throughout_of_closed visiting_closed (List.mem_cons_self ..)

private theorem visiting_compiles : visiting.world.Compiles 0 visit :=
  World.compiles_of_closed visiting_closed (by decide +kernel) (List.mem_cons_self ..)

/-- A visit so many milliseconds after the start of 1970 that no floating-point number is near. -/
def distant : Value := .dict [(.str "d", .int (Int.ofNat (Nat.pow 10 400)))]

private theorem overlarge_distant : (Value.int (Int.ofNat (Nat.pow 10 400))).Overlarge := by
  have h : (Double.ofInt? (Int.ofNat (Nat.pow 10 400))).isNone = true := by decide +kernel
  exact ⟨_, rfl, Option.isNone_iff_eq_none.mp h⟩

private theorem distant_escapes :
    visiting.world.Escapes 0 0 visit (visiting.world.payload distant) (.overflow .double) := by
  have hp : visiting.world.plansFor 0 visit =
      .ok [⟨"d", "d", .optional, some (.scalar (.date .date)), none, [], [], false⟩] := rfl
  refine .field (Nat.zero_le _) hp (List.nil_append _).symm
    (fun q hq => absurd hq List.not_mem_nil) ?_
  refine .conversion (fun h => ?_) rfl (.scalar (.overlarge overlarge_distant))
  cases h

/-- The overflow escapes when the visit in `distant` is bound. -/
theorem visit_overflows :
    (exec (Binding.bind 0 visit distant) visiting.world).1 = .error (.overflow .double) := by
  have hr : visiting.Reachable := .step initial newVisit .initial
  have hf : ∀ e, Fault.overflow .double ≠ .binding e := nofun
  have hb := Binding.bind_closed_iff hr visiting_plain visiting_compiles distant
  exact (hb.2 _ hf).mpr distant_escapes

end Session

end SchemaBinding
