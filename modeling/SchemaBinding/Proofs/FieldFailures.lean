import SchemaBinding.Proofs.BindClosure

/-!
# What failures name

Every binding error names a schema and a field. Whatever fails in the binding of a field names that
field, apart from the schemas nested in it and from functions of the caller that raise binding
errors of their own. This is one property of faults among others: any that covers the faults of the
rules of a field is had by whatever the field fails with.
-/

namespace SchemaBinding

/-- A function that raises no binding errors. -/
def UserFunction.Ordinary (f : UserFunction) : Prop :=
  ∀ subject field value error, f.reply subject field value ≠ .raised (.binding error)

/-- A check that raises no binding errors of its own making. -/
def Check.Ordinary : Check → Prop
  | .comparison _ => True
  | .custom f => f.Ordinary

/-- A plan whose functions raise no binding errors. -/
structure FieldPlan.Ordinary (p : FieldPlan) : Prop where
  transforms : ∀ f ∈ p.transforms, f.Ordinary
  checks : ∀ c ∈ p.checks, c.Ordinary

/-- A fault that, if it is a binding error, names a schema and one of some fields. -/
def Fault.Names (typeName : String) (fields : List String) (f : Fault) : Prop :=
  ∀ e, f = .binding e → e.typeName = typeName ∧ e.fieldName ∈ fields

private theorem Fault.names_of_ne {typeName : String} {fields : List String} {f : Fault}
    (h : ∀ e, f ≠ .binding e) : f.Names typeName fields := fun e he => absurd he (h e)

/-- The fault of a binding error is that error, if its words can be written. -/
theorem Fault.eq_of_ofBinding {b e : BindingError} (h : ofBinding b = .binding e) :
    b = e ∧ b.cause.printable = true := by
  unfold ofBinding at h
  split at h
  · next hp =>
    cases h
    exact ⟨rfl, hp⟩
  · cases h

/-- A binding error at a field names the schema and the field. -/
theorem Fault.names_ofBinding (typeName field : String) (cause : BindingCause) :
    (Fault.ofBinding ⟨typeName, field, cause⟩).Names typeName [field] := by
  intro e he
  obtain ⟨rfl, -⟩ := eq_of_ofBinding he
  exact ⟨rfl, List.mem_singleton_self field⟩

/-- A property of faults that all have with which the rules of a field fail: the faults that are no
binding errors, and the binding errors of the field. Only that a value is no integer need not have
it: what is called so is told by `FieldPlan.CallsNoInteger`. -/
structure Fault.Covers (P : Fault → Prop) (typeName field : String) : Prop where
  other : ∀ {f : Fault}, (∀ e, f ≠ .binding e) → P f
  own : ∀ {cause : BindingCause}, (∀ v, cause ≠ .notInteger v) →
    P (.ofBinding ⟨typeName, field, cause⟩)

/-- To name a schema and one of its fields is what all faults of its rules have. -/
theorem Fault.covers_names (typeName field : String) :
    Covers (Names typeName [field]) typeName field where
  other := names_of_ne
  own _ := names_ofBinding _ _ _

/-- A field that asks for integers calls a value no integer: its raw value, which is a number that
its kind refuses, or at last a number with a fractional part. -/
inductive FieldPlan.CallsNoInteger (plan : FieldPlan) (raw : Value) : Value → Prop
  | refused {p : Primitive} {expected : String} (hi : plan.integer = true)
    (hn : raw.isNumber = true) (hk : plan.kind = some (.scalar (.primitive p)))
    (hr : p.convert raw = .error expected) : CallsNoInteger plan raw raw
  | fractional {x : Double} (hi : plan.integer = true) (hx : ¬ x.isIntegral = true) :
    CallsNoInteger plan raw (.float x)

/-! ### What computations and actions fail with -/

section FailsWith

variable {α β : Type} {P : Fault → Prop}

/-- Whatever a computation fails with has a property. -/
def FailsOnly (P : Fault → Prop) (e : Except Fault α) : Prop := ∀ f, e = .error f → P f

/-- A value is no failure. -/
theorem FailsOnly.ok (x : α) : FailsOnly P (.ok x : Except Fault α) := fun _ h => by cases h

/-- A computation that is a fault fails with it. -/
theorem FailsOnly.error {f : Fault} (h : P f) : FailsOnly P (.error f : Except Fault α) := by
  intro g hg
  cases hg
  exact h

/-- A sequence of computations fails only as its parts do. -/
theorem FailsOnly.bind {e : Except Fault α} {k : α → Except Fault β} (he : FailsOnly P e)
    (hk : ∀ x, FailsOnly P (k x)) : FailsOnly P (e >>= k) := by
  cases e with
  | error f =>
    intro g hg
    cases hg
    exact he f rfl
  | ok x => exact hk x

/-- Whatever an action fails with, from any world, has a property. -/
def FailsWith (P : Fault → Prop) (a : Action α) : Prop := ∀ w, FailsOnly P (exec a w).1

/-- An action that only returns does not fail. -/
theorem FailsWith.pure (x : α) : FailsWith P (pure x : Action α) := fun _ => .ok x

/-- An action that fails at once fails with its fault. -/
theorem FailsWith.throw {f : Fault} (h : P f) : FailsWith P (throw f : Action α) :=
  fun _ => .error h

/-- A result that was settled before fails as it is. -/
theorem FailsWith.lift {e : Except Fault α} (h : FailsOnly P e) : FailsWith P (World.lift e) :=
  fun _ => h

/-- A change of the world does not fail. -/
theorem FailsWith.modify (g : World → World) :
    FailsWith P (modify g : Action PUnit) := fun _ => .ok PUnit.unit

/-- A sequence fails only as its parts do. -/
theorem FailsWith.bind {a : Action α} {k : α → Action β} (ha : FailsWith P a)
    (hk : ∀ x, FailsWith P (k x)) : FailsWith P (a >>= k) := by
  intro w
  have haw := ha w
  rw [exec_bind]
  rcases he : exec a w with ⟨f | x, v⟩
  · rw [he] at haw
    exact .error (haw f rfl)
  · exact hk x v

/-- Looking at the world does not fail. -/
theorem FailsWith.get {k : World → Action α} (hk : ∀ w, FailsWith P (k w)) :
    FailsWith P (MonadState.get >>= k) := fun w => hk w w

/-- Telling a value apart from all others does not fail. -/
theorem FailsWith.adopt (v : Value) : FailsWith P (World.adopt v) := by
  intro w
  rw [World.exec_adopt]
  exact .ok _

/-- What fails with a property fails with a weaker one. -/
theorem FailsWith.imp {Q : Fault → Prop} {a : Action α} (h : FailsWith P a)
    (hpq : ∀ f, P f → Q f) : FailsWith Q a := fun w f hf => hpq f (h w f hf)

end FailsWith

namespace Binding

open World

variable {P : Fault → Prop}

/-! ### What the rules of a field fail with -/

section Rules

variable {typeName field : String} (hP : Fault.Covers P typeName field)

include hP

private theorem failsOnly_fail {α : Type} {cause : BindingCause} (hc : ∀ v, cause ≠ .notInteger v) :
    FailsOnly P (fail typeName field cause : Except Fault α) := .error (hP.own hc)

private theorem failsWith_fail {α : Type} {cause : BindingCause} (hc : ∀ v, cause ≠ .notInteger v) :
    FailsWith P (fail typeName field cause : Action α) := .throw (hP.own hc)

private theorem failsOnly_looseNumber (v : Value) : FailsOnly P (looseNumber v) := by
  cases v with
  | int i =>
    rw [looseNumber_int]
    cases Double.ofInt? i with
    | none => exact .error (hP.other fun _ h => by cases h)
    | some x => exact .ok _
  | _ => exact .ok _

private theorem failsOnly_looseEq (l r : Value) : FailsOnly P (looseEq l r) := by
  unfold looseEq
  split
  · exact .ok _
  · split
    · exact .ok _
    · refine FailsOnly.bind (failsOnly_looseNumber hP l) fun a => ?_
      refine FailsOnly.bind (failsOnly_looseNumber hP r) fun b => ?_
      exact .ok _

private theorem failsOnly_isMember (v : Value) (members : List Value) :
    FailsOnly P (isMember v members) := by
  induction members with
  | nil => exact .ok _
  | cons m rest ih =>
    refine FailsOnly.bind (failsOnly_looseEq hP m v) fun found => ?_
    cases found with
    | true => exact .ok _
    | false => exact ih

private theorem failsOnly_checkMembers (members : Option Members) (v : Value) :
    FailsOnly P (checkMembers typeName field members v) := by
  cases members with
  | none => exact .ok _
  | some m =>
    refine FailsOnly.bind (failsOnly_isMember hP v m.values) fun found => ?_
    cases found with
    | true => exact .ok _
    | false => exact failsOnly_fail hP (by simp)

private theorem failsOnly_requireNumber (check : String) (v : Value) :
    FailsOnly P (requireNumber typeName field check v) := by
  unfold requireNumber
  split
  · exact .ok _
  · exact failsOnly_fail hP (by simp)

private theorem failsOnly_holds (c : Comparison) (v : Value) : FailsOnly P (c.holds v) := by
  unfold Comparison.holds
  split
  · exact failsOnly_looseEq hP v c.bound
  · have h : FailsOnly P (looseEq v c.bound) := failsOnly_looseEq hP v c.bound
    cases he : looseEq v c.bound with
    | error f => exact .error (h f he)
    | ok b => exact .ok _
  · exact .ok _

private theorem failsOnly_check (c : Comparison) (v : Value) :
    FailsOnly P (c.check typeName field v) := by
  have hrest : FailsOnly P (c.holds v >>= fun b =>
      if b then Except.ok () else fail typeName field (.comparison c.relation c.bound v)) := by
    refine FailsOnly.bind (failsOnly_holds hP c v) fun b => ?_
    cases b with
    | true => exact .ok _
    | false => exact failsOnly_fail hP (by simp)
  unfold Comparison.check
  split
  · exact FailsOnly.bind (failsOnly_requireNumber hP _ v) fun _ => hrest
  · exact hrest

/-- At last a field that asks for integers may call a number with a fractional part none. -/
theorem failsOnly_checkIntegral {integer : Bool} (v : Value)
    (hi : ∀ x : Double, integer = true → ¬ x.isIntegral = true →
      P (.ofBinding ⟨typeName, field, .notInteger (.float x)⟩)) :
    FailsOnly P (checkIntegral typeName field integer v) := by
  unfold checkIntegral
  split
  · next hinteger =>
    refine FailsOnly.bind (failsOnly_requireNumber hP _ v) fun _ => ?_
    split
    · next x =>
      split
      · exact .ok _
      · next hx => exact .error (hi x hinteger hx)
    · exact .ok _
  · exact .ok _

section Convert

variable {enter : Enter} (he : ∀ c v, FailsWith P (enter c v))

include he

private theorem failsWith_convertScalar (index : Option Nat) (raw : Value) (kind : ScalarKind) :
    FailsWith P (convertScalar enter typeName field index raw kind) := by
  cases kind with
  | primitive p =>
    unfold convertScalar
    dsimp only
    split
    · exact .pure _
    · exact failsWith_fail hP (by simp)
  | date target =>
    unfold convertScalar
    dsimp only
    split
    · exact .pure _
    · exact failsWith_fail hP (by simp)
    · next fault h =>
      obtain ⟨-, rfl⟩ := parseDate_error h
      exact .throw (hP.other fun _ h => by cases h)
  | schema cls =>
    cases raw with
    | dict entries => exact he cls _
    | _ => exact failsWith_fail hP (by simp)
  | mapping =>
    cases raw with
    | dict entries => exact .pure _
    | _ => exact failsWith_fail hP (by simp)
  | any => exact .pure raw

private theorem failsWith_convertItems (kind : ScalarKind) (index : Nat) (items : List Value) :
    FailsWith P (convertItems enter typeName field kind index items) := by
  induction items generalizing index with
  | nil => exact .pure []
  | cons raw rest ih =>
    refine FailsWith.bind (failsWith_convertScalar hP he (some index) raw kind) fun v => ?_
    refine FailsWith.bind (ih (index + 1)) fun vs => ?_
    exact .pure _

private theorem failsWith_convert (raw : Value) (kind : ValueKind) :
    FailsWith P (convert enter typeName field raw kind) := by
  cases kind with
  | scalar kind => exact failsWith_convertScalar hP he none raw kind
  | array element =>
    unfold convert
    dsimp only
    split
    · exact failsWith_fail hP (by simp)
    · split
      · exact .pure _
      · next kind => exact .bind (failsWith_convertItems hP he kind 0 _) fun _ => .pure _

end Convert

end Rules

/-! ### What the functions of a field fail with -/

private theorem failsWith_obtain (kept argument : Value) (attrs : List (String × Value))
    (given : Given) :
    FailsWith P (obtain kept argument attrs given) := by
  induction given with
  | made v => exact .adopt v
  | single item ih => exact .bind ih fun _ => .adopt _
  | repeated times items ih => exact .bind ih fun _ => .adopt _
  | _ => exact .pure _

private theorem failsWith_setGiven (kept argument : Value) (sets : List (String × Given))
    (attrs : List (String × Value)) : FailsWith P (setGiven kept argument sets attrs) := by
  induction sets generalizing attrs with
  | nil => exact .pure attrs
  | cons s rest ih => exact .bind (failsWith_obtain kept argument attrs s.2) fun _ => ih _

section Functions

variable {cls : ClassRef} {field : String} (hP : Fault.Covers P cls.name field)

include hP

/-- A function that raises no binding errors fails its field. -/
theorem failsWith_call {f : UserFunction} (hf : f.Ordinary) (attrs : List (String × Value))
    (value : Value) : FailsWith P (call cls field attrs f value) := by
  refine FailsWith.get fun w => ?_
  refine FailsWith.bind (.modify _) fun _ => ?_
  split
  · next e h => exact absurd h (hf _ _ _ e)
  · exact failsWith_fail hP (by simp)
  · split
    · exact failsWith_fail hP (by simp)
    · refine FailsWith.bind (failsWith_setGiven _ _ _ _) fun attrs => ?_
      exact .bind (failsWith_obtain _ _ _ _) fun _ => .pure _

private theorem failsWith_transform {fs : List UserFunction} (hfs : ∀ f ∈ fs, f.Ordinary)
    (attrs : List (String × Value)) (value : Value) :
    FailsWith P (transform cls field fs attrs value) := by
  induction fs generalizing attrs value with
  | nil => exact .pure _
  | cons f fs ih =>
    obtain ⟨hf, hrest⟩ := List.forall_mem_cons.mp hfs
    refine FailsWith.bind (failsWith_call hP hf attrs value) ?_
    rintro ⟨attrs, replacement⟩
    cases replacement with
    | null => exact ih hrest attrs value
    | _ => exact ih hrest attrs _

private theorem failsWith_checkOne {c : Check} (hc : c.Ordinary) (attrs : List (String × Value))
    (value : Value) : FailsWith P (check cls field attrs value c) := by
  cases c with
  | comparison c => exact .bind (.lift (failsOnly_check hP c value)) fun _ => .pure _
  | custom f =>
    refine FailsWith.bind (failsWith_call hP hc attrs value) ?_
    rintro ⟨attrs, verdict⟩
    dsimp only
    split
    · split
      · exact failsWith_fail hP (by simp)
      · exact .throw (hP.other fun _ h => by cases h)
    · exact .pure _

private theorem failsWith_checkAll {cs : List Check} (hcs : ∀ c ∈ cs, c.Ordinary) (value : Value)
    (attrs : List (String × Value)) : FailsWith P (checkAll cls field value cs attrs) := by
  induction cs generalizing attrs with
  | nil => exact .pure attrs
  | cons c cs ih =>
    obtain ⟨hc, hrest⟩ := List.forall_mem_cons.mp hcs
    exact .bind (failsWith_checkOne hP hc attrs value) fun attrs => ih hrest attrs

end Functions

/-! ### What a field fails with -/

section Field

variable {cls : ClassRef} {plan : FieldPlan} (hP : Fault.Covers P cls.name plan.name)
  {enter : Enter} (he : ∀ c v, FailsWith P (enter c v))

include hP he

/-- A conversion may call the raw value no integer. -/
theorem failsWith_convertField {kind : ValueKind} (hk : plan.kind = some kind) {raw : Value}
    (hi : ∀ v, plan.CallsNoInteger raw v →
      P (.ofBinding ⟨cls.name, plan.name, .notInteger v⟩)) :
    FailsWith P (convertField enter cls.name plan kind raw) := by
  unfold convertField
  split
  · split
    · exact .pure _
    · next expected hr =>
      split
      · next hn =>
        rw [Bool.and_eq_true] at hn
        exact .throw (hi raw (.refused hn.1 hn.2 hk hr))
      · exact failsWith_fail hP (by simp)
  · exact failsWith_convert hP he raw kind

private theorem failsWith_resolve (hp : plan.Ordinary) (attrs : List (String × Value)) {raw : Value}
    (hi : ∀ v, plan.CallsNoInteger raw v →
      P (.ofBinding ⟨cls.name, plan.name, .notInteger v⟩)) :
    FailsWith P (resolve enter cls plan attrs raw) := by
  unfold resolve
  split
  · exact failsWith_transform hP hp.transforms attrs raw
  · next kind hk =>
    refine FailsWith.bind (failsWith_convertField hP he hk hi) fun v => ?_
    refine FailsWith.bind (.adopt v) fun v => ?_
    refine FailsWith.bind (.lift (failsOnly_checkMembers hP plan.union v)) fun _ => ?_
    refine FailsWith.bind (failsWith_transform hP hp.transforms attrs v) ?_
    rintro ⟨attrs, v⟩
    refine FailsWith.bind (failsWith_checkAll hP hp.checks v attrs) fun attrs => ?_
    have hintegral := failsOnly_checkIntegral hP v fun x hinteger hx =>
      hi (.float x) (.fractional hinteger hx)
    exact .bind (.lift hintegral) fun _ => .pure _

/-- A field that is bound in a world fails by its rules, unless a schema nested in it fails. -/
theorem failsOnly_bindField (hp : plan.Ordinary) (entries : List (Value × Value))
    (attrs : List (String × Value)) (w : World)
    (hi : ∀ v, plan.CallsNoInteger (w.adopted (rawValue plan entries)) v →
      P (.ofBinding ⟨cls.name, plan.name, .notInteger v⟩)) :
    FailsOnly P (exec (bindField enter cls entries plan attrs) w).1 := by
  by_cases hn : rawValue plan entries = .null
  · rw [bindField_null hn]
    split
    · exact .error (hP.own (by simp))
    · exact .ok _
  · rw [bindField_value hn, exec_bind_of_ok (exec_adopt _ w)]
    refine FailsWith.bind (failsWith_resolve hP he hp attrs hi) ?_ _
    rintro ⟨attrs, v⟩
    refine FailsWith.get fun w => ?_
    split
    · exact .pure _
    · exact .throw (hP.other fun _ h => by cases h)

end Field

/-- Compiling plans fails with no binding error. -/
theorem failsOnly_compile (t : ClassTable) (r : Registry) (c : ClassRef) :
    FailsOnly (fun f => ∀ e, f ≠ .binding e) (r.compile t c) := by
  have hfield : ∀ f, FailsOnly (fun f => ∀ e, f ≠ .binding e) (r.compileField t c f) := by
    intro f
    unfold Registry.compileField
    split
    · exact .ok _
    · exact .error fun _ h => by cases h
    · exact .error fun _ h => by cases h
  have hfields : ∀ fields,
      FailsOnly (fun f => ∀ e, f ≠ .binding e) (r.compileFields t c fields) := by
    intro fields
    induction fields with
    | nil => exact .ok _
    | cons f fs ih =>
      refine FailsOnly.bind (hfield f) fun plan => ?_
      exact FailsOnly.bind ih fun plans => .ok _
  unfold Registry.compile
  split
  · exact hfields _
  · exact .error fun _ h => by cases h

end Binding

end SchemaBinding
