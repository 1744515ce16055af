import SchemaBinding.Proofs.PlainFields

/-!
# What rules let out

A rule of a field refuses a value with a binding error. It lets out another fault in two cases only:
when an integer beyond the floating-point numbers is to be compared loosely with something that it
does not equal, and when the words of a refusal would show an integer with too many digits.
-/

namespace SchemaBinding

section LetsOut

variable {α β : Type} {e : Except Fault α} {f : Fault}

/-- A computation fails, and not with a binding error. -/
def LetsOut (e : Except Fault α) (f : Fault) : Prop := ∃ g, e = .error g ∧ g.escaped = some f

/-- A value lets out no fault. -/
theorem letsOut_ok_iff (x : α) : LetsOut (.ok x : Except Fault α) f ↔ False := by
  constructor
  · rintro ⟨g, h, -⟩
    cases h
  · exact False.elim

/-- A fault lets out itself, unless it is a binding error. -/
theorem letsOut_error_iff (g : Fault) :
    LetsOut (.error g : Except Fault α) f ↔ g.escaped = some f := by
  constructor
  · rintro ⟨g, h, hg⟩
    cases h
    exact hg
  · exact fun h => ⟨g, rfl, h⟩

/-- A sequence lets out what its parts let out. -/
theorem letsOut_bind_iff {k : α → Except Fault β} :
    LetsOut (e >>= k) f ↔ LetsOut e f ∨ ∃ x, e = .ok x ∧ LetsOut (k x) f := by
  cases e with
  | error g =>
    change LetsOut (.error g : Except Fault β) f ↔ _
    rw [letsOut_error_iff, letsOut_error_iff]
    refine ⟨fun h => .inl h, ?_⟩
    rintro (h | ⟨x, hx, -⟩)
    · exact h
    · cases hx
  | ok x =>
    refine ⟨fun h => .inr ⟨x, rfl, h⟩, ?_⟩
    rintro (h | ⟨y, hy, h⟩)
    · exact ((letsOut_ok_iff x).mp h).elim
    · cases hy
      exact h

/-- A failure at a field lets out that its words cannot be written. -/
theorem letsOut_ofBinding_iff (error : BindingError) :
    LetsOut (.error (.ofBinding error) : Except Fault α) f ↔
      error.cause.printable = false ∧ f = .value .digits := by
  rw [letsOut_error_iff, Fault.ofBinding]
  cases error.cause.printable with
  | true => exact ⟨nofun, fun h => nomatch h.1⟩
  | false => exact ⟨fun h => ⟨rfl, (Option.some.inj h).symm⟩, fun h => by rw [h.2]; rfl⟩

private theorem escaped_of_ne_binding (h : ∀ b, f ≠ .binding b) : f.escaped = some f := by
  cases f with
  | binding b => exact absurd rfl (h b)
  | _ => rfl

/-- A fault that is no binding error is let out as it is. -/
theorem letsOut_iff_of_ne_binding (h : ∀ b, f ≠ .binding b) : LetsOut e f ↔ e = .error f := by
  constructor
  · rintro ⟨g, rfl, hg⟩
    cases g with
    | binding b => cases hg
    | _ => cases hg; rfl
  · exact fun he => ⟨f, he, escaped_of_ne_binding h⟩

/-- A computation returns or fails with a binding error exactly if it lets nothing out. -/
theorem answers_iff :
    ((∃ x, e = .ok x) ∨ ∃ b, e = .error (.binding b)) ↔ ∀ f, ¬ LetsOut e f := by
  constructor
  · rintro (⟨x, rfl⟩ | ⟨b, rfl⟩) f h
    · exact (letsOut_ok_iff x).mp h
    · exact nomatch (letsOut_error_iff _).mp h
  · intro h
    cases e with
    | ok x => exact .inl ⟨x, rfl⟩
    | error g =>
      cases g with
      | binding b => exact .inr ⟨b, rfl⟩
      | _ => exact absurd ((letsOut_error_iff _).mpr rfl) (h _)

/-- Results that reflect each other let out the same. -/
theorem Reflects.letsOut_iff {Q : α → β → Prop} {p : Except Fault β} (h : Reflects Q e p) :
    LetsOut e f ↔ LetsOut p f := by
  cases h with
  | ok _ => rw [letsOut_ok_iff, letsOut_ok_iff]
  | error h => rw [letsOut_error_iff, letsOut_error_iff, h]

end LetsOut

/-! ### The first of a list -/

/-- Some item of a list is bad, and all items before it are good. -/
def FirstIn {α : Type} (good bad : α → Prop) (xs : List α) : Prop :=
  ∃ before x after, xs = before ++ x :: after ∧ (∀ y ∈ before, good y) ∧ bad x

/-- There is no first bad one among none. -/
theorem firstIn_nil_iff {α : Type} {good bad : α → Prop} : FirstIn good bad [] ↔ False :=
  ⟨fun ⟨_, _, _, h, _⟩ => List.append_ne_nil_of_right_ne_nil _ (List.cons_ne_nil _ _) h.symm,
    False.elim⟩

/-- The first bad one is at the head, or the head is good and it is in the tail. -/
theorem firstIn_cons_iff {α : Type} {good bad : α → Prop} (x : α) (xs : List α) :
    FirstIn good bad (x :: xs) ↔ bad x ∨ good x ∧ FirstIn good bad xs := by
  constructor
  · rintro ⟨before, y, after, he, hg, hb⟩
    cases before with
    | nil => cases he; exact .inl hb
    | cons z before =>
      cases he
      obtain ⟨hz, hg⟩ := List.forall_mem_cons.mp hg
      exact .inr ⟨hz, before, y, after, rfl, hg, hb⟩
  · rintro (hb | ⟨hx, before, y, after, rfl, hg, hb⟩)
    · exact ⟨[], x, xs, rfl, fun y hy => absurd hy List.not_mem_nil, hb⟩
    · exact ⟨x :: before, y, after, rfl, List.forall_mem_cons.mpr ⟨hx, hg⟩, hb⟩

/-! ### Loose equality -/

/-- A value is an integer beyond the floating-point numbers. -/
def Value.Overlarge (v : Value) : Prop := ∃ i, v = .int i ∧ Double.ofInt? i = none

private theorem letsOut_orOverflow_iff (found : Option Double) {f : Fault} :
    LetsOut (orOverflow found) f ↔ found = none ∧ f = .overflow .double := by
  cases found with
  | some x => exact ⟨fun h => ((letsOut_ok_iff x).mp h).elim, fun h => nomatch h.1⟩
  | none =>
    refine Iff.trans (letsOut_error_iff _) ?_
    exact ⟨fun h => ⟨rfl, (Option.some.inj h).symm⟩, fun h => by rw [h.2]; rfl⟩

/-- A changed result lets out what the result does. -/
theorem letsOut_map_iff {α β : Type} {e : Except Fault α} (g : α → β) {f : Fault} :
    LetsOut (e.map g) f ↔ LetsOut e f := by
  cases e with
  | ok x => rw [Except.map, letsOut_ok_iff, letsOut_ok_iff]
  | error h => rw [Except.map, letsOut_error_iff, letsOut_error_iff]

/-- An integer is overlarge if no finite floating-point number is nearest to it. -/
theorem overlarge_int_iff (i : Int) : (Value.int i).Overlarge ↔ Double.ofInt? i = none := by
  constructor
  · rintro ⟨j, hj, h⟩
    rw [Value.int.inj hj]
    exact h
  · exact fun h => ⟨i, rfl, h⟩

/-- An integer is compared loosely as the nearest floating-point number, if there is one. -/
theorem looseNumber_int (i : Int) :
    looseNumber (.int i) = (orOverflow (Double.ofInt? i)).map some := rfl

private theorem letsOut_looseNumber_iff (v : Value) {f : Fault} :
    LetsOut (looseNumber v) f ↔ v.Overlarge ∧ f = .overflow .double := by
  cases v with
  | int i => rw [looseNumber_int, letsOut_map_iff, letsOut_orOverflow_iff, overlarge_int_iff]
  | _ => exact ⟨fun ⟨_, h, _⟩ => (nomatch h), fun ⟨⟨_, h, _⟩, _⟩ => nomatch h⟩

private theorem looseNumber_error {v : Value} {g : Fault} (h : looseNumber v = .error g) :
    v.Overlarge := by
  cases v with
  | int i =>
    rw [looseNumber_int] at h
    rw [overlarge_int_iff]
    generalize Double.ofInt? i = found at h
    cases found with
    | some x => cases h
    | none => rfl
  | _ => cases h

/-- Two values that are not equal cannot be compared loosely if one of them is overlarge. -/
theorem letsOut_looseEq_iff (l r : Value) {f : Fault} :
    LetsOut (looseEq l r) f ↔
      l.eq r = false ∧ (l.Overlarge ∨ r.Overlarge) ∧ f = .overflow .double := by
  unfold looseEq
  cases he : l.eq r with
  | true =>
    rw [if_pos rfl, letsOut_ok_iff]
    exact ⟨False.elim, fun h => nomatch h.1⟩
  | false =>
    rw [if_neg Bool.false_ne_true]
    split
    · next s t =>
      rw [letsOut_ok_iff]
      refine ⟨False.elim, ?_⟩
      rintro ⟨-, ⟨_, h, -⟩ | ⟨_, h, -⟩, -⟩ <;> cases h
    · have hk : ∀ a b, ¬ LetsOut (.ok (sameLoose a b)) f := fun a b h => (letsOut_ok_iff _).mp h
      simp only [letsOut_bind_iff, letsOut_looseNumber_iff, true_and]
      constructor
      · rintro (⟨hl, rfl⟩ | ⟨a, -, ⟨hr, rfl⟩ | ⟨b, -, h⟩⟩)
        · exact ⟨.inl hl, rfl⟩
        · exact ⟨.inr hr, rfl⟩
        · exact (hk a b h).elim
      · rintro ⟨hl | hr, rfl⟩
        · exact .inl ⟨hl, rfl⟩
        · cases ha : looseNumber l with
          | error g => exact .inl ⟨looseNumber_error ha, rfl⟩
          | ok a => exact .inr ⟨a, rfl, .inl ⟨hr, rfl⟩⟩

/-! ### Unions -/

/-- What the union of a field lets out about a value. -/
inductive Members.Escapes (m : Members) (v : Value) : Fault → Prop
  | overlarge {before after : List Value} {x : Value} (hs : m.values = before ++ x :: after)
    (hb : ∀ y ∈ before, looseEq y v = .ok false) (he : x.eq v = false)
    (ho : x.Overlarge ∨ v.Overlarge) : Escapes m v (.overflow .double)
  | unprintable (hn : ∀ x ∈ m.values, looseEq x v = .ok false)
    (hp : (∃ x ∈ m.values, x.printable = false) ∨ v.printable = false) :
    Escapes m v (.value .digits)

private theorem letsOut_isMember_iff (v : Value) (members : List Value) {f : Fault} :
    LetsOut (isMember v members) f ↔
      FirstIn (fun x => looseEq x v = .ok false) (fun x => LetsOut (looseEq x v) f) members := by
  induction members with
  | nil => rw [isMember, letsOut_ok_iff, firstIn_nil_iff]
  | cons m rest ih =>
    rw [isMember, letsOut_bind_iff, firstIn_cons_iff, ← ih]
    refine or_congr_right ⟨?_, ?_⟩
    · rintro ⟨found, h, hf⟩
      cases found with
      | true => exact ((letsOut_ok_iff _).mp hf).elim
      | false => exact ⟨h, hf⟩
    · rintro ⟨h, hf⟩
      exact ⟨false, h, hf⟩

/-- A value is no member of a union if it equals none, and no comparison fails. -/
theorem isMember_ok_false_iff (v : Value) (members : List Value) :
    isMember v members = .ok false ↔ ∀ x ∈ members, looseEq x v = .ok false := by
  induction members with
  | nil => exact ⟨fun _ x hx => absurd hx List.not_mem_nil, fun _ => rfl⟩
  | cons m rest ih =>
    rw [isMember, bind_ok_iff, List.forall_mem_cons, ← ih]
    constructor
    · rintro ⟨found, h, hf⟩
      cases found with
      | true => cases hf
      | false => exact ⟨h, hf⟩
    · rintro ⟨h, hf⟩
      exact ⟨false, h, hf⟩

private theorem letsOut_checkUnion_iff (typeName field : String) (m : Members) (v : Value)
    {f : Fault} :
    LetsOut (checkUnion typeName field m.values v) f ↔ m.Escapes v f := by
  rw [checkUnion, letsOut_bind_iff, letsOut_isMember_iff]
  constructor
  · rintro (⟨before, x, after, hs, hb, hx⟩ | ⟨found, hm, hf⟩)
    · obtain ⟨he, ho, rfl⟩ := (letsOut_looseEq_iff x v).mp hx
      exact .overlarge hs hb he ho
    · cases found with
      | true => exact ((letsOut_ok_iff _).mp hf).elim
      | false =>
        obtain ⟨hp, rfl⟩ := (letsOut_ofBinding_iff _).mp hf
        refine .unprintable ((isMember_ok_false_iff v _).mp hm) ?_
        simpa [BindingCause.printable, or_iff_not_imp_left] using hp
  · intro h
    cases h with
    | overlarge hs hb he ho =>
      exact .inl ⟨_, _, _, hs, hb, (letsOut_looseEq_iff _ v).mpr ⟨he, ho, rfl⟩⟩
    | unprintable hn hp =>
      refine .inr ⟨false, (isMember_ok_false_iff v _).mpr hn, ?_⟩
      refine (letsOut_ofBinding_iff _).mpr ⟨?_, rfl⟩
      simpa [BindingCause.printable, or_iff_not_imp_left] using hp

/-! ### Comparisons -/

/-- What a comparison lets out about a value. -/
inductive Comparison.Escapes (c : Comparison) (v : Value) : Fault → Prop
  | overlarge (hr : c.relation = .equal ∨ c.relation = .notEqual) (he : v.eq c.bound = false)
    (ho : v.Overlarge ∨ c.bound.Overlarge) : Escapes c v (.overflow .double)
  | unprintable (hn : c.relation.isNumeric = true → v.isNumber = true)
    (hf : c.holds v = .ok false) (hp : c.bound.printable = false ∨ v.printable = false) :
    Escapes c v (.value .digits)

private theorem letsOut_requireNumber_iff (typeName field check : String) (v : Value) {f : Fault} :
    LetsOut (requireNumber typeName field check v) f ↔ False := by
  unfold requireNumber
  split
  · exact letsOut_ok_iff ()
  · rw [letsOut_ofBinding_iff]
    exact ⟨fun h => (nomatch h.1), False.elim⟩

private theorem letsOut_holds_iff (c : Comparison) (v : Value) {f : Fault} :
    LetsOut (c.holds v) f ↔ (c.relation = .equal ∨ c.relation = .notEqual) ∧
      v.eq c.bound = false ∧ (v.Overlarge ∨ c.bound.Overlarge) ∧ f = .overflow .double := by
  unfold Comparison.holds
  split
  · next hr => rw [letsOut_looseEq_iff, hr]; simp
  · next hr => rw [letsOut_map_iff, letsOut_looseEq_iff, hr]; simp
  · next he hn =>
    rw [letsOut_ok_iff]
    exact ⟨False.elim, fun ⟨h, _⟩ => h.elim he hn⟩

private theorem letsOut_check_iff (c : Comparison) (typeName field : String) (v : Value)
    {f : Fault} :
    LetsOut (c.check typeName field v) f ↔ c.Escapes v f := by
  have hh : LetsOut (c.holds v >>= fun b => if b then pure ()
        else throw (.ofBinding ⟨typeName, field, .comparison c.relation c.bound v⟩)) f ↔
      LetsOut (c.holds v) f ∨ c.holds v = .ok false ∧
        (c.bound.printable = false ∨ v.printable = false) ∧ f = .value .digits := by
    rw [letsOut_bind_iff]
    refine or_congr_right ⟨?_, fun ⟨h, hp, hf⟩ => ⟨false, h, ?_⟩⟩
    · rintro ⟨b, h, hf⟩
      cases b with
      | true => exact ((letsOut_ok_iff _).mp hf).elim
      | false =>
        obtain ⟨hp, rfl⟩ := (letsOut_ofBinding_iff _).mp hf
        refine ⟨h, ?_, rfl⟩
        simpa [BindingCause.printable, or_iff_not_imp_left] using hp
    · refine (letsOut_ofBinding_iff _).mpr ⟨?_, hf⟩
      simpa [BindingCause.printable, or_iff_not_imp_left] using hp
  have hs : LetsOut (c.check typeName field v) f ↔
      (c.relation.isNumeric = true → v.isNumber = true) ∧
        (LetsOut (c.holds v) f ∨ c.holds v = .ok false ∧
          (c.bound.printable = false ∨ v.printable = false) ∧ f = .value .digits) := by
    rw [← hh]
    unfold Comparison.check
    dsimp only
    split
    · next hr =>
      rw [letsOut_bind_iff, letsOut_requireNumber_iff, false_or]
      constructor
      · rintro ⟨_, hn, h⟩
        exact ⟨fun _ => (requireNumber_ok_iff _ _ _ v).mp hn, h⟩
      · rintro ⟨hn, h⟩
        exact ⟨(), (requireNumber_ok_iff _ _ _ v).mpr (hn hr), h⟩
    · next hr => exact ⟨fun h => ⟨fun hn => absurd hn hr, h⟩, fun h => h.2⟩
  rw [hs, letsOut_holds_iff]
  constructor
  · rintro ⟨hn, ⟨hr, he, ho, rfl⟩ | ⟨hf, hp, rfl⟩⟩
    · exact .overlarge hr he ho
    · exact .unprintable hn hf hp
  · intro h
    cases h with
    | overlarge hr he ho =>
      refine ⟨fun hn => ?_, .inl ⟨hr, he, ho, rfl⟩⟩
      rcases hr with hr | hr <;> rw [hr] at hn <;> cases hn
    | unprintable hn hf hp => exact ⟨hn, .inr ⟨hf, hp, rfl⟩⟩

private theorem letsOut_checkInteger_iff (typeName field : String) (v : Value) {f : Fault} :
    LetsOut (checkInteger typeName field v) f ↔ False := by
  refine letsOut_bind_iff.trans ?_
  rw [letsOut_requireNumber_iff, false_or]
  refine ⟨?_, False.elim⟩
  rintro ⟨_, -, h⟩
  cases v with
  | float x =>
    dsimp only at h
    split at h
    · exact (letsOut_ok_iff _).mp h
    · exact Bool.noConfusion ((letsOut_ofBinding_iff _).mp h).1
  | _ => exact (letsOut_ok_iff _).mp h

/-! ### All rules of a field -/

/-- What the rules of a field let out about a converted value. -/
inductive FieldPlan.RulesEscape (p : FieldPlan) (v : Value) : Fault → Prop
  | union {m : Members} {f : Fault} (hu : p.union = some m) (h : m.Escapes v f) : RulesEscape p v f
  | check {before after : List Check} {c : Comparison} {f : Fault}
    (hm : ∀ m, p.union = some m → isMember v m.values = .ok true)
    (hs : p.checks = before ++ .comparison c :: after)
    (hb : ∀ k, .comparison k ∈ before → k.Passes v) (h : c.Escapes v f) : RulesEscape p v f

namespace Binding

/-- A check is passed, if it is a comparison. -/
def PassesCheck (v : Value) : Check → Prop
  | .comparison c => c.Passes v
  | .custom _ => True

/-- A comparison lets out a fault. -/
def CheckEscapes (v : Value) (f : Fault) : Check → Prop
  | .comparison c => c.Escapes v f
  | .custom _ => False

private theorem letsOut_checkComparisons_iff (typeName field : String) (v : Value) (cs : List Check)
    {f : Fault} :
    LetsOut (checkComparisons typeName field v cs) f ↔
      FirstIn (PassesCheck v) (CheckEscapes v f) cs := by
  induction cs with
  | nil =>
    rw [firstIn_nil_iff]
    exact letsOut_ok_iff ()
  | cons c cs ih =>
    rw [firstIn_cons_iff, ← ih]
    cases c with
    | custom g => simp only [checkComparisons, CheckEscapes, PassesCheck, false_or, true_and]
    | comparison c =>
      rw [checkComparisons, letsOut_bind_iff, letsOut_check_iff]
      refine or_congr_right ⟨?_, fun ⟨h, hf⟩ => ⟨(), (c.check_ok_iff _ _ v).mpr h, hf⟩⟩
      rintro ⟨_, h, hf⟩
      exact ⟨(c.check_ok_iff _ _ v).mp h, hf⟩

private theorem letsOut_checkMembers_iff (typeName field : String) (members : Option Members)
    (v : Value)
    {f : Fault} :
    LetsOut (checkMembers typeName field members v) f ↔
      ∃ m, members = some m ∧ m.Escapes v f := by
  cases members with
  | none =>
    rw [checkMembers, letsOut_ok_iff]
    exact ⟨False.elim, fun ⟨_, h, _⟩ => nomatch h⟩
  | some m =>
    rw [checkMembers, letsOut_checkUnion_iff]
    refine ⟨fun h => ⟨m, rfl, h⟩, ?_⟩
    rintro ⟨_, hm, h⟩
    cases hm
    exact h

private theorem checkMembers_ok_iff (typeName field : String) (members : Option Members)
    (v : Value) :
    checkMembers typeName field members v = .ok () ↔
      ∀ m, members = some m → isMember v m.values = .ok true := by
  cases members with
  | none => exact ⟨fun _ _ h => (nomatch h), fun _ => rfl⟩
  | some m =>
    rw [checkMembers, checkUnion, bind_ok_iff]
    constructor
    · rintro ⟨found, h, hf⟩ n hn
      cases hn
      cases found with
      | true => exact h
      | false => cases hf
    · exact fun h => ⟨true, h m rfl, rfl⟩

private theorem letsOut_checkIntegral_iff (typeName field : String) (integer : Bool) (v : Value)
    {f : Fault} : LetsOut (checkIntegral typeName field integer v) f ↔ False := by
  cases integer with
  | false => exact letsOut_ok_iff ()
  | true => exact letsOut_checkInteger_iff typeName field v

/-- Which faults the rules of a field let out. -/
theorem letsOut_checkRules_iff (typeName : String) (plan : FieldPlan) (v : Value) {f : Fault} :
    LetsOut (checkRules typeName plan v) f ↔ plan.RulesEscape v f := by
  rw [checkRules, letsOut_bind_iff, letsOut_checkMembers_iff]
  constructor
  · rintro (⟨m, hm, h⟩ | ⟨_, hm, h⟩)
    · exact .union hm h
    · rw [letsOut_bind_iff, letsOut_checkComparisons_iff] at h
      rcases h with ⟨before, c, after, hs, hb, hc⟩ | ⟨_, -, h⟩
      · cases c with
        | custom g => exact hc.elim
        | comparison c =>
          exact .check ((checkMembers_ok_iff _ _ _ v).mp hm) hs (fun k hk => hb _ hk) hc
      · exact ((letsOut_checkIntegral_iff _ _ _ v).mp h).elim
  · intro h
    cases h with
    | union hu h => exact .inl ⟨_, hu, h⟩
    | check hm hs hb h =>
      refine .inr ⟨(), (checkMembers_ok_iff _ _ _ v).mpr hm, ?_⟩
      rw [letsOut_bind_iff, letsOut_checkComparisons_iff]
      refine .inl ⟨_, _, _, hs, fun c hc => ?_, h⟩
      cases c with
      | custom g => trivial
      | comparison k => exact hb k hc

end Binding

end SchemaBinding
