import Mathlib.Data.List.Forall2
import SchemaBinding.Proofs.ContentFunctions

/-!
# Two runs side by side

Two actions run side by side from related states: either the first fails with a fault that excuses
it, or both give related values or related faults and leave related states. The rules show this of a
composed action part by part. A likeness of values is a relation under which binding cannot tell
values apart; `Twinned` says what the states of two runs must share for it to carry over to them.
-/

namespace SchemaBinding

variable {σ α β γ δ : Type}

/-- Two results are both values or both faults, and related. -/
inductive Matches (F : Fault → Fault → Prop) (Q : α → β → Prop) :
    Except Fault α → Except Fault β → Prop
  | ok {x : α} {y : β} (h : Q x y) : Matches F Q (.ok x) (.ok y)
  | error {f g : Fault} (h : F f g) : Matches F Q (.error f) (.error g)

/-- Of two results that match, both are values or both are faults. -/
theorem Matches.isOk_eq {F : Fault → Fault → Prop} {Q : α → β → Prop} {a : Except Fault α}
    {b : Except Fault β} (h : Matches F Q a b) : a.isOk = b.isOk := by
  cases h <;> rfl

/-- From a pair of states, the first action fails with a fault that excuses it, or the two actions
give related results and leave related states. -/
def SideBySideAt (S : σ → σ → Prop) (E : Fault → Prop) (F : Fault → Fault → Prop)
    (Q : α → β → Prop) (a : ExceptT Fault (StateM σ) α) (b : ExceptT Fault (StateM σ) β)
    (s t : σ) : Prop :=
  (∃ f, (exec a s).1 = .error f ∧ E f) ∨
    Matches F Q (exec a s).1 (exec b t).1 ∧ S (exec a s).2 (exec b t).2

/-- From all related states, the first action fails with a fault that excuses it, or the two actions
give related results and leave related states. -/
def SideBySide (S : σ → σ → Prop) (E : Fault → Prop) (F : Fault → Fault → Prop)
    (Q : α → β → Prop) (a : ExceptT Fault (StateM σ) α) (b : ExceptT Fault (StateM σ) β) : Prop :=
  ∀ s t, S s t → SideBySideAt S E F Q a b s t

section Results

variable {F : Fault → Fault → Prop} {Q : α → β → Prop} {R : γ → δ → Prop}

/-- Results of sequences match when those of the parts do. -/
theorem Matches.bind {e : Except Fault α} {p : Except Fault β} {f : α → Except Fault γ}
    {g : β → Except Fault δ} (h : Matches F Q e p)
    (hf : ∀ x y, Q x y → Matches F R (f x) (g y)) : Matches F R (e >>= f) (p >>= g) := by
  cases h with
  | ok hq => exact hf _ _ hq
  | error he => exact .error he

/-- A result matches itself. -/
theorem Matches.refl (hF : ∀ f, F f f) (e : Except Fault α) : Matches F Eq e e := by
  cases e with
  | error f => exact .error (hF f)
  | ok x => exact .ok rfl

/-- Weaker relations match the same results. -/
theorem Matches.imp {G : Fault → Fault → Prop} {P : α → β → Prop} {e : Except Fault α}
    {p : Except Fault β} (h : Matches F Q e p) (hF : ∀ f g, F f g → G f g)
    (hQ : ∀ x y, Q x y → P x y) : Matches G P e p := by
  cases h with
  | ok hq => exact .ok (hQ _ _ hq)
  | error he => exact .error (hF _ _ he)

/-- Faults and values that are equal when they are related make results equal. -/
theorem Matches.eq {F : Fault → Fault → Prop} {Q : α → α → Prop} {e p : Except Fault α}
    (h : Matches F Q e p) (hF : ∀ f g, F f g → f = g) (hQ : ∀ x y, Q x y → x = y) : e = p := by
  cases h with
  | ok hq => rw [hQ _ _ hq]
  | error he => rw [hF _ _ he]

end Results

section Rules

variable {S : σ → σ → Prop} {E : Fault → Prop} {F : Fault → Fault → Prop} {Q : α → β → Prop}
  {R : γ → δ → Prop}

/-- Two actions that only return related values run side by side. -/
theorem SideBySide.pure {x : α} {y : β} (h : Q x y) :
    SideBySide S E F Q (pure x) (pure y) := fun _ _ hs => .inr ⟨.ok h, hs⟩

/-- A fault that excuses the first action needs no counterpart. -/
theorem SideBySide.excuse {f : Fault} (h : E f) (b : ExceptT Fault (StateM σ) β) :
    SideBySide S E F Q (throw f : ExceptT Fault (StateM σ) α) b := fun _ _ _ => .inl ⟨f, rfl, h⟩

/-- Two actions that fail at once with related faults run side by side. -/
theorem SideBySide.throw {f g : Fault} (h : F f g) :
    SideBySide S E F Q (throw f : ExceptT Fault (StateM σ) α)
      (throw g : ExceptT Fault (StateM σ) β) := fun _ _ hs => .inr ⟨.error h, hs⟩

/-- Results that match and were settled before run side by side. -/
theorem SideBySide.mk {e : Except Fault α} {p : Except Fault β} (h : Matches F Q e p) :
    SideBySide S E F Q (ExceptT.mk (Pure.pure e) : ExceptT Fault (StateM σ) α)
      (ExceptT.mk (Pure.pure p)) := fun _ _ hs => .inr ⟨h, hs⟩

/-- Two changes of the state run side by side if they keep states related. -/
theorem SideBySide.modify {g h : σ → σ} (hm : ∀ s t, S s t → S (g s) (h t)) :
    SideBySide S E F Eq (modify g : ExceptT Fault (StateM σ) PUnit) (modify h) :=
  fun s t hs => .inr ⟨.ok rfl, hm s t hs⟩

/-- Sequences run side by side when their parts do. -/
theorem SideBySide.bind {a : ExceptT Fault (StateM σ) α} {b : ExceptT Fault (StateM σ) β}
    {f : α → ExceptT Fault (StateM σ) γ} {g : β → ExceptT Fault (StateM σ) δ}
    (ha : SideBySide S E F Q a b) (hf : ∀ x y, Q x y → SideBySide S E F R (f x) (g y)) :
    SideBySide S E F R (a >>= f) (b >>= g) := by
  intro s t hs
  have hab := ha s t hs
  simp only [SideBySideAt, exec_bind]
  simp only [SideBySideAt] at hab
  cases ea : exec a s with
  | mk ra s' =>
    cases eb : exec b t with
    | mk rb t' =>
      rw [ea, eb] at hab
      rcases hab with ⟨e, he, hx⟩ | ⟨hm, ht⟩
      · dsimp only at he
        subst he
        exact .inl ⟨e, rfl, hx⟩
      · cases hm with
        | ok hq => exact hf _ _ hq s' t' ht
        | error he => exact .inr ⟨.error he, ht⟩

/-- What follows a reading of the state need run side by side only from the states that were
read. -/
theorem SideBySide.get {f : σ → ExceptT Fault (StateM σ) α} {g : σ → ExceptT Fault (StateM σ) β}
    (hf : ∀ s t, S s t → SideBySideAt S E F Q (f s) (g t) s t) :
    SideBySide S E F Q (get >>= f) (get >>= g) := by
  intro s t hs
  simp only [SideBySideAt, exec_bind, exec_get]
  exact hf s t hs

/-- Weaker relations of values are kept too. -/
theorem SideBySide.imp {P : α → β → Prop} {a : ExceptT Fault (StateM σ) α}
    {b : ExceptT Fault (StateM σ) β} (h : SideBySide S E F Q a b) (hp : ∀ x y, Q x y → P x y) :
    SideBySide S E F P a b := by
  intro s t hs
  rcases h s t hs with hx | ⟨hm, ht⟩
  · exact .inl hx
  · exact .inr ⟨hm.imp (fun _ _ he => he) hp, ht⟩

end Rules

/-! ### Likeness -/

/-- A relation under which values hold the same and so do their parts. -/
structure Likeness (V : Value → Value → Prop) : Prop where
  refl : ∀ v, V v v
  contents : ∀ {a b}, V a b → a.unlabelled = b.unlabelled
  items : ∀ {a b xs ys}, V a b → Binding.arrayItems? a = some xs →
    Binding.arrayItems? b = some ys → List.Forall₂ V xs ys
  list : ∀ {xs ys}, List.Forall₂ V xs ys → V (.list xs none) (.list ys none)
  tuple : ∀ {xs ys}, List.Forall₂ V xs ys → V (.tuple xs) (.tuple ys)
  record : ∀ {cls as bs}, List.Forall₂ (fun a b => a.1 = b.1 ∧ V a.2 b.2) as bs →
    V (.record cls as) (.record cls bs)

/-- The same attributes in the same order, with values that are alike. -/
def AttrsLike (V : Value → Value → Prop) : List (String × Value) → List (String × Value) → Prop :=
  List.Forall₂ fun a b => a.1 = b.1 ∧ V a.2 b.2

/-- The same cause, with a value that is alike. -/
inductive CauseLike (V : Value → Value → Prop) : BindingCause → BindingCause → Prop
  | refl (c : BindingCause) : CauseLike V c c
  | invalidDate {a b : Value} (h : V a b) : CauseLike V (.invalidDate a) (.invalidDate b)
  | notInteger {a b : Value} (h : V a b) : CauseLike V (.notInteger a) (.notInteger b)
  | notInUnion (allowed : List Value) {a b : Value} (h : V a b) :
    CauseLike V (.notInUnion allowed a) (.notInUnion allowed b)
  | comparison (relation : Relation) (bound : Value) {a b : Value} (h : V a b) :
    CauseLike V (.comparison relation bound a) (.comparison relation bound b)

/-- The same fault; if it is a binding error, one at the same field for a cause that is alike. -/
inductive FaultLike (V : Value → Value → Prop) : Fault → Fault → Prop
  | refl (f : Fault) : FaultLike V f f
  | binding (typeName field : String) {c d : BindingCause} (h : CauseLike V c d) :
    FaultLike V (.binding ⟨typeName, field, c⟩) (.binding ⟨typeName, field, d⟩)

/-- Causes with equal values are equal. -/
theorem CauseLike.eq {c d : BindingCause} (h : CauseLike Eq c d) : c = d := by
  cases h with
  | refl => rfl
  | invalidDate h => rw [h]
  | notInteger h => rw [h]
  | notInUnion allowed h => rw [h]
  | comparison relation bound h => rw [h]

/-- Faults with equal values are equal. -/
theorem FaultLike.eq {f g : Fault} (h : FaultLike Eq f g) : f = g := by
  cases h with
  | refl => rfl
  | binding typeName field h => rw [h.eq]

/-- Attributes with equal values are equal. -/
theorem AttrsLike.eq {as bs : List (String × Value)} (h : AttrsLike Eq as bs) : as = bs := by
  induction h with
  | nil => rfl
  | cons hab _ ih => rw [ih, Prod.ext hab.1 hab.2]

/-- Equality is a likeness of values. -/
theorem likeness_eq : Likeness Eq where
  refl _ := rfl
  contents h := by rw [h]
  items h ha hb := by
    subst h
    rw [ha] at hb
    cases hb
    exact List.forall₂_same.mpr fun _ _ => rfl
  list h := by rw [List.forall₂_eq_eq_eq] at h; rw [h]
  tuple h := by rw [List.forall₂_eq_eq_eq] at h; rw [h]
  record h := by rw [AttrsLike.eq h]

variable {V : Value → Value → Prop}

/-- Attributes stay alike when an attribute is set to alike values. -/
theorem AttrsLike.setAttr {as bs : List (String × Value)} (h : AttrsLike V as bs) (name : String)
    {a b : Value} (hab : V a b) :
    AttrsLike V (Value.setAttr as name a) (Value.setAttr bs name b) := by
  induction h with
  | nil => exact .cons ⟨rfl, hab⟩ .nil
  | @cons x y as bs hxy hs ih =>
    obtain ⟨n, v⟩ := x
    obtain ⟨m, u⟩ := y
    obtain ⟨rfl, hvu⟩ := hxy
    simp only [Value.setAttr]
    split
    · exact .cons ⟨rfl, hab⟩ hs
    · exact .cons ⟨rfl, hvu⟩ ih

namespace Likeness

variable (hV : Likeness V)

include hV

/-- Alike values have one JSON kind. -/
theorem kind {a b : Value} (h : V a b) : a.kind = b.kind := by
  rw [← Value.kind_unlabelled a, hV.contents h, Value.kind_unlabelled]

/-- Alike values are numbers alike. -/
theorem isNumber {a b : Value} (h : V a b) : a.isNumber = b.isNumber := by
  rw [← Value.isNumber_unlabelled a, hV.contents h, Value.isNumber_unlabelled]

/-- Alike values can be shown alike. -/
theorem printable {a b : Value} (h : V a b) : a.printable = b.printable := by
  rw [← Value.printable_unlabelled a, hV.contents h, Value.printable_unlabelled]

/-- Alike values have one text. -/
theorem text {a b : Value} (h : V a b) : a.text = b.text := by
  rw [← Value.text_unlabelled a, hV.contents h, Value.text_unlabelled]

/-- Alike values are converted alike to a primitive kind. -/
theorem convert (p : Primitive) {a b : Value} (h : V a b) : p.convert a = p.convert b := by
  rw [← Primitive.convert_unlabelled p a, hV.contents h, Primitive.convert_unlabelled]

/-- Alike values are read as the same date. -/
theorem parseDate (target : DateTarget) {a b : Value} (h : V a b) :
    parseDate a target = parseDate b target := by
  rw [← parseDate_unlabelled a, hV.contents h, parseDate_unlabelled]

/-- Of two alike values, both are null or none is. -/
theorem null_iff {a b : Value} (h : V a b) : a = .null ↔ b = .null := by
  rw [← Value.unlabelled_eq_null_iff a, hV.contents h, Value.unlabelled_eq_null_iff]

/-- Values that are alike are both mappings or neither is. -/
theorem dict_cases {a b : Value} (h : V a b) :
    (∃ es fs, a = .dict es ∧ b = .dict fs) ∨ (∀ es, a ≠ .dict es) ∧ ∀ fs, b ≠ .dict fs := by
  have hc := hV.contents h
  cases a with
  | dict es =>
    cases b with
    | dict fs => exact .inl ⟨es, fs, rfl, rfl⟩
    | _ => simp at hc
  | _ =>
    cases b with
    | dict fs => simp at hc
    | _ => exact .inr ⟨nofun, nofun⟩

/-- Attributes that are alike hold the same. -/
theorem attrs_contents {as bs : List (String × Value)} (h : AttrsLike V as bs) :
    (as.map fun a => (a.1, a.2.unlabelled)) = bs.map fun a => (a.1, a.2.unlabelled) := by
  induction h with
  | nil => rfl
  | cons hab _ ih => rw [List.map_cons, List.map_cons, ih, hab.1, hV.contents hab.2]

/-- Alike attributes read alike. -/
theorem attr?_getD {as bs : List (String × Value)} (h : AttrsLike V as bs) (name : String) :
    V ((Value.attr? name as).getD .null) ((Value.attr? name bs).getD .null) := by
  induction h with
  | nil => exact hV.refl _
  | @cons x y as bs hxy hs ih =>
    unfold Value.attr? at *
    rw [List.find?_cons, List.find?_cons, ← hxy.1]
    cases x.1 == name with
    | true => exact hxy.2
    | false => exact ih

/-- Instances with alike attributes are alike. -/
theorem instanceOf (cls : ClassRef) {as bs : List (String × Value)} (h : AttrsLike V as bs) :
    V (Binding.instanceOf cls as) (Binding.instanceOf cls bs) := by
  unfold Binding.instanceOf
  split
  · exact hV.refl _
  · exact hV.record h

/-- Lists whose items are repeated stay alike. -/
theorem repeatItems (times : Nat) {a b : Value} (h : V a b) :
    V (Binding.repeatItems times a) (Binding.repeatItems times b) := by
  have hflat : ∀ {xs ys}, List.Forall₂ V xs ys →
      List.Forall₂ V (List.replicate times xs).flatten (List.replicate times ys).flatten := by
    intro xs ys hxy
    induction times with
    | zero => exact .nil
    | succ n ih =>
      rw [List.replicate_succ, List.replicate_succ, List.flatten_cons, List.flatten_cons]
      exact List.rel_append hxy ih
  have hc := hV.contents h
  cases a with
  | list xs l =>
    cases b with
    | list ys m => exact hV.list (hflat (hV.items h rfl rfl))
    | _ => simp at hc
  | tuple xs =>
    cases b with
    | tuple ys => exact hV.tuple (hflat (hV.items h rfl rfl))
    | _ => simp at hc
  | _ =>
    cases b with
    | list ys m => simp at hc
    | tuple ys => simp at hc
    | _ => exact h

/-- Words show causes that are alike both or neither. -/
theorem cause_printable {c d : BindingCause} (h : CauseLike V c d) :
    c.printable = d.printable := by
  cases h with
  | refl => rfl
  | invalidDate h => exact hV.printable h
  | notInteger h => exact hV.printable h
  | notInUnion allowed h => simp only [BindingCause.printable, hV.printable h]
  | comparison relation bound h => simp only [BindingCause.printable, hV.printable h]

/-- The words for causes that are alike are the same. -/
theorem cause_reason {c d : BindingCause} (h : CauseLike V c d) : c.reason = d.reason := by
  unfold BindingCause.reason
  cases h with
  | refl => rfl
  | invalidDate h => dsimp only; rw [hV.text h]
  | notInteger h => dsimp only; rw [hV.text h]
  | notInUnion allowed h => dsimp only; rw [hV.text h]
  | comparison relation bound h => dsimp only; rw [hV.text h]

/-- Binding errors at one field with alike causes are alike. -/
theorem ofBinding (typeName field : String) {c d : BindingCause} (h : CauseLike V c d) :
    FaultLike V (.ofBinding ⟨typeName, field, c⟩) (.ofBinding ⟨typeName, field, d⟩) := by
  unfold Fault.ofBinding
  rw [hV.cause_printable h]
  split
  · exact .binding typeName field h
  · exact .refl _

/-- The words of faults that are alike are the same. -/
theorem fault_message {f g : Fault} (h : FaultLike V f g) : f.message = g.message := by
  cases h with
  | refl => rfl
  | binding typeName field h =>
    exact congrArg (fun reason => typeName ++ "." ++ field ++ ": " ++ reason) (hV.cause_reason h)

/-! ### Rules on values that are alike -/

/-- A number is required of alike values alike. -/
theorem requireNumber (typeName field check : String) {a b : Value} (h : V a b) :
    Matches (FaultLike V) Eq (requireNumber typeName field check a)
      (requireNumber typeName field check b) := by
  unfold SchemaBinding.requireNumber
  rw [hV.isNumber h, hV.kind h]
  exact .refl .refl _

/-- A union has alike values alike. -/
theorem checkUnion (typeName field : String) (allowed : List Value) {a b : Value} (h : V a b) :
    Matches (FaultLike V) Eq (checkUnion typeName field allowed a)
      (checkUnion typeName field allowed b) := by
  have hm : isMember a allowed = isMember b allowed := by
    rw [← isMember_unlabelled a, hV.contents h, isMember_unlabelled]
  unfold SchemaBinding.checkUnion
  rw [hm]
  refine (Matches.refl .refl _).bind fun found _ hf => ?_
  subst hf
  cases found with
  | true => exact .ok rfl
  | false => exact .error (hV.ofBinding typeName field (.notInUnion allowed h))

/-- A comparison checks alike values alike. -/
theorem comparison (c : Comparison) (typeName field : String) {a b : Value} (h : V a b) :
    Matches (FaultLike V) Eq (c.check typeName field a) (c.check typeName field b) := by
  have hh : Matches (FaultLike V) Eq
      (c.holds a >>= fun found => if found then pure ()
        else throw (.ofBinding ⟨typeName, field, .comparison c.relation c.bound a⟩))
      (c.holds b >>= fun found => if found then pure ()
        else throw (.ofBinding ⟨typeName, field, .comparison c.relation c.bound b⟩)) := by
    rw [← Comparison.holds_unlabelled c a, hV.contents h, Comparison.holds_unlabelled]
    refine (Matches.refl .refl _).bind fun found _ hf => ?_
    subst hf
    cases found with
    | true => exact .ok rfl
    | false =>
      exact .error (hV.ofBinding typeName field (.comparison c.relation c.bound h))
  unfold Comparison.check
  dsimp only
  split
  · exact (hV.requireNumber typeName field _ h).bind fun _ _ _ => hh
  · exact hh

/-- Alike values are asked alike to be integers. -/
theorem checkInteger (typeName field : String) {a b : Value} (h : V a b) :
    Matches (FaultLike V) Eq (checkInteger typeName field a) (checkInteger typeName field b) := by
  refine (hV.requireNumber typeName field _ h).bind fun _ _ _ => ?_
  have hc := hV.contents h
  cases a with
  | float x =>
    cases b with
    | float y =>
      simp only [Value.unlabelled_float, Value.float.injEq] at hc
      subst hc
      exact .refl .refl _
    | _ => simp at hc
  | _ =>
    cases b with
    | float y => simp at hc
    | _ => exact .ok rfl

/-- Alike values are tried alike against the members of a union, if there is one. -/
theorem checkMembers (typeName field : String) (members : Option Members) {a b : Value}
    (h : V a b) :
    Matches (FaultLike V) Eq (Binding.checkMembers typeName field members a)
      (Binding.checkMembers typeName field members b) := by
  cases members with
  | none => exact .ok rfl
  | some m => exact hV.checkUnion typeName field m.values h

/-- Alike values are asked alike to be integral, if the field asks for that. -/
theorem checkIntegral (typeName field : String) (integer : Bool) {a b : Value} (h : V a b) :
    Matches (FaultLike V) Eq (Binding.checkIntegral typeName field integer a)
      (Binding.checkIntegral typeName field integer b) := by
  cases integer with
  | false => exact .ok rfl
  | true => exact hV.checkInteger typeName field h

end Likeness

/-! ### Worlds of two runs -/

/-- The worlds of two runs stay related as values are told apart, functions of the caller are
called and failed binds are logged, and they share what binding reads of them. -/
structure Twinned (V : Value → Value → Prop) (S : World → World → Prop) : Prop where
  classes : ∀ {w u}, S w u → w.classes = u.classes
  growth : ∀ {w u}, S w u → w.growth = u.growth
  adopted : ∀ {w u a b}, S w u → V a b → V (w.adopted a) (u.adopted b)
  adopting : ∀ {w u a b}, S w u → V a b → S (w.adopting a) (u.adopting b)
  called : ∀ {w u a b} (label : String) (subject : Subject) (field : String), S w u → V a b →
    S { w with calls := w.calls ++ [⟨label, subject, field, a⟩] }
      { u with calls := u.calls ++ [⟨label, subject, field, b⟩] }
  logged : ∀ {w u c d} (schema typeName field : String), S w u → CauseLike V c d →
    S (w.log (.bindFailed schema ⟨typeName, field, c⟩))
      (u.log (.bindFailed schema ⟨typeName, field, d⟩))

end SchemaBinding
