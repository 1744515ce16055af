import SchemaBinding.Proofs.Contents

/-!
# What the functions of a field are called with

The functions of a field are called once its value has been converted: the transforms in order, each
with what the one before it has made of the value, and then the checks in order, all with what the
transforms have made of it. A function that only reads the record leaves it as it is, so that all
functions of a field are called with the same record.
-/

namespace SchemaBinding

/-- A function sets no attributes of the record that it is called with. -/
def UserFunction.ReadOnly (f : UserFunction) : Prop :=
  ∀ subject field value sets given,
    f.reply subject field value = .returned sets given → sets = []

/-- The function that a check calls. -/
def Check.function? : Check → Option UserFunction
  | .comparison _ => none
  | .custom f => some f

namespace FieldPlan

/-- The functions that check the value of a field. The value of a field without a kind is not
checked. -/
def predicates (p : FieldPlan) : List UserFunction :=
  match p.kind with
  | none => []
  | some _ => p.checks.filterMap Check.function?

/-- The functions of a field only read the record. -/
structure ReadOnly (p : FieldPlan) : Prop where
  transforms : ∀ f ∈ p.transforms, f.ReadOnly
  predicates : ∀ f ∈ p.predicates, f.ReadOnly

end FieldPlan

/-- A value, or another one in place of a null. -/
def Value.orElse : Value → Value → Value
  | .null, v => v
  | u, _ => u

namespace World

/-- From one world to another, calls have been made, and the classes are the same. -/
structure Makes (w : World) (ks : List Call) (x : World) : Prop where
  calls : x.calls = w.calls ++ ks
  classes : x.classes = w.classes

variable {w x y : World} {ks ls : List Call}

/-- No calls have been made in a world since itself. -/
theorem Makes.refl (w : World) : w.Makes [] w := ⟨(List.append_nil _).symm, rfl⟩

/-- Calls that are made one after the other are made together. -/
theorem Makes.trans (h : w.Makes ks x) (g : x.Makes ls y) : w.Makes (ks ++ ls) y :=
  ⟨by rw [g.calls, h.calls, List.append_assoc], g.classes.trans h.classes⟩

/-- The calls that an action makes. -/
def callsIn {α : Type} (a : Action α) (w : World) : List Call :=
  (exec a w).2.calls.drop w.calls.length

/-- The calls of an action are those that it adds to the journal. -/
theorem callsIn_eq {α : Type} {a : Action α} (h : (exec a w).2.calls = w.calls ++ ks) :
    callsIn a w = ks := by
  rw [callsIn, h, List.drop_left]

end World

namespace Binding

open World

/-- The record under construction, as a function of a field is called with it. -/
def subjectIn (w : World) (cls : ClassRef) (attrs : List (String × Value)) : Subject :=
  ⟨cls, attrs.map fun a => (a.1, a.2.unlabelled), w.classes.hasAttributes cls⟩

/-- The call of a function. -/
def callOf (subject : Subject) (field : String) (value : Value) (f : UserFunction) : Call :=
  ⟨f.label, subject, field, value⟩

private theorem subjectIn_congr {w x : World} {ks : List Call} (h : w.Makes ks x) (cls : ClassRef)
    (attrs : List (String × Value)) : subjectIn x cls attrs = subjectIn w cls attrs := by
  rw [subjectIn, subjectIn, h.classes]

variable {cls : ClassRef} {field : String} {attrs : List (String × Value)}

/-! ### One call -/

/-- A function always gives its value, and no more happens than that values are told apart. -/
theorem exec_obtain (kept argument : Value) (attrs : List (String × Value)) (given : Given)
    (w : World) :
    ∃ v supply, exec (obtain kept argument attrs given) w =
      (.ok v, { w with supply := supply }) := by
  induction given with
  | made v => exact ⟨_, _, exec_adopt v w⟩
  | single item ih =>
    obtain ⟨v, supply, h⟩ := ih
    exact ⟨_, _, (exec_bind_of_ok h _).trans (exec_adopt _ _)⟩
  | repeated times items ih =>
    obtain ⟨v, supply, h⟩ := ih
    exact ⟨_, _, (exec_bind_of_ok h _).trans (exec_adopt _ _)⟩
  | _ => exact ⟨_, w.supply, rfl⟩

/-- A function that only reads the record fails, or gives a value and leaves the record. Calling it
is one more call. -/
theorem exec_call_cases (cls : ClassRef) (field : String) (attrs : List (String × Value))
    {f : UserFunction} (hf : f.ReadOnly) (value : Value) (w : World) :
    ∃ x, w.Makes [callOf (subjectIn w cls attrs) field value f] x ∧
      ((∃ g, exec (call cls field attrs f value) w = (.error g, x)) ∨
        ∃ r, exec (call cls field attrs f value) w = (.ok (attrs, r), x)) := by
  let x := { w with calls := w.calls ++ [callOf (subjectIn w cls attrs) field value f] }
  have hx : w.Makes [callOf (subjectIn w cls attrs) field value f] x := ⟨rfl, rfl⟩
  rw [call, exec_bind_of_ok (exec_get w)]
  dsimp only
  rw [exec_bind_of_ok (exec_modify _ w)]
  split
  · exact ⟨x, hx, .inl ⟨_, rfl⟩⟩
  · exact ⟨x, hx, .inl ⟨_, rfl⟩⟩
  · next sets given hr =>
    obtain rfl := hf _ _ _ _ _ hr
    obtain ⟨r, supply, ho⟩ := exec_obtain (w.growth.current f.kept) value attrs given x
    refine ⟨{ x with supply := supply }, ⟨rfl, rfl⟩, .inr ⟨r, ?_⟩⟩
    split
    · next h => cases h
    · exact exec_bind_of_ok ho _

/-! ### Transforms -/

variable (cls field attrs) in
/-- Transforms are called one after another with the same record, each with what the one before it
has made of the value: the value that it gave, unless that is null. -/
inductive Transforms : List UserFunction → World → Value → List Call → World → Value → Prop
  | nil (w : World) (v : Value) : Transforms [] w v [] w v
  | cons {f : UserFunction} {fs : List UserFunction} {w x y : World} {v r u : Value}
    {ks : List Call} (hf : exec (call cls field attrs f v) w = (.ok (attrs, r), x))
    (hfs : Transforms fs x (r.orElse v) ks y u) :
    Transforms (f :: fs) w v (callOf (subjectIn w cls attrs) field v f :: ks) y u

private theorem transform_cons (f : UserFunction) (fs : List UserFunction) (v : Value) :
    transform cls field (f :: fs) attrs v = (do
      let (attrs, r) ← call cls field attrs f v
      transform cls field fs attrs (r.orElse v)) := by
  rw [transform]
  congr 1
  funext ⟨attrs, r⟩
  cases r <;> rfl

/-- Transforms that only read the record are called up to one that fails, or all of them are. -/
theorem exec_transform_cases (cls : ClassRef) (field : String) (attrs : List (String × Value))
    {fs : List UserFunction} (hfs : ∀ f ∈ fs, f.ReadOnly) (v : Value) (w : World) :
    (∃ front f back ks x u g y, fs = front ++ f :: back ∧
        Transforms cls field attrs front w v ks x u ∧
        exec (call cls field attrs f u) x = (.error g, y) ∧
        exec (transform cls field fs attrs v) w = (.error g, y) ∧
        w.Makes (ks ++ [callOf (subjectIn w cls attrs) field u f]) y) ∨
      ∃ ks x u, Transforms cls field attrs fs w v ks x u ∧
        exec (transform cls field fs attrs v) w = (.ok (attrs, u), x) ∧ w.Makes ks x := by
  induction fs generalizing v w with
  | nil => exact .inr ⟨[], w, v, .nil w v, rfl, .refl w⟩
  | cons f fs ih =>
    obtain ⟨hf, hrest⟩ := List.forall_mem_cons.mp hfs
    rw [transform_cons]
    obtain ⟨x, hx, ⟨g, hg⟩ | ⟨r, hr⟩⟩ := exec_call_cases cls field attrs hf v w
    · exact .inl ⟨[], f, fs, [], w, v, g, x, rfl, .nil w v, hg, exec_bind_of_error hg _, hx⟩
    · rw [exec_bind_of_ok hr]
      rcases ih hrest (r.orElse v) x with
        ⟨front, q, back, ks, y, u, g, z, rfl, ht, hq, he, hm⟩ | ⟨ks, y, u, ht, he, hm⟩
      · rw [subjectIn_congr hx] at hm
        exact .inl ⟨f :: front, q, back, _, y, u, g, z, rfl, .cons hr ht, hq, he, hx.trans hm⟩
      · exact .inr ⟨_, y, u, .cons hr ht, he, hx.trans hm⟩

/-- All transforms are called with the record that the first one is called with. -/
theorem Transforms.subject {fs : List UserFunction} (hfs : ∀ f ∈ fs, f.ReadOnly) {w x : World}
    {v u : Value} {ks : List Call} (h : Transforms cls field attrs fs w v ks x u) :
    ∀ k ∈ ks, k.subject = subjectIn w cls attrs ∧ k.field = field := by
  induction h with
  | nil => exact fun k hk => absurd hk List.not_mem_nil
  | @cons f fs w x y v r u ks hf _ ih =>
    obtain ⟨hfirst, hrest⟩ := List.forall_mem_cons.mp hfs
    obtain ⟨z, hz, ⟨g, hg⟩ | ⟨q, hq⟩⟩ := exec_call_cases cls field attrs hfirst v w
    · rw [hf] at hg
      cases hg
    · rw [hf] at hq
      cases hq
      rw [List.forall_mem_cons]
      rw [subjectIn_congr hz] at ih
      exact ⟨⟨rfl, rfl⟩, ih hrest⟩

/-! ### Checks -/

/-- A check calls its function, if it has one, and leaves the record. -/
theorem exec_check_cases (cls : ClassRef) (field : String) (attrs : List (String × Value))
    {c : Check} (hc : ∀ f ∈ c.function?, f.ReadOnly) (v : Value) (w : World) :
    ∃ x, w.Makes (c.function?.toList.map (callOf (subjectIn w cls attrs) field v)) x ∧
      ((∃ g, exec (check cls field attrs v c) w = (.error g, x)) ∨
        exec (check cls field attrs v c) w = (.ok attrs, x)) := by
  cases c with
  | comparison c =>
    refine ⟨w, .refl w, ?_⟩
    rw [check]
    cases c.check cls.name field v with
    | error g => exact .inl ⟨g, rfl⟩
    | ok _ => exact .inr rfl
  | custom f =>
    obtain ⟨x, hx, ⟨g, hg⟩ | ⟨r, hr⟩⟩ := exec_call_cases cls field attrs (hc f rfl) v w
    · exact ⟨x, hx, .inl ⟨g, exec_bind_of_error hg _⟩⟩
    · refine ⟨x, hx, ?_⟩
      rw [check, exec_bind_of_ok hr]
      dsimp only
      split
      · split
        · exact .inl ⟨_, rfl⟩
        · exact .inl ⟨_, rfl⟩
      · exact .inr rfl

/-- Checks are made up to one that fails, or all of them are, each with the same value. -/
theorem exec_checkAll_cases (cls : ClassRef) (field : String) (attrs : List (String × Value))
    {cs : List Check} (hcs : ∀ f ∈ cs.filterMap Check.function?, f.ReadOnly) (v : Value)
    (w : World) :
    let all := (cs.filterMap Check.function?).map (callOf (subjectIn w cls attrs) field v)
    (∃ ks g x, ks <+: all ∧ exec (checkAll cls field v cs attrs) w = (.error g, x) ∧
        w.Makes ks x) ∨
      ∃ x, exec (checkAll cls field v cs attrs) w = (.ok attrs, x) ∧ w.Makes all x := by
  induction cs generalizing w with
  | nil => exact .inr ⟨w, rfl, .refl w⟩
  | cons c cs ih =>
    have hall : (c :: cs).filterMap Check.function? =
        c.function?.toList ++ cs.filterMap Check.function? := by
      cases hc : c.function? <;> simp [hc]
    rw [hall] at hcs ⊢
    obtain ⟨hc, hrest⟩ := List.forall_mem_append.mp hcs
    obtain ⟨x, hx, ⟨g, hg⟩ | hok⟩ := exec_check_cases cls field attrs
      (fun f hf => hc f (Option.mem_toList.mpr hf)) v w
    · refine .inl ⟨_, g, x, ?_, exec_bind_of_error hg _, hx⟩
      rw [List.map_append]
      exact List.prefix_append ..
    · rw [checkAll, exec_bind_of_ok hok, List.map_append]
      rcases ih hrest x with ⟨ks, g, y, hp, he, hm⟩ | ⟨y, he, hm⟩
      · rw [subjectIn_congr hx] at hp
        exact .inl ⟨_, g, y, (List.prefix_append_right_inj _).mpr hp, he, hx.trans hm⟩
      · rw [subjectIn_congr hx] at hm
        exact .inr ⟨y, he, hx.trans hm⟩

/-! ### All functions of a field -/

/-- What the functions of a field make of its converted value. -/
def applyFunctions (cls : ClassRef) (plan : FieldPlan) (attrs : List (String × Value))
    (value : Value) : Action (List (String × Value) × Value) := do
  let (attrs, value) ← transform cls plan.name plan.transforms attrs value
  match plan.kind with
  | none => return (attrs, value)
  | some _ => return (← checkAll cls plan.name value plan.checks attrs, value)

/-- The value of a field before its functions are called: it has been converted and is allowed. A
field without a kind keeps its raw value. -/
def prepare (enter : Enter) (cls : ClassRef) (plan : FieldPlan) (raw : Value) : Action Value :=
  match plan.kind with
  | none => return raw
  | some kind => do
    let value ← World.adopt (← convertField enter cls.name plan kind raw)
    World.lift (checkMembers cls.name plan.name plan.union value)
    return value

/-- The value of a field is prepared, then its functions are applied, and at last it may be asked to
be integral. -/
theorem resolve_eq (enter : Enter) (cls : ClassRef) (plan : FieldPlan)
    (attrs : List (String × Value)) (raw : Value) :
    resolve enter cls plan attrs raw = (do
      let value ← prepare enter cls plan raw
      let (attrs, value) ← applyFunctions cls plan attrs value
      World.lift (checkIntegral cls.name plan.name (plan.kind.isSome && plan.integer) value)
      return (attrs, value)) := by
  cases hk : plan.kind with
  | none =>
    have hn : ∀ v, World.lift (checkIntegral cls.name plan.name false v) = pure () := fun _ => rfl
    simp [resolve, prepare, applyFunctions, hk, hn]
  | some kind => simp [resolve, prepare, applyFunctions, hk]

variable {plan : FieldPlan}

variable (cls plan attrs) in
/-- The calls of the functions of a field in the given world, with a value: the transforms are
called up to one that fails, or all transforms and then checks. -/
inductive InTurn (w : World) (v : Value) : List Call → Prop
  | transforms {front back : List UserFunction} {f : UserFunction} {ks : List Call} {x : World}
    {u : Value} (hs : plan.transforms = front ++ f :: back)
    (ht : Transforms cls plan.name attrs front w v ks x u)
    (hf : ∃ g, (exec (call cls plan.name attrs f u) x).1 = .error g) :
    InTurn w v (ks ++ [callOf (subjectIn w cls attrs) plan.name u f])
  | checks {ks checks : List Call} {x : World} {u : Value}
    (ht : Transforms cls plan.name attrs plan.transforms w v ks x u)
    (hc : checks <+: plan.predicates.map (callOf (subjectIn w cls attrs) plan.name u)) :
    InTurn w v (ks ++ checks)

variable (cls plan attrs) in
/-- The calls of all functions of a field, which make a value of another. -/
inductive WholeTurn (w : World) (v : Value) : List Call → Value → Prop
  | mk {ks : List Call} {x : World} {u : Value}
    (ht : Transforms cls plan.name attrs plan.transforms w v ks x u) :
    WholeTurn w v (ks ++ plan.predicates.map (callOf (subjectIn w cls attrs) plan.name u)) u

/-- All functions of a field are called with the same record. -/
theorem InTurn.subject (hp : plan.ReadOnly) {w : World} {v : Value} {ks : List Call}
    (h : InTurn cls attrs plan w v ks) :
    ∀ k ∈ ks, k.subject = subjectIn w cls attrs ∧ k.field = plan.name := by
  intro k hk
  cases h with
  | @transforms front back f ks x u hs ht =>
    rcases List.mem_append.mp hk with hk | hk
    · have hfront : ∀ f ∈ front, f.ReadOnly := fun f hf =>
        hp.transforms f (hs ▸ List.mem_append_left _ hf)
      exact ht.subject hfront k hk
    · rw [List.mem_singleton.mp hk]
      exact ⟨rfl, rfl⟩
  | checks ht hc =>
    rcases List.mem_append.mp hk with hk | hk
    · exact ht.subject hp.transforms k hk
    · obtain ⟨f, -, rfl⟩ := List.mem_map.mp (hc.subset hk)
      exact ⟨rfl, rfl⟩

/-- The functions of a field are called in turn, and all of them if none fails. The record stays as
it is. -/
theorem exec_applyFunctions (cls : ClassRef) (attrs : List (String × Value)) (hp : plan.ReadOnly)
    (v : Value) (w : World) :
    ∃ ks, w.Makes ks (exec (applyFunctions cls plan attrs v) w).2 ∧
      InTurn cls attrs plan w v ks ∧
      ∀ r, (exec (applyFunctions cls plan attrs v) w).1 = .ok r →
        r.1 = attrs ∧ WholeTurn cls attrs plan w v ks r.2 := by
  rw [applyFunctions]
  rcases exec_transform_cases cls plan.name attrs hp.transforms v w with
    ⟨front, f, back, ks, x, u, g, y, hs, ht, hf, he, hm⟩ | ⟨ks, x, u, ht, he, hm⟩
  · rw [exec_bind_of_error he]
    exact ⟨_, hm, .transforms hs ht ⟨g, congrArg Prod.fst hf⟩, fun r hr => by cases hr⟩
  · rw [exec_bind_of_ok he]
    have hwhole := WholeTurn.mk ht
    cases hk : plan.kind with
    | none =>
      have hp : plan.predicates = [] := by rw [FieldPlan.predicates, hk]
      rw [hp, List.map_nil, List.append_nil] at hwhole
      have hin := InTurn.checks ht (List.nil_prefix)
      rw [List.append_nil] at hin
      refine ⟨ks, hm, hin, fun r hr => ?_⟩
      cases hr
      exact ⟨rfl, hwhole⟩
    | some kind =>
      have hc : plan.predicates = plan.checks.filterMap Check.function? := by
        rw [FieldPlan.predicates, hk]
      have hcalls := exec_checkAll_cases cls plan.name attrs (hc ▸ hp.predicates) u x
      rw [← hc, subjectIn_congr hm] at hcalls
      dsimp only
      rcases hcalls with ⟨ls, g, y, hls, hl, hy⟩ | ⟨y, hl, hy⟩
      · rw [exec_bind_of_error hl]
        exact ⟨_, hm.trans hy, .checks ht hls, fun r hr => by cases hr⟩
      · rw [exec_bind_of_ok hl]
        refine ⟨_, hm.trans hy, .checks ht (List.prefix_refl _), fun r hr => ?_⟩
        cases hr
        exact ⟨rfl, hwhole⟩

end Binding

end SchemaBinding
