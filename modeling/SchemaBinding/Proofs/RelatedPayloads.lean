import SchemaBinding.Proofs.BindingSideBySide
import SchemaBinding.Proofs.BindSoundness

/-!
# Binding related payloads

Binding reads of a payload what stands under the keys of the fields of its schema, and nothing else.
So two payloads are bound alike if they are related so that each field has related raw values in
them, those of a nested schema being related again. Whatever relation does this will do.
-/

namespace SchemaBinding

namespace Value

/-- What a dictionary has under a text, null if it has nothing. -/
def given (key : String) (entries : List (Value × Value)) : Value :=
  (lookup? key entries).getD .null

/-- Under another key than the first an entry is looked up in the rest. -/
theorem lookup?_cons_of_ne {key : String} {k : Value} (h : k ≠ .str key) (v : Value)
    (entries : List (Value × Value)) : lookup? key ((k, v) :: entries) = lookup? key entries := by
  cases k with
  | str s =>
    have hs : ¬ (s == key) = true := fun hs => h (congrArg Value.str (eq_of_beq hs))
    simp only [lookup?, if_neg hs]
  | _ => rfl

/-- Under the key of the first entry stands the first. -/
theorem lookup?_cons_self (key : String) (v : Value) (entries : List (Value × Value)) :
    lookup? key ((.str key, v) :: entries) = some v := by
  simp [lookup?]

/-- What the first of two dictionaries lacks under a key is looked up in the second. -/
theorem lookup?_append (key : String) (before after : List (Value × Value)) :
    lookup? key (before ++ after) = (lookup? key before).or (lookup? key after) := by
  induction before with
  | nil => rfl
  | cons e rest ih =>
    obtain ⟨k, v⟩ := e
    by_cases hk : k = .str key
    · rw [hk, List.cons_append, lookup?_cons_self, lookup?_cons_self, Option.some_or]
    · rw [List.cons_append, lookup?_cons_of_ne hk, lookup?_cons_of_ne hk, ih]

/-- Nothing stands under a key that there is not. -/
theorem lookup?_eq_none {key : String} {entries : List (Value × Value)}
    (h : Value.str key ∉ entries.map Prod.fst) : lookup? key entries = none := by
  induction entries with
  | nil => rfl
  | cons e rest ih =>
    obtain ⟨hk, hrest⟩ := not_or.mp (mt List.mem_cons.mpr h)
    rw [lookup?_cons_of_ne (Ne.symm hk), ih hrest]

/-- Telling a dictionary apart gives it no value under a text, and takes none from it. -/
theorem given_labelled {entries told : List (Value × Value)} {n : Supply}
    (h : ((dict entries).labelled.run n).1 = .dict told) (key : String) :
    given key told = .null ↔ given key entries = .null := by
  induction entries generalizing told n with
  | nil =>
    cases h
    exact Iff.rfl
  | cons e rest ih =>
    obtain ⟨k, v⟩ := e
    obtain ⟨m, l, others, hr, hd⟩ := exists_labelled_cons k v rest n
    cases hd.symm.trans h
    have hk := labelled_eq_iff (.inr ⟨key, rfl⟩) k n
    unfold given at ih ⊢
    by_cases he : k = .str key
    · rw [hk.mpr he, he, lookup?_cons_self, lookup?_cons_self]
      exact labelled_eq_iff (.inl rfl) v m
    · rw [lookup?_cons_of_ne (mt hk.mp he), lookup?_cons_of_ne he]
      exact ih hr

end Value

namespace World

/-- The same call of a function, with a value that is alike. -/
def CallAlike (c d : Call) : Prop :=
  c.label = d.label ∧ c.subject = d.subject ∧ c.field = d.field ∧ c.value.Alike d.value

/-- The two worlds have come about side by side from one world: they agree in all that binding
reads, and the same functions have been called with values that are alike. -/
structure Paired (w₀ w u : World) : Prop where
  steady : Binding.Steady w₀ w
  classes : w.classes = u.classes
  registries : w.registries = u.registries
  binders : w.binders = u.binders
  growth : w.growth = u.growth
  origin : w.supply.origin = u.supply.origin
  calls : List.Forall₂ CallAlike w.calls u.calls

variable {w₀ w u : World}

/-- A consistent world is paired with itself. -/
theorem Paired.refl (h : w₀.Consistent) : Paired w₀ w₀ w₀ :=
  ⟨.refl h, rfl, rfl, rfl, rfl, rfl, List.forall₂_same.mpr fun _ _ => ⟨rfl, rfl, rfl, rfl⟩⟩

/-- Paired worlds have the binders of the world that they come from. -/
theorem Paired.binder (h : Paired w₀ w u) (i : Nat) :
    w.binder i = w₀.binder i ∧ u.binder i = w₀.binder i := by
  have hw := h.steady.2.binder i
  refine ⟨hw, ?_⟩
  rw [← hw, World.binder, World.binder, h.binders]

/-- Paired worlds bind a nested schema with the same binder. -/
theorem Paired.nestedBinder (h : Paired w₀ w u) (binder : Nat) (c : ClassRef) :
    w.nestedBinder binder c = w₀.nestedBinder binder c ∧
      u.nestedBinder binder c = w₀.nestedBinder binder c := by
  have hw := h.steady.2.classes
  refine ⟨?_, ?_⟩
  · rw [World.nestedBinder, World.nestedBinder, binderOf, binderOf, hw]
  · rw [World.nestedBinder, World.nestedBinder, binderOf, binderOf, ← h.classes, hw]

/-- Telling apart values that take the same origins leaves two worlds side by side. -/
theorem Paired.adopting (h : Paired w₀ w u) {a b : Value}
    (ho : (w.adopting a).supply.origin = (u.adopting b).supply.origin) :
    Paired w₀ (w.adopting a) (u.adopting b) :=
  ⟨h.steady.adopting a, h.classes, h.registries, h.binders, h.growth, ho, h.calls⟩

/-- Paired worlds share what binding reads. -/
theorem twinned_paired (w₀ : World) : Twinned Value.Alike (Paired w₀) where
  classes h := h.classes
  growth h := h.growth
  adopted h hab := alike_adopted hab h.origin
  adopting h hab := h.adopting (origin_adopting hab h.origin)
  called _ _ _ h hab :=
    ⟨h.steady.called _, h.classes, h.registries, h.binders, h.growth, h.origin,
      List.rel_append h.calls (.cons ⟨rfl, rfl, rfl, hab⟩ .nil)⟩
  logged _ _ _ h _ :=
    ⟨h.steady.logged _ _, h.classes, h.registries, h.binders, h.growth, h.origin, h.calls⟩

end World

namespace Binding

open World

variable {w₀ : World} {E : Fault → Prop}

/-- The plan of a schema is the same on both sides, and the one that the first world compiles. -/
theorem sideBySide_planOf_paired (binder : Nat) (cls : ClassRef) :
    SideBySide (Paired w₀) E (FaultLike Value.Alike)
      (fun ps qs => ps = qs ∧ w₀.plansFor binder cls = .ok ps)
      (planOf (w₀.binder binder).registry cls) (planOf (w₀.binder binder).registry cls) := by
  intro w u h
  refine .inr ?_
  obtain ⟨hr, hs⟩ := mirrors_planOf (w₀.binder binder).registry cls w h.steady
  have hm : ∀ r : Except Fault (List FieldPlan),
      Reflects Eq r ((w₀.registry (w₀.binder binder).registry).compile w₀.classes cls) →
      Matches (FaultLike Value.Alike) (fun ps qs => ps = qs ∧ w₀.plansFor binder cls = .ok ps)
        r r := by
    intro r hr
    unfold plansFor
    generalize (w₀.registry (w₀.binder binder).registry).compile w₀.classes cls = p at hr ⊢
    cases hr with
    | ok hq => exact .ok ⟨rfl, by rw [hq]⟩
    | error _ => exact .error (.refl _)
  rcases exec_planOf_twice h.registries h.classes (w₀.binder binder).registry cls with
    ⟨r, hw, hu⟩ | ⟨plans, q, e, hw, hu⟩
  · rw [hw] at hr hs
    rw [hw, hu]
    exact ⟨hm r hr, hs, h.classes, h.registries, h.binders, h.growth, h.origin, h.calls⟩
  · rw [hw] at hr hs
    rw [hw, hu]
    refine ⟨hm _ hr, hs, h.classes, ?_, h.binders, h.growth, h.origin, h.calls⟩
    simp only [World.log, World.setRegistry, h.registries]

/-! ### Raw values -/

/-- A field takes its default if the payload has nothing or null under its key. -/
theorem rawValue_of_null {plan : FieldPlan} {entries : List (Value × Value)}
    (h : Value.given plan.sourceKey entries = .null) :
    rawValue plan entries = defaultCopy plan := by
  unfold Value.given at h
  unfold rawValue
  cases hl : Value.lookup? plan.sourceKey entries with
  | none => rfl
  | some v =>
    rw [hl] at h
    cases h
    rfl

/-- A field takes what the payload has under its key, if that is not null. -/
theorem rawValue_of_ne_null {plan : FieldPlan} {entries : List (Value × Value)}
    (h : Value.given plan.sourceKey entries ≠ .null) :
    rawValue plan entries = Value.given plan.sourceKey entries := by
  unfold Value.given at h ⊢
  unfold rawValue
  cases hl : Value.lookup? plan.sourceKey entries with
  | none =>
    rw [hl] at h
    exact absurd rfl h
  | some v =>
    rw [hl] at h
    cases v with
    | null => exact absurd rfl h
    | _ => rfl

/-- What a dictionary holds under a text. -/
theorem given_unlabelled (key : String) (entries : List (Value × Value)) :
    Value.given key (entries.map Value.unlabelledEntry) = (Value.given key entries).unlabelled := by
  unfold Value.given
  rw [Value.lookup?_unlabelled]
  cases Value.lookup? key entries <;> rfl

/-- What a settled payload gives for a key is settled. -/
theorem settled_given {entries : List (Value × Value)} (h : (Value.dict entries).Settled)
    (key : String) : (Value.given key entries).Settled := by
  unfold Value.given
  cases hl : Value.lookup? key entries with
  | none => exact .null
  | some v => exact h.lookup? hl

/-- Alike payloads give alike values under every key. -/
theorem alike_given {es fs : List (Value × Value)} (h : (Value.dict es).Alike (.dict fs))
    (key : String) : (Value.given key es).Alike (Value.given key fs) := by
  have hl := h.lookup? key
  unfold Value.given
  cases he : Value.lookup? key es with
  | none =>
    cases hf : Value.lookup? key fs with
    | none => rfl
    | some u => rw [he, hf] at hl; cases hl
  | some v =>
    cases hf : Value.lookup? key fs with
    | none => rw [he, hf] at hl; cases hl
    | some u => rw [he, hf] at hl; exact Option.some.inj hl

/-- The raw values of a field are related if the payloads are alike under its key. -/
theorem rawLike_of_alike {N : ClassRef → List (Value × Value) → List (Value × Value) → Prop}
    {plan : FieldPlan} {es fs : List (Value × Value)}
    (h : (Value.given plan.sourceKey es).Alike (Value.given plan.sourceKey fs)) :
    RawLike Value.Alike N plan.kind (rawValue plan es) (rawValue plan fs) := by
  have hn := Value.likeness_alike.null_iff h
  refine .alike ?_
  by_cases he : Value.given plan.sourceKey es = .null
  · rw [rawValue_of_null he, rawValue_of_null (hn.mp he)]
    rfl
  · rw [rawValue_of_ne_null he, rawValue_of_ne_null (mt hn.mpr he)]
    exact h

/-! ### Related payloads -/

section Related

variable {R : Nat → ClassRef → List (Value × Value) → List (Value × Value) → Prop}

/-- Two payloads of a schema that are alike, or mappings told apart before that are related. -/
inductive PayloadLike (R : Nat → ClassRef → List (Value × Value) → List (Value × Value) → Prop)
    (binder : Nat) (cls : ClassRef) : Value → Value → Prop
  | alike {a b : Value} (h : a.Alike b) : PayloadLike R binder cls a b
  | related {es fs : List (Value × Value)} (he : (Value.dict es).Settled)
    (hf : (Value.dict fs).Settled) (h : R binder cls es fs) :
    PayloadLike R binder cls (.dict es) (.dict fs)

/-- The payloads of a nested schema that have been told apart before and are related for its
binder. -/
def NestedRelated (w : World)
    (R : Nat → ClassRef → List (Value × Value) → List (Value × Value) → Prop) (binder : Nat)
    (cls : ClassRef) (es fs : List (Value × Value)) : Prop :=
  (Value.dict es).Settled ∧ (Value.dict fs).Settled ∧ R (w.nestedBinder binder cls) cls es fs

/-- Related payloads have related raw values for each field of their schema. -/
def Fieldwise (w₀ : World) (E : Fault → Prop)
    (R : Nat → ClassRef → List (Value × Value) → List (Value × Value) → Prop) : Prop :=
  ∀ (binder : Nat) (cls : ClassRef) (es fs : List (Value × Value)) (plans : List FieldPlan),
    (Value.dict es).Settled → (Value.dict fs).Settled → R binder cls es fs →
    w₀.plansFor binder cls = .ok plans → ∀ plan ∈ plans,
      ToldLike Value.Alike (Paired w₀) E (NestedRelated w₀ R binder) plan.kind (rawValue plan es)
        (rawValue plan fs)

variable {binder : Nat} {cls : ClassRef}

/-- A payload that is no mapping is only like payloads of its kind. -/
theorem PayloadLike.cases {a b : Value} (h : PayloadLike R binder cls a b) :
    (∃ es fs, a = .dict es ∧ b = .dict fs) ∨
      (∀ es, a ≠ .dict es) ∧ (∀ fs, b ≠ .dict fs) ∧ a.kind = b.kind := by
  cases h with
  | related => exact .inl ⟨_, _, rfl, rfl⟩
  | alike h =>
    rcases Value.likeness_alike.dict_cases h with hd | ⟨ha, hb⟩
    · exact .inl hd
    · exact .inr ⟨ha, hb, Value.likeness_alike.kind h⟩

/-- The worlds of two runs are related so that binding reads of both what it reads of one world. -/
structure Parallel (w₀ : World) (S : World → World → Prop) : Prop where
  twinned : Twinned Value.Alike S
  binder : ∀ {w u : World}, S w u → ∀ i, w.binder i = w₀.binder i ∧ u.binder i = w₀.binder i
  nestedBinder : ∀ {w u : World}, S w u → ∀ binder c,
    w.nestedBinder binder c = w₀.nestedBinder binder c ∧
      u.nestedBinder binder c = w₀.nestedBinder binder c
  plans : ∀ {E : Fault → Prop} (binder : Nat) (cls : ClassRef),
    SideBySide S E (FaultLike Value.Alike) (fun ps qs => ps = qs ∧ w₀.plansFor binder cls = .ok ps)
      (planOf (w₀.binder binder).registry cls) (planOf (w₀.binder binder).registry cls)

private theorem parallel_paired (w₀ : World) : Parallel w₀ (Paired w₀) :=
  ⟨twinned_paired w₀, Paired.binder, Paired.nestedBinder, sideBySide_planOf_paired⟩

section Parallel

variable {S : World → World → Prop} (hS : Parallel w₀ S)
  (hR : ∀ (binder : Nat) (cls : ClassRef) (es fs : List (Value × Value)) (plans : List FieldPlan),
    (Value.dict es).Settled → (Value.dict fs).Settled → R binder cls es fs →
    w₀.plansFor binder cls = .ok plans → ∀ plan ∈ plans,
      ToldLike Value.Alike S E (NestedRelated w₀ R binder) plan.kind (rawValue plan es)
        (rawValue plan fs))

include hS hR

/-- What related payloads give for a field is told apart side by side. -/
theorem PayloadLike.told {es fs : List (Value × Value)}
    (h : PayloadLike R binder cls (.dict es) (.dict fs)) {plans : List FieldPlan}
    (hp : w₀.plansFor binder cls = .ok plans) {plan : FieldPlan} (hm : plan ∈ plans) :
    ToldLike Value.Alike S E (NestedRelated w₀ R binder) plan.kind (rawValue plan es)
      (rawValue plan fs) := by
  cases h with
  | alike h =>
    exact (rawLike_of_alike (alike_given h plan.sourceKey)).told Value.likeness_alike hS.twinned
  | related he hf h => exact hR _ _ _ _ _ he hf h hp plan hm

/-- Payloads that stay related from field to field are populated side by side. -/
theorem sideBySide_populate_parallel (levels depth : Nat) {a b : Value}
    (h : PayloadLike R binder cls a b) :
    SideBySide S E (FaultLike Value.Alike) (AttrsLike Value.Alike)
      (populate planOf levels binder depth cls a) (populate planOf levels binder depth cls b) := by
  have hfail : ∀ (c : ClassRef) (cause : BindingCause), SideBySide S E
      (FaultLike Value.Alike) (AttrsLike Value.Alike) (fail c.name rootField cause : Action _)
      (fail c.name rootField cause) :=
    fun c cause => sideBySide_fail Value.likeness_alike c.name rootField (.refl cause)
  induction levels generalizing binder depth cls a b with
  | zero =>
    refine SideBySide.get fun w u hs => ?_
    rw [(hS.binder hs binder).1, (hS.binder hs binder).2]
    exact hfail cls _ w u hs
  | succ levels ih =>
    refine SideBySide.get fun w u hs => ?_
    dsimp only
    rw [(hS.binder hs binder).1, (hS.binder hs binder).2]
    split
    · exact hfail cls _ w u hs
    · rcases h.cases with ⟨es, fs, rfl, rfl⟩ | ⟨ha, hb, hk⟩
      · dsimp only
        refine SideBySide.bind (hS.plans binder cls) (fun ps qs hp => ?_) w u hs
        obtain ⟨rfl, hp⟩ := hp
        refine sideBySide_bindFields Value.likeness_alike hS.twinned
          (fun c es fs hef => ?_) cls (fun plan hm => h.told hS hR hp hm) .nil
        have hnested : PayloadLike R (w₀.nestedBinder binder c) c (.dict es) (.dict fs) := by
          cases hef with
          | alike h => exact .alike h
          | nested h => exact .related h.1 h.2.1 h.2.2
        rw [(hS.nestedBinder hs binder c).1, (hS.nestedBinder hs binder c).2]
        exact SideBySide.bind (ih _ hnested) fun _ _ hr =>
          SideBySide.pure (Value.likeness_alike.instanceOf c hr)
      · split
        · exact absurd rfl (ha _)
        · rw [hk]
          exact hfail cls _ w u hs

end Parallel

/-- Two values are bound side by side if telling them apart makes related payloads of them. -/
theorem sideBySide_bindAttrs_related (hR : Fieldwise w₀ E R) {a b : Value}
    (h : SideBySide (Paired w₀) E (FaultLike Value.Alike)
      (fun x y => PayloadLike R binder cls (rootPayload x) (rootPayload y)) (adopt a) (adopt b)) :
    SideBySide (Paired w₀) E (FaultLike Value.Alike) (AttrsLike Value.Alike)
      (bindAttrs planOf binder cls a) (bindAttrs planOf binder cls b) := by
  refine SideBySide.bind h fun x y hxy => ?_
  refine SideBySide.get fun w u hs => ?_
  have hd : w.depthBound = u.depthBound := by rw [depthBound, depthBound, hs.binders]
  rw [hd]
  exact sideBySide_reporting (twinned_paired w₀) cls (sideBySide_populate_parallel
    (parallel_paired w₀) hR _ _ hxy) w u hs

/-- Values that are alike count as payloads that are alike. -/
theorem alike_rootPayload {a b : Value} (h : a.Alike b) :
    (rootPayload a).Alike (rootPayload b) := by
  have hroot : ∀ {v : Value}, v ≠ .null → rootPayload v = v := by
    intro v hv
    cases v <;> first | rfl | contradiction
  by_cases hn : a = .null
  · rw [hn, (Value.likeness_alike.null_iff h).mp hn]
    rfl
  · rw [hroot hn, hroot fun hb => hn ((Value.likeness_alike.null_iff h).mpr hb)]
    exact h

/-- The payload of a bind is settled if the value is that is bound. -/
theorem settled_rootPayload {v : Value} (h : v.Settled) : (rootPayload v).Settled := by
  cases v with
  | null => exact .dict [] (List.forall_mem_nil _) (List.forall_mem_nil _)
  | _ => exact h

end Related

/-- The same error, with the same words. -/
def SameError (f g : Fault) : Prop := FaultLike Value.Alike f g ∧ f.message = g.message

/-- Binding the two payloads has the same outcome, an instance or an error, and calls the same
functions with the same values. -/
def BoundAlike (w : World) (binder : Nat) (cls : ClassRef) (a b : Value) : Prop :=
  Matches SameError Value.Alike (exec (bind binder cls a) w).1 (exec (bind binder cls b) w).1 ∧
    List.Forall₂ CallAlike (exec (bind binder cls a) w).2.calls
      (exec (bind binder cls b) w).2.calls

/-- Payloads whose attributes are bound side by side are bound alike. -/
theorem boundAlike_of_sideBySide {w : World} (hw : w.Consistent) {binder : Nat} {cls : ClassRef}
    {a b : Value} (h : SideBySide (Paired w) (fun _ => False) (FaultLike Value.Alike)
      (AttrsLike Value.Alike) (bindAttrs planOf binder cls a) (bindAttrs planOf binder cls b)) :
    BoundAlike w binder cls a b := by
  have hbind : SideBySide (Paired w) (fun _ => False) (FaultLike Value.Alike) Value.Alike
      (bind binder cls a) (bind binder cls b) :=
    SideBySide.bind h fun _ _ hr => SideBySide.pure (Value.likeness_alike.instanceOf cls hr)
  have herror : ∀ f g, FaultLike Value.Alike f g → SameError f g :=
    fun f g h => ⟨h, Value.likeness_alike.fault_message h⟩
  rcases hbind w w (.refl hw) with ⟨_, _, hf⟩ | ⟨hm, hp⟩
  · exact hf.elim
  · exact ⟨hm.imp herror fun _ _ hv => hv, hp.calls⟩

end Binding

end SchemaBinding
