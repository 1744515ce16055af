import SchemaBinding.Proofs.ErrorOrigin
import SchemaBinding.Proofs.GroundedSessions
import SchemaBinding.Proofs.RearrangedValues
import SchemaBinding.Proofs.ReorderedFields

/-!
# The order of fields

Two worlds that differ in the order in which the fields of classes were declared, and in nothing
else that binding looks at, bind a payload alike where no functions of the caller are called: to
instances that are the same but for the order of attributes, or to an error in both. The order
decides no more than which error comes first.
-/

namespace SchemaBinding

/-! ### Plans but for labels -/

/-- A plan with its values not told apart from others. -/
def FieldPlan.unlabelled (p : FieldPlan) : FieldPlan :=
  { p with
    requirement := p.requirement.unlabelled
    transforms := p.transforms.map UserFunction.unlabelled
    checks := p.checks.map Check.unlabelled }

private theorem FieldContract.plan_unlabelled (isSchema : ClassRef → Bool) (f : FieldContract) :
    f.unlabelled.plan isSchema = (f.plan isSchema).map FieldPlan.unlabelled := by
  have hr : (f.requirement.map Requirement.unlabelled).getD .optional =
      (f.requirement.getD .optional).unlabelled := by
    cases f.requirement <;> rfl
  unfold FieldContract.plan
  cases hp : f.passthrough with
  | true =>
    simp only [FieldContract.unlabelled, hp, hr]
    rfl
  | false =>
    simp only [FieldContract.unlabelled, hp, hr]
    cases f.declared.kind isSchema f.element <;> rfl

/-- A contract has a plan if one that is the same up to labels has, and the same up to labels. -/
theorem FieldContract.exists_plan_unlabelled {isSchema : ClassRef → Bool} {f g : FieldContract}
    (h : g.unlabelled = f.unlabelled) {p : FieldPlan} (hp : f.plan isSchema = .ok p) :
    ∃ q, g.plan isSchema = .ok q ∧ q.unlabelled = p.unlabelled := by
  have hg := g.plan_unlabelled isSchema
  rw [h, f.plan_unlabelled, hp] at hg
  cases hq : g.plan isSchema with
  | error e =>
    rw [hq] at hg
    cases hg
  | ok q =>
    rw [hq] at hg
    exact ⟨q, rfl, (Except.ok.inj hg).symm⟩

private theorem Check.plain_unlabelled (c : Check) : c.unlabelled.Plain ↔ c.Plain := by
  cases c <;> exact Iff.rfl

private theorem FieldPlan.plain_unlabelled (p : FieldPlan) : p.unlabelled.Plain ↔ p.Plain := by
  constructor
  · rintro ⟨ht, hc⟩
    refine ⟨List.map_eq_nil_iff.mp ht, fun c h => ?_⟩
    exact c.plain_unlabelled.mp (hc _ (List.mem_map_of_mem h))
  · rintro ⟨ht, hc⟩
    refine ⟨List.map_eq_nil_iff.mpr ht, fun c h => ?_⟩
    obtain ⟨d, hd, rfl⟩ := List.mem_map.mp h
    exact d.plain_unlabelled.mpr (hc d hd)

/-- The two lists hold the same plans up to labels, in any order. -/
def FieldPlan.SamePlans (ps qs : List FieldPlan) : Prop :=
  (∀ p ∈ ps, ∃ q ∈ qs, q.unlabelled = p.unlabelled) ∧
    ∀ q ∈ qs, ∃ p ∈ ps, p.unlabelled = q.unlabelled

private theorem Requirement.isRequired_unlabelled (r : Requirement) :
    r.unlabelled.isRequired = r.isRequired := by
  cases r <;> rfl

namespace Binding

/-! ### A field and its plan but for labels -/

private theorem rawValue_unlabelledPlan (plan : FieldPlan) (entries : List (Value × Value)) :
    rawValue plan.unlabelled entries = rawValue plan entries := by
  have hd : defaultCopy plan.unlabelled = defaultCopy plan := by
    unfold defaultCopy
    change (plan.requirement.unlabelled.default?.map Value.copied).getD .null = _
    cases plan.requirement with
    | defaulted v => exact Value.copied_unlabelled v
    | _ => rfl
  rw [rawValue, rawValue, hd]
  rfl

private theorem checkComparisons_unlabelledPlan (typeName field : String) (v : Value)
    (cs : List Check) :
    checkComparisons typeName field v (cs.map Check.unlabelled) =
      checkComparisons typeName field v cs := by
  induction cs with
  | nil => rfl
  | cons c cs ih =>
    cases c with
    | comparison c => simp only [List.map_cons, Check.unlabelled, checkComparisons, ih]
    | custom f => exact ih

/-- Labels in the plan of a field make no difference to its value. -/
theorem plainField_unlabelledPlan (enter : ClassRef → Value → Except Fault Value) (cls : ClassRef)
    (settable : Bool) (entries : List (Value × Value)) (plan : FieldPlan) :
    plainField enter cls settable entries plan.unlabelled =
      plainField enter cls settable entries plan := by
  have hr : ∀ v, checkRules cls.name plan.unlabelled v = checkRules cls.name plan v := by
    intro v
    unfold checkRules
    exact congrArg (fun e => checkMembers cls.name plan.name plan.union v >>= fun _ =>
      e >>= fun _ => checkIntegral cls.name plan.name plan.integer v)
      (checkComparisons_unlabelledPlan cls.name plan.name v plan.checks)
  have hv : ∀ raw, plainValue enter cls.name plan.unlabelled raw =
      plainValue enter cls.name plan raw := by
    intro raw
    unfold plainValue
    simp only [hr]
    rfl
  have hq : plan.unlabelled.requirement.isRequired = plan.requirement.isRequired :=
    plan.requirement.isRequired_unlabelled
  unfold plainField
  simp only [rawValue_unlabelledPlan, hv, hq]
  rfl

/-! ### Succeeding where another computation does -/

section Follows

variable {α β γ δ : Type} {Q : α → β → Prop} {R : γ → δ → Prop}

/-- The second result is a success wherever the first is one, with something that is related. -/
def Follows (Q : α → β → Prop) (a : Except Fault α) (b : Except Fault β) : Prop :=
  ∀ x, a = .ok x → ∃ y, b = .ok y ∧ Q x y

/-- A result follows itself. -/
theorem Follows.refl {Q : α → α → Prop} (hq : ∀ x, Q x x) (a : Except Fault α) : Follows Q a a :=
  fun x h => ⟨x, h, hq x⟩

/-- A success follows a success that is related. -/
theorem Follows.ok {x : α} {y : β} (h : Q x y) : Follows Q (.ok x) (.ok y) := by
  intro z hz
  cases hz
  exact ⟨y, rfl, h⟩

/-- Anything follows a failure. -/
theorem Follows.error (e : Fault) (b : Except Fault β) : Follows Q (.error e) b := nofun

/-- Sequences follow each other part by part. -/
theorem Follows.bind {a : Except Fault α} {b : Except Fault β} {f : α → Except Fault γ}
    {g : β → Except Fault δ} (h : Follows Q a b) (hf : ∀ x y, Q x y → Follows R (f x) (g y)) :
    Follows R (a >>= f) (b >>= g) := by
  intro z hz
  obtain ⟨x, hx, hz⟩ := bind_ok_iff.mp hz
  obtain ⟨y, hy, hq⟩ := h x hx
  obtain ⟨u, hu, hr⟩ := hf x y hq z hz
  exact ⟨u, bind_ok_iff.mpr ⟨y, hy, hu⟩, hr⟩

end Follows

section Enter

open Value

variable {enter other : ClassRef → Value → Except Fault Value}
  (he : ∀ c v, Follows Rearranged (enter c v) (other c v))

include he

private theorem follows_convertScalar (typeName field : String) (index : Option Nat) (raw : Value)
    (kind : ScalarKind) :
    Follows Rearranged (convertScalar enter typeName field index raw kind)
      (convertScalar other typeName field index raw kind) := by
  cases kind with
  | schema c =>
    cases raw with
    | dict entries => exact he c (.dict entries)
    | _ => exact .refl .same _
  | _ => exact .refl .same _

private theorem follows_convertItems (typeName field : String) (kind : ScalarKind) (index : Nat)
    (items : List Value) :
    Follows (List.Forall₂ Rearranged) (convertItems enter typeName field kind index items)
      (convertItems other typeName field kind index items) := by
  induction items generalizing index with
  | nil => exact .ok .nil
  | cons raw rest ih =>
    apply (follows_convertScalar he typeName field (some index) raw kind).bind
    intro v u hvu
    apply (ih (index + 1)).bind
    intro vs us hs
    exact .ok (.cons hvu hs)

private theorem follows_convert (typeName field : String) (raw : Value) (kind : ValueKind) :
    Follows Rearranged (convert enter typeName field raw kind)
      (convert other typeName field raw kind) := by
  cases kind with
  | scalar kind => exact follows_convertScalar he typeName field none raw kind
  | array element =>
    unfold convert
    cases arrayItems? raw with
    | none => exact .refl .same _
    | some items =>
      cases element with
      | none => exact .refl .same _
      | some kind =>
        apply (follows_convertItems he typeName field kind 0 items).bind
        intro vs us hs
        exact .ok (Rearranged.list_of_forall₂ hs none)

private theorem follows_convertField (typeName : String) (plan : FieldPlan) (kind : ValueKind)
    (raw : Value) :
    Follows Rearranged (convertField enter typeName plan kind raw)
      (convertField other typeName plan kind raw) := by
  unfold convertField
  split
  · exact .refl .same _
  · exact follows_convert he typeName plan.name raw kind

private theorem follows_plainValue (typeName : String) (plan : FieldPlan) (raw : Value) :
    Follows Rearranged (plainValue enter typeName plan raw)
      (plainValue other typeName plan raw) := by
  unfold plainValue
  split
  · exact .refl .same _
  · next kind _ =>
    apply (follows_convertField he typeName plan kind raw).bind
    intro v u hvu
    have hc : Follows (fun _ _ => True) (checkRules typeName plan v)
        (checkRules typeName plan u) :=
      fun _ h => ⟨(), checkRules_rearranged typeName plan hvu h, trivial⟩
    exact hc.bind fun _ _ _ => .ok hvu

/-- Where the schemas nested in a record are bound up to order, so is the value of a field. -/
theorem follows_plainField (cls : ClassRef) (settable : Bool) (entries : List (Value × Value))
    (plan : FieldPlan) :
    Follows (Option.Rel Rearranged) (plainField enter cls settable entries plan)
      (plainField other cls settable entries plan) := by
  have hr : ∀ o : Option Value, Option.Rel Rearranged o o := by
    rintro (_ | v)
    · exact .none
    · exact .some (.same v)
  by_cases hz : rawValue plan entries = .null
  · rw [plainField_null hz, plainField_null hz]
    exact .refl hr _
  · rw [plainField_value hz, plainField_value hz]
    apply (follows_plainValue he cls.name plan _).bind
    intro v u hvu
    cases settable with
    | true => exact .ok (.some hvu)
    | false => exact .refl hr _

end Enter

/-! ### Records -/

section Fields

open Value

variable {enter other : ClassRef → Value → Except Fault Value} {cls : ClassRef} {settable : Bool}
  {entries : List (Value × Value)} {ps qs : List FieldPlan}

/-- A record is bound if each of its fields is. -/
theorem exists_plainFields
    (h : ∀ p ∈ ps, ∃ value, plainField enter cls settable entries p = .ok value) :
    ∃ attrs, plainFields enter cls settable entries ps = .ok attrs := by
  induction ps with
  | nil => exact ⟨[], rfl⟩
  | cons p ps ih =>
    obtain ⟨⟨value, hv⟩, hps⟩ := List.forall_mem_cons.mp h
    obtain ⟨rest, hr⟩ := ih hps
    exact ⟨_, (plainFields_cons_ok_iff ps _).mpr ⟨value, rest, hv, hr, rfl⟩⟩

/-- Where two plans have the same fields, each record that is bound by the one is bound by the
other, up to order. -/
theorem follows_plainFields (he : ∀ c v, Follows Rearranged (enter c v) (other c v))
    (hps : (ps.map FieldPlan.name).Nodup) (hqs : (qs.map FieldPlan.name).Nodup)
    (h : FieldPlan.SamePlans ps qs) :
    Follows (fun as bs => Rearranged (.record cls as) (.record cls bs))
      (plainFields enter cls settable entries ps) (plainFields other cls settable entries qs) := by
  intro as has
  have hname : ∀ {p q : FieldPlan}, p.unlabelled = q.unlabelled → p.name = q.name := by
    intro p q h
    have hn := congrArg FieldPlan.name h
    exact hn
  -- That a field has a value depends on no other field, so it does not matter which is tried first.
  have hvalue : ∀ q ∈ qs, ∃ value, plainField other cls settable entries q = .ok value ∧
      Option.Rel Rearranged (attr? q.name as) value := by
    intro q hq
    obtain ⟨p, hp, hpu⟩ := h.2 q hq
    have hf := follows_plainField he cls settable entries p _ (plainFields_attr? has hps hp)
    rwa [hname hpu, ← plainField_unlabelledPlan other, hpu, plainField_unlabelledPlan] at hf
  obtain ⟨bs, hbs⟩ := exists_plainFields fun q hq => (hvalue q hq).imp fun _ h => h.1
  refine ⟨bs, hbs, ?_⟩
  have hna := plainFields_names has
  have hnb := plainFields_names hbs
  apply Rearranged.of_attr? cls (hna.nodup hps) (hnb.nodup hqs)
  intro name
  by_cases hm : name ∈ qs.map FieldPlan.name
  · obtain ⟨q, hq, rfl⟩ := List.mem_map.mp hm
    obtain ⟨value, hv, hrel⟩ := hvalue q hq
    rw [plainFields_attr? hbs hqs hq] at hv
    cases hv
    exact hrel
  · have hn : name ∉ ps.map FieldPlan.name := by
      intro hn
      obtain ⟨p, hp, rfl⟩ := List.mem_map.mp hn
      obtain ⟨q, hq, hqu⟩ := h.1 p hp
      exact hm (hname hqu ▸ List.mem_map_of_mem hq)
    rw [attr?_eq_none_iff.mpr fun h => hn (hna.subset h),
      attr?_eq_none_iff.mpr fun h => hm (hnb.subset h)]
    exact .none

end Fields

end Binding

/-! ### Schemas -/

namespace World

open Binding

section Reordered

variable {w u : World} (h : w.Reordered u) (hw : ∀ i, (w.registry i).Distinct)
  (hu : ∀ i, (u.registry i).Distinct)

include h hw hu

/-- A class compiles if it does in the other world, and to the same plans. -/
theorem Reordered.follows_plansFor (binder : Nat) (cls : ClassRef) :
    Follows FieldPlan.SamePlans (w.plansFor binder cls) (u.plansFor binder cls) := by
  unfold World.plansFor
  rw [← h.binder]
  generalize (w.binder binder).registry = i
  intro ps hps
  obtain ⟨hs, hall⟩ := (Registry.exists_compile_iff _ _ _).mp ⟨ps, hps⟩
  -- The first contract without a plan may be another one in each world, but both have one or none.
  have hex : ∃ qs, (u.registry i).compile u.classes cls = .ok qs := by
    rw [Registry.exists_compile_iff, ← h.isSchema, ← h.acceptsNested]
    refine ⟨hs, fun g hg => ?_⟩
    obtain ⟨f, hf, hfg⟩ := h.symm.exists_field hu hw hg
    obtain ⟨p, hp⟩ := hall f hf
    obtain ⟨q, hq, -⟩ := FieldContract.exists_plan_unlabelled hfg.symm hp
    exact ⟨q, hq⟩
  obtain ⟨qs, hqs⟩ := hex
  refine ⟨qs, hqs, fun p hp => ?_, fun q hq => ?_⟩
  · obtain ⟨f, hf, hfp⟩ := (Registry.mem_plans_iff hps p).mp hp
    obtain ⟨g, hg, hgf⟩ := h.exists_field hw hu hf
    obtain ⟨q, hgq, hqp⟩ := FieldContract.exists_plan_unlabelled hgf hfp
    rw [h.acceptsNested] at hgq
    exact ⟨q, (Registry.mem_plans_iff hqs q).mpr ⟨g, hg, hgq⟩, hqp⟩
  · obtain ⟨g, hg, hgq⟩ := (Registry.mem_plans_iff hqs q).mp hq
    obtain ⟨f, hf, hfg⟩ := h.symm.exists_field hu hw hg
    obtain ⟨p, hfp, hpq⟩ := FieldContract.exists_plan_unlabelled hfg hgq
    rw [← h.acceptsNested] at hfp
    exact ⟨p, (Registry.mem_plans_iff hps p).mpr ⟨f, hf, hfp⟩, hpq⟩

/-- Which schemas are nested in which does not depend on the order of fields. -/
theorem Reordered.reaches {binder next : Nat} {cls last : ClassRef}
    (hr : w.Reaches binder cls next last) : u.Reaches binder cls next last := by
  induction hr with
  | refl binder cls => exact .refl binder cls
  | step hc hp hk hs _ ih =>
    obtain ⟨qs, hqs, hpq, -⟩ := h.follows_plansFor hw hu _ _ _ hc
    obtain ⟨q, hq, hqp⟩ := hpq _ hp
    have hkind := congrArg FieldPlan.kind hqp
    rw [h.nestedBinder] at ih
    exact .step hqs hq (Eq.trans hkind hk) hs ih

/-- A schema without functions of the caller has none in a world with its fields reordered. -/
theorem Reordered.plain {binder : Nat} {cls : ClassRef} (hp : w.Plain binder cls) :
    u.Plain binder cls := by
  intro next last hr qs hqs q hq
  obtain ⟨ps, hps, hqp, -⟩ := h.symm.follows_plansFor hu hw _ _ _ hqs
  obtain ⟨p, hpm, hpq⟩ := hqp q hq
  rw [← q.plain_unlabelled, ← hpq, p.plain_unlabelled]
  exact hp next last (h.symm.reaches hu hw hr) ps hps p hpm

/-! ### Binding -/

/-- A record that is bound is bound with the fields in another order too, up to the order of its
attributes. -/
theorem Reordered.follows_plainBind (levels binder depth : Nat) (cls : ClassRef) (data : Value) :
    Follows (fun as bs => (instanceOf cls as).Rearranged (instanceOf cls bs))
      (w.plainBind levels binder depth cls data) (u.plainBind levels binder depth cls data) := by
  induction levels generalizing binder depth cls data with
  | zero => exact .error _ _
  | succ levels ih =>
    by_cases hd : ∃ entries, data = .dict entries
    · obtain ⟨entries, rfl⟩ := hd
      rw [plainBind_dict, plainBind_dict, ← h.binder, ← h.hasAttributes]
      split
      · exact .error _ _
      · have he : ∀ c v, Follows Value.Rearranged (w.plainEnter levels binder depth c v)
            (u.plainEnter levels binder depth c v) := by
          intro c v
          unfold plainEnter
          rw [← h.nestedBinder]
          exact (ih _ _ c v).bind fun _ _ hab => .ok hab
        intro as has
        obtain ⟨ps, hps, has⟩ := bind_ok_iff.mp has
        obtain ⟨qs, hqs, hpq⟩ := h.follows_plansFor hw hu _ _ _ hps
        obtain ⟨bs, hbs, hab⟩ := follows_plainFields he (Registry.nodup_plans hps)
          (Registry.nodup_plans hqs) hpq as has
        refine ⟨bs, bind_ok_iff.mpr ⟨qs, hqs, hbs⟩, ?_⟩
        unfold instanceOf
        split
        · exact .same _
        · exact hab
    · rw [plainBind_other _ _ _ _ _ fun entries he => hd ⟨entries, he⟩]
      split
      · exact .error _ _
      · exact .error _ _

end Reordered

end World

namespace Binding

open World

/-- Two binds both give an instance, the same one but for the order of attributes, or both fail. -/
inductive SameButForOrder : Except Fault Value → Except Fault Value → Prop
  | bound (o p : Value) (h : o.unlabelled.Rearranged p.unlabelled) :
    SameButForOrder (.ok o) (.ok p)
  | failed (e f : Fault) : SameButForOrder (.error e) (.error f)

private theorem rootPayload_unlabelled (v : Value) :
    (rootPayload v).unlabelled = rootPayload v.unlabelled := by
  cases v <;> rfl

private theorem payload_congr {w u : World} (h : w.supply.origin = u.supply.origin) (data : Value) :
    w.payload data = u.payload data := by
  have hl := (Value.labelled_congr data h).1
  change (w.adopted data).unlabelled = (u.adopted data).unlabelled at hl
  rw [payload, payload, rootPayload_unlabelled, rootPayload_unlabelled, hl]

variable {s t : Session}

/-- A class that is bound in one session is bound in a session with the fields in another order. -/
theorem follows_bind (hs : s.Reachable) (ht : t.Reachable) (h : s.world.Reordered t.world)
    {binder : Nat} {cls : ClassRef} (hp : s.world.Plain binder cls) (data : Value) :
    Follows (fun o p => o.unlabelled.Rearranged p.unlabelled)
      (exec (bind binder cls data) s.world).1 (exec (bind binder cls data) t.world).1 := by
  intro o ho
  have hq := h.plain hs.distinct ht.distinct hp
  obtain ⟨as, has, hoa⟩ := bind_plain_ok hs.consistent (.refl hs.consistent) hp ho
  obtain ⟨bs, hbs, hab⟩ := h.follows_plainBind hs.distinct ht.distinct _ _ _ _ _ _ has
  have hr := (bind_plain ht.consistent (.refl ht.consistent) hq data).1
  rw [h.depthBound, payload_congr h.origin] at hbs
  rw [hbs] at hr
  rcases he : (exec (bind binder cls data) t.world).1 with e | p
  · rw [he] at hr
    cases hr
  · rw [he] at hr
    cases hr with
    | ok hpb =>
      refine ⟨p, rfl, ?_⟩
      change o.unlabelled.Rearranged p.unlabelled
      rw [hoa.2, hpb.2]
      exact hab

/-- Where neither a schema nor a schema nested in it has functions of the caller, the order in which
fields were declared decides only which error comes first: a payload is bound with either order to
the same instance but for the order of attributes, or with neither. -/
theorem bind_reordered (hs : s.Reachable) (ht : t.Reachable) (h : s.world.Reordered t.world)
    {binder : Nat} {cls : ClassRef} (hp : s.world.Plain binder cls) (data : Value) :
    SameButForOrder (exec (bind binder cls data) s.world).1
      (exec (bind binder cls data) t.world).1 := by
  have hst := follows_bind hs ht h hp data
  have hts := follows_bind ht hs h.symm (h.plain hs.distinct ht.distinct hp) data
  cases ha : (exec (bind binder cls data) s.world).1 with
  | ok o =>
    obtain ⟨p, hb, hop⟩ := hst o ha
    rw [hb]
    exact .bound o p hop
  | error e =>
    cases hb : (exec (bind binder cls data) t.world).1 with
    | ok p =>
      obtain ⟨o, ho, -⟩ := hts p hb
      rw [ha] at ho
      cases ho
    | error f => exact .failed e f

end Binding

namespace Session

open Binding

/-- A session with two schema classes for which no fields have been declared. -/
def shop : Session := initial.after [
  .newClass "Price" [.schemaBase] none [], .newClass "Sale" [.schemaBase] none []]

/-- The first class of `shop`. -/
def price : ClassRef := ⟨5, "Price", true⟩

/-- The second class of `shop`. -/
def sale : ClassRef := ⟨6, "Sale", true⟩

/-- Fields for both classes of `shop`. A sale has a price and an array of prices, and two fields
that are read under one key. -/
def saleFields : List Declaration := [
  ⟨price, "amount", [.requirement .required], some (.basic .number)⟩,
  ⟨price, "currency", [.requirement (.defaulted (.str "EUR"))], some (.basic .str)⟩,
  ⟨sale, "total", [.requirement .required], some (.cls price)⟩,
  ⟨sale, "parts", [], some (.listOf (.cls price))⟩,
  ⟨sale, "code", [.sourceKey ⟨"id", by decide⟩], some (.basic .int)⟩,
  ⟨sale, "number", [.sourceKey ⟨"id", by decide⟩], some (.basic .number)⟩]

/-- The session with the fields declared in order. -/
def forwardShop : Session := shop.after (saleFields.map (declaration 0))

/-- The session with the fields declared in the opposite order. -/
def backwardShop : Session := shop.after (saleFields.reverse.map (declaration 0))

private theorem shops_reordered : forwardShop.world.Reordered backwardShop.world := by
  apply reordered_after
  · decide +kernel
  · exact (List.reverse_perm saleFields).symm
  · decide
  · simp [saleFields, Fragment.Told, Requirement.Named, Value.Named.str]
  · decide +kernel
  · decide +kernel

private theorem forwardShop_grounded : forwardShop.Grounded :=
  Grounded.after (Grounded.initial.after (by decide +kernel)) (by decide +kernel)

private theorem backwardShop_grounded : backwardShop.Grounded :=
  Grounded.after (Grounded.initial.after (by decide +kernel)) (by decide +kernel)

private theorem forwardShop_plain : forwardShop.world.Plain 0 sale := by
  have hc : forwardShop.world.closed (fun plans => ∀ plan ∈ plans, plan.Plain)
      [(0, sale), (0, price)] = true := by decide +kernel
  exact World.throughout_of_closed hc (List.mem_cons_self ..)

/-- A sale with two prices and a number under the key that two fields are read from. -/
def soldOut : Value := .dict [
  (.str "id", .int 7),
  (.str "parts", .list [.dict [(.str "amount", .int 2), (.str "currency", .str "CHF")]] none),
  (.str "total", .dict [(.str "amount", .int 5)])]

/-- A sale in which no field has a value that it may have. -/
def unsold : Value := .dict [
  (.str "id", .str "x"), (.str "parts", .int 1), (.str "total", .dict [(.str "currency", .int 3)])]

/-- The fields in either order give the same sale of `soldOut`, and another first error of
`unsold`. -/
theorem sale_reordered :
    (SameButForOrder (exec (bind 0 sale soldOut) forwardShop.world).1
        (exec (bind 0 sale soldOut) backwardShop.world).1 ∧
      (exec (bind 0 sale soldOut) forwardShop.world).1.toOption.map Value.text =
        some ("Sale(total=Price(amount=5, currency='EUR'), " ++
          "parts=[Price(amount=2, currency='CHF')], code=7, number=7)") ∧
      (exec (bind 0 sale soldOut) backwardShop.world).1.toOption.map Value.text =
        some ("Sale(number=7, code=7, parts=[Price(currency='CHF', amount=2)], " ++
          "total=Price(currency='EUR', amount=5))")) ∧
    SameButForOrder (exec (bind 0 sale unsold) forwardShop.world).1
        (exec (bind 0 sale unsold) backwardShop.world).1 ∧
      (bindingError? (exec (bind 0 sale unsold) forwardShop.world).1).map
          (fun e => (e.typeName, e.fieldName)) = some ("Price", "amount") ∧
      (bindingError? (exec (bind 0 sale unsold) backwardShop.world).1).map
          (fun e => (e.typeName, e.fieldName)) = some ("Sale", "number") := by
  have hb := fun data => bind_reordered forwardShop_grounded.reachable
    backwardShop_grounded.reachable shops_reordered forwardShop_plain data
  refine ⟨⟨hb soldOut, ?_, ?_⟩, hb unsold, ?_, ?_⟩
  all_goals decide +kernel

end Session

end SchemaBinding
