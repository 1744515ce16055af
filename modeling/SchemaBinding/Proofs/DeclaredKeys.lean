import Mathlib.Data.List.Nodup
import SchemaBinding.Proofs.RelatedPayloads

/-!
# Only declared keys matter

Two payloads of a schema are equivalent if they say the same wherever the plan of the schema looks:
under the key of each field they hold the same, an absent value counting as null, or mappings that
are equivalent for the schema nested there. Binding cannot tell equivalent payloads apart.
-/

namespace SchemaBinding

namespace Value

/-- Without two entries under one key, what a dictionary has under a text does not depend on the
order of its entries. -/
theorem lookup?_perm {key : String} {es fs : List (Value × Value)} (hp : es.Perm fs)
    (hn : (es.map Prod.fst).Nodup) : lookup? key es = lookup? key fs := by
  induction hp with
  | nil => rfl
  | cons e _ ih =>
    obtain ⟨k, v⟩ := e
    by_cases hk : k = .str key
    · rw [hk, lookup?_cons_self, lookup?_cons_self]
    · rw [lookup?_cons_of_ne hk, lookup?_cons_of_ne hk, ih (List.nodup_cons.mp hn).2]
  | swap e f l =>
    obtain ⟨k, v⟩ := e
    obtain ⟨m, u⟩ := f
    by_cases hk : k = .str key
    · have hm : m ≠ .str key := by
        rintro rfl
        exact (List.nodup_cons.mp hn).1 (hk ▸ List.mem_cons_self ..)
      rw [lookup?_cons_of_ne hm, hk, lookup?_cons_self, lookup?_cons_self]
    · by_cases hm : m = .str key
      · rw [hm, lookup?_cons_self, lookup?_cons_of_ne hk, lookup?_cons_self]
      · simp only [lookup?_cons_of_ne hk, lookup?_cons_of_ne hm]
  | trans h₁ _ ih₁ ih₂ =>
    rw [ih₁ hn, ih₂ ((h₁.map Prod.fst).nodup_iff.mp hn)]

end Value

namespace World

mutual

/-- The two payloads of a schema say the same under the key of each field of its plan. -/
inductive Equivalent (w : World) : (binder : Nat) → ClassRef →
    (es fs : List (Value × Value)) → Prop
  | fields {binder : Nat} {cls : ClassRef} {es fs : List (Value × Value)}
    (h : ∀ plans, w.plansFor binder cls = .ok plans → ∀ plan ∈ plans,
      FieldEquivalent w binder plan.kind (Value.given plan.sourceKey es)
        (Value.given plan.sourceKey fs)) :
    Equivalent w binder cls es fs

/-- The two values of a field hold the same, or are equivalent payloads of the schema nested there,
or arrays with such elements. -/
inductive FieldEquivalent (w : World) : (binder : Nat) → Option ValueKind → (a b : Value) → Prop
  | same {binder : Nat} {kind : Option ValueKind} {a b : Value}
    (h : a.unlabelled = b.unlabelled) : FieldEquivalent w binder kind a b
  | nested {binder : Nat} {cls : ClassRef} {es fs : List (Value × Value)}
    (h : Equivalent w (w.nestedBinder binder cls) cls es fs) :
    FieldEquivalent w binder (some (.scalar (.schema cls))) (.dict es) (.dict fs)
  | items {binder : Nat} {cls : ClassRef} {a b : Value} {xs ys : List Value}
    (ha : Binding.arrayItems? a = some xs) (hb : Binding.arrayItems? b = some ys)
    (h : ItemsEquivalent w binder cls xs ys) :
    FieldEquivalent w binder (some (.array (some (.schema cls)))) a b

/-- The elements of two arrays of a schema hold the same or are equivalent payloads, one by one. -/
inductive ItemsEquivalent (w : World) : (binder : Nat) → ClassRef → (xs ys : List Value) → Prop
  | nil {binder : Nat} {cls : ClassRef} : ItemsEquivalent w binder cls [] []
  | same {binder : Nat} {cls : ClassRef} {x y : Value} {xs ys : List Value}
    (h : x.unlabelled = y.unlabelled) (hs : ItemsEquivalent w binder cls xs ys) :
    ItemsEquivalent w binder cls (x :: xs) (y :: ys)
  | nested {binder : Nat} {cls : ClassRef} {es fs : List (Value × Value)} {xs ys : List Value}
    (h : Equivalent w (w.nestedBinder binder cls) cls es fs)
    (hs : ItemsEquivalent w binder cls xs ys) :
    ItemsEquivalent w binder cls (.dict es :: xs) (.dict fs :: ys)

end

/-- The two payloads of a bind hold the same, or are equivalent mappings; null counts as an empty
one. -/
def PayloadEquivalent (w : World) (binder : Nat) (cls : ClassRef) (a b : Value) : Prop :=
  a.unlabelled = b.unlabelled ∨ ∃ es fs, Binding.rootPayload a = .dict es ∧
    Binding.rootPayload b = .dict fs ∧ w.Equivalent binder cls es fs

/-- A key that no field of a schema is read from. -/
def Undeclared (w : World) (binder : Nat) (cls : ClassRef) (key : Value) : Prop :=
  ∀ plans, w.plansFor binder cls = .ok plans → ∀ plan ∈ plans, key ≠ .str plan.sourceKey

section Equivalent

variable {w : World} {binder : Nat} {cls : ClassRef}

/-- Payloads that give the same under the key of each field are equivalent. -/
theorem Equivalent.of_given {es fs : List (Value × Value)}
    (h : ∀ plans, w.plansFor binder cls = .ok plans → ∀ plan ∈ plans,
      Value.given plan.sourceKey es = Value.given plan.sourceKey fs) :
    w.Equivalent binder cls es fs := by
  refine .fields fun plans hp plan hm => ?_
  rw [h plans hp plan hm]
  exact .same rfl

/-- An entry under a key that no field is read from makes no difference. -/
theorem Equivalent.undeclared {key : Value} (h : w.Undeclared binder cls key) (v : Value)
    (before after : List (Value × Value)) :
    w.Equivalent binder cls (before ++ (key, v) :: after) (before ++ after) := by
  refine .of_given fun plans hp plan hm => ?_
  rw [Value.given, Value.given, Value.lookup?_append, Value.lookup?_append,
    Value.lookup?_cons_of_ne (h plans hp plan hm)]

/-- An entry that holds null makes no difference, if there is no other under its key. -/
theorem Equivalent.null {key : Value} {before after : List (Value × Value)}
    (h : key ∉ after.map Prod.fst) :
    w.Equivalent binder cls (before ++ (key, .null) :: after) (before ++ after) := by
  refine .of_given fun plans _ plan _ => ?_
  rw [Value.given, Value.given, Value.lookup?_append, Value.lookup?_append]
  by_cases hk : key = .str plan.sourceKey
  · have hn : Value.lookup? plan.sourceKey after = none := Value.lookup?_eq_none (hk ▸ h)
    rw [hk, Value.lookup?_cons_self, hn]
    cases Value.lookup? plan.sourceKey before <;> rfl
  · rw [Value.lookup?_cons_of_ne hk]

/-- The order of the keys makes no difference. -/
theorem Equivalent.perm {es fs : List (Value × Value)} (hp : es.Perm fs)
    (hn : (es.map Prod.fst).Nodup) : w.Equivalent binder cls es fs := by
  refine .of_given fun plans _ plan _ => ?_
  rw [Value.given, Value.given, Value.lookup?_perm hp hn]

/-- The keys and kinds of the fields of a schema, in the order of its plan, if it compiles. -/
def keysOf (w : World) (binder : Nat) (cls : ClassRef) :
    Option (List (String × Option ValueKind)) :=
  (w.plansFor binder cls).toOption.map fun plans => plans.map fun p => (p.sourceKey, p.kind)

private theorem Equivalent.of_keysOf {keys : List (String × Option ValueKind)}
    (hk : w.keysOf binder cls = some keys) {es fs : List (Value × Value)}
    (h : ∀ k ∈ keys, w.FieldEquivalent binder k.2 (Value.given k.1 es) (Value.given k.1 fs)) :
    w.Equivalent binder cls es fs := by
  refine .fields fun plans hp plan hm => ?_
  rw [keysOf, hp] at hk
  cases hk
  exact h _ (List.mem_map_of_mem hm)

end Equivalent

end World

namespace Binding

open World

variable {w₀ : World} {E : Fault → Prop}

/-! ### Raw values of equivalent payloads -/

private theorem scalarLike_of_items {binder : Nat} {cls : ClassRef} {xs ys : List Value}
    (h : w₀.ItemsEquivalent binder cls xs ys) (hx : ∀ x ∈ xs, x.Settled)
    (hy : ∀ y ∈ ys, y.Settled) :
    List.Forall₂ (ScalarLike Value.Alike (NestedRelated w₀ w₀.Equivalent binder) (.schema cls))
      xs ys := by
  induction xs generalizing ys with
  | nil =>
    cases h
    exact .nil
  | cons x xs ih =>
    obtain ⟨hx, hxs⟩ := List.forall_mem_cons.mp hx
    cases h with
    | same h hs =>
      obtain ⟨hy, hys⟩ := List.forall_mem_cons.mp hy
      exact .cons (.alike (hx.alike hy h)) (ih hs hxs hys)
    | nested h hs =>
      obtain ⟨hy, hys⟩ := List.forall_mem_cons.mp hy
      exact .cons (.nested ⟨hx, hy, h⟩) (ih hs hxs hys)

/-- The raw values of a field are related if the payloads are equivalent under its key. -/
theorem rawLike_of_equivalent {binder : Nat} {plan : FieldPlan} {es fs : List (Value × Value)}
    (he : (Value.dict es).Settled) (hf : (Value.dict fs).Settled)
    (h : w₀.FieldEquivalent binder plan.kind (Value.given plan.sourceKey es)
      (Value.given plan.sourceKey fs)) :
    RawLike Value.Alike (NestedRelated w₀ w₀.Equivalent binder) plan.kind (rawValue plan es)
      (rawValue plan fs) := by
  have hse := settled_given he plan.sourceKey
  have hsf := settled_given hf plan.sourceKey
  have hraw : ∀ {entries : List (Value × Value)} {v : Value},
      Value.given plan.sourceKey entries = v → v ≠ .null → rawValue plan entries = v := by
    rintro entries v rfl hv
    exact rawValue_of_ne_null hv
  generalize hge : Value.given plan.sourceKey es = a at h hse
  generalize hgf : Value.given plan.sourceKey fs = b at h hsf
  generalize hk : plan.kind = kind at h ⊢
  cases h with
  | same h =>
    rw [← hk]
    refine rawLike_of_alike ?_
    rw [hge, hgf]
    exact hse.alike hsf h
  | nested h =>
    rw [hraw hge nofun, hraw hgf nofun]
    exact .scalar hse hsf (.nested ⟨hse, hsf, h⟩)
  | items ha hb h =>
    have hae : a ≠ .null := by rintro rfl; cases ha
    have hbe : b ≠ .null := by rintro rfl; cases hb
    rw [hraw hge hae, hraw hgf hbe]
    exact .items hse hsf ha hb (scalarLike_of_items h (hse.items ha) (hsf.items hb))

/-! ### Binding equivalent payloads -/

/-- Equivalent payloads stay equivalent from field to field. -/
theorem fieldwise_equivalent : Fieldwise w₀ E w₀.Equivalent := by
  intro binder cls es fs plans he hf h hp plan hm
  cases h with
  | fields h =>
    exact (rawLike_of_equivalent he hf (h plans hp plan hm)).told Value.likeness_alike
      (twinned_paired w₀)

private theorem payloadLike_of_equivalent {binder : Nat} {cls : ClassRef} {a b : Value}
    (ha : a.Settled) (hb : b.Settled) (h : w₀.PayloadEquivalent binder cls a b) :
    PayloadLike w₀.Equivalent binder cls (rootPayload a) (rootPayload b) := by
  rcases h with h | ⟨es, fs, hes, hfs, h⟩
  · exact .alike (alike_rootPayload (ha.alike hb h))
  · have hse := settled_rootPayload ha
    have hsf := settled_rootPayload hb
    rw [hes] at hse
    rw [hfs] at hsf
    rw [hes, hfs]
    exact .related hse hsf h

private theorem sideBySide_bindAttrs_equivalent {binder : Nat} (cls : ClassRef) {a b : Value}
    (ha : a.Settled) (hb : b.Settled) (h : w₀.PayloadEquivalent binder cls a b) :
    SideBySide (Paired w₀) E (FaultLike Value.Alike) (AttrsLike Value.Alike)
      (bindAttrs planOf binder cls a) (bindAttrs planOf binder cls b) := by
  refine sideBySide_bindAttrs_related fieldwise_equivalent ?_
  apply (sideBySide_adopt_settled ha hb).imp
  rintro _ _ ⟨rfl, rfl⟩
  exact payloadLike_of_equivalent ha hb h

/-- Payloads that are equivalent for a schema are bound alike. In particular it makes no difference
what stands under keys that no field is read from, in which order the keys come, and whether a value
is null or absent. -/
theorem bind_equivalent {s : Session} (hs : s.Reachable) (binder : Nat) (cls : ClassRef) :
    (∀ a b : Value, a.Settled → b.Settled → s.world.PayloadEquivalent binder cls a b →
      BoundAlike s.world binder cls a b) ∧
    (∀ key v before after, s.world.Undeclared binder cls key →
      s.world.Equivalent binder cls (before ++ (key, v) :: after) (before ++ after)) ∧
    (∀ es fs : List (Value × Value), es.Perm fs → (es.map Prod.fst).Nodup →
      s.world.Equivalent binder cls es fs) ∧
    ∀ (key : Value) before after, key ∉ after.map Prod.fst →
      s.world.Equivalent binder cls (before ++ (key, .null) :: after) (before ++ after) := by
  refine ⟨fun a b ha hb h => ?_, fun key v before after h => .undeclared h v before after,
    fun es fs hp hn => .perm hp hn, fun key before after h => .null h⟩
  exact boundAlike_of_sideBySide hs.consistent (sideBySide_bindAttrs_equivalent cls ha hb h)

end Binding

namespace Session

open Binding

/-- The payload of a route that says the same as `detour`: with a key that is declared nowhere, the
name of a field that is read under another key, nulls, and the keys in another order. -/
def noisyDetour : Value :=
  .dict [(.str "lanes", .null), (.str "stops", .int 7),
    (.str "via", .tuple [.dict [(.str "y", .null), (.str "x", .int 3)], .dict [(.str "x", .null)]])]

private theorem routing_points {es fs : List (Value × Value)}
    (h : (Value.given "x" es).unlabelled = (Value.given "x" fs).unlabelled) :
    routing.world.Equivalent 0 point es fs := by
  have hk : routing.world.keysOf 0 point = some [("x", some (.scalar (.primitive .int)))] := by
    decide +kernel
  refine .of_keysOf hk fun k hm => ?_
  rw [List.mem_singleton.mp hm]
  exact .same h

private theorem detour_equivalent : routing.world.PayloadEquivalent 0 route detour noisyDetour := by
  have hk : routing.world.keysOf 0 route =
      some [("via", some (.array (some (.schema point)))),
        ("lanes", some (.scalar (.primitive .int)))] := by
    decide +kernel
  have hn : routing.world.nestedBinder 0 point = 0 := by decide +kernel
  refine .inr ⟨_, _, rfl, rfl, .of_keysOf hk fun k hm => ?_⟩
  rcases List.mem_cons.mp hm with rfl | hm
  · refine .items rfl rfl (.nested ?_ (.nested ?_ .nil))
    · rw [hn]
      exact routing_points rfl
    · rw [hn]
      exact routing_points rfl
  · rw [List.mem_singleton.mp hm]
    exact .same rfl

/-- The route in `noisyDetour` is the one in `detour`. -/
theorem noisyDetour_bound_alike : BoundAlike routing.world 0 route detour noisyDetour := by
  have hd : detour.Settled := Value.settled_labelled detour ⟨0, 0⟩
  have hn : noisyDetour.Settled := Value.settled_labelled noisyDetour ⟨0, 0⟩
  exact (bind_equivalent routing_reachable 0 route).1 _ _ hd hn detour_equivalent

end Session

end SchemaBinding
