import Mathlib.Data.List.Nodup
import SchemaBinding.Proofs.PlainFields
import SchemaBinding.Proofs.PlainRun

/-!
# The attributes of a new record

Setting an attribute puts its value under its name and touches no other. Binding only ever sets
attributes, its own and those that functions ask for, so that no two attributes of a new record have
the same name.
-/

namespace SchemaBinding

namespace Value

variable {attrs added : List (String × Value)} {name : String}

/-- An attribute that is set has its new value, and every other one the value that it had. -/
theorem attr?_setAttr (attrs : List (String × Value)) (n : String) (v : Value) (name : String) :
    attr? name (setAttr attrs n v) = if n = name then some v else attr? name attrs := by
  induction attrs with
  | nil => simp [setAttr, attr?_cons]
  | cons a rest ih =>
    obtain ⟨m, u⟩ := a
    by_cases hm : m = n
    · subst hm
      simp only [setAttr, beq_self_eq_true, if_true, attr?_cons]
      split <;> rfl
    · rw [setAttr, if_neg (by simpa using hm), attr?_cons, attr?_cons, ih]
      by_cases hn : n = name
      · subst hn
        rw [if_pos rfl, if_neg hm, if_pos rfl]
      · rw [if_neg hn, if_neg hn]

private theorem map_fst_setAttr (attrs : List (String × Value)) (n : String) (v : Value) :
    (setAttr attrs n v).map Prod.fst =
      if n ∈ attrs.map Prod.fst then attrs.map Prod.fst else attrs.map Prod.fst ++ [n] := by
  induction attrs with
  | nil => rfl
  | cons a rest ih =>
    obtain ⟨m, u⟩ := a
    by_cases hm : m = n
    · subst hm
      simp [setAttr]
    · simp only [setAttr, beq_eq_false_iff_ne.mpr hm, Bool.false_eq_true, if_false,
        List.map_cons, ih, List.mem_cons, Ne.symm hm, false_or]
      split <;> rfl

/-- The names of attributes stay distinct as one is set. -/
theorem nodup_setAttr (h : (attrs.map Prod.fst).Nodup) (n : String) (v : Value) :
    ((setAttr attrs n v).map Prod.fst).Nodup := by
  rw [map_fst_setAttr]
  split
  · exact h
  · next hn =>
    have hd : (attrs.map Prod.fst).Disjoint [n] := fun m hm he => hn (List.mem_singleton.mp he ▸ hm)
    exact h.append (List.nodup_singleton n) hd

end Value

namespace Binding

open World

/-- Attributes have distinct names. -/
def DistinctAttrs (attrs : List (String × Value)) : Prop := (attrs.map Prod.fst).Nodup

variable {attrs added : List (String × Value)}

/-- Attributes that are laid over others are set, and the others stay as they were. -/
theorem attr?_overlay (attrs : List (String × Value)) (h : DistinctAttrs added) (name : String) :
    Value.attr? name (overlay attrs added) =
      (Value.attr? name added).or (Value.attr? name attrs) := by
  induction added generalizing attrs with
  | nil => rfl
  | cons a rest ih =>
    obtain ⟨ha, hrest⟩ := List.nodup_cons.mp h
    change Value.attr? name (overlay (Value.setAttr attrs a.1 a.2) rest) = _
    rw [ih _ hrest, Value.attr?_setAttr, Value.attr?_cons]
    by_cases hn : a.1 = name
    · subst hn
      simp [Value.attr?_eq_none_iff.mpr ha]
    · simp [hn]

/-- Attributes laid over none are these attributes in their order. -/
theorem overlay_of_distinct (h : DistinctAttrs (attrs ++ added)) :
    overlay attrs added = attrs ++ added := by
  induction added generalizing attrs with
  | nil => exact (List.append_nil attrs).symm
  | cons a rest ih =>
    have hfresh : a.1 ∉ attrs.map Prod.fst := by
      rw [DistinctAttrs, List.map_append, List.map_cons] at h
      exact fun hm => List.disjoint_of_nodup_append h hm List.mem_cons_self
    change overlay (Value.setAttr attrs a.1 a.2) rest = _
    rw [setAttr_of_fresh hfresh, ih (by rwa [List.append_assoc]), List.append_assoc]
    rfl

/-! ### What actions give -/

variable {α β : Type} {P : α → Prop} {Q : β → Prop}

/-- Whatever an action gives has a property. -/
def Yields (P : α → Prop) (a : Action α) : Prop := ∀ w x, (exec a w).1 = .ok x → P x

/-- An action that only returns yields what it returns. -/
theorem Yields.pure {x : α} (h : P x) : Yields P (pure x) := by
  intro w y hy
  cases hy
  exact h

/-- An action that fails yields anything. -/
theorem Yields.error (f : Fault) : Yields P (throw f) := fun _ _ h => nomatch h

/-- A sequence yields what its second part yields of what the first part yields. -/
theorem Yields.bind {a : Action α} {f : α → Action β} (ha : Yields P a)
    (hf : ∀ x, P x → Yields Q (f x)) : Yields Q (a >>= f) := by
  intro w y hy
  obtain ⟨x, u, hx, hfx⟩ := exec_bind_eq_ok_iff.mp (Prod.ext hy rfl)
  exact hf x (ha w x (congrArg Prod.fst hx)) u y (congrArg Prod.fst hfx)

/-- What comes before matters to what a sequence gives only if it is used. -/
theorem Yields.after {a : Action α} {f : α → Action β} (hf : ∀ x, Yields Q (f x)) :
    Yields Q (a >>= f) :=
  Yields.bind (P := fun _ => True) (fun _ _ _ => trivial) fun x _ => hf x

/-! ### Records -/

private theorem yields_setGiven (kept argument : Value) (sets : List (String × Given))
    (h : DistinctAttrs attrs) : Yields DistinctAttrs (setGiven kept argument sets attrs) := by
  induction sets generalizing attrs with
  | nil => exact .pure h
  | cons s rest ih => exact .after fun v => ih (Value.nodup_setAttr h s.1 v)

private theorem yields_call (cls : ClassRef) (field : String) (h : DistinctAttrs attrs)
    (f : UserFunction)
    (value : Value) : Yields (fun r => DistinctAttrs r.1) (call cls field attrs f value) := by
  refine .after fun w => .after fun _ => ?_
  split
  · exact .error _
  · exact .error _
  · split
    · exact .error _
    · exact .bind (yields_setGiven _ value _ h) fun attrs h => .after fun v => .pure h

private theorem yields_transform (cls : ClassRef) (field : String) (fs : List UserFunction)
    (h : DistinctAttrs attrs) (value : Value) :
    Yields (fun r => DistinctAttrs r.1) (transform cls field fs attrs value) := by
  induction fs generalizing attrs value with
  | nil => exact .pure h
  | cons f fs ih =>
    refine .bind (yields_call cls field h f value) fun r hr => ?_
    obtain ⟨attrs, replacement⟩ := r
    cases replacement with
    | null => exact ih hr value
    | _ => exact ih hr _

private theorem yields_check (cls : ClassRef) (field : String) (h : DistinctAttrs attrs)
    (value : Value)
    (c : Check) : Yields DistinctAttrs (check cls field attrs value c) := by
  cases c with
  | comparison c => exact .after fun _ => .pure h
  | custom predicate =>
    refine .bind (yields_call cls field h predicate value) fun r hr => ?_
    obtain ⟨attrs, verdict⟩ := r
    dsimp only
    split
    · split
      · exact .error _
      · exact .error _
    · exact .pure hr

private theorem yields_checkAll (cls : ClassRef) (field : String) (value : Value) (cs : List Check)
    (h : DistinctAttrs attrs) : Yields DistinctAttrs (checkAll cls field value cs attrs) := by
  induction cs generalizing attrs with
  | nil => exact .pure h
  | cons c cs ih => exact .bind (yields_check cls field h value c) fun attrs h => ih h

private theorem yields_resolve (enter : Enter) (cls : ClassRef) (plan : FieldPlan)
    (h : DistinctAttrs attrs)
    (raw : Value) : Yields (fun r => DistinctAttrs r.1) (resolve enter cls plan attrs raw) := by
  unfold resolve
  split
  · exact yields_transform cls plan.name plan.transforms h raw
  · refine .after fun _ => .after fun value => .after fun _ => ?_
    refine .bind (yields_transform cls plan.name plan.transforms h value) fun r hr => ?_
    refine .bind (yields_checkAll cls plan.name r.2 plan.checks hr) fun attrs h => ?_
    exact .after fun _ => .pure h

private theorem yields_assign (cls : ClassRef) (h : DistinctAttrs attrs) (name : String)
    (value : Value) :
    Yields DistinctAttrs (assign cls attrs name value) := by
  refine .after fun w => ?_
  split
  · exact .pure (Value.nodup_setAttr h name value)
  · exact .error _

private theorem yields_bindField (enter : Enter) (cls : ClassRef) (entries : List (Value × Value))
    (plan : FieldPlan) (h : DistinctAttrs attrs) :
    Yields DistinctAttrs (bindField enter cls entries plan attrs) := by
  unfold bindField
  split
  · split
    · exact .error _
    · exact .pure h
  · refine .after fun raw => .bind (yields_resolve enter cls plan h raw) fun r hr => ?_
    exact yields_assign cls hr plan.name r.2

private theorem yields_bindFields (enter : Enter) (cls : ClassRef) (entries : List (Value × Value))
    (plans : List FieldPlan) (h : DistinctAttrs attrs) :
    Yields DistinctAttrs (bindFields enter cls entries plans attrs) := by
  induction plans generalizing attrs with
  | nil => exact .pure h
  | cons plan plans ih => exact .bind (yields_bindField enter cls entries plan h) fun _ h => ih h

private theorem yields_populate (source : PlanSource) (levels binder depth : Nat) (cls : ClassRef)
    (data : Value) : Yields DistinctAttrs (populate source levels binder depth cls data) := by
  cases levels with
  | zero => exact .after fun _ => .error _
  | succ levels =>
    refine .after fun w => ?_
    dsimp only
    split
    · exact .error _
    · split
      · exact .after fun plans => yields_bindFields _ cls _ plans List.nodup_nil
      · exact .error _

private theorem yields_reporting {cls : ClassRef} {a : Action α} (h : Yields P a) :
    Yields P (reporting cls a) := by
  intro w x hx
  rw [reporting, exec_tryCatch] at hx
  rcases ha : exec a w with ⟨f | y, u⟩
  · rw [ha] at hx
    cases f <;> cases hx
  · rw [ha] at hx
    cases hx
    exact h w x (congrArg Prod.fst ha)

/-- No two attributes of a new record have the same name. -/
theorem yields_bindAttrs (source : PlanSource) (binder : Nat) (cls : ClassRef) (data : Value) :
    Yields DistinctAttrs (bindAttrs source binder cls data) :=
  .after fun _ => .after fun _ => yields_reporting (yields_populate source _ binder 0 cls _)

end Binding

end SchemaBinding
