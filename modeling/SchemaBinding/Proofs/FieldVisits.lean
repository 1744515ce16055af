import SchemaBinding.Proofs.FieldFailures
import SchemaBinding.Proofs.NestingDepth

/-!
# Coming to a field

The run of an entry binds the fields of its schema one after another, until one fails. A `Visit` is
the moment at which the run comes to a field: those before it have been bound. Whatever a run fails
with once its plans are known is what the field fails with that it has come to last.
-/

namespace SchemaBinding

namespace Binding

open World

/-- Fields that cannot all be bound are bound up to one that fails. -/
theorem exec_bindFields_error {enter : Enter} {cls : ClassRef} {entries : List (Value × Value)}
    {plans : List FieldPlan} {attrs : List (String × Value)} {w x : World} {f : Fault}
    (h : exec (bindFields enter cls entries plans attrs) w = (.error f, x)) :
    ∃ before plan after bound v, plans = before ++ plan :: after ∧
      exec (bindFields enter cls entries before attrs) w = (.ok bound, v) ∧
      exec (bindField enter cls entries plan bound) v = (.error f, x) := by
  induction plans generalizing attrs w with
  | nil => cases h
  | cons plan plans ih =>
    rw [bindFields] at h
    rcases hb : exec (bindField enter cls entries plan attrs) w with ⟨g | bound, v⟩
    · rw [exec_bind_of_error hb] at h
      exact ⟨[], plan, plans, attrs, w, rfl, rfl, hb.trans h⟩
    · rw [exec_bind_of_ok hb] at h
      obtain ⟨before, q, after, bound', v', rfl, hbefore, hq⟩ := ih h
      refine ⟨plan :: before, q, after, bound', v', rfl, ?_, hq⟩
      rw [bindFields, exec_bind_of_ok hb]
      exact hbefore

/-- What holds over the binding of each field, as far as binding the fields gets, holds over the
binding of all. -/
theorem rel_bindFields {R : World → World → Prop} (hrefl : ∀ w, R w w)
    (htrans : ∀ w v x, R w v → R v x → R w x) {enter : Enter} {cls : ClassRef}
    {entries : List (Value × Value)} {plans : List FieldPlan} {attrs : List (String × Value)}
    {w : World}
    (h : ∀ before plan after bound v, plans = before ++ plan :: after →
      exec (bindFields enter cls entries before attrs) w = (.ok bound, v) →
      R v (exec (bindField enter cls entries plan bound) v).2) :
    R w (exec (bindFields enter cls entries plans attrs) w).2 := by
  induction plans generalizing attrs w with
  | nil => exact hrefl w
  | cons plan plans ih =>
    refine rel_exec_bind htrans (h [] plan plans attrs w rfl rfl) fun bound v hb _ => ?_
    refine ih fun before q after bound' v' hs hbefore => ?_
    refine h (plan :: before) q after bound' v' (by rw [hs]; rfl) ?_
    rw [bindFields, exec_bind_of_ok hb]
    exact hbefore

namespace Entry

variable {e : Entry}

/-- The run of an entry comes to a field. -/
structure Visit (e : Entry) where
  /-- What the payload holds. -/
  entries : List (Value × Value)
  /-- The fields that have been bound. -/
  before : List FieldPlan
  /-- The field. -/
  plan : FieldPlan
  /-- The fields after it. -/
  after : List FieldPlan
  /-- The attributes to which the fields before it have been bound. -/
  attrs : List (String × Value)
  /-- The world at that moment. -/
  world : World
  data_eq : e.data = .dict entries
  depth_le : e.depth ≤ (e.world.binder e.binder).maxDepth
  reached : ∃ v, exec (planOf (e.world.binder e.binder).registry e.cls) e.world =
    (.ok (before ++ plan :: after), v) ∧
      exec (bindFields e.enter e.cls entries before []) v = (.ok attrs, world)

/-- Within the depth limit the run of an entry binds the fields of its schema. -/
theorem run_of_data {entries : List (Value × Value)} (h : e.data = .dict entries)
    (hd : e.depth ≤ (e.world.binder e.binder).maxDepth) :
    e.run = exec (do
      let plans ← planOf (e.world.binder e.binder).registry e.cls
      bindFields e.enter e.cls entries plans []) e.world := by
  obtain ⟨w, binder, depth, cls, data⟩ := e
  cases h
  exact run_dict cls entries hd

namespace Visit

variable (visit : e.Visit)

/-- The raw value of the field. -/
def raw : Value := rawValue visit.plan visit.entries

/-- What binding the field gives, and the world after it. -/
def outcome : Except Fault (List (String × Value)) × World :=
  exec (bindField e.enter e.cls visit.entries visit.plan visit.attrs) visit.world

/-- From where it has come to a field, a run binds the field and then those after it. -/
theorem run_eq : e.run = exec (do
    let attrs ← bindField e.enter e.cls visit.entries visit.plan visit.attrs
    bindFields e.enter e.cls visit.entries visit.after attrs) visit.world := by
  obtain ⟨v, hp, hb⟩ := visit.reached
  rw [run_of_data visit.data_eq visit.depth_le, exec_bind_of_ok hp, bindFields_append,
    exec_bind_of_ok hb, bindFields]

/-- A run fails with the field that it has come to. -/
theorem run_error {f : Fault} {x : World} (h : visit.outcome = (.error f, x)) :
    e.run = (.error f, x) := by
  rw [visit.run_eq]
  exact exec_bind_of_error h _

/-- A field that a run comes to is one of the schema, and so are those before and after it. -/
theorem plansFor_eq (hw : e.world.Consistent) :
    e.world.plansFor e.binder e.cls = .ok (visit.before ++ visit.plan :: visit.after) := by
  obtain ⟨v, hp, -⟩ := visit.reached
  have hc := fst_exec_planOf hw (e.world.binder e.binder).registry e.cls
  rw [hp] at hc
  exact hc.symm

/-- The field that is visited is one of the schema. -/
theorem plan_mem : visit.plan ∈ visit.before ++ visit.plan :: visit.after :=
  List.mem_append_right _ (List.mem_cons_self ..)

/-- A schema that the conversion of the field comes to enter is an entry that the run makes. -/
theorem enters {kind : ValueKind} {nested : ClassRef} {payload : List (Value × Value)} {x : World}
    (hk : visit.plan.kind = some kind)
    (ho : Opens e.enter e.cls.name visit.plan.name kind (visit.world.adopted visit.raw)
      (visit.world.adopting visit.raw) nested payload x) :
    Next e ⟨x, e.world.nestedBinder e.binder nested, e.depth + 1, nested, .dict payload⟩ := by
  obtain ⟨entries, before, plan, after, attrs, world, hdata, hd, v, hp, hb⟩ := visit
  obtain ⟨w, binder, depth, cls, data⟩ := e
  cases hdata
  exact .field hd hp hb hk ho

/-- An entry that a run makes is made in the conversion of a field that the run has come to. -/
theorem exists_of_next {next : Entry} (h : Next e next) :
    ∃ (visit : e.Visit) (kind : ValueKind) (payload : List (Value × Value)),
      visit.plan.kind = some kind ∧ next.data = .dict payload ∧
        Opens e.enter e.cls.name visit.plan.name kind (visit.world.adopted visit.raw)
          (visit.world.adopting visit.raw) next.cls payload next.world := by
  cases h with
  | field hd hp hb hk ho => exact ⟨⟨_, _, _, _, _, _, rfl, hd, _, hp, hb⟩, _, _, hk, rfl, ho⟩

/-! ### From field to field -/

section Relation

variable {R : World → World → Prop} (hrefl : ∀ w, R w w) (htrans : ∀ w v x, R w v → R v x → R w x)
  (hplans : R e.world (exec (planOf (e.world.binder e.binder).registry e.cls) e.world).2)
  (hfield : ∀ visit : e.Visit, R visit.world visit.outcome.2)

include hrefl htrans hfield

/-- What holds over the binding of each field that a run comes to holds from the end of one of them
to the end of the run. -/
theorem rel_after : R visit.outcome.2 e.run.2 := by
  rcases hx : visit.outcome with ⟨g | bound, x⟩
  · rw [visit.run_error hx]
    exact hrefl x
  rw [outcome] at hx
  rw [visit.run_eq, exec_bind_of_ok hx]
  refine rel_bindFields hrefl htrans fun before plan after bound' y hs hb => ?_
  obtain ⟨v, hp, hv⟩ := visit.reached
  refine hfield ⟨visit.entries, visit.before ++ visit.plan :: before, plan, after, bound', y,
    visit.data_eq, visit.depth_le, v, ?_, ?_⟩
  · rw [hp, hs, List.append_assoc, List.cons_append]
  · rw [bindFields_append, exec_bind_of_ok hv, bindFields, exec_bind_of_ok hx, hb]

include hplans

/-- What holds over the binding of each field that a run comes to holds from the beginning of the
run to one of them. -/
theorem rel_before : R e.world visit.world := by
  obtain ⟨v, hp, hv⟩ := visit.reached
  have hb : R v (exec (bindFields e.enter e.cls visit.entries visit.before []) v).2 := by
    refine rel_bindFields hrefl htrans fun before plan after bound x hs hb => ?_
    refine hfield ⟨visit.entries, before, plan, after ++ visit.plan :: visit.after, bound, x,
      visit.data_eq, visit.depth_le, v, ?_, hb⟩
    rw [hp, hs, List.append_assoc, List.cons_append]
  rw [hp] at hplans
  rw [hv] at hb
  exact htrans _ _ _ hplans hb

end Relation

end Visit

/-- What holds over the binding of each field that a run comes to holds over the run. -/
theorem rel_run {R : World → World → Prop} (hrefl : ∀ w, R w w)
    (htrans : ∀ w v x, R w v → R v x → R w x)
    (hplans : R e.world (exec (planOf (e.world.binder e.binder).registry e.cls) e.world).2)
    (hfield : ∀ visit : e.Visit, R visit.world visit.outcome.2) : R e.world e.run.2 := by
  by_cases hdepth : (e.world.binder e.binder).maxDepth < e.depth
  · rw [run_tooDeep hdepth]
    exact hrefl _
  have hle := Nat.le_of_not_lt hdepth
  by_cases hdata : ∀ entries, e.data ≠ .dict entries
  · rw [run_other hle hdata]
    exact hrefl _
  simp only [not_forall, not_not] at hdata
  obtain ⟨entries, hdata⟩ := hdata
  rw [run_of_data hdata hle]
  refine rel_exec_bind htrans hplans fun plans v hv _ => ?_
  refine rel_bindFields hrefl htrans fun before plan after bound x hs hb => ?_
  exact hfield ⟨entries, before, plan, after, bound, x, hdata, hle, v, hs ▸ hv, hb⟩

/-- A run that fails with a binding error fails because the schema lies too deep, or because the
payload is no mapping, or with a field that it has come to. -/
theorem run_binding_cases {error : BindingError} (hw : e.world.Consistent)
    (h : e.run.1 = .error (.binding error)) :
    (e.world.binder e.binder).maxDepth < e.depth ∧
        error = ⟨e.cls.name, rootField, .tooDeep (e.world.binder e.binder).maxDepth⟩ ∨
      (∀ entries, e.data ≠ .dict entries) ∧
        error = ⟨e.cls.name, rootField, .mismatch JsonKind.object.name e.data.kind none⟩ ∨
      ∃ visit : e.Visit, visit.outcome.1 = .error (.binding error) := by
  by_cases hdepth : (e.world.binder e.binder).maxDepth < e.depth
  · rw [run_tooDeep hdepth] at h
    exact .inl ⟨hdepth, (Fault.eq_of_ofBinding (Except.error.inj h)).1.symm⟩
  have hle := Nat.le_of_not_lt hdepth
  by_cases hdata : ∀ entries, e.data ≠ .dict entries
  · rw [run_other hle hdata] at h
    exact .inr (.inl ⟨hdata, (Fault.eq_of_ofBinding (Except.error.inj h)).1.symm⟩)
  simp only [not_forall, not_not] at hdata
  obtain ⟨entries, hdata⟩ := hdata
  have hplans := fst_exec_planOf hw (e.world.binder e.binder).registry e.cls
  rw [run_of_data hdata hle] at h
  rcases hv : exec (planOf (e.world.binder e.binder).registry e.cls) e.world with ⟨g | plans, v⟩
  · rw [hv] at hplans
    rw [exec_bind_of_error hv] at h
    exact absurd (Except.error.inj h) (failsOnly_compile _ _ _ g hplans.symm error)
  · rw [exec_bind_of_ok hv] at h
    obtain ⟨before, plan, after, bound, u, rfl, hb, he⟩ := exec_bindFields_error (Prod.ext h rfl)
    exact .inr (.inr
      ⟨⟨entries, before, plan, after, bound, u, hdata, hle, v, hv, hb⟩, congrArg Prod.fst he⟩)

end Entry

end Binding

end SchemaBinding
