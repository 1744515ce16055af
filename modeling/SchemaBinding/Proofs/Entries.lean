import SchemaBinding.Proofs.RaisedLimits

/-!
# Entering nested schemas

While a record is bound, the schemas nested in it are entered one after another. An `Entry` is the
moment at which a payload is about to be bound to a schema at a depth, with a binder, in a world;
`Next` leads from it to the entries that its run makes, as far as the run gets. A run fails as soon
as one of those entries does, and it depends on them only.
-/

namespace SchemaBinding

namespace Binding

open World

/-- A payload that is about to be bound to a schema. -/
structure Entry where
  /-- The world at that moment. -/
  world : World
  /-- The number of the binder. -/
  binder : Nat
  /-- How deep the schema is nested. -/
  depth : Nat
  /-- The class of the schema. -/
  cls : ClassRef
  /-- The payload. -/
  data : Value

/-- In the given world a conversion to a kind comes to enter a schema nested in the value: the value
is its payload, or an element of the value is and all elements before it have been converted. -/
inductive Opens (enter : Enter) (typeName field : String) :
    ValueKind → Value → World → ClassRef → List (Value × Value) → World → Prop
  | field {nested : ClassRef} {entries : List (Value × Value)} {w : World} :
    Opens enter typeName field (.scalar (.schema nested)) (.dict entries) w nested entries w
  | element {nested : ClassRef} {entries : List (Value × Value)} {raw : Value} {w v : World}
    {before after vs : List Value} (hi : arrayItems? raw = some (before ++ .dict entries :: after))
    (hb : exec (convertItems enter typeName field (.schema nested) 0 before) w = (.ok vs, v)) :
    Opens enter typeName field (.array (some (.schema nested))) raw w nested entries v

namespace Entry

/-- How many levels are left. There are none only beyond every limit. -/
def levels (e : Entry) : Nat := e.world.depthBound + 1 - e.depth

/-- The attributes that the payload is bound to, and the world after it. -/
def run (e : Entry) : Except Fault (List (String × Value)) × World :=
  exec (populate planOf e.levels e.binder e.depth e.cls e.data) e.world

/-- How the schemas nested in the record are entered. -/
def enter (e : Entry) : Enter := fun nested raw => do
  let next := e.world.nestedBinder e.binder nested
  return instanceOf nested
    (← populate planOf (e.world.depthBound - e.depth) next (e.depth + 1) nested raw)

/-- An entry that is made in the run of another: the fields before one that holds a nested schema
have been bound, and in the conversion of its raw value the schema is entered. -/
inductive Next : Entry → Entry → Prop
  | field {w w₁ w₂ w₃ : World} {binder depth : Nat} {cls nested : ClassRef}
    {entries payload : List (Value × Value)} {before after : List FieldPlan} {plan : FieldPlan}
    {kind : ValueKind} {attrs : List (String × Value)}
    (hd : depth ≤ (w.binder binder).maxDepth)
    (hp : exec (planOf (w.binder binder).registry cls) w = (.ok (before ++ plan :: after), w₁))
    (hb : exec (bindFields (enter ⟨w, binder, depth, cls, .dict entries⟩) cls entries before [])
      w₁ = (.ok attrs, w₂))
    (hk : plan.kind = some kind)
    (ho : Opens (enter ⟨w, binder, depth, cls, .dict entries⟩) cls.name plan.name kind
      (w₂.adopted (rawValue plan entries)) (w₂.adopting (rawValue plan entries)) nested payload
      w₃) :
    Next ⟨w, binder, depth, cls, .dict entries⟩
      ⟨w₃, w.nestedBinder binder nested, depth + 1, nested, .dict payload⟩

/-- An entry that the run of another comes to, through schemas of these classes, one nested in the
other. -/
inductive Leads : Entry → List ClassRef → Entry → Prop
  | refl (e : Entry) : Leads e [] e
  | step {e next last : Entry} {path : List ClassRef} (hn : Next e next)
    (h : Leads next path last) : Leads e (next.cls :: path) last

end Entry

/-! ### Runs part by part -/

section Parts

variable {enter other : Enter} {typeName field : String} {kind : ScalarKind}

/-- Items are converted front first, and then the rest at the indices that follow. -/
theorem convertItems_append (index : Nat) (before after : List Value) :
    convertItems enter typeName field kind index (before ++ after) = (do
      let vs ← convertItems enter typeName field kind index before
      let us ← convertItems enter typeName field kind (index + before.length) after
      return vs ++ us) := by
  induction before generalizing index with
  | nil => simp [convertItems]
  | cons raw rest ih =>
    simp [convertItems, ih, Nat.add_assoc, Nat.add_comm 1]

/-- Fields are bound front first, and then the rest onto what has been bound. -/
theorem bindFields_append {cls : ClassRef} {entries : List (Value × Value)}
    (before after : List FieldPlan) (attrs : List (String × Value)) :
    bindFields enter cls entries (before ++ after) attrs = (do
      let attrs ← bindFields enter cls entries before attrs
      bindFields enter cls entries after attrs) := by
  induction before generalizing attrs with
  | nil => simp [bindFields]
  | cons plan plans ih => simp [bindFields, ih]

variable {cls nested : ClassRef} {entries payload : List (Value × Value)} {plan : FieldPlan}
  {w v x : World} {g : Fault}

/-- There is no schema to enter in a null. -/
theorem Opens.raw_ne {kind : ValueKind} {raw : Value}
    (h : Opens enter typeName field kind (w.adopted raw) v nested payload x) : raw ≠ .null := by
  rintro rfl
  cases h with
  | element hi _ => cases hi

/-- A conversion fails with the schema that it comes to enter. -/
theorem Opens.convertField_error {kind : ValueKind} {raw : Value}
    (h : Opens enter typeName plan.name kind raw w nested payload v)
    (he : exec (enter nested (.dict payload)) v = (.error g, x)) :
    exec (convertField enter typeName plan kind raw) w = (.error g, x) := by
  cases h with
  | field => exact he
  | element hi hb =>
    simp only [convertField, convert, hi]
    refine exec_bind_of_error ?_ _
    rw [convertItems_append, exec_bind_of_ok hb]
    refine exec_bind_of_error ?_ _
    exact exec_bind_of_error he _

/-- A field fails with the schema that it comes to enter. -/
theorem Opens.bindField_error {kind : ValueKind} (hk : plan.kind = some kind)
    (h : Opens enter cls.name plan.name kind (w.adopted (rawValue plan entries))
      (w.adopting (rawValue plan entries)) nested payload v)
    (he : exec (enter nested (.dict payload)) v = (.error g, x)) (attrs : List (String × Value)) :
    exec (bindField enter cls entries plan attrs) w = (.error g, x) := by
  rw [bindField_value h.raw_ne, exec_bind_of_ok (exec_adopt _ w)]
  refine exec_bind_of_error ?_ _
  rw [resolve, hk]
  exact exec_bind_of_error (h.convertField_error he) _

/-! ### What a run depends on -/

private theorem exec_convertScalar_congr {index : Option Nat} {raw : Value}
    (h : ∀ nested payload, kind = .schema nested → raw = .dict payload →
      exec (enter nested raw) w = exec (other nested raw) w) :
    exec (convertScalar enter typeName field index raw kind) w =
      exec (convertScalar other typeName field index raw kind) w := by
  cases kind with
  | schema nested =>
    cases raw with
    | dict payload => exact h nested payload rfl rfl
    | _ => rfl
  | _ => rfl

private theorem exec_convertItems_congr (index : Nat) {items : List Value}
    (h : ∀ nested before payload after vs v, kind = .schema nested →
      items = before ++ .dict payload :: after →
      exec (convertItems enter typeName field kind index before) w = (.ok vs, v) →
      exec (enter nested (.dict payload)) v = exec (other nested (.dict payload)) v) :
    exec (convertItems enter typeName field kind index items) w =
      exec (convertItems other typeName field kind index items) w := by
  induction items generalizing index w with
  | nil => rfl
  | cons raw rest ih =>
    have hraw : exec (convertScalar enter typeName field (some index) raw kind) w =
        exec (convertScalar other typeName field (some index) raw kind) w := by
      refine exec_convertScalar_congr fun nested payload hk hr => ?_
      rw [hr]
      exact h nested [] payload rest [] w hk (by rw [hr]; rfl) rfl
    rw [convertItems, convertItems, exec_bind, exec_bind, ← hraw]
    cases hx : exec (convertScalar enter typeName field (some index) raw kind) w with
    | mk result v =>
      cases result with
      | error f => rfl
      | ok u =>
        have hrest : exec (convertItems enter typeName field kind (index + 1) rest) v =
            exec (convertItems other typeName field kind (index + 1) rest) v := by
          refine ih (index + 1) fun nested before payload after vs x hk hs hb => ?_
          refine h nested (raw :: before) payload after (u :: vs) x hk (by rw [hs]; rfl) ?_
          rw [convertItems, exec_bind_of_ok hx, exec_bind_of_ok hb]
          rfl
        simp only [exec_bind, hrest]

private theorem exec_convertField_congr {kind : ValueKind} {raw : Value}
    (h : ∀ nested payload v, Opens enter typeName plan.name kind raw w nested payload v →
      exec (enter nested (.dict payload)) v = exec (other nested (.dict payload)) v) :
    exec (convertField enter typeName plan kind raw) w =
      exec (convertField other typeName plan kind raw) w := by
  cases kind with
  | scalar kind =>
    have hs : exec (convertScalar enter typeName plan.name none raw kind) w =
        exec (convertScalar other typeName plan.name none raw kind) w := by
      refine exec_convertScalar_congr fun nested payload hk hr => ?_
      subst hk hr
      exact h nested payload w .field
    cases kind with
    | primitive p => rfl
    | _ => exact hs
  | array element =>
    simp only [convertField, convert]
    cases hi : arrayItems? raw with
    | none => rfl
    | some items =>
      cases element with
      | none => rfl
      | some kind =>
        have hc : exec (convertItems enter typeName plan.name kind 0 items) w =
            exec (convertItems other typeName plan.name kind 0 items) w := by
          refine exec_convertItems_congr 0 fun nested before payload after vs v hk hs hb => ?_
          subst hk hs
          exact h nested payload v (.element hi hb)
        simp only [exec_bind, hc]

/-- How a field is bound depends only on how the payloads are entered that it opens. -/
theorem exec_bindField_congr (attrs : List (String × Value))
    (h : ∀ kind nested payload v, plan.kind = some kind →
      Opens enter cls.name plan.name kind (w.adopted (rawValue plan entries))
        (w.adopting (rawValue plan entries)) nested payload v →
      exec (enter nested (.dict payload)) v = exec (other nested (.dict payload)) v) :
    exec (bindField enter cls entries plan attrs) w =
      exec (bindField other cls entries plan attrs) w := by
  by_cases hn : rawValue plan entries = .null
  · rw [bindField_null hn, bindField_null hn]
  · rw [bindField_value hn, bindField_value hn, exec_bind_of_ok (exec_adopt _ w),
      exec_bind_of_ok (exec_adopt _ w)]
    have hr : exec (resolve enter cls plan attrs (w.adopted (rawValue plan entries)))
          (w.adopting (rawValue plan entries)) =
        exec (resolve other cls plan attrs (w.adopted (rawValue plan entries)))
          (w.adopting (rawValue plan entries)) := by
      cases hk : plan.kind with
      | none => simp only [resolve, hk]
      | some kind =>
        have hc := exec_convertField_congr (h kind · · · hk)
        simp only [resolve, hk, exec_bind, hc]
    simp only [exec_bind, hr]

/-- Fields are bound the same if the schemas that binding them comes to enter are entered the
same. -/
theorem exec_bindFields_congr {plans : List FieldPlan} (attrs : List (String × Value))
    (h : ∀ before plan after bound w' kind nested payload v, plans = before ++ plan :: after →
      exec (bindFields enter cls entries before attrs) w = (.ok bound, w') →
      plan.kind = some kind →
      Opens enter cls.name plan.name kind (w'.adopted (rawValue plan entries))
        (w'.adopting (rawValue plan entries)) nested payload v →
      exec (enter nested (.dict payload)) v = exec (other nested (.dict payload)) v) :
    exec (bindFields enter cls entries plans attrs) w =
      exec (bindFields other cls entries plans attrs) w := by
  induction plans generalizing attrs w with
  | nil => rfl
  | cons plan plans ih =>
    have hp := exec_bindField_congr attrs fun kind nested payload v hk ho =>
      h [] plan plans attrs w kind nested payload v rfl rfl hk ho
    rw [bindFields, bindFields, exec_bind, exec_bind, ← hp]
    cases hx : exec (bindField enter cls entries plan attrs) w with
    | mk result v =>
      cases result with
      | error f => rfl
      | ok bound =>
        refine ih bound fun before q after attrs' w' kind nested payload v' hs hb hk ho => ?_
        refine h (plan :: before) q after attrs' w' kind nested payload v' ?_ ?_ hk ho
        · rw [hs]
          rfl
        · rw [bindFields, exec_bind_of_ok hx, hb]

end Parts

/-! ### Entries -/

namespace Entry

variable {e next : Entry}

/-- A nested schema is entered with its own binder, if it has one, and else with that at work. -/
theorem Next.binder_eq (h : Next e next) :
    next.binder = e.world.nestedBinder e.binder next.cls := by
  cases h
  rfl

/-- A nested schema is entered one level deeper. -/
theorem Next.depth_eq (h : Next e next) : next.depth = e.depth + 1 := by
  cases h
  rfl

/-- An action that runs beside itself and succeeds leaves binders and classes as they are. -/
private theorem settings_of_sideBySide {α : Type} {Q : α → α → Prop} {w₀ w v : World} {x : α}
    {a : Action α} (ha : SideBySide (RaisedSince w₀) w₀.TooDeep (FaultLike Eq) Q a a)
    (hw : w.binders = w₀.binders ∧ w.classes = w₀.classes) (hx : exec a w = (.ok x, v)) :
    v.binders = w₀.binders ∧ v.classes = w₀.classes := by
  rcases ha w w ⟨.refl w, hw⟩ with ⟨f, hf, -⟩ | ⟨-, hs⟩
  · rw [hx] at hf
    cases hf
  · rw [hx] at hs
    exact hs.2

private theorem sideBySide_enter (e : Entry) (w₀ : World) (cls : ClassRef)
    (entries : List (Value × Value)) :
    SideBySide (RaisedSince w₀) w₀.TooDeep (FaultLike Eq) Eq (e.enter cls (.dict entries))
      (e.enter cls (.dict entries)) :=
  SideBySide.bind (sideBySide_populate (Nat.le_refl _) _ _ cls _) fun _ _ ha =>
    SideBySide.pure (likeness_eq.instanceOf cls ha)

/-- The worlds of two entries, of which one is made in the run of the other, have the same binders
and classes. -/
theorem Next.settings (h : Next e next) :
    next.world.binders = e.world.binders ∧ next.world.classes = e.world.classes := by
  cases h with
  | @field w w₁ w₂ w₃ binder depth cls nested entries payload before after plan kind attrs hd hp hb
      hk ho =>
    have he : ∀ c es fs, ScalarLike Eq (fun _ _ _ => False) (.schema c) (.dict es) (.dict fs) →
        SideBySide (RaisedSince w) w.TooDeep (FaultLike Eq) Eq
          (enter ⟨w, binder, depth, cls, .dict entries⟩ c (.dict es))
          (enter ⟨w, binder, depth, cls, .dict entries⟩ c (.dict fs)) := by
      intro c es fs hef
      cases hef with
      | alike h => rw [Value.dict.inj h]; exact sideBySide_enter _ w c fs
      | nested h => exact h.elim
    have h₁ := settings_of_sideBySide (sideBySide_planOf _ cls) ⟨rfl, rfl⟩ hp
    have h₂ := settings_of_sideBySide (sideBySide_bindFields likeness_eq (twinned_raisedSince w) he
      cls (fun plan _ => (RawLike.alike rfl).told likeness_eq (twinned_raisedSince w)) .nil) h₁ hb
    have h₃ : (w₂.adopting (rawValue plan entries)).binders = w.binders ∧
        (w₂.adopting (rawValue plan entries)).classes = w.classes := h₂
    generalize w₂.adopted (rawValue plan entries) = raw at ho
    generalize w₂.adopting (rawValue plan entries) = w₂' at ho h₃
    cases ho with
    | field => exact h₃
    | element hi hc =>
      exact settings_of_sideBySide (sideBySide_convertItems likeness_eq he cls.name plan.name 0
        (List.forall₂_same.mpr fun _ _ => .alike rfl)) h₃ hc

/-- Within the depth limit the run of an entry binds the fields of its schema. -/
theorem run_dict {w : World} {binder depth : Nat} (cls : ClassRef)
    (entries : List (Value × Value)) (hd : depth ≤ (w.binder binder).maxDepth) :
    run ⟨w, binder, depth, cls, .dict entries⟩ = exec (do
      let plans ← planOf (w.binder binder).registry cls
      bindFields (enter ⟨w, binder, depth, cls, .dict entries⟩) cls entries plans []) w := by
  have hl := maxDepth_le_depthBound w binder
  have hlevels : levels ⟨w, binder, depth, cls, .dict entries⟩ = (w.depthBound - depth) + 1 := by
    simp only [levels]
    omega
  rw [run, hlevels]
  simp only [populate, exec_bind, exec_get, if_neg (Nat.not_lt.mpr hd)]
  rfl

/-- Beyond the depth limit a run fails. -/
theorem run_tooDeep (hd : (e.world.binder e.binder).maxDepth < e.depth) :
    e.run = (.error (.ofBinding
      ⟨e.cls.name, rootField, .tooDeep (e.world.binder e.binder).maxDepth⟩), e.world) :=
  exec_populate_tooDeep planOf e.cls e.data (.inr hd)

/-- Within the depth limit the run of an entry refuses a payload that is no mapping. -/
theorem run_other (hd : e.depth ≤ (e.world.binder e.binder).maxDepth)
    (h : ∀ entries, e.data ≠ .dict entries) :
    e.run = (.error (.ofBinding ⟨e.cls.name, rootField,
      .mismatch JsonKind.object.name e.data.kind none⟩), e.world) := by
  have hl := maxDepth_le_depthBound e.world e.binder
  have hlevels : e.levels = (e.world.depthBound - e.depth) + 1 := by
    simp only [levels]
    omega
  rw [run, hlevels]
  simp only [populate, exec_bind, exec_get, if_neg (Nat.not_lt.mpr hd)]
  rfl

/-- An entry that a run makes is the entering of its schema there. -/
theorem Next.exec_enter (h : Next e next) :
    exec (e.enter next.cls next.data) next.world =
      exec (populate planOf next.levels next.binder next.depth next.cls next.data >>= fun attrs =>
        pure (instanceOf next.cls attrs)) next.world := by
  have hset := h.settings
  cases h with
  | @field w w₁ w₂ w₃ binder depth cls nested entries payload before after plan kind attrs hd hp hb
      hk ho =>
    have hbound : w₃.depthBound = w.depthBound := by rw [depthBound, depthBound, hset.1]
    simp only [enter, levels, hbound, Nat.add_sub_add_right]

/-- A run fails as soon as an entry that it makes does. -/
theorem Next.run_error (h : Next e next) {f : Fault} {v : World} (hf : next.run = (.error f, v)) :
    e.run = (.error f, v) := by
  have henter : exec (e.enter next.cls next.data) next.world = (.error f, v) := by
    rw [h.exec_enter]
    exact exec_bind_of_error hf _
  cases h with
  | @field w w₁ w₂ w₃ binder depth cls nested entries payload before after plan kind attrs hd hp hb
      hk ho =>
    rw [run_dict cls entries hd, exec_bind_of_ok hp, bindFields_append, exec_bind_of_ok hb,
      bindFields]
    exact exec_bind_of_error (ho.bindField_error hk henter attrs) _

/-- A run depends on how schemas are entered at the entries that it makes, and nowhere else. -/
theorem run_congr {w : World} {binder depth : Nat} {cls : ClassRef}
    {entries : List (Value × Value)} (hd : depth ≤ (w.binder binder).maxDepth) (other : Enter)
    (h : ∀ next, Next ⟨w, binder, depth, cls, .dict entries⟩ next →
      exec (enter ⟨w, binder, depth, cls, .dict entries⟩ next.cls next.data) next.world =
        exec (other next.cls next.data) next.world) :
    run ⟨w, binder, depth, cls, .dict entries⟩ = exec (do
      let plans ← planOf (w.binder binder).registry cls
      bindFields other cls entries plans []) w := by
  rw [run_dict cls entries hd]
  cases hp : exec (planOf (w.binder binder).registry cls) w with
  | mk result w₁ =>
    cases result with
    | error f => rw [exec_bind_of_error hp, exec_bind_of_error hp]
    | ok plans =>
      rw [exec_bind_of_ok hp, exec_bind_of_ok hp]
      refine exec_bindFields_congr [] ?_
      intro before plan after attrs w₂ kind nested payload w₃ hs hb hk ho
      subst hs
      have hn := Next.field hd hp hb hk ho
      simpa only using h _ hn

end Entry

end Binding

end SchemaBinding
