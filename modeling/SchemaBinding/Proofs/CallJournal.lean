import SchemaBinding.Proofs.ErrorOrigin
import SchemaBinding.Proofs.FunctionCalls

/-!
# The calls that a bind makes

A bind calls functions of the caller field by field: when it has come to a field and converted its
value, the functions of that field are called in turn. Schemas nested in the value have been bound
before, with the calls of their own fields.
-/

namespace SchemaBinding

namespace Binding

open World

/-! ### What holds over a conversion -/

section Conversion

variable {R : World → World → Prop} (hrefl : ∀ w, R w w) (htrans : ∀ w v x, R w v → R v x → R w x)
  {enter : Enter} {typeName field : String} {w v : World}

include hrefl

/-- What holds over the entering of a schema holds over the conversion of its payload. -/
theorem rel_convertScalar {index : Option Nat} {kind : ScalarKind} {raw : Value}
    (h : ∀ nested payload, kind = .schema nested → raw = .dict payload →
      R w (exec (enter nested raw) w).2) :
    R w (exec (convertScalar enter typeName field index raw kind) w).2 := by
  cases kind with
  | primitive p =>
    rw [convertScalar]
    cases p.convert raw <;> exact hrefl w
  | date target =>
    rw [convertScalar]
    cases parseDate raw target with
    | error fault => exact hrefl w
    | ok found => cases found <;> exact hrefl w
  | schema nested =>
    cases raw with
    | dict payload => exact h nested payload rfl rfl
    | _ => exact hrefl w
  | mapping => cases raw <;> exact hrefl w
  | any => exact hrefl w

include htrans

/-- What holds over the entering of each schema in an array, as far as its conversion gets, holds
over the conversion. -/
theorem rel_convertItems {kind : ScalarKind} (index : Nat) {items : List Value}
    (h : ∀ nested before payload after vs v, kind = .schema nested →
      items = before ++ .dict payload :: after →
      exec (convertItems enter typeName field kind index before) w = (.ok vs, v) →
      R v (exec (enter nested (.dict payload)) v).2) :
    R w (exec (convertItems enter typeName field kind index items) w).2 := by
  induction items generalizing index w with
  | nil => exact hrefl w
  | cons raw rest ih =>
    have hraw : R w (exec (convertScalar enter typeName field (some index) raw kind) w).2 := by
      refine rel_convertScalar hrefl fun nested payload hk hr => ?_
      rw [hr]
      exact h nested [] payload rest [] w hk (by rw [hr]; rfl) rfl
    refine rel_exec_bind htrans hraw fun u v hu _ => ?_
    rw [snd_exec_bind_pure]
    refine ih (index + 1) fun nested before payload after vs x hk hs hb => ?_
    refine h nested (raw :: before) payload after (u :: vs) x hk (by rw [hs]; rfl) ?_
    rw [convertItems, exec_bind_of_ok hu, exec_bind_of_ok hb]
    rfl

/-- What holds over the entering of each schema that a conversion comes to holds over the
conversion. -/
theorem rel_convertField {plan : FieldPlan} {kind : ValueKind} {raw : Value}
    (h : ∀ nested payload v, Opens enter typeName plan.name kind raw w nested payload v →
      R v (exec (enter nested (.dict payload)) v).2) :
    R w (exec (convertField enter typeName plan kind raw) w).2 := by
  cases kind with
  | scalar kind =>
    have hs : R w (exec (convertScalar enter typeName plan.name none raw kind) w).2 := by
      refine rel_convertScalar hrefl fun nested payload hk hr => ?_
      subst hk hr
      exact h nested payload w .field
    cases kind with
    | primitive p =>
      simp only [convertField]
      cases p.convert raw with
      | ok v => exact hrefl w
      | error expected =>
        dsimp only
        split <;> exact hrefl w
    | _ => exact hs
  | array element =>
    simp only [convertField, convert]
    cases hi : arrayItems? raw with
    | none => exact hrefl w
    | some items =>
      cases element with
      | none => exact hrefl w
      | some kind =>
        rw [snd_exec_bind_pure]
        refine rel_convertItems hrefl htrans 0 fun nested before payload after vs v hk hs hb => ?_
        subst hk hs
        exact h nested payload v (.element hi hb)

/-- What holds over the entering of each schema that a conversion comes to holds from the beginning
of the conversion to the entering of one, and from there to the end. -/
theorem Opens.rel {plan : FieldPlan} {kind : ValueKind} {raw : Value} {nested : ClassRef}
    {payload : List (Value × Value)}
    (ho : Opens enter typeName plan.name kind raw w nested payload v)
    (h : ∀ nested payload v, Opens enter typeName plan.name kind raw w nested payload v →
      R v (exec (enter nested (.dict payload)) v).2) :
    R w v ∧ R (exec (enter nested (.dict payload)) v).2
      (exec (convertField enter typeName plan kind raw) w).2 := by
  cases ho with
  | field => exact ⟨hrefl w, hrefl _⟩
  | @element _ entries _ _ _ before after vs hi hb =>
    -- The elements before the schema have been converted, and those after it may come to be.
    constructor
    · have hr : R w
          (exec (convertItems enter typeName plan.name (.schema nested) 0 before) w).2 := by
        refine rel_convertItems hrefl htrans 0 fun c front entries' back us x hk hs hx => ?_
        cases hk
        have hsplit : arrayItems? raw =
            some (front ++ .dict entries' :: (back ++ .dict payload :: after)) := by
          rw [hi, hs, List.append_assoc, List.cons_append]
        exact h nested entries' x (.element hsplit hx)
      rw [hb] at hr
      exact hr
    · simp only [convertField, convert, hi, snd_exec_bind_pure]
      rw [convertItems_append, exec_bind_of_ok hb, snd_exec_bind_pure, convertItems,
        convertScalar]
      rcases he : exec (enter nested (.dict payload)) v with ⟨g | u, x⟩
      · rw [exec_bind_of_error he]
        exact hrefl x
      · rw [exec_bind_of_ok he, snd_exec_bind_pure]
        refine rel_convertItems hrefl htrans _ fun c front entries' back us y hk hs hx => ?_
        cases hk
        have hfront : exec (convertItems enter typeName plan.name (.schema nested)
            (0 + before.length) (.dict payload :: front)) v = (.ok (u :: us), y) :=
          (exec_bind_of_ok he _).trans (exec_bind_of_ok hx _)
        have hsplit : arrayItems? raw =
            some ((before ++ .dict payload :: front) ++ .dict entries' :: back) := by
          rw [hi, hs, List.append_assoc, List.cons_append]
        have hbefore : exec (convertItems enter typeName plan.name (.schema nested) 0
            (before ++ .dict payload :: front)) w = (.ok (vs ++ u :: us), y) := by
          rw [convertItems_append, exec_bind_of_ok hb, exec_bind_of_ok hfront]
          rfl
        exact h nested entries' y (.element hsplit hbefore)

end Conversion

/-! ### Turns -/

/-- From one world to another, calls were made turn by turn, and each turn has a property. -/
def TurnByTurn (Q : List Call → Prop) (w x : World) : Prop :=
  ∃ turns : List (List Call), w.Makes turns.flatten x ∧ ∀ own ∈ turns, Q own

namespace TurnByTurn

variable {Q P : List Call → Prop} {w x y : World} {own : List Call}

private theorem of_quiet (h : w.Makes [] x) : TurnByTurn Q w x :=
  ⟨[], h, fun _ hm => absurd hm List.not_mem_nil⟩

/-- No calls are made turn by turn in no turns. -/
theorem refl (w : World) : TurnByTurn Q w w := of_quiet (.refl w)

/-- The calls of one turn are made turn by turn. -/
theorem turn (h : w.Makes own x) (hq : Q own) : TurnByTurn Q w x := by
  refine ⟨[own], ?_, fun ks hm => ?_⟩
  · rwa [List.flatten_singleton]
  · rwa [List.mem_singleton.mp hm]

/-- Turns after turns are turns. -/
theorem trans (h : TurnByTurn Q w x) (g : TurnByTurn Q x y) : TurnByTurn Q w y := by
  obtain ⟨turns, hm, hq⟩ := h
  obtain ⟨later, hl, hr⟩ := g
  refine ⟨turns ++ later, ?_, fun own ho => ?_⟩
  · rw [List.flatten_append]
    exact hm.trans hl
  · exact (List.mem_append.mp ho).elim (hq own) (hr own)

/-- Calls that are made turn by turn are so in turns of a weaker form. -/
theorem imp (h : TurnByTurn Q w x) (hqp : ∀ own, Q own → P own) : TurnByTurn P w x := by
  obtain ⟨turns, hm, hq⟩ := h
  exact ⟨turns, hm, fun own ho => hqp own (hq own ho)⟩

end TurnByTurn

/-- The value of a field is prepared, its functions are applied, and then it is set. -/
theorem bindField_eq {enter : Enter} {cls : ClassRef} {entries : List (Value × Value)}
    {plan : FieldPlan} (h : rawValue plan entries ≠ .null) (attrs : List (String × Value)) :
    bindField enter cls entries plan attrs = (do
      let value ← (do let raw ← adopt (rawValue plan entries); prepare enter cls plan raw)
      let (attrs, value) ← applyFunctions cls plan attrs value
      World.lift (checkIntegral cls.name plan.name (plan.kind.isSome && plan.integer) value)
      assign cls attrs plan.name value) := by
  rw [bindField_value h]
  simp only [resolve_eq, bind_assoc, pure_bind]

/-- A value is set as it is, if it may be, and nothing else happens. -/
theorem exec_finish (cls : ClassRef) (plan : FieldPlan) (attrs : List (String × Value))
    (value : Value) (w : World) :
    let r := exec (do
      World.lift (checkIntegral cls.name plan.name (plan.kind.isSome && plan.integer) value)
      assign cls attrs plan.name value) w
    r.2 = w ∧ ∀ bound, r.1 = .ok bound → bound = Value.setAttr attrs plan.name value := by
  cases hc : checkIntegral cls.name plan.name (plan.kind.isSome && plan.integer) value with
  | error g => exact ⟨rfl, fun bound hb => by cases hb⟩
  | ok _ =>
    dsimp only
    rw [exec_bind_of_ok (exec_lift (.ok _) w), assign, exec_bind_of_ok (exec_get w)]
    split
    · exact ⟨rfl, fun bound hb => (Except.ok.inj hb).symm⟩
    · exact ⟨rfl, fun bound hb => by cases hb⟩

namespace Entry

variable {e : Entry}

namespace Visit

/-- The value of a field before its functions are called, and the world at that moment. -/
def prepared (visit : e.Visit) : Except Fault Value × World :=
  exec (do let raw ← adopt visit.raw; prepare e.enter e.cls visit.plan raw) visit.world

/-- The functions of a field that a run comes to are about to be called. -/
structure Turn (visit : e.Visit) where
  /-- The value of the field, converted and allowed. -/
  value : Value
  /-- The world at that moment. -/
  start : World
  raw_ne : visit.raw ≠ .null
  reached : visit.prepared = (.ok value, start)

variable {visit : e.Visit}

/-- The calls that the functions of a field make. -/
def Turn.calls (turn : visit.Turn) : List Call :=
  callsIn (applyFunctions e.cls visit.plan visit.attrs turn.value) turn.start

/-- From where its functions are called to where it has been bound, a field makes their calls. -/
theorem Turn.exec_functions (hp : visit.plan.ReadOnly) (turn : visit.Turn) :
    turn.start.Makes turn.calls visit.outcome.2 ∧
      InTurn e.cls visit.attrs visit.plan turn.start turn.value turn.calls ∧
      ∀ bound, visit.outcome.1 = .ok bound → ∃ u,
        WholeTurn e.cls visit.attrs visit.plan turn.start turn.value turn.calls u ∧
          bound = Value.setAttr visit.attrs visit.plan.name u := by
  obtain ⟨ks, hm, hin, hwhole⟩ := exec_applyFunctions e.cls visit.attrs hp turn.value turn.start
  have hks : turn.calls = ks := callsIn_eq hm.calls
  have hreached := turn.reached
  rw [prepared, raw] at hreached
  rw [hks, outcome, bindField_eq turn.raw_ne, exec_bind_of_ok hreached]
  rcases hx : exec (applyFunctions e.cls visit.plan visit.attrs turn.value) turn.start with
    ⟨g | ⟨attrs, u⟩, x⟩
  · rw [hx] at hm
    rw [exec_bind_of_error hx]
    exact ⟨hm, hin, fun bound hb => by cases hb⟩
  · rw [hx] at hm hwhole
    obtain ⟨rfl, hw⟩ := hwhole _ rfl
    rw [exec_bind_of_ok hx]
    obtain ⟨hworld, hset⟩ := exec_finish e.cls visit.plan visit.attrs u x
    dsimp only
    rw [hworld]
    exact ⟨hm, hin, fun bound hb => ⟨u, hw, hset bound hb⟩⟩

/-- After the conversion of a value no calls are made until its functions are called. -/
theorem makes_prepared {kind : ValueKind} (hk : visit.plan.kind = some kind) :
    (exec (convertField e.enter e.cls.name visit.plan kind (visit.world.adopted visit.raw))
      (visit.world.adopting visit.raw)).2.Makes [] visit.prepared.2 := by
  rw [prepared, exec_bind_of_ok (exec_adopt _ _), prepare, hk]
  dsimp only
  rcases hx : exec (convertField e.enter e.cls.name visit.plan kind
    (visit.world.adopted visit.raw)) (visit.world.adopting visit.raw) with ⟨g | v, x⟩
  · rw [exec_bind_of_error hx]
    exact .refl x
  · rw [exec_bind_of_ok hx, exec_bind_of_ok (exec_adopt v x)]
    have hquiet : x.Makes [] (x.adopting v) := ⟨(List.append_nil _).symm, rfl⟩
    cases checkMembers e.cls.name visit.plan.name visit.plan.union (x.adopted v) with
    | error g => exact hquiet
    | ok _ => exact hquiet

end Visit

/-- The functions of all fields that the run of an entry can come to only read the record. -/
structure ReadOnly (e : Entry) : Prop where
  consistent : e.world.Consistent
  /-- The plans are those of an earlier world, from which the changes were calm. -/
  plans : ∃ w, Calm w e.world ∧
    w.Throughout (fun plans => ∀ p ∈ plans, p.ReadOnly) e.binder e.cls

/-- The functions of what is entered next only read the record, too. -/
theorem ReadOnly.next {next : Entry} (h : e.ReadOnly) (hx : Next e next) : next.ReadOnly := by
  obtain ⟨hw, w, hc, ho⟩ := h
  obtain ⟨hwn, hcn⟩ := hx.calm hw
  exact ⟨hwn, w, hc.trans hcn, hx.throughout hw hc ho⟩

/-- The functions of what a path of entries leads to only read the record, too. -/
theorem ReadOnly.leads {last : Entry} {path : List ClassRef} (h : e.ReadOnly)
    (hl : Leads e path last) : last.ReadOnly := by
  induction hl with
  | refl e => exact h
  | step hx _ ih => exact ih (h.next hx)

/-- The functions of all fields of a schema that is visited only read the record. -/
theorem Visit.readOnly (visit : e.Visit) (h : e.ReadOnly) :
    ∀ p ∈ visit.before ++ visit.plan :: visit.after, p.ReadOnly := by
  obtain ⟨hw, w, hc, ho⟩ := h
  exact (Leads.refl e).plans hw hc ho (visit.plansFor_eq hw)

/-- The functions of a field that a run comes to only read the record. -/
theorem Visit.plan_readOnly (visit : e.Visit) (h : e.ReadOnly) : visit.plan.ReadOnly :=
  visit.readOnly h _ visit.plan_mem

/-- Nothing is called while the plans of a schema are asked for. -/
theorem makes_planOf (i : Nat) (c : ClassRef) (w : World) :
    w.Makes [] (exec (planOf i c) w).2 := by
  rcases exec_planOf_twice (w := w) rfl rfl i c with ⟨r, h, -⟩ | ⟨plans, q, event, h, -⟩
  · rw [h]
    exact .refl w
  · rw [h]
    exact ⟨(List.append_nil _).symm, rfl⟩

/-- The entering of a schema that a field comes to is the run of an entry. -/
theorem Visit.snd_exec_enter (visit : e.Visit) {kind : ValueKind} {nested : ClassRef}
    {payload : List (Value × Value)} {x : World} (hk : visit.plan.kind = some kind)
    (ho : Opens e.enter e.cls.name visit.plan.name kind (visit.world.adopted visit.raw)
      (visit.world.adopting visit.raw) nested payload x) :
    ∃ next, Next e next ∧ next.world = x ∧
      (exec (e.enter nested (.dict payload)) x).2 = next.run.2 := by
  have hn := visit.enters hk ho
  exact ⟨_, hn, rfl, by rw [hn.exec_enter, snd_exec_bind_pure]; rfl⟩

section Journal

variable {Q : List Call → Prop}
  (hnext : ∀ next, Next e next → TurnByTurn Q next.world next.run.2)

include hnext

/-- What is called while a value is converted is called for the fields of nested schemas. -/
theorem Visit.turns_prepared (visit : e.Visit) : TurnByTurn Q visit.world visit.prepared.2 := by
  have hadopt : visit.world.Makes [] (visit.world.adopting visit.raw) :=
    ⟨(List.append_nil _).symm, rfl⟩
  cases hk : visit.plan.kind with
  | none =>
    have hp : visit.prepared.2 = visit.world.adopting visit.raw := by
      rw [prepared, exec_bind_of_ok (exec_adopt _ _), prepare, hk]
      rfl
    rw [hp]
    exact .of_quiet hadopt
  | some kind =>
    refine (TurnByTurn.of_quiet hadopt).trans (.trans ?_ (.of_quiet (visit.makes_prepared hk)))
    refine rel_convertField TurnByTurn.refl (fun _ _ _ => .trans) fun nested payload x ho => ?_
    obtain ⟨next, hn, rfl, hr⟩ := visit.snd_exec_enter hk ho
    rw [hr]
    exact hnext next hn

variable (hr : e.ReadOnly) (hturn : ∀ (visit : e.Visit) (turn : visit.Turn), Q turn.calls)

omit hnext
include hr hturn

/-- When its value has been converted, a field makes the calls of its own functions. -/
theorem Visit.turns_functions {visit : e.Visit} (hn : visit.raw ≠ .null) :
    TurnByTurn Q visit.prepared.2 visit.outcome.2 := by
  rcases hx : visit.prepared with ⟨g | v, x⟩
  · have ho : visit.outcome = (.error g, x) := by
      rw [prepared, raw] at hx
      rw [outcome, bindField_eq hn]
      exact exec_bind_of_error hx _
    rw [ho]
    exact .refl x
  · let turn : visit.Turn := ⟨v, x, hn, hx⟩
    exact .turn (turn.exec_functions (visit.plan_readOnly hr)).1 (hturn visit turn)

include hnext

/-- A field makes the calls for the fields of nested schemas, and then those of its own
functions. -/
theorem Visit.turns_outcome (visit : e.Visit) : TurnByTurn Q visit.world visit.outcome.2 := by
  by_cases hn : visit.raw = .null
  · have ho : visit.outcome.2 = visit.world := by
      rw [outcome, bindField_null hn]
      split <;> rfl
    rw [ho]
    exact .refl _
  · exact (visit.turns_prepared hnext).trans (visit.turns_functions hr hturn hn)

/-- A run makes the calls of its fields. -/
theorem turns_run : TurnByTurn Q e.world e.run.2 :=
  rel_run TurnByTurn.refl (fun _ _ _ => .trans) (.of_quiet (makes_planOf _ _ _))
    fun visit => visit.turns_outcome hnext hr hturn

/-- A run makes calls before it makes another entry, and after that. -/
theorem Next.around {next : Entry} (hx : Next e next) :
    TurnByTurn Q e.world next.world ∧ TurnByTurn Q next.run.2 e.run.2 := by
  obtain ⟨visit, kind, payload, hk, hdata, ho⟩ := Visit.exists_of_next hx
  have hfield := fun visit : e.Visit => visit.turns_outcome hnext hr hturn
  have hbefore : TurnByTurn Q e.world visit.world :=
    visit.rel_before TurnByTurn.refl (fun _ _ _ => .trans) (.of_quiet (makes_planOf _ _ _)) hfield
  have hafter : TurnByTurn Q visit.outcome.2 e.run.2 :=
    visit.rel_after TurnByTurn.refl (fun _ _ _ => .trans) hfield
  have hadopt : visit.world.Makes [] (visit.world.adopting visit.raw) :=
    ⟨(List.append_nil _).symm, rfl⟩
  have hn : visit.raw ≠ .null := ho.raw_ne
  obtain ⟨hto, hfrom⟩ := ho.rel TurnByTurn.refl (fun _ _ _ => .trans) fun nested payload x ho => by
    obtain ⟨next, hn, rfl, hr⟩ := visit.snd_exec_enter hk ho
    rw [hr]
    exact hnext next hn
  have henter : (exec (e.enter next.cls (.dict payload)) next.world).2 = next.run.2 := by
    rw [← hdata, hx.exec_enter, snd_exec_bind_pure]
    rfl
  rw [henter] at hfrom
  constructor
  · exact hbefore.trans ((TurnByTurn.of_quiet hadopt).trans hto)
  · exact hfrom.trans ((TurnByTurn.of_quiet (visit.makes_prepared hk)).trans
      ((visit.turns_functions hr hturn hn).trans hafter))

/-- A run makes calls before it comes to the functions of a field, and after that. -/
theorem Visit.Turn.around {visit : e.Visit} (turn : visit.Turn) :
    TurnByTurn Q e.world turn.start ∧ TurnByTurn Q visit.outcome.2 e.run.2 := by
  have hfield := fun visit : e.Visit => visit.turns_outcome hnext hr hturn
  have hbefore : TurnByTurn Q e.world visit.world :=
    visit.rel_before TurnByTurn.refl (fun _ _ _ => .trans) (.of_quiet (makes_planOf _ _ _)) hfield
  have hprepared := visit.turns_prepared hnext
  rw [turn.reached] at hprepared
  exact ⟨hbefore.trans hprepared, visit.rel_after TurnByTurn.refl (fun _ _ _ => .trans) hfield⟩

end Journal

/-! ### Runs -/

/-- The functions of a field that a run comes to, in its own schema or in a nested one, make calls
in turn. -/
def HasTurn (e : Entry) (own : List Call) : Prop :=
  ∃ path last, Leads e path last ∧ ∃ (visit : last.Visit) (turn : visit.Turn), turn.calls = own

private theorem Next.hasTurn {next : Entry} (hx : Next e next) {own : List Call}
    (h : next.HasTurn own) :
    e.HasTurn own := by
  obtain ⟨path, last, hl, hv⟩ := h
  exact ⟨next.cls :: path, last, .step hx hl, hv⟩

private theorem Visit.Turn.hasTurn {visit : e.Visit} (turn : visit.Turn) : e.HasTurn turn.calls :=
  ⟨[], e, .refl e, visit, turn, rfl⟩

/-- The calls of a run are made turn by turn, by the fields that the run comes to. -/
theorem ReadOnly.turns (h : e.ReadOnly) : TurnByTurn e.HasTurn e.world e.run.2 := by
  -- The induction is on the levels that are left: an entry that a run makes has fewer.
  induction hl : e.levels using Nat.strongRecOn generalizing e with
  | _ n ih =>
    refine turns_run (fun next hx => ?_) h fun visit turn => turn.hasTurn
    exact (ih next.levels (hl ▸ hx.levels_lt) (h.next hx) rfl).imp fun own => hx.hasTurn

private theorem ReadOnly.turns_next (h : e.ReadOnly) {next : Entry} (hx : Next e next) :
    TurnByTurn e.HasTurn next.world next.run.2 := (h.next hx).turns.imp fun _ => hx.hasTurn

/-- A run makes calls before it comes to an entry, and after that. -/
theorem Leads.around {last : Entry} {path : List ClassRef} (hl : Leads e path last)
    (h : e.ReadOnly) :
    TurnByTurn e.HasTurn e.world last.world ∧ TurnByTurn e.HasTurn last.run.2 e.run.2 := by
  induction hl with
  | refl e => exact ⟨.refl _, .refl _⟩
  | @step e next last path hx _ ih =>
    obtain ⟨hto, hfrom⟩ := ih (h.next hx)
    obtain ⟨hbefore, hafter⟩ := hx.around (fun _ => h.turns_next) h fun _ turn => turn.hasTurn
    constructor
    · exact hbefore.trans (hto.imp fun _ => hx.hasTurn)
    · exact (hfrom.imp fun _ => hx.hasTurn).trans hafter

/-- The calls of a turn are among those of the run, one right after the other. -/
theorem Leads.infix_calls {last : Entry} {path : List ClassRef} (hl : Leads e path last)
    (h : e.ReadOnly) {visit : last.Visit} (turn : visit.Turn) {made : List Call}
    (hm : e.run.2.calls = e.world.calls ++ made) : turn.calls <:+: made := by
  have hlast := h.leads hl
  obtain ⟨⟨_, hto, -⟩, _, hfrom, -⟩ := hl.around h
  obtain ⟨⟨_, hbefore, -⟩, _, hafter, -⟩ :=
    turn.around (fun _ => hlast.turns_next) hlast fun _ turn => turn.hasTurn
  have hfunctions := (turn.exec_functions (visit.plan_readOnly hlast)).1
  have hall := (((hto.trans hbefore).trans hfunctions).trans (hafter.trans hfrom)).calls
  rw [hm, List.append_cancel_left_eq] at hall
  exact ⟨_, _, hall.symm⟩

end Entry

end Binding

end SchemaBinding
