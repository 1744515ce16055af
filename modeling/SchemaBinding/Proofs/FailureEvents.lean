import SchemaBinding.Proofs.CallJournal
import SchemaBinding.Proofs.PopulatedRecords

/-!
# How a failed bind is reported

Entering a schema logs nothing but the plans that are compiled on the way, whether it succeeds or
fails, and however many schemas are nested in it. Only the bind as a whole reports a failure. So a
step that binds a payload reports at most one, and it does so at last.
-/

namespace SchemaBinding

/-- From one world to another, nothing was logged but compiled plans. -/
def World.LogsPlans (w v : World) : Prop :=
  ∃ logged, v.events = w.events ++ logged ∧ ∀ ev ∈ logged, ev.name = "jsonbind_plan_compiled"

namespace World.LogsPlans

variable {w v x : World}

private theorem of_events (h : v.events = w.events) : w.LogsPlans v :=
  ⟨[], by rw [h, List.append_nil], fun _ hm => absurd hm List.not_mem_nil⟩

/-- Where nothing is logged, nothing but compiled plans is. -/
theorem refl (w : World) : w.LogsPlans w := of_events rfl

/-- What logs nothing but compiled plans in both of its parts logs nothing else. -/
theorem trans (h : w.LogsPlans v) (g : v.LogsPlans x) : w.LogsPlans x := by
  obtain ⟨logged, he, hl⟩ := h
  obtain ⟨later, hx, hr⟩ := g
  refine ⟨logged ++ later, by rw [hx, he, List.append_assoc], fun ev hm => ?_⟩
  exact (List.mem_append.mp hm).elim (hl ev) (hr ev)

end World.LogsPlans

namespace Binding

open World

variable {α β : Type}

/-- Whatever comes of an action, it logs nothing but compiled plans. -/
def PlansOnly (a : Action α) : Prop := ∀ w : World, w.LogsPlans (exec a w).2

namespace PlansOnly

/-- An action that only returns logs nothing. -/
theorem pure (x : α) : PlansOnly (pure x) := LogsPlans.refl

/-- An action that fails at once logs nothing. -/
theorem error (f : Fault) : PlansOnly (throw f : Action α) := LogsPlans.refl

/-- A result that was settled before logs nothing. -/
theorem lift (e : Except Fault α) : PlansOnly (World.lift e) := LogsPlans.refl

/-- Looking at the world logs nothing. -/
theorem get : PlansOnly (MonadState.get : Action World) := LogsPlans.refl

/-- A sequence logs nothing but compiled plans if neither of its parts does. -/
theorem bind {a : Action α} {f : α → Action β} (ha : PlansOnly a) (hf : ∀ x, PlansOnly (f x)) :
    PlansOnly (a >>= f) :=
  fun w => rel_exec_bind (fun _ _ _ => .trans) (ha w) fun x v _ _ => hf x v

end PlansOnly

private theorem plansOnly_adopt (v : Value) : PlansOnly (adopt v) := by
  intro w
  rw [exec_adopt]
  exact .of_events rfl

/-- Asking for the plan of a class logs at most that it is compiled. -/
theorem plansOnly_planOf (i : Nat) (c : ClassRef) : PlansOnly (planOf i c) := by
  intro w
  cases hk : (w.registry i).cached? c with
  | some plans =>
    rw [exec_planOf_kept hk]
    exact .refl w
  | none =>
    rw [exec_planOf_compiled hk]
    cases (w.registry i).compile w.classes c with
    | error f => exact .refl w
    | ok plans => exact ⟨_, rfl, fun ev hm => by rw [List.mem_singleton.mp hm]; rfl⟩

/-! ### Functions of the caller -/

private theorem plansOnly_obtain (kept argument : Value) (attrs : List (String × Value))
    (given : Given) :
    PlansOnly (obtain kept argument attrs given) := by
  intro w
  obtain ⟨v, supply, h⟩ := exec_obtain kept argument attrs given w
  rw [h]
  exact .of_events rfl

private theorem plansOnly_setGiven (kept argument : Value) (sets : List (String × Given))
    (attrs : List (String × Value)) : PlansOnly (setGiven kept argument sets attrs) := by
  induction sets generalizing attrs with
  | nil => exact .pure attrs
  | cons s rest ih => exact .bind (plansOnly_obtain kept argument attrs s.2) fun _ => ih _

private theorem plansOnly_call (cls : ClassRef) (field : String) (attrs : List (String × Value))
    (f : UserFunction) (value : Value) : PlansOnly (call cls field attrs f value) := by
  refine .bind .get fun w => .bind (fun _ => .of_events rfl) fun _ => ?_
  split
  · exact .error _
  · exact .error _
  · split
    · exact .error _
    · exact .bind (plansOnly_setGiven _ value _ attrs) fun attrs =>
        .bind (plansOnly_obtain _ value attrs _) fun _ => .pure _

private theorem plansOnly_transform (cls : ClassRef) (field : String) (fs : List UserFunction)
    (attrs : List (String × Value)) (value : Value) :
    PlansOnly (transform cls field fs attrs value) := by
  induction fs generalizing attrs value with
  | nil => exact .pure _
  | cons f fs ih =>
    refine .bind (plansOnly_call cls field attrs f value) fun r => ?_
    obtain ⟨attrs, replacement⟩ := r
    cases replacement with
    | null => exact ih attrs value
    | _ => exact ih attrs _

private theorem plansOnly_check (cls : ClassRef) (field : String) (attrs : List (String × Value))
    (value : Value) (c : Check) : PlansOnly (check cls field attrs value c) := by
  cases c with
  | comparison c => exact .bind (.lift _) fun _ => .pure attrs
  | custom predicate =>
    refine .bind (plansOnly_call cls field attrs predicate value) fun r => ?_
    dsimp only
    split
    · split
      · exact .error _
      · exact .error _
    · exact .pure r.1

private theorem plansOnly_checkAll (cls : ClassRef) (field : String) (value : Value)
    (cs : List Check)
    (attrs : List (String × Value)) : PlansOnly (checkAll cls field value cs attrs) := by
  induction cs generalizing attrs with
  | nil => exact .pure attrs
  | cons c cs ih => exact .bind (plansOnly_check cls field attrs value c) ih

/-! ### Records -/

section Field

variable {enter : Enter} (he : ∀ nested raw, PlansOnly (enter nested raw))

include he

private theorem plansOnly_convertField (typeName : String) (plan : FieldPlan) (kind : ValueKind)
    (raw : Value) : PlansOnly (convertField enter typeName plan kind raw) := fun _ =>
  rel_convertField LogsPlans.refl (fun _ _ _ => .trans) fun nested payload v _ =>
    he nested (.dict payload) v

private theorem plansOnly_resolve (cls : ClassRef) (plan : FieldPlan)
    (attrs : List (String × Value))
    (raw : Value) : PlansOnly (resolve enter cls plan attrs raw) := by
  unfold resolve
  split
  · exact plansOnly_transform cls plan.name plan.transforms attrs raw
  · next kind hk =>
    refine .bind (plansOnly_convertField he cls.name plan kind raw) fun converted => ?_
    refine .bind (plansOnly_adopt converted) fun value => .bind (.lift _) fun _ => ?_
    refine .bind (plansOnly_transform cls plan.name plan.transforms attrs value) fun r => ?_
    refine .bind (plansOnly_checkAll cls plan.name r.2 plan.checks r.1) fun attrs => ?_
    exact .bind (.lift _) fun _ => .pure _

private theorem plansOnly_bindField (cls : ClassRef) (entries : List (Value × Value))
    (plan : FieldPlan)
    (attrs : List (String × Value)) :
    PlansOnly (bindField enter cls entries plan attrs) := by
  unfold bindField
  split
  · split
    · exact .error _
    · exact .pure attrs
  · refine .bind (plansOnly_adopt _) fun raw => ?_
    refine .bind (plansOnly_resolve he cls plan attrs raw) fun r => .bind .get fun w => ?_
    split
    · exact .pure _
    · exact .error _

private theorem plansOnly_bindFields (cls : ClassRef) (entries : List (Value × Value))
    (plans : List FieldPlan) (attrs : List (String × Value)) :
    PlansOnly (bindFields enter cls entries plans attrs) := by
  induction plans generalizing attrs with
  | nil => exact .pure attrs
  | cons plan plans ih => exact .bind (plansOnly_bindField he cls entries plan attrs) ih

end Field

/-- Entering a schema reports no failure, nor does any schema that is nested in it. -/
theorem plansOnly_populate (levels binder depth : Nat) (cls : ClassRef) (data : Value) :
    PlansOnly (populate planOf levels binder depth cls data) := by
  -- A schema that is nested in another is entered with fewer levels left.
  induction levels generalizing binder depth cls data with
  | zero => exact .bind .get fun _ => .error _
  | succ levels ih =>
    refine .bind .get fun w => ?_
    dsimp only
    split
    · exact .error _
    · split
      · refine .bind (plansOnly_planOf _ cls) fun plans => plansOnly_bindFields ?_ cls _ plans []
        exact fun nested raw => .bind (ih _ _ nested raw) fun _ => .pure _
      · exact .error _

/-! ### Reports -/

/-- An event reports that binding a payload to a class failed with an error. -/
structure Reports (ev : Event) (c : ClassRef) (e : BindingError) : Prop where
  name : ev.name = "jsonbind_bind_failed"
  fields : ev.fields = [("schema", .str c.name), ("error", .str e.cause.name),
    ("failed_schema", .str e.typeName), ("field", .str e.fieldName), ("reason", .str e.reason)]

/-- What was logged from one world to another, next to a result: the plans that were compiled, and
after them a report of the binding error that the result is, if it is one. -/
inductive Reported (target : Target) (w v : World) : Except Fault α → Prop
  | failed {c : ClassRef} {e : BindingError} {before : List Event} {last : Event}
    (ht : target = .cls c) (hv : v.events = w.events ++ (before ++ [last]))
    (hb : ∀ ev ∈ before, ev.name = "jsonbind_plan_compiled") (hl : Reports last c e) :
    Reported target w v (.error (.binding e))
  | other {r : Except Fault α} (hr : ∀ e, r ≠ .error (.binding e)) (hl : w.LogsPlans v) :
    Reported target w v r

/-- A result is reported alike when its value is changed. -/
theorem Reported.map {target : Target} {w v : World} {r : Except Fault α}
    (h : Reported target w v r) (f : α → β) : Reported target w v (r.map f) := by
  cases h with
  | failed ht hv hb hl => exact .failed ht hv hb hl
  | other hr hl => exact .other (fun e he => hr e (eq_error_of_map he)) hl

private theorem Reported.of_events {target : Target} {w v x : World} {r : Except Fault α}
    (h : Reported target w x r) (hw : w.events = v.events) : Reported target v x r := by
  cases h with
  | failed ht hv hb hl => exact .failed ht (hw ▸ hv) hb hl
  | other hr hl => exact .other hr (.trans (.of_events hw) hl)

/-- An action that binds a payload to a target reports the binding error with which it fails. -/
def ReportsFailure (target : Target) (a : Action α) : Prop :=
  ∀ w, Reported target w (exec a w).2 (exec a w).1

namespace ReportsFailure

variable {target : Target}

/-- An action that fails at once with no binding error has nothing to report. -/
theorem refused {f : Fault} (hf : ∀ e, f ≠ .binding e) :
    ReportsFailure target (throw f : Action α) :=
  fun w => .other (fun e he => hf e (Except.error.inj he)) (.refl w)

/-- An action reports its failure alike when its value is changed. -/
theorem map {a : Action α} (h : ReportsFailure target a) (f : α → β) :
    ReportsFailure target (a >>= fun x => pure (f x)) := by
  intro w
  rw [snd_exec_bind_pure, fst_exec_bind_pure]
  exact (h w).map f

/-- Looking at the world first leaves what is reported. -/
theorem get {f : World → Action α} (hf : ∀ w, ReportsFailure target (f w)) :
    ReportsFailure target (MonadState.get >>= f) := by
  intro w
  rw [exec_bind_of_ok (exec_get w)]
  exact hf w w

/-- What comes before may be refused. -/
theorem after {e : Except Fault α} (he : FailsOnly (fun f => ∀ error, f ≠ .binding error) e)
    {f : α → Action β} (hf : ∀ x, ReportsFailure target (f x)) :
    ReportsFailure target (World.lift e >>= f) := by
  cases e with
  | error fault => exact refused (he fault rfl)
  | ok x => exact hf x

end ReportsFailure

/-- A failure is reported once, although the action that fails has reported none. -/
theorem reportsFailure_reporting (c : ClassRef) {a : Action α} (h : PlansOnly a) :
    ReportsFailure (.cls c) (reporting c a) := by
  intro w
  rw [exec_reporting]
  have hw := h w
  generalize exec a w = r at hw
  obtain ⟨f | x, v⟩ := r
  · cases f with
    | binding e =>
      obtain ⟨logged, hv, hl⟩ := hw
      have hlog : (v.log (.bindFailed c.name e)).events =
          w.events ++ (logged ++ [.bindFailed c.name e]) := by
        rw [← List.append_assoc, ← hv]
        rfl
      exact .failed rfl hlog hl ⟨rfl, rfl⟩
    | _ => exact .other (fun e he => by cases he) hw
  · exact .other (fun e he => by cases he) hw

/-- A bind reports the binding error with which it fails. -/
theorem reportsFailure_bindAttrs (binder : Nat) (c : ClassRef) (data : Value) :
    ReportsFailure (.cls c) (bindAttrs planOf binder c data) := by
  intro w
  rw [bindAttrs, exec_bind_of_ok (exec_adopt data w), exec_bind_of_ok (exec_get _)]
  -- Telling the payload apart from other values logs nothing.
  exact (reportsFailure_reporting c (plansOnly_populate _ binder 0 c _) (w.adopting data)).of_events
    rfl

end Binding

namespace Session

open World Binding

private theorem failsOnly_requireMethod (classes : ClassTable) (c : ClassRef) (name : String) :
    FailsOnly (fun f => ∀ e, f ≠ .binding e) (requireMethod classes c name) := by
  rw [requireMethod]
  split
  · exact .ok ()
  · exact .error fun e he => by cases he
  · exact .error fun e he => by cases he
  · exact .error fun e he => by cases he

/-- Binding onto a record reports what binding a new one does: that its class lets it have no
attributes is no binding error. -/
theorem reportsFailure_bindOnto (binder : Nat) (c : ClassRef) (attrs : List (String × Value))
    (data : Value) : ReportsFailure (.cls c) (bindOnto planOf binder c attrs data) := by
  intro w
  have hb := reportsFailure_bindAttrs binder c data w
  rw [exec_bindOnto]
  generalize exec (bindAttrs planOf binder c data) w = r at hb
  obtain ⟨e | bound, v⟩ := r
  · exact hb
  · cases hb with
    | other _ hl =>
      refine .other (fun e he => ?_) hl
      dsimp only at he
      split at he <;> cases he

/-- However a payload is bound to a target, the failure of the bind is reported. -/
theorem reportsFailure_bindTarget (way : BindWay) (target : Target) (data : Value) :
    ReportsFailure target (bindTarget planOf way target data) := by
  cases target with
  | value v =>
    cases way with
    | call => exact .refused fun e he => by cases he
    | fromDict => exact .refused fun e he => by cases he
    | binder i => exact .refused fun e he => by cases he
  | cls c =>
    have hmethod : ∀ (w : World) name, FailsOnly (fun f => ∀ e, f ≠ .binding e)
        (requireMethod w.classes c name) := fun w => failsOnly_requireMethod w.classes c
    cases way with
    | call =>
      refine .get fun w => ?_
      split
      · exact .after (hmethod w _) fun _ => (reportsFailure_bindOnto _ c [] data).map _
      · exact .refused fun e he => by cases he
    | fromDict =>
      refine .get fun w => ?_
      exact .after (hmethod w _) fun _ => (reportsFailure_bindAttrs _ c data).map _
    | binder i => exact (reportsFailure_bindAttrs i c data).map _

/-! ### Steps -/

variable {s : Session} {op : Operation} {target : Target}

variable (s) in
/-- An operation binds a payload to a target: to make a new record of it, in any way, or to fill a
kept record, whose class is the target. -/
inductive Binds : Operation → Target → Prop
  | new (way : BindWay) (target : Target) (data : Value) (keep : Bool) :
    Binds (.bind way target data keep) target
  | onto (binder : Nat) {i : Nat} {k : Kept} (data : Value) (hk : s.records[i]? = some k) :
    Binds (.populate binder i data) (.cls k.cls)

/-- Binding a new record, which may be kept. -/
theorem exec_run_new (way : BindWay) (target : Target) (data : Value) (kept : Bool) (s : Session) :
    exec (run planOf (.bind way target data kept)) s =
      match exec (bindTarget planOf way target data) s.world with
      | (.ok k, w) =>
        (display w.classes k.toValue, ⟨w, if kept then s.records ++ [k] else s.records⟩)
      | (.error e, w) => (.error e, ⟨w, s.records⟩) := by
  change exec (act (bindTarget planOf way target data) >>= _) s = _
  rw [exec_bind_act]
  rcases exec (bindTarget planOf way target data) s.world with ⟨e | k, w⟩
  · rfl
  · cases kept with
    | false => exact exec_shown k.toValue _
    | true => exact (exec_bind_of_ok (exec_keep k _) _).trans (exec_shown k.toValue _)

/-- Showing the record that was bound logs nothing, and it raises no binding error. -/
theorem reported_display {α : Type} {w v : World} {x : α}
    (h : Reported target w v (.ok x)) (classes : ClassTable) (shown : Value) :
    Reported target w v (display classes shown) := by
  cases h with
  | other _ hl =>
    refine .other (fun e he => ?_) hl
    rw [display] at he
    split at he
    · cases he
    · cases he

/-- A step that binds a payload fails with the binding error of the bind, which is reported. -/
theorem Binds.reported (h : s.Binds op target) :
    Reported target s.fresh.world (s.step op).2.world (s.step op).1 := by
  rw [step_eq]
  cases h with
  | new way target data keep =>
    have hb := reportsFailure_bindTarget way target data s.fresh.world
    rw [exec_run_new]
    generalize exec (bindTarget planOf way target data) s.fresh.world = r at hb
    obtain ⟨e | k, w⟩ := r
    · exact hb.map fun _ => .done
    · exact reported_display hb w.classes k.toValue
  | @onto binder i k data hk =>
    have hb := reportsFailure_bindOnto binder k.cls k.attrs data s.fresh.world
    rw [exec_run_populate (s := s.fresh) binder data hk]
    generalize exec (bindOnto planOf binder k.cls k.attrs data) s.fresh.world = r at hb
    obtain ⟨e | attrs, w⟩ := r
    · exact hb.map fun _ => .done
    · exact reported_display hb w.classes _

/-- Whether a payload is bound to a new record or onto a kept one, and however deep and through how
many binders the failure has come: a step that fails with a binding error reports it once and at
last, and the report names the root class and says what the error says. A step that does anything
else reports no failure. -/
theorem Binds.failure_events (h : s.Binds op target) :
    (∀ e, (s.step op).1 = .error (.binding e) →
      ∃ c before last, target = .cls c ∧ (s.step op).2.world.events = before ++ [last] ∧
        (∀ ev ∈ before, ev.name ≠ "jsonbind_bind_failed") ∧ Reports last c e) ∧
    ((∀ e, (s.step op).1 ≠ .error (.binding e)) →
      ∀ ev ∈ (s.step op).2.world.events, ev.name ≠ "jsonbind_bind_failed") := by
  have hplans : ∀ {ev : Event}, ev.name = "jsonbind_plan_compiled" →
      ev.name ≠ "jsonbind_bind_failed" := fun he => by rw [he]; decide
  have hr := h.reported
  generalize (s.step op).2.world = v at hr
  generalize (s.step op).1 = r at hr
  cases hr with
  | @failed c e before last ht hv hb hl =>
    refine ⟨fun error he => ?_, fun hn => absurd rfl (hn e)⟩
    cases he
    exact ⟨c, before, last, ht, hv, fun ev hm => hplans (hb ev hm), hl⟩
  | other hr hl =>
    obtain ⟨logged, hv, hl⟩ := hl
    refine ⟨fun e he => absurd he (hr e), fun _ ev hm => hplans (hl ev ?_)⟩
    rwa [hv] at hm

/-- A class of spots. -/
def spot : ClassRef := ⟨5, "Spot", true⟩

/-- A class of frames, whose corners are spots. -/
def frame : ClassRef := ⟨6, "Frame", true⟩

/-- The session with spots, which have a binder of their own, and frames, and with a frame that is
kept. -/
def gallery : Session := initial.after [
  .newBinder 0 (some (.int 3)),
  .newClass "Spot" [.schemaBase] (some 1) [("x", ⟨.basic .int, []⟩)],
  .newClass "Frame" [.schemaBase] none [("corners", ⟨.listOf (.cls spot), []⟩)],
  .bind .call (.cls frame) (.dict []) true]

/-- A frame the second corner of which is nowhere. -/
def crooked : Value :=
  .dict [(.str "corners", .list [.dict [(.str "x", .int 1)], .dict [(.str "x", .str "far")]] none)]

/-- What a step logs: the names of the events, and the texts of what they carry. -/
def logTexts (r : Except Fault Outcome × Session) : List (String × List (String × String)) :=
  r.2.world.events.map fun ev => (ev.name, ev.fields.map fun f => (f.1, f.2.text))

/-- What is logged of a frame the second corner of which is nowhere. The plan of spots is compiled
on the way to the corners. -/
def crookedLog : List (String × List (String × String)) := [
  ("jsonbind_plan_compiled",
    [("schema", "'Spot'"), ("fields", "[\x7b'name': 'x', 'kind': 'int'\x7d]")]),
  ("jsonbind_bind_failed", [("schema", "'Frame'"), ("error", "'TypeMismatch'"),
    ("failed_schema", "'Spot'"), ("field", "'x'"), ("reason", "'expected int, got string'")])]

/-- A frame is reported once if a corner of it is nowhere, whether it is new or the kept one is
moved; and moving the kept one nowhere else reports nothing. -/
theorem crooked_reported : ∃ e f before last,
    (gallery.step (.bind .call (.cls frame) crooked true)).1 = .error (.binding e) ∧
    (gallery.step (.bind .call (.cls frame) crooked true)).2.world.events = before ++ [last] ∧
    Reports last frame e ∧
    logTexts (gallery.step (.bind .call (.cls frame) crooked true)) = crookedLog ∧
    (gallery.step (.populate 0 0 crooked)).1 = .error (.binding f) ∧
    (∃ ev ∈ (gallery.step (.populate 0 0 crooked)).2.world.events, Reports ev frame f) ∧
    logTexts (gallery.step (.populate 0 0 crooked)) = crookedLog ∧
    (∀ ev ∈ (gallery.step (.populate 0 0 (.dict []))).2.world.events,
      ev.name ≠ "jsonbind_bind_failed") := by
  have hcall : (bindingError? (gallery.step (.bind .call (.cls frame) crooked true)).1).isSome := by
    decide +kernel
  have hfill : (bindingError? (gallery.step (.populate 0 0 crooked)).1).isSome := by decide +kernel
  have hnone : (gallery.step (.populate 0 0 (.dict []))).1.isOk = true := by decide +kernel
  have hkept : (gallery.records[0]?.map Kept.cls) = some frame := by decide +kernel
  obtain ⟨e, he⟩ := Option.isSome_iff_exists.mp hcall
  obtain ⟨f, hf⟩ := Option.isSome_iff_exists.mp hfill
  obtain ⟨k, hk, hc⟩ := Option.map_eq_some_iff.mp hkept
  have hcalled := eq_of_bindingError? he
  have hfilled := eq_of_bindingError? hf
  obtain ⟨c, before, last, ht, hevents, -, hreport⟩ :=
    (Binds.failure_events (.new .call (.cls frame) crooked true)).1 e hcalled
  obtain ⟨c', before', last', ht', hevents', -, hreport'⟩ :=
    (Binds.failure_events (.onto 0 crooked hk)).1 f hfilled
  cases ht
  cases ht'
  rw [hc] at hreport'
  refine ⟨e, f, before, last, hcalled, hevents, hreport, by decide +kernel, hfilled,
    ⟨last', ?_, hreport'⟩, by decide +kernel, ?_⟩
  · rw [hevents']
    exact List.mem_append_right _ List.mem_cons_self
  · refine (Binds.failure_events (.onto 0 (.dict []) hk)).2 fun error hn => ?_
    rw [hn] at hnone
    cases hnone

end Session

end SchemaBinding
