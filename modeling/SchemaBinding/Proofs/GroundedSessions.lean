import SchemaBinding.Proofs.EstablishedWorlds

/-!
# Sessions that name only what there is

An operation names classes and registries. In a session whose operations name none but those that
there are, the world is established at every moment.
-/

namespace SchemaBinding

/-- A target is a class of a table, or no class at all. -/
def Target.In (t : ClassTable) : Target → Prop
  | .cls c => t.Has c
  | .value _ => True

/-- An operation creates and declares with classes and registries only that there are. -/
def Operation.Grounded (w : World) : Operation → Prop
  | .newBinder registry _ => registry < w.registries.length
  | .newClass _ bases _ _ => ∀ b ∈ bases, w.classes.Has b
  | .declare _ target _ _ _ => target.In w.classes
  | .declareOn target _ _ _ => target.In w.classes
  | .register _ target => target.In w.classes
  | _ => True

instance (t : ClassTable) (c : ClassRef) : Decidable (t.Has c) :=
  inferInstanceAs (Decidable (∃ info ∈ t, info.ref = c))

instance (t : ClassTable) : (target : Target) → Decidable (target.In t)
  | .cls c => inferInstanceAs (Decidable (t.Has c))
  | .value _ => isTrue trivial

instance (w : World) : (op : Operation) → Decidable (op.Grounded w)
  | .newBinder registry _ => inferInstanceAs (Decidable (registry < w.registries.length))
  | .newClass _ bases _ _ => inferInstanceAs (Decidable (∀ b ∈ bases, w.classes.Has b))
  | .declare _ target _ _ _ => inferInstanceAs (Decidable (target.In w.classes))
  | .declareOn target _ _ _ => inferInstanceAs (Decidable (target.In w.classes))
  | .register _ target => inferInstanceAs (Decidable (target.In w.classes))
  | .newRegistry .. | .setStrict .. | .setMaxDepth .. | .configure .. | .clear .. | .fields ..
  | .fieldsOf .. | .fieldNames .. | .plan .. | .isSchema .. | .acceptsNested .. | .bind ..
  | .newRecord .. | .populate .. | .look .. | .text .. | .getAttr .. | .setAttr ..
  | .appendAttr .. | .equal .. | .build .. | .parse .. | .load .. | .status => isTrue trivial

namespace Session

open World

/-- The sessions that operations lead to which name only what there is. -/
inductive Grounded : Session → Prop
  | initial : Grounded .initial
  | step (s : Session) (op : Operation) (h : Grounded s) (ho : op.Grounded s.world) :
      Grounded (s.step op).2

/-- A session that names only what there is comes about by operations. -/
theorem Grounded.reachable {s : Session} (h : s.Grounded) : s.Reachable := by
  induction h with
  | initial => exact .initial
  | step s op _ _ ih => exact .step s op ih

/-- Each of some operations, made one after another, names only what there is by then. -/
def AllGrounded (s : Session) : List Operation → Prop
  | [] => True
  | op :: ops => op.Grounded s.world ∧ AllGrounded (s.step op).2 ops

instance : (s : Session) → (ops : List Operation) → Decidable (s.AllGrounded ops)
  | _, [] => isTrue trivial
  | s, op :: ops =>
    have : Decidable ((s.step op).2.AllGrounded ops) := instDecidableAllGrounded (s.step op).2 ops
    inferInstanceAs (Decidable (op.Grounded s.world ∧ (s.step op).2.AllGrounded ops))

/-- Operations that name only what there is keep a session so. -/
theorem Grounded.after {s : Session} (h : s.Grounded) {ops : List Operation}
    (ho : s.AllGrounded ops) : (s.after ops).Grounded := by
  induction ops generalizing s with
  | nil => exact h
  | cons op ops ih => exact ih (.step s op h ho.1) ho.2

/-! ### Steps -/

variable {α β : Type} {s : Session}

/-- A step in progress leaves an established world, with all the classes. -/
def SustainedBy (s : Session) (a : Step α) : Prop := Sustains s.world (exec a s).2.world

/-- A step in sequence sustains a session if its second part sustains what the first leaves. -/
theorem SustainedBy.bind {a : Step α} {f : α → Step β} (ha : s.SustainedBy a)
    (hf : ∀ x (t : Session), Sustains s.world t.world → t.SustainedBy (f x)) :
    s.SustainedBy (a >>= f) :=
  rel_exec_bind (R := fun s t : Session => Sustains s.world t.world)
    (fun _ _ _ h g => Sustains.trans h g) ha fun x t _ h => hf x t h

section Established

variable (h : s.world.Established)

include h

private theorem sustainedBy_lift_bind {e : Except Fault α} {f : α → Step β}
    (hf : ∀ x, e = .ok x → s.SustainedBy (f x)) : s.SustainedBy (lift e >>= f) := by
  cases e with
  | error e => exact h.sustains
  | ok x => exact hf x rfl

private theorem sustainedBy_keep (k : Kept) : s.SustainedBy (keep k) := h.sustains

private theorem sustainedBy_replace (i : Nat) (k : Kept) : s.SustainedBy (replace i k) := h.sustains

private theorem sustainedBy_shown (v : Value) : s.SustainedBy (shown v) := by
  change Sustains s.world (exec (if _ then throw _ else pure _ : Step Outcome) s).2.world
  split
  · exact h.sustains
  · exact h.sustains

end Established

/-- Looking at the session sustains it. -/
theorem SustainedBy.get {f : Session → Step α} (hf : s.SustainedBy (f s)) :
    s.SustainedBy (MonadState.get >>= f) := hf

private theorem sustainedBy_stored_bind {i : Nat} {f : Kept → Step α}
    (hf : ∀ k, s.SustainedBy (f k)) :
    s.SustainedBy (stored i >>= f) := hf _

/-- Looking at a record changes nothing. -/
theorem sustainedBy_record_bind {i : Nat} {f : Kept → Step α} (hf : ∀ k, s.SustainedBy (f k)) :
    s.SustainedBy (record i >>= f) := hf _

/-- An action that is part of a step. -/
theorem sustainedBy_act {a : Action α} (h : s.world.SustainedBy a) : s.SustainedBy (act a) := h

/-- An action whose result is shown at once. -/
theorem sustainedBy_act_bind {a : Action α} (h : s.world.SustainedBy a) (f : α → Outcome) :
    s.SustainedBy (act a >>= fun x => pure (f x)) := by
  rw [SustainedBy, world_exec_act_bind]
  exact h

/-- Actions that make calm changes. -/
theorem sustainedBy_of_agree {w : World} {a b : Action α} (hw : w.Consistent) (h : w.Established)
    (ha : ∀ K : World → Prop, (∀ w v, Calm w v → K w → K v) → Agree (World.Kin K) a b) :
    w.SustainedBy a := h.calm (calm_of_agree hw ha).2

private theorem sustainedBy_adopt_build (h : s.world.Established) (binder : Option Nat)
    (table : Value) :
    s.SustainedBy (do
      let table ← act (adopt table)
      let cs ← act (Table.build binder table)
      return Outcome.classes cs) := by
  apply SustainedBy.bind (sustainedBy_act (sustainedBy_adopt h table))
  intro table t ht
  exact sustainedBy_act_bind (sustainedBy_build ht.established table) _

/-- An operation that names only what there is leaves an established world, with all the classes. -/
theorem sustainedBy_run {op : Operation} (hw : s.world.Consistent) (h : s.world.Established)
    (ho : op.Grounded s.world) : s.SustainedBy (run planOf op) := by
  cases op with
  | newRegistry strict => exact sustainedBy_act_bind (.modify (h.newRegistry strict)) _
  | newBinder registry maxDepth =>
    apply sustainedBy_lift_bind h
    intro depth _
    refine sustainedBy_act_bind (.modify (h.setBinders fun i => ?_)) _
    rw [List.getElem?_append]
    split
    · exact h.registry i
    · rw [List.getElem?_singleton]
      split
      · exact ho
      · exact h.registry_default
  | setStrict registry v => exact sustainedBy_act_bind (sustainedBy_setStrict h registry v) _
  | setMaxDepth binder v => exact sustainedBy_act_bind (sustainedBy_setMaxDepth h binder v) _
  | configure s => exact sustainedBy_act_bind (sustainedBy_configure h s) _
  | newClass name bases binder fields =>
    exact sustainedBy_act_bind (sustainedBy_createClass h ho) _
  | declare registry target field args declared =>
    cases target with
    | value v => exact h.sustains
    | cls c => exact sustainedBy_act_bind (sustainedBy_declareField h ho registry field args _) _
  | declareOn target field args declared =>
    cases target with
    | value v => exact h.sustains
    | cls c =>
      refine sustainedBy_act_bind ?_ _
      exact .get (.lift h fun _ _ => sustainedBy_declareOnClass h ho field args declared)
  | register registry target =>
    cases target with
    | value v => exact h.sustains
    | cls c => exact sustainedBy_act_bind (sustainedBy_registerClass h ho registry) fun _ => .done
  | clear registry target => exact sustainedBy_act_bind (sustainedBy_clear h registry target) _
  | fields registry target => cases target <;> exact h.sustains
  | fieldsOf target =>
    refine sustainedBy_act_bind (.get (.lift h fun c _ => ?_)) _
    split
    · exact .lift h fun _ _ => h.pure _
    · exact h.pure _
  | fieldNames registry target => cases target <;> exact h.sustains
  | plan registry target =>
    refine sustainedBy_act_bind ?_ _
    exact sustainedBy_of_agree hw h fun K hK => agree_plansOf hK registry target
  | isSchema registry target => cases target <;> exact h.sustains
  | acceptsNested registry target => cases target <;> exact h.sustains
  | bind way target data kept =>
    have hb := sustainedBy_of_agree hw h fun K hK => agree_bindTarget hK way target data
    apply SustainedBy.bind (sustainedBy_act hb)
    intro k t ht
    cases kept with
    | false => exact sustainedBy_shown ht.established _
    | true => exact .bind (sustainedBy_keep ht.established k) fun _ u hu =>
        sustainedBy_shown hu.established _
  | newRecord target => cases target <;> exact h.sustains
  | populate binder i data =>
    apply sustainedBy_stored_bind
    intro k
    have hb := sustainedBy_of_agree hw h fun K hK => 
      Binding.agree_bindOnto hK binder k.cls k.attrs data
    apply SustainedBy.bind (sustainedBy_act hb)
    intro attrs t ht
    apply SustainedBy.bind (sustainedBy_replace ht.established i _)
    intro _ u hu
    exact sustainedBy_record_bind fun k => sustainedBy_shown hu.established _
  | look i => exact sustainedBy_record_bind fun k => sustainedBy_shown h _
  | text i =>
    apply sustainedBy_record_bind
    intro k
    dsimp only
    split <;> exact h.sustains
  | getAttr i name =>
    apply sustainedBy_record_bind
    intro k
    apply SustainedBy.get
    apply sustainedBy_lift_bind h
    intro found _
    split
    · exact sustainedBy_shown h _
    · exact h.sustains
  | setAttr i name v =>
    apply sustainedBy_record_bind
    intro k
    apply SustainedBy.get
    dsimp only
    split
    · apply SustainedBy.bind (sustainedBy_act (sustainedBy_adopt h v))
      intro v t ht
      exact ht.established.sustains
    · exact h.sustains
  | appendAttr i name v =>
    apply SustainedBy.bind (sustainedBy_act (sustainedBy_adopt h v))
    intro v t ht
    refine .bind (sustainedBy_record_bind fun k => .get ?_) fun _ u hu => hu.established.sustains
    apply sustainedBy_lift_bind ht.established
    rintro ⟨label, items⟩ _
    cases label with
    | none => exact sustainedBy_replace ht.established i _
    | some n => exact sustainedBy_act (.modify (ht.established.of_eq rfl rfl rfl))
  | equal a b =>
    unfold run
    dsimp only
    split <;> exact h.sustains
  | build binder table => exact sustainedBy_adopt_build h binder table
  | parse binder source text =>
    exact sustainedBy_lift_bind h fun table _ => sustainedBy_adopt_build h binder table
  | load binder directory path =>
    exact sustainedBy_lift_bind h fun table _ => sustainedBy_adopt_build h binder table
  | status => exact h.sustains

/-- In a session that names only what there is, the table of classes is lawful, only its classes are
known to registries, and every binder has a registry. -/
theorem Grounded.established {s : Session} (h : s.Grounded) : s.world.Established := by
  induction h with
  | initial => exact established_initial
  | step s op hs ho ih =>
    have hc := hs.reachable.consistent
    have hf : s.fresh.world.Established := ⟨ih.lawful, ih.known, ih.registry⟩
    exact (sustainedBy_run (s := s.fresh) ⟨hc.faithful, hc.named, hc.bytes⟩ hf ho).established

end Session

end SchemaBinding
