import SchemaBinding.Proofs.ClassAttributes
import SchemaBinding.Proofs.PopulatedRecords

/-!
# The calls that a session makes

Every step of a session makes some calls that declare fields, often none. What classes have under a
name follows from the calls of the run that succeeded, and a session never loses a registry, a
binder, a class or an attribute of a class.
-/

namespace SchemaBinding

namespace Operation

open World

/-- Whether an operation makes calls that declare fields. -/
def makesCalls : Operation → Bool
  | .newClass .. => true
  | .declare .. => true
  | .declareOn .. => true
  | .build .. => true
  | .parse .. => true
  | .load .. => true
  | _ => false

/-- What an operation does before it declares fields loses nothing. -/
theorem extendedBy_opens (w : World) (op : Operation) : w.ExtendedBy op.opens := by
  cases op with
  | newClass name bases binder body => exact extendedBy_openBody w name bases binder body
  | declare i target field args declared =>
    cases target with
    | value v => exact .pure []
    | cls c => cases field <;> exact .pure _
  | declareOn target field args declared =>
    cases target with
    | value v => exact .pure []
    | cls c =>
      cases field with
      | str name => exact .get (.lift fun _ => .pure _)
      | _ => exact .pure []
  | build binder table =>
    exact (extendedBy_adopt w table).bind fun table v => extendedBy_tableOpens v binder table
  | parse binder source contents =>
    exact .lift fun table => (extendedBy_adopt w table).bind fun table v =>
      extendedBy_tableOpens v binder table
  | load binder directory path =>
    exact .lift fun table => (extendedBy_adopt w table).bind fun table v =>
      extendedBy_tableOpens v binder table
  | _ => exact .pure []

variable {w : World}

/-- The calls that an operation makes are for classes that there are by then. -/
theorem in_of_openBody (h : w.Established) {name : String} {bases : List ClassRef}
    (hb : ∀ b ∈ bases, w.classes.Has b) {binder : Option Nat}
    {body : List (String × FieldDeclaration)} {calls : List DeclareCall} {v : World}
    (he : exec (openBody name bases binder body) w = (.ok calls, v)) :
    v.Established ∧ ∀ call ∈ calls, call.In v.classes := by
  obtain ⟨⟨c, registry⟩, u, ho, he⟩ := exec_bind_eq_ok_iff.mp he
  have hu := (sustainedBy_openClass h hb).of_ok ho
  obtain ⟨hc, hne⟩ := has_of_openClass h ho
  cases he
  refine ⟨hu.established, fun call hm => ?_⟩
  cases registry with
  | none => cases hm
  | some i =>
    obtain ⟨f, -, rfl⟩ := List.mem_map.mp hm
    exact ⟨hc, fun _ _ => hne⟩

private theorem in_of_tableOpens (h : w.Established) {binder : Option Nat} {table : Value}
    {calls : List DeclareCall} {v : World}
    (he : exec (Table.opens binder table) w = (.ok calls, v)) :
    v.Established ∧ ∀ call ∈ calls, call.In v.classes := by
  have hnone : ∀ {calls : List DeclareCall} {v : World},
      exec (pure [] : Action (List DeclareCall)) w = (.ok calls, v) →
        v.Established ∧ ∀ call ∈ calls, call.In v.classes := by
    intro calls v hp
    cases hp
    exact ⟨h, fun _ hm => by cases hm⟩
  unfold Table.opens at he
  split at he
  · split at he
    · obtain ⟨created, u, hc, he⟩ := exec_bind_eq_ok_iff.mp he
      have hu := (sustainedBy_createAll h _).of_ok hc
      cases he
      refine ⟨hu.established, fun call hm => ?_⟩
      obtain ⟨s, -, hm⟩ := List.mem_flatMap.mp hm
      obtain ⟨f, -, rfl⟩ := List.mem_map.mp hm
      exact ⟨hu.established.has_classOf (has_of_createAll h hc) _, fun _ hs => by cases hs⟩
    · exact hnone he
  · exact hnone he

private theorem in_of_opens (h : w.Established) {op : Operation} (ho : op.Grounded w)
    {calls : List DeclareCall} {v : World} (he : exec op.opens w = (.ok calls, v)) :
    v.Established ∧ ∀ call ∈ calls, call.In v.classes := by
  have hadopt : ∀ {binder : Option Nat} {table : Value},
      exec (do let table ← adopt table; Table.opens binder table) w = (.ok calls, v) →
        v.Established ∧ ∀ call ∈ calls, call.In v.classes := by
    intro binder table hr
    obtain ⟨table, u, ha, hr⟩ := exec_bind_eq_ok_iff.mp hr
    exact in_of_tableOpens ((sustainedBy_adopt h _).of_ok ha).established hr
  have hnone : exec (pure [] : Action (List DeclareCall)) w = (.ok calls, v) →
      v.Established ∧ ∀ call ∈ calls, call.In v.classes := by
    intro hp
    cases hp
    exact ⟨h, fun _ hm => by cases hm⟩
  cases op with
  | newClass name bases binder body => exact in_of_openBody h ho he
  | declare i target field args declared =>
    cases target with
    | value v => exact hnone he
    | cls c =>
      cases field with
      | str name =>
        cases he
        refine ⟨h, fun call hm => ?_⟩
        rw [List.mem_singleton.mp hm]
        exact ⟨ho, fun _ hs => by cases hs⟩
      | _ => exact hnone he
  | declareOn target field args declared =>
    cases target with
    | value v => exact hnone he
    | cls c =>
      cases field with
      | str name =>
        obtain ⟨u, x, hg, he⟩ := exec_bind_eq_ok_iff.mp he
        cases hg
        obtain ⟨_, y, hl, he⟩ := exec_bind_eq_ok_iff.mp he
        obtain rfl : w = y := congrArg Prod.snd hl
        cases he
        refine ⟨h, fun call hm => ?_⟩
        rw [List.mem_singleton.mp hm]
        exact ⟨ho, fun _ hs => by cases hs⟩
      | _ => exact hnone he
  | build binder table => exact hadopt he
  | parse binder source contents =>
    obtain ⟨table, u, hl, he⟩ := exec_bind_eq_ok_iff.mp he
    obtain rfl : w = u := congrArg Prod.snd hl
    exact hadopt he
  | load binder directory path =>
    obtain ⟨table, u, hl, he⟩ := exec_bind_eq_ok_iff.mp he
    obtain rfl : w = u := congrArg Prod.snd hl
    exact hadopt he
  | _ => exact hnone he

end Operation

namespace Session

open World

variable {α β : Type} {s : Session}

/-- The calls that an operation makes and that succeed. -/
def made (s : Session) (op : Operation) : List DeclareCall :=
  match exec op.opens s.fresh.world with
  | (.ok calls, w) => DeclareCall.made w calls
  | (.error _, _) => []

/-- The calls that operations make and that succeed, one after another. -/
def madeBy (s : Session) : List Operation → List DeclareCall
  | [] => []
  | op :: ops => s.made op ++ madeBy (s.step op).2 ops

/-! ### Steps that make no calls -/

/-- A step in progress loses nothing that there is, and leaves no class an absent value. -/
def ExtendedBy (s : Session) (a : Step α) : Prop := Extends [] s.world (exec a s).2.world

/-- A step in sequence loses nothing if neither of its parts does. -/
theorem ExtendedBy.bind {a : Step α} {f : α → Step β} (ha : s.ExtendedBy a)
    (hf : ∀ x (t : Session), t.ExtendedBy (f x)) : s.ExtendedBy (a >>= f) :=
  rel_exec_bind (R := fun s t : Session => Extends [] s.world t.world)
    (fun _ _ _ => Extends.trans) ha fun x t _ _ => hf x t

/-- A step in progress that leaves the world as it is. -/
theorem ExtendedBy.of_eq {a : Step α} (h : (exec a s).2.world = s.world) : s.ExtendedBy a := by
  rw [ExtendedBy, h]
  exact .refl _

/-- A step loses nothing if what follows a result does not. -/
theorem ExtendedBy.lift {e : Except Fault α} {f : α → Step β} (hf : ∀ x, s.ExtendedBy (f x)) :
    s.ExtendedBy (Session.lift e >>= f) := by
  cases e with
  | error e => exact .refl _
  | ok x => exact hf x

private theorem extendedBy_shown (v : Value) : s.ExtendedBy (shown v) := by
  apply ExtendedBy.of_eq
  change (exec (if _ then throw _ else pure _ : Step Outcome) s).2.world = s.world
  split <;> rfl

private theorem extendedBy_stored_bind {i : Nat} {f : Kept → Step α}
    (hf : ∀ k, s.ExtendedBy (f k)) :
    s.ExtendedBy (stored i >>= f) := hf _

/-- Looking at a record changes nothing. -/
theorem extendedBy_record_bind {i : Nat} {f : Kept → Step α} (hf : ∀ k, s.ExtendedBy (f k)) :
    s.ExtendedBy (record i >>= f) := hf _

/-- Looking at the session loses nothing. -/
theorem ExtendedBy.get {f : Session → Step α} (hf : s.ExtendedBy (f s)) :
    s.ExtendedBy (MonadState.get >>= f) := hf

private theorem extendedBy_act {a : Action α} (h : s.world.ExtendedBy a) : s.ExtendedBy (act a) := h

private theorem extendedBy_act_bind {a : Action α} (h : s.world.ExtendedBy a) (f : α → Outcome) :
    s.ExtendedBy (act a >>= fun x => pure (f x)) := by
  rw [ExtendedBy, world_exec_act_bind]
  exact h

/-- Actions that make calm changes. -/
theorem extendedBy_of_agree {w : World} {a b : Action α} (hw : w.Consistent)
    (ha : ∀ K : World → Prop, (∀ w v, Calm w v → K w → K v) → Agree (World.Kin K) a b) :
    w.ExtendedBy a := .calm (calm_of_agree hw ha).2

private theorem extendedBy_setStrict (w : World) (i : Nat) (v : Value) :
    w.ExtendedBy (setStrict i v) :=
  .lift fun _ => .setRegistry ..

private theorem extendedBy_setMaxDepth (w : World) (i : Nat) (v : Value) :
    w.ExtendedBy (setMaxDepth i v) :=
  .lift fun _ => .of_classes rfl (Nat.le_refl _) (Nat.le_of_eq (List.length_set ..).symm)

private theorem extendedBy_clear (w : World) (i : Nat) (target : Option Target) :
    w.ExtendedBy (clear i target) := by
  cases target with
  | none => exact .setRegistry ..
  | some target =>
    cases target with
    | cls c => exact .setRegistry ..
    | value v =>
      cases v with
      | null => exact .setRegistry ..
      | _ =>
        apply World.ExtendedBy.get
        split
        · exact .lift fun _ => .setRegistry ..
        · exact .setRegistry ..

/-- An operation that makes no calls. -/
theorem extendedBy_run (hw : s.world.Consistent) {op : Operation} (hd : op.makesCalls = false) :
    s.ExtendedBy (run planOf op) := by
  cases op with
  | register i target =>
    cases target with
    | value v => exact .of_eq rfl
    | cls c =>
      have hf : s.world.ExtendedBy (registerClass i c) := .setRegistry ..
      exact extendedBy_act_bind hf fun _ => .done
  | clear i target => exact extendedBy_act_bind (extendedBy_clear _ i target) _
  | newRegistry strict =>
    exact extendedBy_act_bind
      (.of_classes rfl (List.sublist_append_left ..).length_le (Nat.le_refl _)) fun _ => .done
  | newBinder registry maxDepth =>
    exact .lift fun depth => extendedBy_act_bind
      (.of_classes rfl (Nat.le_refl _) (List.sublist_append_left ..).length_le) fun _ => .done
  | setStrict registry v => exact extendedBy_act_bind (extendedBy_setStrict _ registry v) _
  | setMaxDepth binder v => exact extendedBy_act_bind (extendedBy_setMaxDepth _ binder v) _
  | configure t =>
    refine extendedBy_act_bind ?_ _
    exact (extendedBy_setStrict _ 0 _).bind fun _ v =>
      (extendedBy_setMaxDepth v 0 _).bind fun _ u => .lift fun _ => .pure _
  | fields registry target => exact .lift fun _ => .of_eq rfl
  | fieldsOf target =>
    refine extendedBy_act_bind (.get (.lift fun c => ?_)) _
    split
    · exact .lift fun _ => .pure _
    · exact .pure _
  | fieldNames registry target => exact .lift fun _ => .of_eq rfl
  | plan registry target =>
    exact extendedBy_act_bind
      (extendedBy_of_agree hw fun K hK => agree_plansOf hK registry target) _
  | isSchema registry target => cases target <;> exact .of_eq rfl
  | acceptsNested registry target => cases target <;> exact .of_eq rfl
  | bind way target data kept =>
    have hb := extendedBy_of_agree hw fun K hK => agree_bindTarget hK way target data
    refine .bind (extendedBy_act hb) fun k t => ?_
    cases kept with
    | false => exact extendedBy_shown _
    | true => exact .bind (.of_eq rfl) fun _ u => extendedBy_shown _
  | newRecord target => exact .lift fun _ => .of_eq rfl
  | populate binder i data =>
    refine extendedBy_stored_bind fun k => ?_
    have hb := extendedBy_of_agree hw fun K hK => 
      Binding.agree_bindOnto hK binder k.cls k.attrs data
    refine .bind (extendedBy_act hb) fun attrs t => .bind (.of_eq rfl) fun _ u => ?_
    exact extendedBy_record_bind fun k => extendedBy_shown _
  | look i => exact extendedBy_record_bind fun k => extendedBy_shown _
  | text i =>
    refine extendedBy_record_bind fun k => ?_
    dsimp only
    split <;> exact .of_eq rfl
  | getAttr i name =>
    refine extendedBy_record_bind fun k => .get (.lift fun found => ?_)
    split
    · exact extendedBy_shown _
    · exact .of_eq rfl
  | setAttr i name v =>
    refine extendedBy_record_bind fun k => .get ?_
    dsimp only
    split
    · exact .bind (extendedBy_act (extendedBy_adopt _ v)) fun _ _ => .of_eq rfl
    · exact .of_eq rfl
  | appendAttr i name v =>
    refine .bind (extendedBy_act (extendedBy_adopt _ v)) fun v t => ?_
    refine .bind (extendedBy_record_bind fun k => .get ?_) fun _ _ => .of_eq rfl
    refine .lift fun found => ?_
    obtain ⟨label, items⟩ := found
    cases label with
    | none => exact .of_eq rfl
    | some n => exact extendedBy_act (.of_classes rfl (Nat.le_refl _) (Nat.le_refl _))
  | equal a b =>
    unfold run
    dsimp only
    split <;> exact .of_eq rfl
  | status => exact .of_eq rfl
  | _ => cases hd

/-! ### Steps and runs -/

/-- Calls that an action gives which loses nothing leave what those enter that succeed. -/
theorem extends_opened {w : World} {a : Action (List DeclareCall)} (ha : w.ExtendedBy a) :
    Extends (match exec a w with
      | (.ok calls, v) => DeclareCall.made v calls
      | (.error _, _) => []) w (exec (a >>= DeclareCall.runAll) w).2 := by
  unfold World.ExtendedBy at ha
  rcases he : exec a w with ⟨e | calls, v⟩
  · rw [he] at ha
    rw [exec_bind_of_error he]
    exact ha
  · rw [he] at ha
    rw [exec_bind_of_ok he]
    exact ha.append (DeclareCall.extends_runAll calls v)

/-- A field that is not named by a text is refused. -/
theorem snd_exec_declareField_of_not_str {w : World} {name : Value}
    (h : ∀ field, name ≠ .str field) (i : Nat) (c : ClassRef) (args : List Argument)
    (declared : Option DeclaredType) : (exec (declareField i c name args declared) w).2 = w := by
  cases hn : checkFieldName c.name name with
  | ok field => exact absurd (eq_str_of_checkFieldName hn) (h field)
  | error e => rw [declareField, hn, exec_bind_of_error (exec_lift (.error e) w)]

private theorem snd_exec_declareOn_of_not_str {w : World} {name : Value}
    (h : ∀ field, name ≠ .str field)
    (c : ClassRef) (args : List Argument) (declared : Option DeclaredType) :
    (exec (declareOn (.cls c) name args declared) w).2 = w := by
  rw [declareOn, exec_bind_of_ok (exec_get w)]
  cases requireMethod w.classes c "declare" with
  | error e => rfl
  | ok u =>
    have hd := snd_exec_declareField_of_not_str (w := w) h (w.registryOf c) c args declared
    rw [exec_bind_of_ok (exec_lift (.ok u) w), exec_declareOnClass]
    rcases he : exec (declareField (w.registryOf c) c name args declared) w with ⟨e | contract, v⟩
    · rw [he] at hd
      exact hd
    · exact absurd (eq_str_of_checkFieldName (checkFieldName_of_declareField he)) (h _)

/-- What an operation does that makes calls is what comes before them and then the calls; it may log
an event at the end. -/
theorem world_step (s : Session) {op : Operation} (hd : op.makesCalls = true) :
    let v := (exec (op.opens >>= DeclareCall.runAll) s.fresh.world).2
    (s.step op).2.world = v ∨ ∃ e, (s.step op).2.world = v.log e := by
  have hbuild : ∀ (binder : Option Nat) (table : Value),
      let v := (exec ((do let table ← adopt table; Table.opens binder table) >>=
        DeclareCall.runAll) s.fresh.world).2
      let u := (exec (do
        let table ← act (adopt table)
        let cs ← act (Table.build binder table)
        return Outcome.classes cs) s.fresh).2.world
      u = v ∨ ∃ e, u = v.log e := by
    intro binder table
    have ha : exec (act (adopt table)) s.fresh = (.ok (s.fresh.world.adopted table),
        { s.fresh with world := s.fresh.world.adopting table }) := rfl
    rw [bind_assoc, exec_bind_of_ok (exec_adopt table s.fresh.world), exec_bind_of_ok ha,
      world_exec_act_bind]
    exact snd_exec_build _ binder _
  cases op with
  | newClass name bases binder body =>
    left
    rw [step_eq, run, world_exec_act_bind]
    exact (snd_exec_openBody_runAll ..).symm
  | declare i target field args declared =>
    left
    cases target with
    | value v => rfl
    | cls c =>
      rw [step_eq, run]
      change (exec (act (declareField i c field args declared) >>= _) s.fresh).2.world = _
      rw [world_exec_act_bind]
      cases field with
      | str name =>
        change _ = (exec (DeclareCall.runAll [⟨.registry i, c, name, args, declared⟩]) _).2
        rw [DeclareCall.runAll, DeclareCall.runAll, snd_exec_bind_pure, DeclareCall.run,
          snd_exec_bind_pure]
      | _ => exact snd_exec_declareField_of_not_str (fun _ hf => by cases hf) i c args declared
  | declareOn target field args declared =>
    left
    cases target with
    | value v => rfl
    | cls c =>
      rw [step_eq, run, world_exec_act_bind]
      cases field with
      | str name => exact (snd_exec_declareOn ..).symm
      | _ => exact snd_exec_declareOn_of_not_str (fun _ hf => by cases hf) c args declared
  | build binder table => exact hbuild binder table
  | parse binder source contents =>
    rw [step_eq, run, Operation.opens]
    cases Table.ofText source contents.toList with
    | error e => exact .inl rfl
    | ok table => exact hbuild binder table
  | load binder directory path =>
    rw [step_eq, run, Operation.opens]
    cases Table.ofFile directory path with
    | error e => exact .inl rfl
    | ok table => exact hbuild binder table
  | _ => cases hd

private theorem made_of_not_makesCalls (s : Session) {op : Operation} (h : op.makesCalls = false) :
    s.made op = [] := by
  cases op with
  | newClass => cases h
  | declare => cases h
  | declareOn => cases h
  | build => cases h
  | parse => cases h
  | load => cases h
  | _ => rfl

private theorem extends_fresh (s : Session) : Extends [] s.world s.fresh.world :=
  .of_classes rfl (Nat.le_refl _) (Nat.le_refl _)

/-- After its calls a step leaves nothing more. -/
theorem extends_calls (s : Session) {op : Operation} (hd : op.makesCalls = true) :
    Extends [] (exec (op.opens >>= DeclareCall.runAll) s.fresh.world).2 (s.step op).2.world := by
  rcases s.world_step hd with he | ⟨e, he⟩
  · rw [he]
    exact .refl _
  · rw [he]
    exact .of_classes rfl (Nat.le_refl _) (Nat.le_refl _)

/-- A step leaves what the calls enter that it makes, and loses nothing. -/
theorem extends_step {s : Session} (h : s.world.Consistent) (op : Operation) :
    Extends (s.made op) s.world (s.step op).2.world := by
  cases hd : op.makesCalls with
  | false =>
    have hw : s.fresh.world.Consistent := h.clearJournal
    rw [s.made_of_not_makesCalls hd]
    exact s.extends_fresh.append (extendedBy_run (s := s.fresh) hw hd)
  | true =>
    have hf := extends_opened (op.extendedBy_opens s.fresh.world)
    exact s.extends_fresh.append (hf.concat (s.extends_calls hd))

/-- A run leaves what the calls enter that it makes, and loses nothing. -/
theorem extends_after {s : Session} (h : s.Reachable) (ops : List Operation) :
    Extends (s.madeBy ops) s.world (s.after ops).world := by
  induction ops generalizing s with
  | nil => exact .refl _
  | cons op ops ih => exact (extends_step h.consistent op).append (ih (.step s op h))

/-- There are a default registry and a default binder. -/
theorem Reachable.has_defaults {s : Session} (h : s.Reachable) :
    0 < s.world.registries.length ∧ 0 < s.world.binders.length := by
  induction h with
  | initial => decide
  | step s op h ih =>
    have hf := extends_step h.consistent op
    exact ⟨Nat.lt_of_lt_of_le ih.1 hf.registries, Nat.lt_of_lt_of_le ih.2 hf.binders⟩

/-- A class answers to all names that the calls of a step enter. -/
theorem answers_step {s : Session} (h : s.Grounded) {op : Operation} (ho : op.Grounded s.world)
    {call : DeclareCall} (hm : call ∈ s.made op) {c : ClassRef} {name : String}
    (he : call.Enters c name) : ((s.step op).2.world.classes.attribute? c name).isSome := by
  have hw : s.fresh.world.Established :=
    ⟨h.established.lawful, h.established.known, h.established.registry⟩
  cases hd : op.makesCalls with
  | false =>
    rw [s.made_of_not_makesCalls hd] at hm
    cases hm
  | true =>
    have hf := s.extends_calls hd
    rw [made] at hm
    rcases hx : exec op.opens s.fresh.world with ⟨e | calls, v⟩
    · rw [hx] at hm
      cases hm
    · rw [hx] at hm
      rw [exec_bind_of_ok hx] at hf
      obtain ⟨hv, hin⟩ := Operation.in_of_opens hw ho hx
      exact hf.isSome_attribute? (DeclareCall.answers_runAll hv hin hm he)

/-- A class answers to all names that the calls of a run enter. -/
theorem answers_after {s : Session} (h : s.Grounded) {ops : List Operation}
    (ho : s.AllGrounded ops) {call : DeclareCall} (hm : call ∈ s.madeBy ops) {c : ClassRef}
    {name : String} (he : call.Enters c name) :
    ((s.after ops).world.classes.attribute? c name).isSome := by
  induction ops generalizing s with
  | nil => cases hm
  | cons op ops ih =>
    have hs : (s.step op).2.Grounded := .step s op h ho.1
    rcases List.mem_append.mp hm with hm | hm
    · have ha := answers_step h ho.1 hm he
      exact (extends_after hs.reachable ops).isSome_attribute? ha
    · exact ih hs ho.2 hm

end Session

end SchemaBinding
