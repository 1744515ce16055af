import SchemaBinding.Proofs.GroundedSessions

/-!
# What calls leave on classes

A call that declares a field in the body of a class, or through the class, leaves the absent value
under the name of the field. Nothing else does, and nothing that a class has is ever taken away, so
that a class keeps answering to the names under which such calls were made.
-/

namespace SchemaBinding

namespace ClassTable

variable {t : ClassTable} {c k : ClassRef} {name : String}

/-- What a class has of its own under a name. -/
def ownAttribute? (t : ClassTable) (c : ClassRef) (name : String) : Option ClassAttribute :=
  (t.info? c).bind fun i => (i.attributes.find? fun a => a.1 == name).map Prod.snd

/-- What a class has under a name is what the first class in its order has of its own. -/
theorem attribute?_eq_findSome? (t : ClassTable) (c : ClassRef) (name : String) :
    t.attribute? c name = (t.order c).findSome? fun k => t.ownAttribute? k name := rfl

/-- A class has something under a name if it or a class that it inherits from has it. -/
theorem isSome_attribute?_iff :
    (t.attribute? c name).isSome ↔ ∃ k ∈ t.order c, (t.ownAttribute? k name).isSome := by
  rw [attribute?_eq_findSome?, List.findSome?_isSome_iff]

/-- Setting an attribute to the absent value leaves all others. -/
theorem ownAttribute?_setNull (t : ClassTable) (c k : ClassRef) (name other : String) :
    (t.setNull c name).ownAttribute? k other =
      if (t.info? k).isSome ∧ k = c ∧ other = name then some .null
      else t.ownAttribute? k other := by
  have hp : ((fun i : ClassInfo => i.ref == k) ∘ ClassInfo.putNull c name) = fun i => i.ref == k :=
    funext fun i => congrArg (· == k) (i.ref_putNull c name)
  rw [ownAttribute?, ownAttribute?, setNull_eq_map, info?, info?, List.find?_map, hp]
  cases hi : t.find? fun i => i.ref == k with
  | none => simp
  | some info =>
    have hr : info.ref = k := by simpa using List.find?_some hi
    rw [Option.map_some, Option.bind_some, Option.bind_some, info.find?_putNull, hr]
    simp

end ClassTable

/-- A call that succeeds leaves an attribute on a class: it declares the field in the body of the
class, or through the class, unless all classes have the name anyway. -/
def DeclareCall.Enters (call : DeclareCall) (c : ClassRef) (name : String) : Prop :=
  call.cls = c ∧ call.field = name ∧
    match call.site with
    | .registry _ => False
    | .ofClass => name ∉ ClassTable.classOnlyNames
    | .body _ => True

namespace World

/-- Nothing that there is in a world is lost in another, and each absent value that a class has
there in addition was left by one of some calls. -/
structure Extends (calls : List DeclareCall) (w v : World) : Prop where
  registries : w.registries.length ≤ v.registries.length
  binders : w.binders.length ≤ v.binders.length
  orders : ∀ c, w.classes.order c ≠ [] → v.classes.order c = w.classes.order c
  attributes : ∀ c name, (w.classes.ownAttribute? c name).isSome →
    (v.classes.ownAttribute? c name).isSome
  nulls : ∀ c name, v.classes.ownAttribute? c name = some .null →
    w.classes.ownAttribute? c name = some .null ∨ ∃ call ∈ calls, call.Enters c name

variable {w v x : World} {calls more : List DeclareCall} {α β : Type} {c : ClassRef}

/-- A change that leaves the classes, and loses no registry and no binder. -/
theorem Extends.of_classes (hc : v.classes = w.classes)
    (hr : w.registries.length ≤ v.registries.length) (hb : w.binders.length ≤ v.binders.length) :
    Extends calls w v := by
  refine ⟨hr, hb, fun c _ => ?_, fun c name h => ?_, fun c name h => .inl ?_⟩
  · rw [hc]
  · rwa [hc]
  · rwa [hc] at h

/-- A world extends itself. -/
theorem Extends.refl (w : World) : Extends [] w w :=
  .of_classes rfl (Nat.le_refl _) (Nat.le_refl _)

/-- Changes one after another. -/
theorem Extends.append (h : Extends calls w v) (g : Extends more v x) :
    Extends (calls ++ more) w x where
  registries := Nat.le_trans h.registries g.registries
  binders := Nat.le_trans h.binders g.binders
  orders c hc := by
    have ho := h.orders c hc
    rw [g.orders c (ho ▸ hc), ho]
  attributes c name hc := g.attributes c name (h.attributes c name hc)
  nulls c name hc := by
    rcases g.nulls c name hc with hc | ⟨call, hm, he⟩
    · rcases h.nulls c name hc with hc | ⟨call, hm, he⟩
      · exact .inl hc
      · exact .inr ⟨call, List.mem_append_left _ hm, he⟩
    · exact .inr ⟨call, List.mem_append_right _ hm, he⟩

/-- What one change can leave on a class it can leave after more calls. -/
theorem Extends.of_nil (h : Extends [] w v) : Extends calls w v :=
  have hw : Extends calls w w := .of_classes rfl (Nat.le_refl _) (Nat.le_refl _)
  List.append_nil calls ▸ hw.append h

/-- An extension of an extension is an extension. -/
theorem Extends.trans (h : Extends [] w v) (g : Extends [] v x) : Extends [] w x := h.append g

/-- What leaves nothing on a class may come after. -/
theorem Extends.concat (h : Extends calls w v) (g : Extends [] v x) : Extends calls w x := by
  have ha := h.append g
  rwa [List.append_nil] at ha

/-- A calm change loses nothing. -/
theorem Extends.calm (h : Calm w v) : Extends [] w v := by
  have hl : v.registries.length = w.registries.length := by
    simpa using congrArg List.length h.registries
  exact .of_classes h.classes (Nat.le_of_eq hl.symm) (Nat.le_of_eq (congrArg _ h.binders.symm))

/-- Nothing that classes have is lost when a registry changes. -/
theorem Extends.setRegistry (w : World) (i : Nat) (r : Registry) :
    Extends [] w (w.setRegistry i r) :=
  .of_classes rfl (Nat.le_of_eq (List.length_set ..).symm) (Nat.le_refl _)

/-- A class still answers to what it answered to. -/
theorem Extends.isSome_attribute? (h : Extends calls w v) {c : ClassRef} {name : String}
    (ha : (w.classes.attribute? c name).isSome) : (v.classes.attribute? c name).isSome := by
  obtain ⟨k, hk, ha⟩ := ClassTable.isSome_attribute?_iff.mp ha
  refine ClassTable.isSome_attribute?_iff.mpr ⟨k, ?_, h.attributes k name ha⟩
  rwa [h.orders c (List.ne_nil_of_mem hk)]

/-- A class may be added, if its own attributes are none but declarations. -/
theorem Extends.enter (w : World) {info : ClassInfo}
    (ha : ∀ a ∈ info.attributes, a.2 = .declaration) : Extends [] w (w.enter info) where
  registries := Nat.le_refl _
  binders := Nat.le_refl _
  orders _ hc := ClassTable.order_append hc
  attributes c name hc := by
    cases hi : w.classes.info? c with
    | none =>
      rw [ClassTable.ownAttribute?, hi] at hc
      cases hc
    | some found =>
      have hv : (w.enter info).classes.info? c = some found := ClassTable.info?_append hi
      rw [ClassTable.ownAttribute?, hi] at hc
      rwa [ClassTable.ownAttribute?, hv]
  nulls c name hc := by
    left
    cases hi : w.classes.info? c with
    | some found =>
      have hv : (w.enter info).classes.info? c = some found := ClassTable.info?_append hi
      rw [ClassTable.ownAttribute?, hv] at hc
      rwa [ClassTable.ownAttribute?, hi]
    | none =>
      obtain ⟨found, hf, hc⟩ := Option.bind_eq_some_iff.mp hc
      obtain ⟨a, hfind, hnull⟩ := Option.map_eq_some_iff.mp hc
      have hv : (w.enter info).classes.info? c = ClassTable.info? [info] c := by
        change List.find? _ (w.classes ++ [info]) = _
        rw [ClassTable.info?] at hi
        rw [List.find?_append, hi, Option.none_or, ClassTable.info?]
      rw [hv] at hf
      rw [List.mem_singleton.mp (List.mem_of_find?_eq_some hf)] at hfind
      rw [ha a (List.mem_of_find?_eq_some hfind)] at hnull
      cases hnull

/-- A class gets the absent value from a call. -/
theorem Extends.setNull (w : World) {call : DeclareCall} {c : ClassRef} {name : String}
    (he : call.Enters c name) :
    Extends [call] w { w with classes := w.classes.setNull c name } where
  registries := Nat.le_refl _
  binders := Nat.le_refl _
  orders d _ := ClassTable.order_setNull ..
  attributes d other hd := by
    change ((w.classes.setNull c name).ownAttribute? d other).isSome
    rw [ClassTable.ownAttribute?_setNull]
    split
    · rfl
    · exact hd
  nulls d other hd := by
    change (w.classes.setNull c name).ownAttribute? d other = _ at hd
    rw [ClassTable.ownAttribute?_setNull] at hd
    split at hd
    · next h =>
      rw [h.2.1, h.2.2]
      exact .inr ⟨call, List.mem_singleton_self call, he⟩
    · exact .inl hd

/-! ### Actions -/

/-- An action loses nothing that there is, and leaves no class an absent value. -/
def ExtendedBy (w : World) (a : Action α) : Prop := Extends [] w (exec a w).2

/-- A sequence loses nothing if neither of its parts does. -/
theorem ExtendedBy.bind {a : Action α} {f : α → Action β} (ha : w.ExtendedBy a)
    (hf : ∀ x (v : World), v.ExtendedBy (f x)) : w.ExtendedBy (a >>= f) :=
  rel_exec_bind (R := Extends []) (fun _ _ _ => Extends.trans) ha fun x v _ _ => hf x v

/-- An action that only returns loses nothing. -/
theorem ExtendedBy.pure (x : α) : w.ExtendedBy (pure x : Action α) := .refl w

/-- An action that fails at once loses nothing. -/
theorem ExtendedBy.throw (e : Fault) : w.ExtendedBy (throw e : Action α) := .refl w

/-- A sequence loses nothing if what follows a result does not. -/
theorem ExtendedBy.lift {e : Except Fault α} {f : α → Action β} (hf : ∀ x, w.ExtendedBy (f x)) :
    w.ExtendedBy (World.lift e >>= f) := by
  cases e with
  | error e => exact .refl w
  | ok x => exact hf x

/-- Looking at the world loses nothing. -/
theorem ExtendedBy.get {f : World → Action α} (hf : w.ExtendedBy (f w)) :
    w.ExtendedBy (MonadState.get >>= f) := hf

private theorem extendedBy_declareField (w : World) (i : Nat) (c : ClassRef) (name : Value)
    (args : List Argument) (declared : Option DeclaredType) :
    w.ExtendedBy (declareField i c name args declared) := by
  unfold ExtendedBy
  have hset :
    ∀ (n : Supply) (r : Registry), Extends [] w ({ w with supply := n }.setRegistry i r) :=
    fun n r => .of_classes rfl (Nat.le_of_eq (List.length_set ..).symm) (Nat.le_refl _)
  rcases exec_declareField_cases w i c name args declared with
    ⟨f, he, -⟩ | ⟨field, n, hn, ⟨requirement, hd, he⟩ | ⟨r, contract, first, hd, he⟩⟩
  · rw [he]
    exact .refl w
  · rw [he]
    exact hset n _
  · rw [he]
    exact (hset n r).trans (.of_classes rfl (Nat.le_refl _) (Nat.le_refl _))

private theorem extendedBy_openClass (w : World) (name : String) (bases : List ClassRef)
    (binder : Option Nat) (fields : List (String × FieldDeclaration)) :
    w.ExtendedBy (openClass name bases binder fields) := by
  unfold ExtendedBy
  rcases exec_openClass_error_or w name bases binder fields with ⟨e, he⟩ | ⟨inherited, hi⟩
  · rw [he]
    exact .refl w
  · have henter : Extends [] w (w.enter (w.newInfo name inherited binder fields)) := by
      apply Extends.enter
      intro a ha
      obtain ⟨f, -, rfl⟩ := List.mem_map.mp ha
      rfl
    rw [hi.exec_openClass]
    split
    · split
      · exact henter.trans (.setRegistry ..)
      · exact henter
    · exact henter

/-- Opening the body of a class loses nothing. -/
theorem extendedBy_openBody (w : World) (name : String) (bases : List ClassRef)
    (binder : Option Nat) (fields : List (String × FieldDeclaration)) :
    w.ExtendedBy (openBody name bases binder fields) :=
  (extendedBy_openClass w name bases binder fields).bind fun _ _ => .pure _

private theorem extendedBy_createSchema (w : World) (name : String) (binder : Option Nat) :
    w.ExtendedBy (createClass name [.schemaBase] binder []) := by
  refine (extendedBy_openClass w name _ binder []).bind fun x v => ?_
  obtain ⟨c, registry⟩ := x
  cases registry with
  | none => exact .pure c
  | some i =>
    cases binder with
    | none => exact .pure c
    | some b => exact .pure c

private theorem extendedBy_createAll (w : World) (binder : Option Nat)
    (specs : List Table.SchemaSpec) :
    w.ExtendedBy (Table.createAll binder specs) := by
  induction specs generalizing w with
  | nil => exact .pure []
  | cons s rest ih =>
    exact (extendedBy_createSchema w s.name binder).bind fun _ v =>
      (ih v).bind fun _ _ => .pure _

/-- Opening the schemas of a table loses nothing. -/
theorem extendedBy_tableOpens (w : World) (binder : Option Nat) (table : Value) :
    w.ExtendedBy (Table.opens binder table) := by
  unfold Table.opens
  split
  · split
    · exact (extendedBy_createAll w binder _).bind fun _ _ => .pure _
    · exact .pure _
  · exact .pure _

/-- Telling a value apart from all others loses nothing. -/
theorem extendedBy_adopt (w : World) (v : Value) : w.ExtendedBy (adopt v) :=
  .calm (calm_adopting w v)

end World

namespace DeclareCall

open World

/-- Those of some calls that succeed when they are made one after another, up to the first that
fails. -/
def made (w : World) : List DeclareCall → List DeclareCall
  | [] => []
  | call :: rest =>
    match exec call.run w with
    | (.ok _, v) => call :: made v rest
    | (.error _, _) => []

/-- A call that fails leaves nothing on a class. One that succeeds leaves what it enters. -/
theorem extends_run (call : DeclareCall) (w : World) :
    (∃ e v, exec call.run w = (.error e, v) ∧ Extends [] w v) ∨
      ∃ v, exec call.run w = (.ok (), v) ∧ Extends [call] w v := by
  obtain ⟨site, c, name, args, declared⟩ := call
  have hf := extendedBy_declareField w (registryIn w ⟨site, c, name, args, declared⟩) c (.str name)
    args declared
  unfold ExtendedBy at hf
  rcases he : exec (declareField (registryIn w ⟨site, c, name, args, declared⟩) c (.str name) args
    declared) w with ⟨e | contract, v⟩
  · rw [he] at hf
    refine .inl ⟨e, v, ?_, hf⟩
    cases site with
    | ofClass => exact (exec_bind_of_ok (exec_get w) _).trans (exec_bind_of_error he _)
    | _ => exact exec_bind_of_error he _
  · rw [he] at hf
    right
    cases site with
    | registry i => exact ⟨v, exec_bind_of_ok he _, hf.of_nil⟩
    | body i => exact ⟨_, exec_bind_of_ok he _, hf.append (.setNull v ⟨rfl, rfl, trivial⟩)⟩
    | ofClass =>
      refine ⟨_, (exec_bind_of_ok (exec_get w) _).trans (exec_bind_of_ok he _), ?_⟩
      dsimp only
      split
      · exact hf.of_nil
      · next ha =>
        cases eq_str_of_checkFieldName (checkFieldName_of_declareField he)
        refine hf.append (.setNull v ⟨rfl, rfl, fun hm => ha ?_⟩)
        rw [ClassTable.answersTo, List.contains_iff_mem.mpr hm, Bool.or_true]

/-- Calls made one after another leave what those enter that succeed. -/
theorem extends_runAll (calls : List DeclareCall) (w : World) :
    Extends (made w calls) w (exec (runAll calls) w).2 := by
  induction calls generalizing w with
  | nil => exact .refl w
  | cons call rest ih =>
    rcases call.extends_run w with ⟨e, v, he, hf⟩ | ⟨v, he, hf⟩
    · rw [made, he, runAll, exec_bind_of_error he]
      exact hf
    · rw [made, he, runAll, exec_bind_of_ok he]
      exact hf.append (ih v)

/-- A class of an established world answers to a name that a call enters. -/
theorem answers_run {w v : World} {call : DeclareCall} {c : ClassRef} {name : String}
    (h : w.Established) (hc : w.classes.Has c) (he : call.Enters c name)
    (hr : exec call.run w = (.ok (), v)) : (v.classes.attribute? c name).isSome := by
  have hset : ∀ u : World, u.Established → u.classes.Has c →
      ((u.classes.setNull c name).attribute? c name).isSome := by
    intro u hu hc
    rw [ClassTable.isSome_attribute?_iff]
    refine ⟨c, ?_, ?_⟩
    · rw [ClassTable.order_setNull]
      exact hu.lawful.mem_order_self hc
    · obtain ⟨info, hi, rfl⟩ := hc
      have hsome : (u.classes.info? info.ref).isSome := by
        rw [hu.lawful.info?_of_mem hi]
        rfl
      rw [ClassTable.ownAttribute?_setNull, if_pos ⟨hsome, rfl, rfl⟩]
      rfl
  obtain ⟨site, d, field, args, declared⟩ := call
  obtain ⟨rfl, rfl, hs⟩ := he
  cases site with
  | registry i => cases hs
  | body i =>
    obtain ⟨contract, u, hd, hr⟩ := exec_bind_eq_ok_iff.mp hr
    have hu := (sustainedBy_declareField h hc i _ args declared).of_ok hd
    cases hr
    exact hset u hu.established (hu.has _ hc)
  | ofClass =>
    rw [run, exec_declareOnClass] at hr
    rcases hd : exec (declareField (w.registryOf d) d (.str field) args declared) w with
      ⟨e | contract, u⟩
    · rw [hd] at hr
      cases hr
    · rw [hd] at hr
      have hu := (sustainedBy_declareField h hc _ _ args declared).of_ok hd
      cases eq_str_of_checkFieldName (checkFieldName_of_declareField hd)
      cases hr
      split
      · next ha =>
        rw [ClassTable.answersTo, Bool.or_eq_true] at ha
        exact ha.resolve_right fun hm => hs (List.contains_iff_mem.mp hm)
      · exact hset u hu.established (hu.has _ hc)

/-- A call is for a class of a table, and one in the body of a class is not for the base of the
schema classes. -/
def In (t : ClassTable) (call : DeclareCall) : Prop :=
  t.Has call.cls ∧ ∀ i, call.site = .body i → call.cls ≠ .schemaBase

/-- A call that declares a field leaves a world established. -/
theorem sustainedBy_run {w : World} {call : DeclareCall} (h : w.Established)
    (hc : call.In w.classes) : w.SustainedBy call.run := by
  obtain ⟨site, c, field, args, declared⟩ := call
  cases site with
  | registry i =>
    exact .bind (sustainedBy_declareField h hc.1 i _ args declared) fun _ v _ hv =>
      hv.established.pure ()
  | ofClass => exact sustainedBy_declareOnClass h hc.1 _ args declared
  | body i =>
    apply SustainedBy.bind (sustainedBy_declareField h hc.1 i _ args declared)
    intro contract v he hv
    have hn := checkFieldName_of_declareField he
    cases eq_str_of_checkFieldName hn
    exact hv.established.setNull (ne_binderName_of_checkFieldName hn) fun hb =>
      absurd hb (hc.2 i rfl)

/-- Classes of an established world answer to all names that the calls enter that are made. -/
theorem answers_runAll {w : World} {calls : List DeclareCall} (h : w.Established)
    (hc : ∀ call ∈ calls, call.In w.classes) {call : DeclareCall} (hm : call ∈ made w calls)
    {c : ClassRef} {name : String} (he : call.Enters c name) :
    ((exec (runAll calls) w).2.classes.attribute? c name).isSome := by
  induction calls generalizing w with
  | nil => cases hm
  | cons first rest ih =>
    rcases first.extends_run w with ⟨e, v, hr, -⟩ | ⟨v, hr, -⟩
    · rw [made, hr] at hm
      cases hm
    · rw [made, hr] at hm
      rw [runAll, exec_bind_of_ok hr]
      have hfirst := hc first (List.mem_cons_self ..)
      have hs := (sustainedBy_run h hfirst).of_ok hr
      rcases List.mem_cons.mp hm with rfl | hm
      · have ha := answers_run h (he.1 ▸ hfirst.1) he hr
        exact (extends_runAll rest v).isSome_attribute? ha
      · refine ih hs.established (fun call hcall => ?_) hm
        have hin := hc call (List.mem_cons_of_mem _ hcall)
        exact ⟨hs.has _ hin.1, hin.2⟩

end DeclareCall

end SchemaBinding
