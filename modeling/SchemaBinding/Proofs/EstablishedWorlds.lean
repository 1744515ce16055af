import SchemaBinding.Proofs.ClassCreation
import SchemaBinding.Proofs.ContractHistory

/-!
# Established worlds

A world is established when its table of classes is lawful, only classes of the table are known to
registries, and every binder has a registry. The actions that create classes and declare fields
leave it so, if the classes they are given are in the table.
-/

namespace SchemaBinding

namespace World

/-- The table is lawful, only its classes are known to registries, and every binder has a
registry. -/
structure Established (w : World) : Prop where
  lawful : w.classes.Lawful
  known : ∀ i c, (w.registry i).knows c = true → w.classes.Has c
  registry : ∀ i, (w.binder i).registry < w.registries.length

/-- The world at the start is established. -/
theorem established_initial : World.initial.Established where
  lawful := ClassTable.lawful_initial
  known i c h := by
    have hr : World.initial.registry i = .empty false := by cases i <;> rfl
    rw [hr] at h
    cases h
  registry i := by
    have hb : World.initial.binder i = .default := by cases i <;> rfl
    rw [hb]
    decide

/-- A world is established and has all the classes of another. -/
structure Sustains (w v : World) : Prop where
  established : v.Established
  has : ∀ c, w.classes.Has c → v.classes.Has c

variable {α β : Type} {w v x : World} {c : ClassRef}

/-- An established world sustains itself. -/
theorem Established.sustains (h : w.Established) : Sustains w w := ⟨h, fun _ => id⟩

/-- What is sustained twice is sustained. -/
theorem Sustains.trans (h : Sustains w v) (g : Sustains v x) : Sustains w x :=
  ⟨g.established, fun c hc => g.has c (h.has c hc)⟩

/-- A calm change leaves a world established. -/
theorem Established.calm (h : w.Established) (hc : Calm w v) : Sustains w v := by
  have hl : v.registries.length = w.registries.length := by
    have hm := congrArg List.length hc.registries
    simpa using hm
  refine ⟨⟨?_, ?_, ?_⟩, ?_⟩
  · rw [hc.classes]
    exact h.lawful
  · intro i d hd
    rw [Registry.knows_congr (hc.keeps.contracts i)] at hd
    rw [hc.classes]
    exact h.known i d hd
  · intro i
    rw [hc.binder, hl]
    exact h.registry i
  · intro d hd
    rw [hc.classes]
    exact hd

/-- A world stays established if its classes, registries and binders stay. -/
theorem Established.of_eq (h : w.Established) (hc : v.classes = w.classes)
    (hr : v.registries = w.registries) (hb : v.binders = w.binders) : Sustains w v := by
  obtain ⟨classes, registries, binders, events, calls, growth, supply⟩ := v
  dsimp only at hc hr hb
  subst hc hr hb
  exact ⟨⟨h.lawful, h.known, h.registry⟩, fun _ => id⟩

/-- A registry may be replaced by one that knows no more than classes of the table. -/
theorem Established.setRegistry (h : w.Established) (i : Nat) {r : Registry}
    (hr : ∀ d, r.knows d = true → (w.registry i).knows d = true ∨ w.classes.Has d) :
    Sustains w (w.setRegistry i r) := by
  refine ⟨⟨h.lawful, ?_, ?_⟩, fun _ => id⟩
  · intro j d hd
    rw [registry_setRegistry] at hd
    split at hd
    · rcases hr d hd with hd | hd
      · exact h.known i d hd
      · exact hd
    · exact h.known j d hd
  · intro j
    have hl : (w.setRegistry i r).registries.length = w.registries.length := List.length_set ..
    rw [hl]
    exact h.registry j

/-- A registry of an established world may get to know a class of the table. -/
theorem Established.know (h : w.Established) (i : Nat) (hc : w.classes.Has c) {r : Registry}
    (hr : r.knows = ((w.registry i).know c).knows) : Sustains w (w.setRegistry i r) := by
  apply h.setRegistry
  intro d hd
  rw [hr, Registry.knows_know, Bool.or_eq_true] at hd
  rcases hd with hd | hd
  · exact .inl hd
  · rw [← eq_of_beq hd]
    exact .inr hc

/-- An attribute may be set to the absent value if it is neither a binder nor, for the base of the
schema classes, a method. -/
theorem Established.setNull (h : w.Established) {name : String} (hn : name ≠ ClassTable.binderName)
    (hb : c = .schemaBase → name ∉ ClassTable.methods) :
    Sustains w { w with classes := w.classes.setNull c name } := by
  have hhas : ∀ d, w.classes.Has d → (w.classes.setNull c name).Has d := by
    rintro d ⟨info, hi, rfl⟩
    refine ⟨_, List.mem_map_of_mem hi, ?_⟩
    split <;> rfl
  exact ⟨⟨h.lawful.setNull hn hb, fun i d hd => hhas d (h.known i d hd), h.registry⟩, hhas⟩

/-- A class may be added whose order is merged from those of its bases. -/
theorem Established.append (h : w.Established) {bases inherited : List ClassRef}
    (hb : ∀ b ∈ bases, w.classes.Has b) (hm : w.classes.mergeBases bases = .ok inherited)
    {info : ClassInfo} (hid : info.ref.id = w.classes.length)
    (ho : info.order = info.ref :: inherited) (ha : info.hasAttributes = true) :
    Sustains w { w with classes := w.classes ++ [info] } := by
  have hhas : ∀ d, w.classes.Has d → ClassTable.Has (w.classes ++ [info]) d := by
    rintro d ⟨other, hi, rfl⟩
    exact ⟨other, List.mem_append_left _ hi, rfl⟩
  exact ⟨⟨h.lawful.append hb hm hid ho ha, fun i d hd => hhas d (h.known i d hd), h.registry⟩, hhas⟩

/-- A registry may be added. -/
theorem Established.newRegistry (h : w.Established) (strict : Bool) :
    Sustains w { w with registries := w.registries ++ [.empty strict] } := by
  refine ⟨⟨h.lawful, ?_, ?_⟩, fun _ => id⟩
  · intro i d hd
    rw [registry_append] at hd
    split at hd
    · cases hd
    · exact h.known i d hd
  · intro i
    have hi := h.registry i
    rw [List.length_append]
    exact Nat.lt_add_right _ hi

/-- There is a default registry. -/
theorem Established.registry_default (h : w.Established) : 0 < w.registries.length :=
  Nat.zero_lt_of_lt (h.registry 0)

/-- Binders may change if each has a registry. -/
theorem Established.setBinders (h : w.Established) {binders : List Binder}
    (hb : ∀ i : Nat, ((binders[i]?).getD Binder.default).registry < w.registries.length) :
    Sustains w { w with binders := binders } := ⟨⟨h.lawful, h.known, hb⟩, fun _ => id⟩

/-! ### Actions -/

/-- An action leaves an established world, with all the classes. -/
def SustainedBy (w : World) (a : Action α) : Prop := Sustains w (exec a w).2

/-- An action that sustains a world leaves a sustained one when it succeeds. -/
theorem SustainedBy.of_ok {a : Action α} {x : α} (h : w.SustainedBy a)
    (he : exec a w = (.ok x, v)) : Sustains w v := by
  rw [SustainedBy, he] at h
  exact h

/-- A sequence sustains a world if its second part sustains what the first part leaves. -/
theorem SustainedBy.bind {a : Action α} {f : α → Action β} (ha : w.SustainedBy a)
    (hf : ∀ x v, exec a w = (.ok x, v) → Sustains w v → v.SustainedBy (f x)) :
    w.SustainedBy (a >>= f) :=
  rel_exec_bind (R := Sustains) (fun _ _ _ => Sustains.trans) ha hf

/-- An action that only returns sustains an established world. -/
theorem Established.pure (h : w.Established) (x : α) : w.SustainedBy (pure x : Action α) :=
  h.sustains

/-- An action that fails at once sustains an established world. -/
theorem Established.throw (h : w.Established) (e : Fault) :
    w.SustainedBy (throw e : Action α) := h.sustains

/-- A result that was settled before sustains an established world. -/
theorem Established.lift (h : w.Established) (e : Except Fault α) :
    w.SustainedBy (lift e : Action α) := h.sustains

/-- A change sustains a world if what it makes of it is sustained. -/
theorem SustainedBy.modify {g : World → World} (h : Sustains w (g w)) :
    w.SustainedBy (modify g : Action PUnit) := h

/-- Telling a value apart from all others sustains a world. -/
theorem sustainedBy_adopt (h : w.Established) (v : Value) : w.SustainedBy (adopt v) :=
  h.calm (calm_adopting w v)

/-- A sequence sustains an established world if what follows a result does. -/
theorem SustainedBy.lift {e : Except Fault α} {f : α → Action β} (h : w.Established)
    (hf : ∀ x, e = .ok x → w.SustainedBy (f x)) : w.SustainedBy (World.lift e >>= f) := by
  cases e with
  | error e => exact h.sustains
  | ok x => exact hf x rfl

/-- Looking at the world sustains it. -/
theorem SustainedBy.get {f : World → Action α} (hf : w.SustainedBy (f w)) :
    w.SustainedBy (MonadState.get >>= f) := hf

/-! ### Declaring -/

/-- A registry that declared a field has got to know its class and no other. -/
theorem knows_declare_ok {r q : Registry} {name : String} {fragments : List Fragment}
    {declared : Option DeclaredType} {result : FieldContract × Bool}
    (h : r.declare c name fragments declared = (q, .ok result)) : q.knows = (r.know c).knows := by
  rcases r.declare_cases c name fragments declared with ⟨_, he⟩ | ⟨merged, -, he⟩
  · rw [he] at h
    cases h
  · rw [he] at h
    cases h
    funext d
    simp only [Registry.knows, Registry.dropPlans, Registry.put, List.any_map]
    congr 1
    funext e
    rw [Function.comp]
    split <;> rfl

private theorem name_of_declare_ok {r q : Registry} {name : String} {fragments : List Fragment}
    {declared : Option DeclaredType} {contract : FieldContract} {first : Bool}
    (h : r.declare c name fragments declared = (q, .ok (contract, first))) :
    contract.name = name := by
  rcases r.declare_cases c name fragments declared with ⟨_, he⟩ | ⟨merged, hm, he⟩
  · rw [he] at h
    cases h
  · rw [he] at h
    cases h
    rw [FieldContract.addAll_eq_foldl_merge hm]
    exact (FieldContract.name_foldl_merge _ _).trans (FieldContract.name_getD_find? _ _)

/-- Declaring a field of a class of the table leaves a world established. -/
theorem sustainedBy_declareField (h : w.Established) (hc : w.classes.Has c) (i : Nat)
    (name : Value) (args : List Argument) (declared : Option DeclaredType) :
    w.SustainedBy (declareField i c name args declared) := by
  unfold SustainedBy
  rcases exec_declareField_cases w i c name args declared with
    ⟨f, he, -⟩ | ⟨field, n, hn, ⟨requirement, hd, he⟩ | ⟨r, contract, first, hd, he⟩⟩
  · rw [he]
    exact h.sustains
  · rw [he]
    have hu : Sustains w { w with supply := n } := h.of_eq rfl rfl rfl
    exact hu.trans (hu.established.know i hc rfl)
  · rw [he]
    have hu : Sustains w { w with supply := n } := h.of_eq rfl rfl rfl
    have hv := hu.trans (hu.established.know i hc (knows_declare_ok hd))
    exact hv.trans (hv.established.of_eq rfl rfl rfl)

/-- A field is declared under a name that a class may have for a field. -/
theorem checkFieldName_of_declareField {i : Nat} {name : Value} {args : List Argument}
    {declared : Option DeclaredType} {contract : FieldContract}
    (h : exec (declareField i c name args declared) w = (.ok contract, v)) :
    checkFieldName c.name name = .ok contract.name := by
  rcases exec_declareField_cases w i c name args declared with
    ⟨f, he, -⟩ | ⟨field, n, hn, ⟨requirement, hd, he⟩ | ⟨r, found, first, hd, he⟩⟩
  · rw [he] at h
    cases h
  · rw [he] at h
    cases h
  · rw [he] at h
    cases h
    rw [hn, name_of_declare_ok hd]

/-- The name of a binder may not be that of a field. -/
theorem ne_binderName_of_checkFieldName {owner field : String} {name : Value}
    (h : checkFieldName owner name = .ok field) : field ≠ ClassTable.binderName := by
  rintro rfl
  cases eq_str_of_checkFieldName h
  have hr : Text.isReserved ClassTable.binderName = true := by decide +kernel
  rw [checkFieldName, hr] at h
  split at h <;> cases h

/-! ### Creating classes -/

/-- The base of the schema classes is in the table. -/
theorem Established.has_schemaBase (h : w.Established) : w.classes.Has .schemaBase := by
  obtain ⟨info, hi, hr, -⟩ := h.lawful.schemaBase
  exact ⟨info, hi, hr.ref⟩

/-- The root of all classes is in the table. -/
theorem Established.has_object (h : w.Established) : w.classes.Has .object := by
  obtain ⟨info, hi, hr⟩ := h.lawful.object
  exact ⟨info, hi, hr.ref⟩

private theorem Established.has_basesOf (h : w.Established) {bases : List ClassRef}
    (hb : ∀ b ∈ bases, w.classes.Has b) : ∀ b ∈ basesOf bases, w.classes.Has b := by
  intro b hm
  unfold basesOf at hm
  split at hm
  · rw [List.mem_singleton.mp hm]
    exact h.has_object
  · exact hb b hm

section Open

variable {name : String} {bases inherited : List ClassRef} {binder : Option Nat}
  {fields : List (String × FieldDeclaration)} {info : ClassInfo}

private theorem has_enter (w : World) (info : ClassInfo) : (w.enter info).classes.Has info.ref :=
  ⟨info, List.mem_append_right _ (List.mem_singleton_self info), rfl⟩

/-- A class may enter the table with bases that are there. -/
theorem Established.enter (h : w.Established) (hb : ∀ b ∈ bases, w.classes.Has b)
    (he : w.Enterable name bases binder fields inherited) :
    Sustains w (w.enter (w.newInfo name inherited binder fields)) :=
  h.append (h.has_basesOf hb) he.merged rfl rfl rfl

/-- A class may enter the table and become known to the registry of its binder. -/
theorem Established.enroll (h : w.Established) (hb : ∀ b ∈ bases, w.classes.Has b)
    (he : w.Enterable name bases binder fields inherited) :
    Sustains w (w.enroll (w.newInfo name inherited binder fields)) := by
  have hs := h.enter hb he
  exact hs.trans (hs.established.know _ (has_enter w _) rfl)

/-- Opening a class with bases of the table leaves a world established. -/
theorem sustainedBy_openClass (h : w.Established) (hb : ∀ b ∈ bases, w.classes.Has b) :
    w.SustainedBy (openClass name bases binder fields) := by
  unfold SustainedBy
  rcases exec_openClass_error_or w name bases binder fields with ⟨e, he⟩ | ⟨inherited, hi⟩
  · rw [he]
    exact h.sustains
  · rw [hi.exec_openClass]
    split
    · split
      · exact h.enroll hb hi
      · exact h.enter hb hi
    · exact h.enter hb hi

/-- A class that has been opened is in the table, and is not the base of the schema classes. -/
theorem has_of_openClass (h : w.Established) {i : Option Nat}
    (ho : exec (openClass name bases binder fields) w = (.ok (c, i), v)) :
    v.classes.Has c ∧ c ≠ .schemaBase := by
  obtain ⟨inherited, -, rfl, hv⟩ := exec_openClass_ok ho
  have hl : ClassRef.schemaBase.id < w.classes.length := h.lawful.id_lt h.has_schemaBase
  have hne : (w.newInfo name inherited binder fields).ref ≠ .schemaBase := by
    intro hc
    have hid : (w.newInfo name inherited binder fields).ref.id = w.classes.length := rfl
    rw [hc] at hid
    omega
  rcases hv with rfl | rfl
  · exact ⟨has_enter w _, hne⟩
  · exact ⟨has_enter w _, hne⟩

private theorem sustainedBy_declareBodyField (h : w.Established) (hc : w.classes.Has c)
    (hne : c ≠ .schemaBase) (i : Nat) (name : String) (d : FieldDeclaration) :
    w.SustainedBy (declareBodyField i c name d) := by
  apply SustainedBy.bind (sustainedBy_declareField h hc i _ _ _)
  intro contract v he hv
  have hn := checkFieldName_of_declareField he
  cases eq_str_of_checkFieldName hn
  exact hv.established.setNull (ne_binderName_of_checkFieldName hn) fun hb => absurd hb hne

private theorem sustainedBy_declareBody (h : w.Established) (hc : w.classes.Has c)
    (hne : c ≠ .schemaBase) (i : Nat) (fields : List (String × FieldDeclaration)) :
    w.SustainedBy (declareBody i c fields) := by
  induction fields generalizing w with
  | nil => exact h.pure ()
  | cons f rest ih =>
    apply SustainedBy.bind (sustainedBy_declareBodyField h hc hne i f.1 f.2)
    intro _ v _ hv
    exact ih hv.established (hv.has c hc)

/-- Creating a class with bases of the table leaves a world established. -/
theorem sustainedBy_createClass (h : w.Established) (hb : ∀ b ∈ bases, w.classes.Has b) :
    w.SustainedBy (createClass name bases binder fields) := by
  apply SustainedBy.bind (sustainedBy_openClass h hb)
  rintro ⟨c, i⟩ v ho hv
  obtain ⟨hc, hne⟩ := has_of_openClass h ho
  cases i with
  | none => exact hv.established.pure c
  | some i =>
    apply SustainedBy.bind (sustainedBy_declareBody hv.established hc hne i _)
    intro _ u _ hu
    exact hu.established.pure c

end Open

/-! ### Declaring through classes -/

private theorem answersTo_method (h : w.Established) {name : String}
    (hn : name ∈ ClassTable.methods) :
    w.classes.answersTo .schemaBase name = true := by
  obtain ⟨base, hb, -, hmethods⟩ := h.lawful.info?_schemaBase
  have ha : w.classes.attribute? .schemaBase name = some .method := by
    rw [ClassTable.attribute?, h.lawful.order_schemaBase, List.findSome?_cons, hb, Option.bind_some,
      hmethods name hn]
  rw [ClassTable.answersTo, ha]
  rfl

/-- Declaring a field through a class of the table leaves a world established. -/
theorem sustainedBy_declareOnClass (h : w.Established) (hc : w.classes.Has c) (name : Value)
    (args : List Argument) (declared : Option DeclaredType) :
    w.SustainedBy (declareOnClass c name args declared) := by
  have hd := sustainedBy_declareField h hc (w.registryOf c) name args declared
  unfold SustainedBy at *
  rw [exec_declareOnClass]
  rcases he : exec (declareField (w.registryOf c) c name args declared) w with ⟨e | contract, v⟩
  · rw [he] at hd
    exact hd
  · rw [he] at hd
    dsimp only
    split
    · exact hd
    · next ha =>
      have hn := checkFieldName_of_declareField he
      refine hd.trans (hd.established.setNull (ne_binderName_of_checkFieldName hn) ?_)
      rintro rfl hm
      exact ha (answersTo_method hd.established hm)

private theorem sustainedBy_declareFields (h : w.Established) (hc : w.classes.Has c)
    (created : List ClassRef) (fields : List Table.FieldSpec) :
    w.SustainedBy (Table.declareFields created c fields) := by
  induction fields generalizing w with
  | nil => exact h.pure ()
  | cons f rest ih =>
    apply SustainedBy.bind (sustainedBy_declareOnClass h hc _ _ _)
    intro _ v _ hv
    exact ih hv.established (hv.has c hc)

/-- The class that a name of a table stands for is in the table of classes. -/
theorem Established.has_classOf (h : w.Established) {created : List ClassRef}
    (hc : ∀ c ∈ created, w.classes.Has c) (name : String) :
    w.classes.Has (Table.classOf created name) := by
  rw [Table.classOf]
  cases hf : created.find? fun c => c.name == name with
  | none => exact h.has_schemaBase
  | some c => exact hc c (List.mem_of_find?_eq_some hf)

private theorem sustainedBy_declareAll (h : w.Established) {created : List ClassRef}
    (hc : ∀ c ∈ created, w.classes.Has c) (specs : List Table.SchemaSpec) :
    w.SustainedBy (Table.declareAll created specs) := by
  induction specs generalizing w with
  | nil => exact h.pure ()
  | cons s rest ih =>
    apply SustainedBy.bind (sustainedBy_declareFields h (h.has_classOf hc s.name) created s.fields)
    intro _ v _ hv
    exact ih hv.established fun c hm => hv.has c (hc c hm)

/-! ### Tables -/

section Table

variable {binder : Option Nat}

private theorem has_of_createClass (h : w.Established) {name : String} {bases : List ClassRef}
    (hb : ∀ b ∈ bases, w.classes.Has b) {fields : List (String × FieldDeclaration)}
    (he : exec (createClass name bases binder fields) w = (.ok c, v)) : v.classes.Has c := by
  obtain ⟨⟨d, i⟩, u, ho, he⟩ := exec_bind_eq_ok_iff.mp he
  obtain ⟨hd, hne⟩ := has_of_openClass h ho
  have hu := (sustainedBy_openClass h hb).of_ok ho
  cases i with
  | none =>
    cases he
    exact hd
  | some i =>
    obtain ⟨_, x, hr, he⟩ := exec_bind_eq_ok_iff.mp he
    have hx := (sustainedBy_declareBody hu.established hd hne i _).of_ok hr
    cases he
    exact hx.has _ hd

/-- The base of a schema of a table is in the table of classes. -/
theorem Established.has_bases (h : w.Established) :
    ∀ b ∈ [ClassRef.schemaBase], w.classes.Has b := by
  intro b hb
  rw [List.mem_singleton.mp hb]
  exact h.has_schemaBase

private theorem sustainedBy_createSchema (h : w.Established) (name : String) :
    w.SustainedBy (createClass name [.schemaBase] binder []) := by
  exact sustainedBy_createClass h h.has_bases

/-- Creating the classes of schemas leaves a world established. -/
theorem sustainedBy_createAll (h : w.Established) (specs : List Table.SchemaSpec) :
    w.SustainedBy (Table.createAll binder specs) := by
  induction specs generalizing w with
  | nil => exact h.pure []
  | cons s rest ih =>
    apply SustainedBy.bind (sustainedBy_createSchema h s.name)
    intro c v _ hv
    apply SustainedBy.bind (ih hv.established)
    intro cs u _ hu
    exact hu.established.pure (c :: cs)

/-- The classes that are created for schemas are in the table. -/
theorem has_of_createAll (h : w.Established) {specs : List Table.SchemaSpec} {cs : List ClassRef}
    (he : exec (Table.createAll binder specs) w = (.ok cs, v)) : ∀ c ∈ cs, v.classes.Has c := by
  induction specs generalizing w cs with
  | nil =>
    cases he
    intro c hc
    cases hc
  | cons s rest ih =>
    obtain ⟨d, u, hd, he⟩ := exec_bind_eq_ok_iff.mp he
    obtain ⟨ds, x, hds, he⟩ := exec_bind_eq_ok_iff.mp he
    have hu := (sustainedBy_createSchema h s.name).of_ok hd
    have hx := (sustainedBy_createAll hu.established rest).of_ok hds
    cases he
    intro c hc
    rcases List.mem_cons.mp hc with rfl | hc
    · exact hx.has c (has_of_createClass h h.has_bases hd)
    · exact ih hu.established hds c hc

/-- Building a table leaves a world established. -/
theorem sustainedBy_build (h : w.Established) (table : Value) :
    w.SustainedBy (Table.build binder table) := by
  unfold Table.build
  split
  · split
    · exact h.throw _
    · apply SustainedBy.bind (h.lift _)
      intro specs u _ hu
      apply SustainedBy.bind (sustainedBy_createAll hu.established specs)
      intro cs v hc hv
      apply SustainedBy.bind
        (sustainedBy_declareAll hv.established (has_of_createAll hu.established hc) specs)
      intro _ x _ hx
      exact hx.established.of_eq rfl rfl rfl
  · exact h.throw _

end Table

/-! ### Registries and binders -/

/-- Registering a class of the table leaves a world established. -/
theorem sustainedBy_registerClass (h : w.Established) (hc : w.classes.Has c) (i : Nat) :
    w.SustainedBy (registerClass i c) := h.know i hc rfl

/-- A registry may be replaced by one that knows no more classes. -/
theorem Established.shrink (h : w.Established) (i : Nat) {r : Registry}
    (hr : ∀ d, r.knows d = true → (w.registry i).knows d = true) :
    Sustains w (w.setRegistry i r) := h.setRegistry i fun d hd => .inl (hr d hd)

/-- Forgetting contracts leaves a world established. -/
theorem sustainedBy_clear (h : w.Established) (i : Nat) (target : Option Target) :
    w.SustainedBy (Session.clear i target) := by
  have hall : Sustains w (w.setRegistry i (w.registry i).clear) :=
    h.shrink i fun d hd => by cases hd
  cases target with
  | none => exact hall
  | some target =>
    cases target with
    | cls c =>
      refine h.shrink i fun d hd => ?_
      obtain ⟨e, he, hd⟩ := List.any_eq_true.mp hd
      exact List.any_eq_true.mpr ⟨e, List.mem_of_mem_filter he, hd⟩
    | value v =>
      have hdrop : Sustains w (w.setRegistry i (w.registry i).dropPlans) := h.shrink i fun _ => id
      cases v with
      | null => exact hall
      | _ =>
        apply SustainedBy.get
        split
        · exact .lift h fun _ _ => hdrop
        · exact hdrop

/-- Setting the strictness of a registry leaves a world established. -/
theorem sustainedBy_setStrict (h : w.Established) (i : Nat) (v : Value) :
    w.SustainedBy (Session.setStrict i v) := .lift h fun _ _ => h.shrink i fun _ => id

/-- Setting the depth limit of a binder leaves a world established. -/
theorem sustainedBy_setMaxDepth (h : w.Established) (i : Nat) (v : Value) :
    w.SustainedBy (Session.setMaxDepth i v) := by
  apply SustainedBy.lift h
  intro depth _
  apply h.setBinders
  intro j
  rw [List.getElem?_set]
  split
  · split
    · exact h.registry i
    · exact h.registry_default
  · exact h.registry j

/-- Applying settings leaves a world established. -/
theorem sustainedBy_configure (h : w.Established) (s : Settings) :
    w.SustainedBy (Session.configure s) := by
  apply SustainedBy.bind (sustainedBy_setStrict h 0 _)
  intro _ v _ hv
  apply SustainedBy.bind (sustainedBy_setMaxDepth hv.established 0 _)
  intro _ u _ hu
  exact .lift hu.established fun _ _ => hu.established.pure _

end World

end SchemaBinding
