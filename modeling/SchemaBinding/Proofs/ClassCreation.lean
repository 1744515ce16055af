import SchemaBinding.Proofs.DeclareCalls
import SchemaBinding.Proofs.Inheritance

/-!
# Creating classes

A class is refused before anything has changed, or it is entered into the table. If it is a schema
class that has a binder, it is known to the registry of that binder from then on.
-/

namespace SchemaBinding

namespace World

variable {w v : World} {name : String} {bases inherited : List ClassRef} {binder : Option Nat}
  {fields : List (String × FieldDeclaration)}

/-- The bases of a new class: the root of all classes, if none are named. -/
def basesOf (bases : List ClassRef) : List ClassRef :=
  if bases.isEmpty then [ClassRef.object] else bases

/-- What the table will say of a new class. -/
def newInfo (w : World) (name : String) (inherited : List ClassRef) (binder : Option Nat)
    (fields : List (String × FieldDeclaration)) : ClassInfo :=
  let ref := w.classes.nextRef name (inherited.contains .schemaBase)
  ⟨ref, ref :: inherited, binder, true, (bodyFields binder fields).map fun f => (f.1, .declaration)⟩

/-- The world with a class entered into the table. -/
def enter (w : World) (info : ClassInfo) : World := { w with classes := w.classes ++ [info] }

/-- The world with a class entered into the table and known to the registry of its binder. -/
def enroll (w : World) (info : ClassInfo) : World :=
  let v := w.enter info
  let i := v.registryOf info.ref
  v.setRegistry i ((v.registry i).register info.ref)

/-- Nothing stands in the way of entering a class that will inherit from some classes. -/
structure Enterable (w : World) (name : String) (bases : List ClassRef) (binder : Option Nat)
    (fields : List (String × FieldDeclaration)) (inherited : List ClassRef) : Prop where
  body : checkBody name (fields.map Prod.fst) = .ok ()
  distinct : ClassTable.duplicate? (basesOf bases) = none
  merged : w.classes.mergeBases (basesOf bases) = .ok inherited
  keywords : (binder.isSome && !inherited.contains .schemaBase) = false

/-- A class that cannot be entered is refused, and the world is as it was. -/
theorem exec_openClass_error_or (w : World) (name : String) (bases : List ClassRef)
    (binder : Option Nat) (fields : List (String × FieldDeclaration)) :
    (∃ e, exec (openClass name bases binder fields) w = (.error e, w)) ∨
      ∃ inherited, w.Enterable name bases binder fields inherited := by
  rw [openClass, exec_bind_of_ok (exec_get w)]
  cases hb : checkBody name (fields.map Prod.fst) with
  | error e => exact .inl ⟨e, rfl⟩
  | ok u =>
    rw [exec_bind_of_ok (exec_lift (.ok u) w)]
    cases hd : ClassTable.duplicate? (basesOf bases) with
    | some c =>
      left
      unfold basesOf at hd
      rw [hd]
      exact ⟨_, rfl⟩
    | none =>
      cases hm : w.classes.mergeBases (basesOf bases) with
      | error fronts =>
        left
        unfold basesOf at hd hm
        rw [hd]
        dsimp only
        rw [hm]
        exact ⟨_, rfl⟩
      | ok inherited =>
        cases hk : binder.isSome && !inherited.contains .schemaBase with
        | true =>
          left
          unfold basesOf at hd hm
          rw [hd]
          dsimp only
          rw [hm]
          dsimp only
          rw [if_pos hk]
          exact ⟨_, rfl⟩
        | false => exact .inr ⟨inherited, hb, hd, hm, hk⟩

/-- A class that can be entered is entered. A schema class must then have a binder, and is known to
the registry of that binder. -/
theorem Enterable.exec_openClass (h : w.Enterable name bases binder fields inherited) :
    let info := w.newInfo name inherited binder fields
    exec (openClass name bases binder fields) w =
      if inherited.contains .schemaBase then
        match requireBinder (w.classes ++ [info]) info.ref with
        | .ok _ => (.ok (info.ref, some ((w.enter info).registryOf info.ref)), w.enroll info)
        | .error e => (.error e, w.enter info)
      else (.ok (info.ref, none), w.enter info) := by
  obtain ⟨hb, hd, hm, hk⟩ := h
  intro info
  unfold basesOf at hd hm
  rw [openClass, exec_bind_of_ok (exec_get w), hb, exec_bind_of_ok (exec_lift (.ok ()) w), hd]
  dsimp only
  rw [hm]
  dsimp only
  rw [if_neg (ne_true_of_eq_false hk)]
  have hset : exec (set (w.enter info) : Action PUnit) w = (.ok ⟨⟩, w.enter info) := rfl
  refine (exec_bind_of_ok hset _).trans ?_
  split
  · change exec (lift (requireBinder (w.classes ++ [info]) info.ref) >>= fun _ => _) _ = _
    cases requireBinder (w.classes ++ [info]) info.ref with
    | error e => rfl
    | ok u => rfl
  · rfl

/-- A class that has been opened could be entered, and now is. -/
theorem exec_openClass_ok {c : ClassRef} {i : Option Nat}
    (h : exec (openClass name bases binder fields) w = (.ok (c, i), v)) :
    ∃ inherited, w.Enterable name bases binder fields inherited ∧
      c = (w.newInfo name inherited binder fields).ref ∧
      (v = w.enter (w.newInfo name inherited binder fields) ∨
        v = w.enroll (w.newInfo name inherited binder fields)) := by
  rcases exec_openClass_error_or w name bases binder fields with ⟨e, he⟩ | ⟨inherited, hi⟩
  · rw [he] at h
    cases h
  · refine ⟨inherited, hi, ?_⟩
    rw [hi.exec_openClass] at h
    split at h
    · split at h
      · cases h
        exact ⟨rfl, .inr rfl⟩
      · cases h
    · cases h
      exact ⟨rfl, .inl rfl⟩

/-- A field that is declared through its class is declared in the registry of the binder of the
class, and then reads as absent, unless the class answers to its name. -/
theorem exec_declareOnClass (w : World) (c : ClassRef) (name : Value) (args : List Argument)
    (declared : Option DeclaredType) :
    exec (declareOnClass c name args declared) w =
      match exec (declareField (w.registryOf c) c name args declared) w with
      | (.ok contract, v) =>
        (.ok (), if v.classes.answersTo c contract.name then v
          else { v with classes := v.classes.setNull c contract.name })
      | (.error e, v) => (.error e, v) := by
  rw [declareOnClass, exec_bind_of_ok (exec_get w), exec_bind]
  rcases exec (declareField (w.registryOf c) c name args declared) w with ⟨e | contract, v⟩ <;> rfl

end World

end SchemaBinding
