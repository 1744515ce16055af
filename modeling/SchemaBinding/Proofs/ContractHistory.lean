import SchemaBinding.Proofs.DeclareCalls
import SchemaBinding.Proofs.TableSpecs

/-!
# The history of contracts

The contracts that a class has of its own in a registry are told by the history of the registry: by
the declarations that succeeded since the class was last forgotten. Nothing else that a session does
has an influence on them.
-/

namespace SchemaBinding

namespace World

/-- Enters a class into the table, and gives the calls that then declare the fields of its body. -/
def openBody (name : String) (bases : List ClassRef) (binder : Option Nat)
    (fields : List (String × FieldDeclaration)) : Action (List DeclareCall) := do
  let (ref, registry) ← openClass name bases binder fields
  return (registry.map fun i => DeclareCall.ofBody i ref (bodyFields binder fields)).getD []

end World

namespace Table

open World

/-- Creates the schema classes of a table, and gives the calls that declare their fields. A table
that is not valid makes none. -/
def opens (binder : Option Nat) (table : Value) : Action (List DeclareCall) :=
  match table with
  | .dict entries =>
    if printable entries && (read entries).issues.isEmpty then do
      let created ← createAll binder (read entries).result
      return (read entries).result.flatMap (DeclareCall.ofSchema created)
    else return []
  | _ => return []

end Table

namespace Operation

open World

/-- Does what an operation does before it declares fields, and gives the calls that it then makes
to declare them. -/
def opens : Operation → Action (List DeclareCall)
  | .newClass name bases binder body => openBody name bases binder body
  | .declare i (.cls c) (.str field) args declared =>
    return [⟨.registry i, c, field, args, declared⟩]
  | .declareOn (.cls c) (.str field) args declared => do
    let w ← get
    lift (requireMethod w.classes c "declare")
    return [⟨.ofClass, c, field, args, declared⟩]
  | .build binder table => do
    let table ← adopt table
    Table.opens binder table
  | .parse binder source contents => do
    let table ← lift (Table.ofText source contents.toList)
    let table ← adopt table
    Table.opens binder table
  | .load binder directory path => do
    let table ← lift (Table.ofFile directory path)
    let table ← adopt table
    Table.opens binder table
  | _ => return []

/-- What clearing a target makes a registry forget: all, if there is none or it is null. -/
def forgotten : Option Target → List ContractChange
  | none => [.cleared]
  | some (.value .null) => [.cleared]
  | some (.cls c) => [.forgotten c]
  | some (.value _) => []

/-- What an operation makes a registry forget. -/
def forgets (i : Nat) : Operation → List ContractChange
  | .clear j target => if j = i then forgotten target else []
  | _ => []

/-- Whether an operation declares one field. -/
def declaresField : Operation → Bool
  | .declare .. => true
  | .declareOn .. => true
  | _ => false

end Operation

namespace Session

open World

/-- What the calls change in a registry that an action gives. -/
def opened (i : Nat) (a : Action (List DeclareCall)) (w : World) : List ContractChange :=
  match exec a w with
  | (.ok calls, v) => DeclareCall.allChanges i v calls
  | (.error _, _) => []

/-- What an operation changes in a registry: what it makes it forget, and the declarations that
succeed. -/
def changes (i : Nat) (s : Session) (op : Operation) : List ContractChange :=
  op.forgets i ++ opened i op.opens s.fresh.world

variable {i : Nat} {w : World}

/-- Calls that an action gives, if it spares contracts, change them as they say. -/
theorem records_opened {a : Action (List DeclareCall)} (ha : w.SparedBy a) (i : Nat) :
    Records i (opened i a w) w (exec (a >>= DeclareCall.runAll) w).2 := by
  unfold SparedBy at ha
  unfold opened
  rcases he : exec a w with ⟨e | calls, v⟩
  · rw [he] at ha
    rw [exec_bind_of_error he]
    exact ha i
  · rw [he] at ha
    rw [exec_bind_of_ok he]
    exact ha.records (DeclareCall.records_runAll calls v i)

/-- Opening a class and then making the calls of its body is creating it. -/
theorem snd_exec_openBody_runAll (w : World) (name : String) (bases : List ClassRef)
    (binder : Option Nat) (fields : List (String × FieldDeclaration)) :
    (exec (openBody name bases binder fields >>= DeclareCall.runAll) w).2 =
      (exec (createClass name bases binder fields) w).2 := by
  rcases ho : exec (openClass name bases binder fields) w with ⟨e | ⟨ref, registry⟩, v⟩
  · rw [openBody, createClass, bind_assoc, exec_bind_of_error ho, exec_bind_of_error ho]
  · rw [openBody, createClass, bind_assoc, exec_bind_of_ok ho, exec_bind_of_ok ho]
    cases registry with
    | none => rfl
    | some j =>
      simp only [Option.map_some, Option.getD_some, pure_bind, DeclareCall.declareBody_eq]
      rw [exec_bind]
      cases exec (DeclareCall.runAll (DeclareCall.ofBody j ref (bodyFields binder fields))) v with
      | mk result u => cases result <;> rfl

private theorem records_createClass (w : World) (i : Nat) (name : String) (bases : List ClassRef)
    (binder : Option Nat) (fields : List (String × FieldDeclaration)) :
    Records i (opened i (openBody name bases binder fields) w) w
      (exec (createClass name bases binder fields) w).2 := by
  have hs : w.SparedBy (openBody name bases binder fields) :=
    (sparedBy_openClass w name bases binder fields).bind fun _ _ _ => .pure _
  rw [← snd_exec_openBody_runAll]
  exact records_opened hs i

private theorem sparedBy_createClass (w : World) (name : String) (bases : List ClassRef)
    (binder : Option Nat) : w.SparedBy (createClass name bases binder []) := by
  intro i
  have hr := records_createClass w i name bases binder []
  suffices ho : opened i (openBody name bases binder []) w = [] by rwa [ho] at hr
  unfold opened openBody
  rcases he : exec (openClass name bases binder []) w with ⟨e | ⟨ref, registry⟩, v⟩
  · rw [exec_bind_of_error he]
  · rw [exec_bind_of_ok he]
    cases registry <;> rfl

private theorem sparedBy_createAll (w : World) (binder : Option Nat)
    (specs : List Table.SchemaSpec) :
    w.SparedBy (Table.createAll binder specs) := by
  induction specs generalizing w with
  | nil => exact .pure []
  | cons s rest ih =>
    refine (sparedBy_createClass w s.name _ binder).bind fun _ v _ => ?_
    exact (ih v).bind fun _ _ _ => .pure _

/-- Opening the schemas of a table changes no contracts. -/
theorem sparedBy_tableOpens (w : World) (binder : Option Nat) (table : Value) :
    w.SparedBy (Table.opens binder table) := by
  unfold Table.opens
  split
  · split
    · exact (sparedBy_createAll w binder _).bind fun _ _ _ => .pure _
    · exact .pure _
  · exact .pure _

/-- Opening the schemas of a table and then making the calls that declare their fields is building
the table, which may log an event at the end. -/
theorem snd_exec_build (w : World) (binder : Option Nat) (table : Value) :
    let v := (exec (Table.opens binder table >>= DeclareCall.runAll) w).2
    (exec (Table.build binder table) w).2 = v ∨
      ∃ e, (exec (Table.build binder table) w).2 = v.log e := by
  unfold Table.opens Table.build
  cases table with
  | dict entries =>
    dsimp only
    rw [Table.accepted_read]
    by_cases h : (Table.printable entries && (Table.read entries).issues.isEmpty) = true
    · have hi : (Table.read entries).issues = [] := by simp_all
      rw [if_pos h, if_neg (by simp_all), if_pos hi, exec_bind_of_ok (exec_lift (.ok _) w)]
      rcases hc : exec (Table.createAll binder (Table.read entries).result) w with
        ⟨e | created, v⟩
      · rw [bind_assoc, exec_bind_of_error hc, exec_bind_of_error hc]
        exact .inl rfl
      · rw [bind_assoc, exec_bind_of_ok hc, exec_bind_of_ok hc, pure_bind,
          DeclareCall.declareAll_eq]
        rcases hd : exec (DeclareCall.runAll _) v with ⟨e | u, x⟩
        · rw [exec_bind_of_error hd]
          exact .inl rfl
        · rw [exec_bind_of_ok hd]
          exact .inr ⟨_, rfl⟩
    · left
      rw [if_neg h]
      split
      · rfl
      · rw [if_neg (by simp_all)]
        rfl
  | _ => exact .inl rfl

private theorem records_build (w : World) (i : Nat) (binder : Option Nat) (table : Value) :
    Records i (opened i (Table.opens binder table) w) w (exec (Table.build binder table) w).2 := by
  have hr := records_opened (sparedBy_tableOpens w binder table) i
  rcases snd_exec_build w binder table with he | ⟨e, he⟩
  · rw [he]
    exact hr
  · rw [he]
    exact hr.spares (.of_registries rfl)

/-! ### Steps -/

/-- An operation that runs an action and shows its result leaves the world of the action. -/
theorem world_exec_act_bind {α : Type} (a : Action α) (f : α → Outcome) (s : Session) :
    (exec (act a >>= fun x => pure (f x)) s).2.world = (exec a s.world).2 := by
  rw [snd_exec_bind_pure]
  rfl

/-- An operation that declares nothing makes no changes. -/
theorem changes_of_not_declares (s : Session) {op : Operation} (h : op.declares = false) (i : Nat) :
    s.changes i op = [] := by
  cases op with
  | newClass => cases h
  | declare => cases h
  | declareOn => cases h
  | clear => cases h
  | build => cases h
  | parse => cases h
  | load => cases h
  | _ => rfl

private theorem records_clear (w : World) (j : Nat) (target : Option Target) (i : Nat) :
    Records i ((Operation.clear j target).forgets i) w (exec (clear j target) w).2 := by
  have hall : Records i (if j = i then [.cleared] else []) w
      (w.setRegistry j (w.registry j).clear) :=
    records_forgetting w j (fun _ => rfl) (fun _ => rfl) i
  cases target with
  | none => exact hall
  | some target =>
    cases target with
    | cls c =>
      refine records_forgetting w j (Registry.own_forget _ c) (fun d => ?_) i
      exact ite_self _
    | value v =>
      cases v with
      | null => exact hall
      | _ =>
        change Records i (if j = i then [] else []) w _
        rw [ite_self]
        refine SparedBy.get ?_ i
        split
        · exact .lift fun _ _ => spares_setRegistry w j fun _ => rfl
        · exact spares_setRegistry w j fun _ => rfl

private theorem records_declare (w : World) (j : Nat) (c : ClassRef) (field : Value)
    (args : List Argument)
    (declared : Option DeclaredType) (i : Nat) :
    Records i (opened i (Operation.declare j (.cls c) field args declared).opens w) w
      (exec (declareField j c field args declared) w).2 := by
  cases field with
  | str name =>
    have hr := DeclareCall.records_runAll [⟨.registry j, c, name, args, declared⟩] w i
    rwa [DeclareCall.runAll, DeclareCall.runAll, snd_exec_bind_pure, DeclareCall.run,
      snd_exec_bind_pure] at hr
  | _ => exact sparedBy_declareField (by simp) i

/-- Declaring a field through its class is asking for the method and then making the call. -/
theorem snd_exec_declareOn (w : World) (c : ClassRef) (name : String) (args : List Argument)
    (declared : Option DeclaredType) :
    (exec ((Operation.declareOn (.cls c) (.str name) args declared).opens >>=
        DeclareCall.runAll) w).2 = (exec (declareOn (.cls c) (.str name) args declared) w).2 := by
  rw [Operation.opens, declareOn, bind_assoc, exec_bind_of_ok (exec_get w),
    exec_bind_of_ok (exec_get w), bind_assoc]
  cases requireMethod w.classes c "declare" with
  | error e => rfl
  | ok u =>
    rw [exec_bind_of_ok (exec_lift (.ok u) w), exec_bind_of_ok (exec_lift (.ok u) w), pure_bind,
      DeclareCall.runAll, DeclareCall.runAll, snd_exec_bind_pure, DeclareCall.run]

private theorem records_declareOn (w : World) (target : Target) (field : Value)
    (args : List Argument)
    (declared : Option DeclaredType) (i : Nat) :
    Records i (opened i (Operation.declareOn target field args declared).opens w) w
      (exec (declareOn target field args declared) w).2 := by
  cases target with
  | value v => exact Spares.refl w i
  | cls c =>
    cases field with
    | str name =>
      have ho : w.SparedBy (Operation.declareOn (.cls c) (.str name) args declared).opens :=
        .get (.lift fun _ _ => .pure _)
      rw [← snd_exec_declareOn]
      exact records_opened ho i
    | _ => exact sparedBy_declareOn (by simp) i

private theorem records_adopt_build (s : Session) (binder : Option Nat) (table : Value) (i : Nat) :
    Records i (opened i (do let table ← adopt table; Table.opens binder table) s.world) s.world
      (exec (do
        let table ← act (adopt table)
        let cs ← act (Table.build binder table)
        return Outcome.classes cs) s).2.world := by
  have ha : exec (act (adopt table)) s = (.ok (s.world.adopted table),
      { s with world := s.world.adopting table }) := rfl
  rw [opened, exec_bind_of_ok (exec_adopt table s.world), exec_bind_of_ok ha, world_exec_act_bind]
  have hs : Spares s.world (s.world.adopting table) := .of_registries rfl
  exact hs.records (records_build _ i binder _)

/-- A step makes the changes of its operation. -/
theorem records_step {s : Session} (h : s.world.Consistent) (op : Operation) (i : Nat) :
    Records i (s.changes i op) s.world (s.step op).2.world := by
  change Records i (s.changes i op) s.fresh.world (exec (run planOf op) s.fresh).2.world
  cases hd : op.declares with
  | false =>
    have hc := step_changes h op
    rw [Operation.Changes, hd] at hc
    rw [changes_of_not_declares s hd i]
    exact hc.spares i
  | true =>
    cases op with
    | newClass name bases binder body =>
      rw [run, world_exec_act_bind]
      exact records_createClass s.fresh.world i name bases binder body
    | declare j target field args declared =>
      cases target with
      | value v => exact Spares.refl _ i
      | cls c =>
        have hr := records_declare s.fresh.world j c field args declared i
        rwa [← world_exec_act_bind _ Outcome.contract] at hr
    | declareOn target field args declared =>
      rw [run, world_exec_act_bind]
      exact records_declareOn s.fresh.world target field args declared i
    | register j target =>
      cases target with
      | value v => exact Spares.refl _ i
      | cls c => exact spares_register s.fresh.world j c i
    | clear j target =>
      have hr := records_clear s.fresh.world j target i
      rw [← world_exec_act_bind _ fun _ => Outcome.done] at hr
      exact hr.append (Spares.refl _ i)
    | build binder table => exact records_adopt_build s.fresh binder table i
    | parse binder source contents =>
      rw [changes, Operation.opens, run]
      cases Table.ofText source contents.toList with
      | error e => exact Spares.refl _ i
      | ok table => exact records_adopt_build s.fresh binder table i
    | load binder directory path =>
      rw [changes, Operation.opens, run]
      cases Table.ofFile directory path with
      | error e => exact Spares.refl _ i
      | ok table => exact records_adopt_build s.fresh binder table i
    | _ => cases hd

/-- What operations change in a registry, one after another. -/
def history (i : Nat) (s : Session) : List Operation → List ContractChange
  | [] => []
  | op :: ops => s.changes i op ++ history i (s.step op).2 ops

/-- The session after operations. -/
def after (s : Session) (ops : List Operation) : Session := ops.foldl (fun s op => (s.step op).2) s

/-- Operations lead from a reachable session to a reachable one. -/
theorem reachable_after {s : Session} (h : s.Reachable) (ops : List Operation) :
    (s.after ops).Reachable := by
  induction ops generalizing s with
  | nil => exact h
  | cons op ops ih => exact ih (.step s op h)

private theorem history_append (i : Nat) (s : Session) (ops more : List Operation) :
    history i s (ops ++ more) = history i s ops ++ history i (s.after ops) more := by
  induction ops generalizing s with
  | nil => rfl
  | cons op ops ih =>
    rw [List.cons_append, history, history, ih, List.append_assoc]
    rfl

/-- A run makes the changes of its history. -/
theorem records_history {s : Session} (h : Reachable s) (ops : List Operation) (i : Nat) :
    Records i (history i s ops) s.world (s.after ops).world := by
  induction ops generalizing s with
  | nil => exact Spares.refl s.world i
  | cons op ops ih => exact (records_step h.consistent op i).append (ih (.step s op h))

/-- The own contracts of a class after operations are told by the history of its registry. -/
theorem own_after (ops : List Operation) (i : Nat) (c : ClassRef) :
    ((initial.after ops).world.registry i).own c =
      Declaration.contracts (ContractChange.latest c (history i initial ops)) := by
  have hr := records_history .initial ops i c
  have ho : (World.initial.registry i).own c = [] := by cases i <;> rfl
  rw [hr, ← ContractChange.foldl_effect]
  exact congrArg (List.foldl (ContractChange.effect c) · _) ho

/-- The own contract of a class for a field after operations is told by the history of its registry.
-/
theorem ownField?_after (ops : List Operation) (i : Nat) (c : ClassRef) (name : String) :
    ((initial.after ops).world.registry i).ownField? c name =
      Declaration.contract? (ContractChange.latest c (history i initial ops)) name := by
  rw [Registry.ownField?, own_after]
  exact Declaration.find?_map_contract _

/-- An operation that neither declares nor forgets, or a declaration that fails. -/
def Idle (s : Session) (op : Operation) : Prop :=
  op.declares = false ∨ op.declaresField = true ∧ ∃ e, (s.step op).1 = .error e

/-- An operation that shows the result of an action fails only with the fault of the action. -/
theorem fst_exec_act_bind {α : Type} {a : Action α} {f : α → Outcome} {s : Session} {e : Fault}
    (h : (exec (act a >>= fun x => pure (f x)) s).1 = .error e) :
    (exec a s.world).1 = .error e := by
  rw [exec_bind, exec_act] at h
  rcases ha : exec a s.world with ⟨g | x, v⟩ <;> rw [ha] at h <;> cases h
  rfl

/-- A call that fails changes nothing. -/
theorem allChanges_of_error (call : DeclareCall) {w : World} {e : Fault}
    (h : (exec call.run w).1 = .error e) (i : Nat) : DeclareCall.allChanges i w [call] = [] := by
  rw [DeclareCall.allChanges]
  rcases hr : exec call.run w with ⟨g | x, v⟩
  · rfl
  · rw [hr] at h
    cases h

private theorem changes_of_idle {s : Session} {op : Operation} (h : s.Idle op) (i : Nat) :
    s.changes i op = [] := by
  rcases h with h | ⟨hd, e, he⟩
  · exact changes_of_not_declares s h i
  · change (exec (run planOf op) s.fresh).1 = .error e at he
    cases op with
    | declare j target field args declared =>
      cases target with
      | value v => rfl
      | cls c =>
        have hf := fst_exec_act_bind (f := Outcome.contract) he
        cases field with
        | str name =>
          exact allChanges_of_error ⟨.registry j, c, name, args, declared⟩
            (fst_exec_bind_of_error hf _) i
        | _ => rfl
    | declareOn target field args declared =>
      cases target with
      | value v => rfl
      | cls c =>
        have hf := fst_exec_act_bind (f := fun _ => Outcome.done) he
        cases field with
        | str name =>
          rw [changes, Operation.opens]
          rw [declareOn, exec_bind_of_ok (exec_get _)] at hf
          rw [opened, exec_bind_of_ok (exec_get _)]
          cases hm : requireMethod s.fresh.world.classes c "declare" with
          | error g =>
            rw [exec_bind_of_error (exec_lift (.error g) _)]
            rfl
          | ok u =>
            rw [hm, exec_bind_of_ok (exec_lift (.ok u) _)] at hf
            exact allChanges_of_error ⟨.ofClass, c, name, args, declared⟩ hf i
        | _ => rfl
    | _ => cases hd

/-- The contracts that a class has of its own in a registry follow from the declarations on it that
succeeded since it was last forgotten. The fields stand in the order of their first declarations,
each once. The contract of a field has the rules of all its declarations, applied to an empty
contract from left to right, and the type that was given last. Operations that have nothing to do
with a field of the class have no influence on its contract, and neither have declarations that fail
and operations that neither declare nor forget. -/
theorem contracts_history (ops : List Operation) (i : Nat) (c : ClassRef) :
    let s := initial.after ops
    let ds := ContractChange.latest c (history i initial ops)
    ((s.world.registry i).own c).map FieldContract.name = Declaration.names ds ∧
      (Declaration.names ds).Nodup ∧
      (∀ name, (s.world.registry i).ownField? c name = Declaration.contract? ds name) ∧
      (∀ op name, (∀ change ∈ s.changes i op, change.concerns c name = false) →
        ((s.step op).2.world.registry i).ownField? c name =
          (s.world.registry i).ownField? c name) ∧
      ∀ op, s.Idle op → s.changes i op = [] := by
  intro s ds
  refine ⟨?_, Declaration.nodup_names ds, ownField?_after ops i c, fun op name hc => ?_,
    fun op ho => changes_of_idle ho i⟩
  · rw [own_after, Declaration.contracts, List.map_map]
    exact List.map_id'' (Declaration.name_contract ds) _
  · have ha : (s.step op).2 = initial.after (ops ++ [op]) := by
      rw [after, List.foldl_concat]
      rfl
    have hh : history i initial (ops ++ [op]) = history i initial ops ++ s.changes i op := by
      rw [history_append, history, history, List.append_nil]
    rw [ha, ownField?_after, ownField?_after, hh, ContractChange.latest, List.foldl_append]
    exact Declaration.contract?_congr _ (ContractChange.filter_foldl_remember hc _)

/-- Declarations in a strict registry: the field that is declared in the class body gets a rule
after another field has been declared. -/
def redeclarations : List Operation := [
  .setStrict 0 (.bool true), newPoint,
  .declare 0 (.cls point) (.str "y") [.fragment (.requirement .required)] (some (.basic .int)),
  .declare 0 (.cls point) (.str "x") [.fragment .integer] none]

/-- A declaration that conflicts with one of `redeclarations`. -/
def conflicting : Operation :=
  .declare 0 (.cls point) (.str "y") [.fragment .integer, .fragment (.requirement .optional)] none

/-- The first declaration of a field fixes its place. A declaration that conflicts changes
nothing, and one of another field nothing of this one. -/
theorem redeclared_in_place :
    let s := initial.after redeclarations
    let other : Operation := .declare 0 (.cls point) (.str "y") [.fragment .integer] none
    ((s.world.registry 0).own point).map FieldContract.name = ["x", "y"] ∧
      (s.Idle conflicting ∧ s.changes 0 conflicting = []) ∧
      (∀ change ∈ s.changes 0 other, change.concerns point "x" = false) ∧
      ((s.step other).2.world.registry 0).ownField? point "x" =
        (s.world.registry 0).ownField? point "x" := by
  intro s other
  obtain ⟨hn, -, -, ho, hi⟩ := contracts_history redeclarations 0 point
  have hc : s.Idle conflicting :=
    .inr ⟨rfl, exists_error_of_isOk (by decide)⟩
  have hx : ∀ change ∈ s.changes 0 other, change.concerns point "x" = false := by decide
  exact ⟨hn.trans (by decide), ⟨hc, hi _ hc⟩, hx, ho other "x" hx⟩

end Session

end SchemaBinding
