import SchemaBinding.Proofs.ContractChanges
import SchemaBinding.Proofs.PlanCache

/-!
# Calls that declare

Fields are declared in a registry, through their class, in the body of their class, and by tables.
All of these come down to sequences of calls, each of which may fail and so end its sequence. This
module says what the calls of a sequence change, call by call.
-/

namespace SchemaBinding

namespace Registry

/-- Putting a contract changes the contracts of its class only, if the registry knows the class. -/
theorem own_put (r : Registry) (c d : ClassRef) (f : FieldContract) :
    (r.put c f).own d = if r.knows c ∧ c = d then putContract (r.own d) f else r.own d := by
  have hp : (fun e : ClassRef × List FieldContract => e.1 == d) ∘
      (fun e => if e.1 == c then (e.1, putContract e.2 f) else e) = fun e => e.1 == d := by
    funext e
    rw [Function.comp]
    split <;> rfl
  simp only [own, put, List.find?_map, hp]
  cases hf : r.contracts.find? (fun e => e.1 == d) with
  | none =>
    have hk : ¬ (r.knows c ∧ c = d) := by
      rintro ⟨hk, rfl⟩
      rw [List.find?_eq_none] at hf
      obtain ⟨e, he, hc⟩ := List.any_eq_true.mp hk
      exact hf e he hc
    rw [if_neg hk]
    rfl
  | some e =>
    have he : e.1 = d := by simpa using List.find?_some hf
    by_cases hc : c = d
    · have hk : r.knows c = true :=
        List.any_eq_true.mpr ⟨e, List.mem_of_find?_eq_some hf, beq_iff_eq.mpr (he.trans hc.symm)⟩
      rw [if_pos ⟨hk, hc⟩]
      simp [hc, he]
    · have hec : ¬ e.1 = c := fun h => hc (h.symm.trans he)
      simp [hc, hec]

/-- Nothing is declared on a class that is not known. -/
theorem own_of_not_knows {r : Registry} {c : ClassRef} (h : ¬ r.knows c = true) : r.own c = [] := by
  have hf : r.contracts.find? (fun e => e.1 == c) = none := by
    rw [List.find?_eq_none]
    intro e he hc
    exact h (List.any_eq_true.mpr ⟨e, he, hc⟩)
  rw [own, hf]
  rfl

/-- A class that is forgotten has no contracts, and all others have theirs. -/
theorem own_forget (r : Registry) (c d : ClassRef) :
    (r.forget c).own d = if c = d then [] else r.own d := by
  have hf : r.contracts.find? (fun e => decide ((e.1 != c) = true ∧ (e.1 == d) = true)) =
      if c = d then none else r.contracts.find? (fun e => e.1 == d) := by
    split
    · next h =>
      refine List.find?_eq_none.mpr fun e _ => ?_
      simp [h]
    · next h =>
      congr 1
      funext e
      by_cases hd : e.1 = d
      · simp [hd, Ne.symm h]
      · simp [hd]
  rw [own, forget, List.find?_filter, hf]
  split <;> rfl

/-- A declaration that succeeds is merged into the contracts of its class. -/
theorem own_declare_ok {r q : Registry} {c : ClassRef} {name : String}
    {fragments : List Fragment} {declared : Option DeclaredType} {result : FieldContract × Bool}
    (h : r.declare c name fragments declared = (q, .ok result)) (d : ClassRef) :
    q.own d = ContractChange.effect d (r.own d) (.declared ⟨c, name, fragments, declared⟩) := by
  rcases declare_cases r c name fragments declared with ⟨_, he⟩ | ⟨merged, hm, he⟩
  · rw [he] at h
    cases h
  · rw [he] at h
    cases h
    have hk : (r.know c).knows c = true := by simp [knows_know]
    rw [ownField?, own_know] at hm
    change ((r.know c).put c _).own d = _
    rw [own_put, own_know, hk, FieldContract.addAll_eq_foldl_merge hm]
    by_cases hd : c = d
    · subst hd
      simp [ContractChange.effect, Declaration.putInto, Declaration.mergeInto]
    · simp [ContractChange.effect, hd]

end Registry

/-- Rules alone are all that there is among their arguments. -/
theorem Argument.fragments_map (fs : List Fragment) :
    Argument.firstOther? (fs.map .fragment) = none ∧
      Argument.fragments (fs.map .fragment) = fs := by
  induction fs with
  | nil => exact ⟨rfl, rfl⟩
  | cons f fs ih => exact ⟨ih.1, congrArg (f :: ·) ih.2⟩

/-- A rule without its values: whether it says that the field must be there, that the value is kept
as it is, or what the type of the elements is. -/
def Fragment.outline : Fragment → Fragment
  | .requirement _ => .requirement .optional
  | .passthrough => .passthrough
  | .arrayOf e => .arrayOf e
  | _ => .integer

namespace World

/-- A result that was settled before leaves the world. -/
theorem exec_lift {α : Type} (e : Except Fault α) (w : World) : exec (lift e) w = (e, w) := rfl

/-! ### Changes that a world records -/

/-- A change of a world makes changes of the contracts in a registry. -/
def Records (i : Nat) (changes : List ContractChange) (w v : World) : Prop :=
  ∀ c, (v.registry i).own c = changes.foldl (ContractChange.effect c) ((w.registry i).own c)

/-- A change of a world that leaves the contracts of all registries as they are. -/
def Spares (w v : World) : Prop := ∀ i, Records i [] w v

variable {α β : Type} {w v x : World} {i : Nat} {changes more : List ContractChange}

/-- Changes that are recorded one after the other are recorded together. -/
theorem Records.append (h : Records i changes w v) (g : Records i more v x) :
    Records i (changes ++ more) w x := by
  intro c
  rw [g c, h c, List.foldl_append]

/-- Changes of contracts stay recorded over what spares contracts. -/
theorem Records.spares (h : Records i changes w v) (g : Spares v x) : Records i changes w x := by
  have ha := h.append (g i)
  rwa [List.append_nil] at ha

/-- What spares contracts may come before recorded changes. -/
theorem Spares.records (h : Spares w v) (g : Records i changes v x) : Records i changes w x :=
  (h i).append g

/-- A world with the same registries has the same contracts. -/
theorem Spares.of_registries (h : v.registries = w.registries) : Spares w v := by
  intro i c
  rw [registry, registry, h]
  rfl

/-- A world has the contracts that it has. -/
theorem Spares.refl (w : World) : Spares w w := .of_registries rfl

/-- Contracts that are spared twice are spared. -/
theorem Spares.trans (h : Spares w v) (g : Spares v x) : Spares w x :=
  fun i => h.records (g i)

/-- What keeps the parts of registries spares contracts. -/
theorem Keeps.spares (h : Keeps w v) : Spares w v :=
  fun i c => congrFun (Registry.own_congr (h.contracts i)) c

/-- What replacing a registry makes of the contracts in it. -/
theorem records_setRegistry (w : World) (j : Nat) {r : Registry} {change : ContractChange}
    (h : ∀ c, r.own c = change.effect c ((w.registry j).own c)) (i : Nat) :
    Records i (if j = i ∧ j < w.registries.length then [change] else []) w
      (w.setRegistry j r) := by
  intro c
  rw [registry_setRegistry]
  split
  · next hj =>
    rw [h c, hj.1]
    rfl
  · rfl

/-- A registry may change in anything but its contracts. -/
theorem spares_setRegistry (w : World) (j : Nat) {r : Registry}
    (h : ∀ c, r.own c = (w.registry j).own c) : Spares w (w.setRegistry j r) := by
  intro i c
  rw [registry_setRegistry]
  split
  · next hj =>
    rw [h c, hj.1]
    rfl
  · rfl

/-- Registering a class changes no contracts. -/
theorem spares_register (w : World) (i : Nat) (c : ClassRef) :
    Spares w (w.setRegistry i ((w.registry i).register c)) :=
  spares_setRegistry w i fun d => Registry.own_know _ c d

/-- A registry that there is not has no contracts to forget. -/
theorem records_forgetting (w : World) (j : Nat) {r : Registry} {change : ContractChange}
    (h : ∀ c, r.own c = change.effect c ((w.registry j).own c))
    (hn : ∀ c, change.effect c [] = []) (i : Nat) :
    Records i (if j = i then [change] else []) w (w.setRegistry j r) := by
  intro c
  rw [registry_setRegistry]
  by_cases hj : j = i
  · subst hj
    by_cases hl : j < w.registries.length
    · rw [if_pos ⟨rfl, hl⟩, if_pos rfl, h c]
      rfl
    · have hr : w.registry j = .empty false := by
        rw [registry, List.getElem?_eq_none (by omega)]
        rfl
      rw [if_neg fun hc => hl hc.2, if_pos rfl, hr]
      exact (hn c).symm
  · rw [if_neg fun hc => hj hc.1, if_neg hj]
    rfl

/-! ### Actions that spare contracts -/

/-- From a world, an action leaves the contracts of all registries as they are. -/
def SparedBy (w : World) (a : Action α) : Prop := Spares w (exec a w).2

/-- A sequence spares contracts if both of its parts do. -/
theorem SparedBy.bind {a : Action α} {f : α → Action β} (ha : w.SparedBy a)
    (hf : ∀ x v, exec a w = (.ok x, v) → v.SparedBy (f x)) : w.SparedBy (a >>= f) :=
  rel_exec_bind (R := Spares) (fun _ _ _ => Spares.trans) ha fun x v he _ => hf x v he

/-- An action that only returns spares contracts. -/
theorem SparedBy.pure (x : α) : w.SparedBy (pure x : Action α) := .refl w

/-- An action that fails at once spares contracts. -/
theorem SparedBy.throw (e : Fault) : w.SparedBy (throw e : Action α) := .refl w

/-- Looking at the world spares contracts. -/
theorem SparedBy.get {f : World → Action α} (hf : w.SparedBy (f w)) :
    w.SparedBy (MonadState.get >>= f) := hf

/-- A sequence spares contracts if what follows a result does. -/
theorem SparedBy.lift {e : Except Fault α} {f : α → Action β}
    (hf : ∀ x, e = .ok x → w.SparedBy (f x)) : w.SparedBy (World.lift e >>= f) := by
  cases e with
  | error e => exact .refl w
  | ok x => exact hf x rfl

/-! ### Rules that are told apart -/

/-- Rules as they are once their values have been told apart from all others. -/
def adoptedFragments (w : World) (fs : List Fragment) : List Fragment :=
  (exec (fs.mapM adoptFragment) w).1.toOption.getD []

private theorem exists_exec_adoptFragment (w : World) (f : Fragment) :
    ∃ g n, exec (adoptFragment f) w = (.ok g, { w with supply := n }) := by
  cases f with
  | requirement r =>
    cases r with
    | defaulted v => exact ⟨_, _, rfl⟩
    | _ => exact ⟨_, w.supply, rfl⟩
  | transform f => exact ⟨_, _, rfl⟩
  | check c =>
    cases c with
    | custom f => exact ⟨_, _, rfl⟩
    | comparison c => exact ⟨_, w.supply, rfl⟩
  | _ => exact ⟨_, w.supply, rfl⟩

private theorem exists_exec_adoptFragments (w : World) (fs : List Fragment) :
    ∃ gs n, exec (fs.mapM adoptFragment) w = (.ok gs, { w with supply := n }) ∧
      List.Forall₂ (fun f g => ∃ v, (exec (adoptFragment f) v).1 = .ok g) fs gs := by
  induction fs generalizing w with
  | nil => exact ⟨[], w.supply, rfl, .nil⟩
  | cons f fs ih =>
    obtain ⟨g, n, hg⟩ := exists_exec_adoptFragment w f
    obtain ⟨gs, m, hgs, hall⟩ := ih { w with supply := n }
    refine ⟨g :: gs, m, ?_, .cons ⟨w, by rw [hg]⟩ hall⟩
    rw [List.mapM_cons, exec_bind_of_ok hg, exec_bind_of_ok hgs, exec_pure]

/-- Telling rules apart succeeds and takes labels; nothing else changes. -/
theorem exec_adoptFragments (w : World) (fs : List Fragment) :
    ∃ n, exec (fs.mapM adoptFragment) w =
      (.ok (w.adoptedFragments fs), { w with supply := n }) := by
  obtain ⟨gs, n, h, -⟩ := exists_exec_adoptFragments w fs
  refine ⟨n, ?_⟩
  rw [adoptedFragments, h]
  rfl

/-- Rules are told apart one by one. -/
theorem forall₂_adoptedFragments (w : World) (fs : List Fragment) :
    List.Forall₂ (fun f g => ∃ v, (exec (adoptFragment f) v).1 = .ok g) fs
      (w.adoptedFragments fs) := by
  obtain ⟨gs, n, h, hall⟩ := exists_exec_adoptFragments w fs
  rw [adoptedFragments, h]
  exact hall

/-- What telling a rule apart does not change is the same for rules that are told apart. -/
theorem map_adoptedFragments {α : Type} {p : Fragment → α}
    (hp : ∀ f g w, (exec (adoptFragment f) w).1 = .ok g → p g = p f) (w : World)
    (fs : List Fragment) : (w.adoptedFragments fs).map p = fs.map p := by
  have h := forall₂_adoptedFragments w fs
  generalize w.adoptedFragments fs = gs at h ⊢
  induction h with
  | nil => rfl
  | @cons f g fs gs hfg _ ih =>
    obtain ⟨v, hv⟩ := hfg
    rw [List.map_cons, List.map_cons, hp f g v hv, ih]

/-- Telling rules apart changes no more of them than their values. -/
theorem map_outline_adoptedFragments (w : World) (fs : List Fragment) :
    (w.adoptedFragments fs).map Fragment.outline = fs.map Fragment.outline := by
  refine map_adoptedFragments (fun f g w h => ?_) w fs
  cases f with
  | requirement r => cases r <;> cases h <;> rfl
  | check c => cases c <;> cases h <;> rfl
  | _ =>
    cases h
    rfl

/-! ### Declaring a field -/

/-- Only a text can name a field. -/
theorem eq_str_of_checkFieldName {owner field : String} {name : Value}
    (h : checkFieldName owner name = .ok field) : name = .str field := by
  unfold checkFieldName at h
  split at h
  · split at h
    · cases h
    · split at h <;> cases h
      rfl
  · split at h <;> cases h

/-- What declaring a field does: it is refused, and the world is as it was; or it conflicts with
what was declared, and the class is known; or it succeeds. -/
theorem exec_declareField_cases (w : World) (i : Nat) (c : ClassRef) (name : Value)
    (args : List Argument) (declared : Option DeclaredType) :
    (∃ f, exec (declareField i c name args declared) w = (.error f, w) ∧
        ∀ owner field existing, f ≠ .schema (.conflict owner field existing)) ∨
      ∃ field n, checkFieldName c.name name = .ok field ∧
        ((∃ requirement, (w.registry i).declare c field
              (w.adoptedFragments (Argument.fragments args)) declared =
                ((w.registry i).know c, .error requirement) ∧
            exec (declareField i c name args declared) w =
              (.error (.schema (.conflict c.name field requirement.name)),
                { w with supply := n }.setRegistry i ((w.registry i).know c))) ∨
          ∃ r contract first, (w.registry i).declare c field
              (w.adoptedFragments (Argument.fragments args)) declared =
                (r, .ok (contract, first)) ∧
            exec (declareField i c name args declared) w =
              (.ok contract, ({ w with supply := n }.setRegistry i r).log (.fieldDeclared c.name
                field ((w.adoptedFragments (Argument.fragments args)).map Fragment.name)
                  first))) := by
  unfold declareField
  cases hn : checkFieldName c.name name with
  | error f =>
    refine .inl ⟨f, rfl, fun owner field existing hf => ?_⟩
    subst hf
    unfold checkFieldName at hn
    split at hn
    · split at hn
      · cases hn
      · split at hn <;> cases hn
    · split at hn <;> cases hn
  | ok field =>
    rw [exec_bind_of_ok (exec_lift (.ok field) w)]
    cases Argument.firstOther? args with
    | some typeName => exact .inl ⟨_, rfl, fun _ _ _ h => by cases h⟩
    | none =>
      obtain ⟨n, ha⟩ := exec_adoptFragments w (Argument.fragments args)
      refine .inr ⟨field, n, rfl, ?_⟩
      have hr : registry { w with supply := n } i = w.registry i := rfl
      dsimp only
      rw [exec_bind_of_ok ha, exec_bind_of_ok (exec_get _), hr]
      rcases (w.registry i).declare_cases c field (w.adoptedFragments (Argument.fragments args))
        declared with ⟨requirement, hd⟩ | ⟨merged, -, hd⟩
      · refine .inl ⟨requirement, hd, ?_⟩
        rw [hd]
        rfl
      · refine .inr ⟨_, _, _, hd, ?_⟩
        rw [hd]
        rfl

/-- A field is declared under a name that it may have, with nothing but rules, if these do not
conflict. -/
theorem exec_declareField_of_ok {i : Nat} {c : ClassRef} {name : String} {args : List Argument}
    {declared : Option DeclaredType} {r : Registry} {contract : FieldContract} {first : Bool}
    (hn : checkFieldName c.name (.str name) = .ok name) (ha : Argument.firstOther? args = none)
    (hd : (w.registry i).declare c name (w.adoptedFragments (Argument.fragments args)) declared =
      (r, .ok (contract, first))) :
    ∃ n e, exec (declareField i c (.str name) args declared) w =
      (.ok contract, ({ w with supply := n }.setRegistry i r).log e) := by
  obtain ⟨n, hadopt⟩ := exec_adoptFragments w (Argument.fragments args)
  have hr : registry { w with supply := n } i = w.registry i := rfl
  rw [declareField, hn, exec_bind_of_ok (exec_lift (.ok name) w), ha]
  dsimp only
  rw [exec_bind_of_ok hadopt, exec_bind_of_ok (exec_get _), hr, hd]
  exact ⟨n, _, rfl⟩

/-- A declaration that fails spares all contracts. One that succeeds is recorded in its registry, if
there is one. -/
theorem exec_declareField (w : World) (i : Nat) (c : ClassRef) (name : String)
    (args : List Argument) (declared : Option DeclaredType) :
    (∃ e v, exec (declareField i c (.str name) args declared) w = (.error e, v) ∧ Spares w v) ∨
      ∃ contract v, exec (declareField i c (.str name) args declared) w = (.ok contract, v) ∧
        ∀ j, Records j
          (if i = j ∧ i < w.registries.length then
            [.declared ⟨c, name, w.adoptedFragments (Argument.fragments args), declared⟩]
          else []) w v := by
  rcases exec_declareField_cases w i c (.str name) args declared with
    ⟨f, he, -⟩ | ⟨field, n, hn, ⟨requirement, hd, he⟩ | ⟨r, contract, first, hd, he⟩⟩
  · exact .inl ⟨f, w, he, .refl w⟩
  · let u : World := { w with supply := n }
    have hs : Spares u (u.setRegistry i ((w.registry i).know c)) :=
      spares_setRegistry u i (Registry.own_know _ c)
    exact .inl ⟨_, _, he, hs⟩
  · cases eq_str_of_checkFieldName hn
    let u : World := { w with supply := n }
    refine .inr ⟨contract, _, he, fun j => ?_⟩
    have hr := records_setRegistry u i (Registry.own_declare_ok hd) j
    exact hr.spares (.of_registries rfl)

/-- Declaring a field whose name is no text changes no contracts. -/
theorem sparedBy_declareField {i : Nat} {c : ClassRef} {name : Value} {args : List Argument}
    {declared : Option DeclaredType} (h : ∀ field, name ≠ .str field) :
    w.SparedBy (declareField i c name args declared) :=
  .lift fun field hf => absurd (eq_str_of_checkFieldName hf) (h field)

/-- Declaring a field through a class changes no contracts if its name is no text. -/
theorem sparedBy_declareOn {c : ClassRef} {name : Value} {args : List Argument}
    {declared : Option DeclaredType} (h : ∀ field, name ≠ .str field) :
    w.SparedBy (Session.declareOn (.cls c) name args declared) := by
  apply SparedBy.get
  apply SparedBy.lift
  intro _ _
  apply SparedBy.get
  apply SparedBy.bind (sparedBy_declareField h)
  intro contract v _
  apply Spares.of_registries
  rw [exec_modify]
  split <;> rfl

/-- Opening a class changes no contracts. -/
theorem sparedBy_openClass (w : World) (name : String) (bases : List ClassRef)
    (binder : Option Nat) (fields : List (String × FieldDeclaration)) :
    w.SparedBy (openClass name bases binder fields) := by
  apply SparedBy.get
  apply SparedBy.lift
  intro _ _
  split
  · exact .throw _
  · split
    · exact .throw _
    · dsimp only
      split
      · exact .throw _
      · apply SparedBy.bind (.of_registries rfl)
        intro _ v _
        split
        · apply SparedBy.get
          apply SparedBy.lift
          intro _ _
          exact .bind (spares_register v _ _) fun _ _ _ => .pure _
        · exact .pure _

end World

/-- From where a field is declared. -/
inductive DeclareSite where
  /-- In a registry. -/
  | registry (i : Nat)
  /-- Through its class. -/
  | ofClass
  /-- In the body of its class, for a registry. -/
  | body (i : Nat)

/-- A call that declares a field. -/
structure DeclareCall where
  /-- From where. -/
  site : DeclareSite
  /-- The class. -/
  cls : ClassRef
  /-- The name of the field. -/
  field : String
  /-- The arguments. -/
  args : List Argument
  /-- The declared type, if one is given. -/
  declared : Option DeclaredType

namespace DeclareCall

open World

/-- Makes a call. -/
def run (call : DeclareCall) : Action Unit :=
  match call.site with
  | .registry i => do
    let _ ← declareField i call.cls (.str call.field) call.args call.declared
  | .ofClass => declareOnClass call.cls (.str call.field) call.args call.declared
  | .body i => do
    let _ ← declareField i call.cls (.str call.field) call.args call.declared
    modify fun w => { w with classes := w.classes.setNull call.cls call.field }

/-- Makes calls one after another, until one fails. -/
def runAll : List DeclareCall → Action Unit
  | [] => return ()
  | call :: rest => do
    call.run
    runAll rest

/-- The registry that a call made in a world is for. -/
def registryIn (w : World) (call : DeclareCall) : Nat :=
  match call.site with
  | .registry i => i
  | .ofClass => w.registryOf call.cls
  | .body i => i

/-- What a call declares that succeeds in a world. -/
def declaration (w : World) (call : DeclareCall) : Declaration :=
  ⟨call.cls, call.field, w.adoptedFragments (Argument.fragments call.args), call.declared⟩

/-- What a call that succeeds in a world changes in a registry; nothing if there is no such registry
or it is for another. -/
def changes (i : Nat) (w : World) (call : DeclareCall) : List ContractChange :=
  if call.registryIn w = i ∧ call.registryIn w < w.registries.length then
    [.declared (call.declaration w)]
  else []

/-- What calls change in a registry: what those do that succeed, up to the first that fails. -/
def allChanges (i : Nat) (w : World) : List DeclareCall → List ContractChange
  | [] => []
  | call :: rest =>
    match exec call.run w with
    | (.ok _, v) => call.changes i w ++ allChanges i v rest
    | (.error _, _) => []

/-- A call that fails spares all contracts. One that succeeds changes them as it says. -/
theorem exec_run (call : DeclareCall) (w : World) :
    (∃ e v, exec call.run w = (.error e, v) ∧ Spares w v) ∨
      ∃ v, exec call.run w = (.ok (), v) ∧ ∀ i, Records i (call.changes i w) w v := by
  obtain ⟨site, c, name, args, declared⟩ := call
  have hd := exec_declareField w (registryIn w ⟨site, c, name, args, declared⟩) c name args declared
  rcases hd with ⟨e, v, he, hs⟩ | ⟨contract, v, he, hr⟩
  · refine .inl ⟨e, v, ?_, hs⟩
    cases site with
    | ofClass =>
      rw [run, declareOnClass, exec_bind_of_ok (exec_get w)]
      exact exec_bind_of_error he _
    | _ => exact exec_bind_of_error he _
  · cases site with
    | registry i => exact .inr ⟨v, exec_bind_of_ok he _, hr⟩
    | ofClass =>
      refine .inr ⟨_, (exec_bind_of_ok (exec_get w) _).trans (exec_bind_of_ok he _), fun i => ?_⟩
      refine (hr i).spares (.of_registries ?_)
      dsimp only
      split <;> rfl
    | body i =>
      exact .inr ⟨_, exec_bind_of_ok he _, fun j => (hr j).spares (.of_registries rfl)⟩

/-- Calls made one after another change contracts as those do that succeed, up to the first that
fails. -/
theorem records_runAll (calls : List DeclareCall) (w : World) (i : Nat) :
    Records i (allChanges i w calls) w (exec (runAll calls) w).2 := by
  induction calls generalizing w with
  | nil => exact Spares.refl w i
  | cons call rest ih =>
    rcases call.exec_run w with ⟨e, v, he, hs⟩ | ⟨v, he, hr⟩
    · rw [allChanges, he, runAll, exec_bind_of_error he]
      exact hs i
    · rw [allChanges, he, runAll, exec_bind_of_ok he]
      exact (hr i).append (ih v)

/-- Calls are made one after the other. -/
theorem runAll_append (calls more : List DeclareCall) :
    runAll (calls ++ more) = (runAll calls >>= fun _ => runAll more) := by
  induction calls with
  | nil => rfl
  | cons call rest ih => simp only [List.cons_append, runAll, ih, bind_assoc]

/-! ### Where calls are made -/

/-- The calls that declare the fields of the body of a class. -/
def ofBody (registry : Nat) (c : ClassRef) (fields : List (String × FieldDeclaration)) :
    List DeclareCall :=
  fields.map fun f => ⟨.body registry, c, f.1, f.2.fragments.map .fragment, some f.2.declared⟩

/-- The fields in the body of a class are declared by calls. -/
theorem declareBody_eq (registry : Nat) (c : ClassRef) (fields : List (String × FieldDeclaration)) :
    declareBody registry c fields = runAll (ofBody registry c fields) := by
  induction fields with
  | nil => rfl
  | cons f rest ih =>
    rw [declareBody, ih]
    rfl

/-- The calls that declare the fields of a schema of a table. -/
def ofSchema (created : List ClassRef) (s : Table.SchemaSpec) : List DeclareCall :=
  s.fields.map fun f => ⟨.ofClass, Table.classOf created s.name, f.name,
    f.rules.map fun r => .fragment (r.resolve created), some (f.declared.resolve created)⟩

/-- The fields of the schemas of a table are declared by calls. -/
theorem declareAll_eq (created : List ClassRef) (specs : List Table.SchemaSpec) :
    Table.declareAll created specs = runAll (specs.flatMap (ofSchema created)) := by
  have hf : ∀ (s : Table.SchemaSpec), Table.declareFields created (Table.classOf created s.name)
      s.fields = runAll (ofSchema created s) := by
    intro s
    unfold ofSchema
    induction s.fields with
    | nil => rfl
    | cons f rest ih =>
      rw [Table.declareFields, ih]
      rfl
  induction specs with
  | nil => rfl
  | cons s rest ih => rw [Table.declareAll, List.flatMap_cons, runAll_append, hf, ih]

end DeclareCall

end SchemaBinding
