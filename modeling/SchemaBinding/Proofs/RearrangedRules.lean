import SchemaBinding.Proofs.DeclaredFields
import SchemaBinding.Proofs.Labels
import SchemaBinding.Proofs.MergedRules

/-!
# Rules in another order

Only among rules of one sort does the order of declaration matter. Rules that are declared in
another order, which keeps that of every sort, conflict or not as before and make the same contract;
and a declaration may be made in two parts. Whatever is done afterwards cannot tell the difference.
-/

namespace SchemaBinding

namespace Fragment

/-- The names of the sorts of rules among which order matters: rules of the other sorts have no
values that could differ. -/
def orderedNames : List String :=
  ["Requirement", "SourceKey", "ArrayOf", "UnionOf", "Transform", "AddCheck"]

/-- The same rules in another order, which among the rules of each sort is the same. -/
structure Rearranged (fs gs : List Fragment) : Prop where
  /-- The rules are the same. -/
  perm : fs.Perm gs
  /-- Rules of one sort keep their order. -/
  order : ∀ sort ∈ orderedNames,
    fs.filter (fun f => f.name == sort) = gs.filter fun f => f.name == sort

variable {fs gs : List Fragment}

namespace Rearranged

variable (h : Rearranged fs gs)

include h

/-- What only rules of one sort say is the same, for it is read from the rules of that sort. -/
theorem filterMap_eq {α : Type} {p : Fragment → Option α} (sort : String)
    (hs : sort ∈ orderedNames)
    (hp : ∀ f : Fragment, (if f.name == sort then p f else none) = p f) :
    fs.filterMap p = gs.filterMap p := by
  have hsort : ∀ fs : List Fragment,
      (fs.filter fun f => f.name == sort).filterMap p = fs.filterMap p := by
    intro fs
    rw [List.filterMap_filter]
    exact congrArg (fun q => fs.filterMap q) (funext hp)
  rw [← hsort fs, h.order sort hs, hsort]

private theorem requirements_eq : requirements fs = requirements gs :=
  h.filterMap_eq "Requirement" (by decide) fun f => by cases f <;> rfl

/-- Rules in another order are merged to the same contract. -/
theorem merged_eq (c : FieldContract) : c.merged fs = c.merged gs := by
  have hkey : fs.filterMap sourceKey? = gs.filterMap sourceKey? :=
    h.filterMap_eq "SourceKey" (by decide) fun f => by cases f <;> rfl
  have helement : fs.filterMap element? = gs.filterMap element? :=
    h.filterMap_eq "ArrayOf" (by decide) fun f => by cases f <;> rfl
  have hmembers : fs.filterMap members? = gs.filterMap members? :=
    h.filterMap_eq "UnionOf" (by decide) fun f => by cases f <;> rfl
  have htransforms : fs.filterMap transform? = gs.filterMap transform? :=
    h.filterMap_eq "Transform" (by decide) fun f => by cases f <;> rfl
  have hchecks : fs.filterMap check? = gs.filterMap check? :=
    h.filterMap_eq "AddCheck" (by decide) fun f => by cases f <;> rfl
  simp only [FieldContract.merged, h.requirements_eq, hkey, helement, hmembers, htransforms,
    hchecks, h.perm.any_eq]

/-- Rules in another order conflict or not as before, and make the same contract. -/
theorem addAll_eq (once : Bool) (c : FieldContract) : c.addAll once fs = c.addAll once gs :=
  FieldContract.addAll_congr (h.merged_eq c) h.requirements_eq

private theorem declare_eq (r : Registry) (c : ClassRef) (name : String)
    (declared : Option DeclaredType) :
    r.declare c name fs declared = r.declare c name gs declared := by
  simp only [Registry.declare, h.addAll_eq]

end Rearranged

end Fragment

/-! ### Declaring in two parts -/

namespace FieldContract

/-- Rules are added to a contract in parts. -/
theorem addAll_append {once : Bool} {c d : FieldContract} {fs : List Fragment}
    (h : c.addAll once fs = .ok d) (gs : List Fragment) :
    c.addAll once (fs ++ gs) = d.addAll once gs := by
  induction fs generalizing c with
  | nil =>
    cases h
    rfl
  | cons f fs ih =>
    rw [List.cons_append, addAll]
    rw [addAll] at h
    cases hf : c.add once f with
    | error r =>
      rw [hf] at h
      cases h
    | ok e =>
      rw [hf] at h
      exact ih h

/-- Whether rules conflict, and what they make of a contract, has nothing to do with its type. -/
theorem addAll_declared (once : Bool) (c : FieldContract) (t : DeclaredType) (fs : List Fragment) :
    ({ c with declared := t } : FieldContract).addAll once fs =
      (c.addAll once fs).map fun d => { d with declared := t } := by
  cases once with
  | false =>
    rw [addAll_false, addAll_false, foldl_merge_declared]
    rfl
  | true =>
    have hs : ({ c with declared := t } : FieldContract).stated fs = c.stated fs := rfl
    rw [addAll_true, addAll_true, hs]
    split <;> rfl

private theorem declared_of_addAll_ok {once : Bool} {c d : FieldContract} {fs : List Fragment}
    (h : c.addAll once fs = .ok d) : d.declared = c.declared := by
  rw [addAll_eq_foldl_merge h, foldl_merge_eq_merged]
  rfl

private theorem name_of_addAll_ok {once : Bool} {c d : FieldContract} {fs : List Fragment}
    (h : c.addAll once fs = .ok d) : d.name = c.name := by
  rw [addAll_eq_foldl_merge h, name_foldl_merge]

end FieldContract

namespace Registry

/-- A contract that takes the place of one of its name takes the place of whatever that one did. -/
theorem putContract_putContract {f g : FieldContract} (h : f.name = g.name)
    (fields : List FieldContract) :
    putContract (putContract fields f) g = putContract fields g := by
  induction fields with
  | nil => simp [putContract, h]
  | cons e rest ih =>
    rw [putContract, putContract, h]
    by_cases he : e.name = g.name
    · simp [putContract, he, h]
    · simp [putContract, he, ih]

private theorem put_put {f g : FieldContract} (h : f.name = g.name) (r : Registry) (c : ClassRef) :
    (r.put c f).put c g = r.put c g := by
  have he : ∀ e : ClassRef × List FieldContract,
      ((fun e : ClassRef × List FieldContract => if e.1 == c then (e.1, putContract e.2 g) else e) ∘
        fun e => if e.1 == c then (e.1, putContract e.2 f) else e) e =
        if e.1 == c then (e.1, putContract e.2 g) else e := by
    intro e
    by_cases hc : e.1 = c
    · simp [hc, putContract_putContract h]
    · simp [hc]
  simp only [put, List.map_map, List.map_congr_left fun e _ => he e]

private theorem know_of_knows {r : Registry} {c : ClassRef} (h : r.knows c = true) :
    r.know c = r := by
  rw [know, if_pos h]

private theorem knows_put (r : Registry) (c : ClassRef) (f : FieldContract) :
    ((r.know c).put c f).knows c = true := by
  have hr : (r.know c).knows c = true := by simp [knows_know]
  obtain ⟨e, he, hc⟩ := List.any_eq_true.mp hr
  refine List.any_eq_true.mpr ⟨_, List.mem_map_of_mem he, ?_⟩
  simp only [hc, if_true]

/-- What has been put in for a class is found there. -/
theorem ownField?_put (r : Registry) (c : ClassRef) (f : FieldContract) :
    ((r.know c).put c f).ownField? c f.name = some f := by
  have hk : (r.know c).knows c = true := by simp [knows_know]
  rw [ownField?, own_put, if_pos ⟨hk, rfl⟩, find?_putContract, if_pos rfl]

/-- A declaration that succeeds adds its rules to the contract of the field, and puts it in. -/
theorem exists_of_declare_ok {r q : Registry} {c : ClassRef} {name : String} {fs : List Fragment}
    {t : Option DeclaredType} {k : FieldContract} {first : Bool}
    (h : r.declare c name fs t = (q, .ok (k, first))) :
    ∃ m, (((r.know c).ownField? c name).getD (.empty name)).addAll r.strict fs = .ok m ∧
      k = { m with declared := t.getD m.declared } ∧ k.name = name ∧
      first = ((r.know c).ownField? c name).isNone ∧ q = ((r.know c).put c k).dropPlans := by
  rcases declare_cases r c name fs t with ⟨_, he⟩ | ⟨m, hm, he⟩
  · rw [he] at h
    cases h
  · rw [he] at h
    cases h
    refine ⟨m, hm, rfl, ?_, rfl, rfl⟩
    exact (FieldContract.name_of_addAll_ok hm).trans (FieldContract.name_getD_find? _ _)

/-- Two declarations of a field that succeed, one after the other, are one of all their rules, with
the type that was given last. -/
theorem declare_declare {r q p : Registry} {c : ClassRef} {name : String} {fs gs : List Fragment}
    {t u : Option DeclaredType} {k l : FieldContract} {first again : Bool}
    (hfs : r.declare c name fs t = (q, .ok (k, first)))
    (hgs : q.declare c name gs u = (p, .ok (l, again))) :
    r.declare c name (fs ++ gs) (u <|> t) = (p, .ok (l, first)) := by
  obtain ⟨m, hm, hk, hkname, rfl, rfl⟩ := exists_of_declare_ok hfs
  obtain ⟨n, hn, hl, hlname, -, rfl⟩ := exists_of_declare_ok hgs
  -- The second declaration finds the class known and the contract that the first one has put in.
  have hknow : ((r.know c).put c k).dropPlans.know c = ((r.know c).put c k).dropPlans :=
    know_of_knows (knows_put r c k)
  have hown : ((r.know c).put c k).dropPlans.ownField? c name = some k := by
    rw [← hkname]
    exact ownField?_put r c k
  have hstrict : ((r.know c).put c k).dropPlans.strict = r.strict := strict_know r c
  have hput : ((r.know c).put c k).dropPlans.put c l = ((r.know c).put c l).dropPlans :=
    congrArg dropPlans (put_put (hkname.trans hlname.symm) (r.know c) c)
  rw [hknow, hown, hstrict, Option.getD_some, hk, FieldContract.addAll_declared] at hn
  obtain ⟨e, he, rfl⟩ := map_eq_ok_iff.mp hn
  have hall := (FieldContract.addAll_append hm gs).trans he
  have hle : l = { e with declared := (u <|> t).getD e.declared } := by
    have hd := FieldContract.declared_of_addAll_ok he
    rw [hl, hd]
    cases u <;> rfl
  rw [hknow, hput, declare]
  dsimp only
  rw [hall, hle]
  rfl

end Registry

/-! ### Declarations of rules that have been told apart -/

/-- The values of a rule have been told apart from all others, as those of rules that exist are. -/
def Fragment.Settled : Fragment → Prop
  | .requirement (.defaulted v) => v.Settled
  | .transform f => f.kept.Settled
  | .check (.custom f) => f.kept.Settled
  | _ => True

namespace World

variable {fs : List Fragment} {w : World}

private theorem exec_adopt_of_settled {v : Value} (h : v.Settled) (w : World) :
    exec (adopt v) w = (.ok v, w) := by
  rw [exec_adopt, adopted_of_settled h, adopting_of_settled h]

private theorem exec_adoptFragment_of_settled {f : Fragment} (h : f.Settled) (w : World) :
    exec (adoptFragment f) w = (.ok f, w) := by
  have hfunction : ∀ {g : UserFunction}, g.kept.Settled →
      exec (adoptFunction g) w = (.ok g, w) := by
    intro g hg
    rw [adoptFunction, exec_bind_of_ok (exec_adopt_of_settled hg w)]
    rfl
  unfold adoptFragment
  split
  · rw [exec_bind_of_ok (exec_adopt_of_settled h w)]
    rfl
  · rw [exec_bind_of_ok (hfunction h)]
    rfl
  · rw [exec_bind_of_ok (hfunction h)]
    rfl
  · rfl

/-- Rules are settled once they have been told apart. -/
theorem settled_adoptedFragments (w : World) (fs : List Fragment) :
    ∀ f ∈ w.adoptedFragments fs, f.Settled := by
  have h := forall₂_adoptedFragments w fs
  generalize w.adoptedFragments fs = gs at h ⊢
  induction h with
  | nil => exact fun f hf => absurd hf List.not_mem_nil
  | @cons f g fs gs hfg _ ih =>
    refine List.forall_mem_cons.mpr ⟨?_, ih⟩
    obtain ⟨v, hv⟩ := hfg
    cases f with
    | requirement r =>
      cases r with
      | defaulted u =>
        cases hv
        exact Value.settled_labelled u _
      | _ =>
        cases hv
        trivial
    | transform f =>
      cases hv
      exact Value.settled_labelled f.kept _
    | check c =>
      cases c with
      | custom f =>
        cases hv
        exact Value.settled_labelled f.kept _
      | comparison c =>
        cases hv
        trivial
    | _ =>
      cases hv
      trivial

/-- Telling apart rules that have been told apart changes nothing. -/
theorem exec_adoptFragments_of_settled (h : ∀ f ∈ fs, f.Settled) (w : World) :
    exec (fs.mapM adoptFragment) w = (.ok fs, w) := by
  induction fs with
  | nil => rfl
  | cons f fs ih =>
    obtain ⟨hf, hfs⟩ := List.forall_mem_cons.mp h
    rw [List.mapM_cons, exec_bind_of_ok (exec_adoptFragment_of_settled hf w),
      exec_bind_of_ok (ih hfs)]
    rfl

/-- What declaring rules does that have been told apart. -/
theorem exec_declareField_of_settled (h : ∀ f ∈ fs, f.Settled) (w : World) (i : Nat) (c : ClassRef)
    (name : Value) (declared : Option DeclaredType) :
    exec (declareField i c name (fs.map .fragment) declared) w =
      match checkFieldName c.name name with
      | .error e => (.error e, w)
      | .ok field =>
        match (w.registry i).declare c field fs declared with
        | (r, .error q) => (.error (.schema (.conflict c.name field q.name)), w.setRegistry i r)
        | (r, .ok (k, first)) => (.ok k, (w.setRegistry i r).log
            (.fieldDeclared c.name field (fs.map Fragment.name) first)) := by
  obtain ⟨hnone, hfragments⟩ := Argument.fragments_map fs
  unfold declareField
  cases checkFieldName c.name name with
  | error e => rfl
  | ok field =>
    rw [exec_bind_of_ok (exec_lift (.ok field) w), hnone, hfragments]
    dsimp only
    rw [exec_bind_of_ok (exec_adoptFragments_of_settled h w), exec_bind_of_ok (exec_get w)]
    rcases (w.registry i).declare c field fs declared with ⟨r, q | ⟨k, first⟩⟩ <;> rfl

end World

namespace Session

open World

/-- The declaration of rules for a field of a class. -/
def declaring (i : Nat) (c : ClassRef) (field : Value) (fs : List Fragment)
    (declared : Option DeclaredType) : Operation :=
  .declare i (.cls c) field (fs.map .fragment) declared

/-- A session in which a registry has been replaced, and something logged or not. -/
def withRegistry (s : Session) (i : Nat) (r : Registry) (events : List Event) : Session :=
  { s.fresh with world := { s.fresh.world.setRegistry i r with events := events } }

/-- Sessions that differ in what the last step has logged and called do the same from then on. -/
theorem step_of_fresh {s t : Session} (h : s.fresh = t.fresh) (op : Operation) :
    s.step op = t.step op :=
  congrArg (exec (run planOf op)) h

variable {s : Session} {i : Nat} {c : ClassRef} {field : Value} {fs gs : List Fragment}

/-- A step that declares a field with settled rules gives its contract, or its fault. -/
theorem step_declaring (h : ∀ f ∈ fs, f.Settled) (s : Session) (i : Nat) (c : ClassRef)
    (field : Value) (declared : Option DeclaredType) :
    s.step (declaring i c field fs declared) =
      match checkFieldName c.name field with
      | .error e => (.error e, s.fresh)
      | .ok name =>
        match (s.world.registry i).declare c name fs declared with
        | (r, .error q) => (.error (.schema (.conflict c.name name q.name)), s.withRegistry i r [])
        | (r, .ok (k, first)) => (.ok (.contract k),
            s.withRegistry i r [.fieldDeclared c.name name (fs.map Fragment.name) first]) := by
  have hr : s.fresh.world.registry i = s.world.registry i := rfl
  change exec (act (declareField i c field (fs.map .fragment) declared) >>= fun k =>
    pure (Outcome.contract k)) s.fresh = _
  rw [exec_bind, exec_act, exec_declareField_of_settled h, hr]
  cases checkFieldName c.name field with
  | error e => rfl
  | ok name =>
    dsimp only
    rcases (s.world.registry i).declare c name fs declared with ⟨r, q | ⟨k, first⟩⟩ <;> rfl

private theorem registry_withRegistry (hi : i < s.world.registries.length) (r : Registry)
    (events : List Event) : (s.withRegistry i r events).world.registry i = r := by
  have hr := registry_setRegistry s.fresh.world i i r
  rw [if_pos ⟨rfl, hi⟩] at hr
  exact hr

private theorem withRegistry_withRegistry (s : Session) (i : Nat) (q p : Registry)
    (events more : List Event) :
    (s.withRegistry i q events).withRegistry i p more = s.withRegistry i p more := by
  have hset : (s.world.registries.set i q).set i p = s.world.registries.set i p :=
    List.set_set ..
  simp only [withRegistry, fresh, clearJournal, setRegistry, hset]

/-- Rules in another order give the same outcome, and the same from then on. -/
theorem step_declaring_rearranged (hfs : ∀ f ∈ fs, f.Settled) (h : Fragment.Rearranged fs gs)
    (s : Session) (i : Nat) (c : ClassRef) (field : Value) (declared : Option DeclaredType) :
    let one := s.step (declaring i c field fs declared)
    let other := s.step (declaring i c field gs declared)
    other.1 = one.1 ∧ ∀ op, other.2.step op = one.2.step op := by
  intro one other
  have hgs : ∀ f ∈ gs, f.Settled := fun f hf => hfs f (h.perm.mem_iff.mpr hf)
  have hone : one = _ := step_declaring hfs s i c field declared
  have hother : other = _ := step_declaring hgs s i c field declared
  rw [hone, hother]
  cases checkFieldName c.name field with
  | error e => exact ⟨rfl, fun _ => rfl⟩
  | ok name =>
    dsimp only
    rw [← h.declare_eq]
    rcases (s.world.registry i).declare c name fs declared with ⟨r, q | ⟨k, first⟩⟩
    · exact ⟨rfl, fun _ => rfl⟩
    · exact ⟨rfl, step_of_fresh rfl⟩

/-- Two declarations that succeed, one after the other, give the contract of one of all their rules,
and the same from then on. -/
theorem step_declaring_append (hi : i < s.world.registries.length) (hfs : ∀ f ∈ fs, f.Settled)
    (hgs : ∀ f ∈ gs, f.Settled) {t u : Option DeclaredType} :
    let first := s.step (declaring i c field fs t)
    let second := first.2.step (declaring i c field gs u)
    let one := s.step (declaring i c field (fs ++ gs) (u <|> t))
    first.1.isOk = true → second.1.isOk = true →
      second.1 = one.1 ∧ ∀ op, second.2.step op = one.2.step op := by
  intro first second one h₁ h₂
  have hfirst : first = _ := step_declaring hfs s i c field t
  have hsecond : second = _ := step_declaring hgs first.2 i c field u
  have hone : one = _ :=
    step_declaring (List.forall_mem_append.mpr ⟨hfs, hgs⟩) s i c field (u <|> t)
  cases hn : checkFieldName c.name field with
  | error e =>
    rw [hfirst, hn] at h₁
    cases h₁
  | ok name =>
    rw [hn] at hfirst hsecond hone
    rcases hd : (s.world.registry i).declare c name fs t with ⟨q, r | ⟨k, isFirst⟩⟩
    · rw [hfirst] at h₁
      dsimp only at h₁
      rw [hd] at h₁
      cases h₁
    dsimp only at hfirst
    rw [hd] at hfirst
    rw [hfirst] at hsecond
    dsimp only at hsecond
    rw [registry_withRegistry hi] at hsecond
    rcases hd' : q.declare c name gs u with ⟨p, r | ⟨l, again⟩⟩
    · rw [hsecond, hd'] at h₂
      cases h₂
    rw [hd'] at hsecond
    dsimp only at hsecond
    rw [withRegistry_withRegistry] at hsecond
    dsimp only at hone
    rw [Registry.declare_declare hd hd'] at hone
    rw [hsecond, hone]
    exact ⟨rfl, step_of_fresh rfl⟩

/-- Only among the rules of one sort does the order matter. Rules in another order, which keeps that
of each sort, are declared or conflict as before, with the same contract or the same conflict. Two
declarations that succeed, one after the other, give the contract of one of all their rules. And
whatever is done from then on, looking at contracts, compiling plans or binding payloads, gives the
same. -/
theorem declared_rearranged {s : Session} {i : Nat} (hi : i < s.world.registries.length)
    (c : ClassRef) (field : Value) {fs : List Fragment} (hfs : ∀ f ∈ fs, f.Settled) :
    (∀ gs declared, Fragment.Rearranged fs gs →
      let one := s.step (declaring i c field fs declared)
      let other := s.step (declaring i c field gs declared)
      other.1 = one.1 ∧ ∀ op, other.2.step op = one.2.step op) ∧
      ∀ front back t u, fs = front ++ back →
        let first := s.step (declaring i c field front t)
        let second := first.2.step (declaring i c field back u)
        let one := s.step (declaring i c field fs (u <|> t))
        first.1.isOk = true → second.1.isOk = true →
          second.1 = one.1 ∧ ∀ op, second.2.step op = one.2.step op := by
  refine ⟨fun gs declared h => step_declaring_rearranged hfs h s i c field declared, ?_⟩
  rintro front back t u rfl
  obtain ⟨hfront, hback⟩ := List.forall_mem_append.mp hfs
  exact step_declaring_append hi hfront hback

/-- A function that gives back what it is called with. -/
def echo (label : String) : UserFunction := ⟨label, .null, fun _ _ _ => .returned [] .argument⟩

/-- Rules of several sorts, two of them transforms. -/
def mixedRules : List Fragment := [
  .transform (echo "first"), .requirement .required, .integer, .check (.custom (echo "check")),
  .transform (echo "second")]

/-- The rules of `mixedRules`, sorted; the two transforms stay in order. -/
def sortedRules : List Fragment := [
  .requirement .required, .integer, .transform (echo "first"), .transform (echo "second"),
  .check (.custom (echo "check"))]

private theorem mixedRules_rearranged : Fragment.Rearranged mixedRules sortedRules where
  perm := by
    refine .trans (.swap ..) (.cons _ ?_)
    refine .trans (.swap ..) (.cons _ (.cons _ ?_))
    exact .swap ..
  order := by simp [Fragment.orderedNames, mixedRules, sortedRules, Fragment.name]

/-- Rules of several sorts are declared in a strict registry, sorted or not, and in two parts. -/
theorem mixedRules_declared :
    let s := initial.after [.setStrict 0 (.bool true), newPoint]
    let one := s.step (declaring 0 point (.str "x") mixedRules none)
    let other := s.step (declaring 0 point (.str "x") sortedRules none)
    let first := s.step (declaring 0 point (.str "x") (mixedRules.take 2) none)
    let second := first.2.step (declaring 0 point (.str "x") (mixedRules.drop 2) none)
    0 < s.world.registries.length ∧ (∀ f ∈ mixedRules, f.Settled) ∧
      one.1.isOk = true ∧ other.1 = one.1 ∧ second.1 = one.1 ∧
      ∀ op, other.2.step op = one.2.step op ∧ second.2.step op = one.2.step op := by
  intro s one other first second
  have hi : 0 < s.world.registries.length := by decide
  have hfs : ∀ f ∈ mixedRules, f.Settled := by
    simp [mixedRules, echo, Fragment.Settled, Value.Settled.null]
  obtain ⟨hall, hparts⟩ := declared_rearranged hi point (.str "x") hfs
  obtain ⟨hone, hsame⟩ := hall sortedRules none mixedRules_rearranged
  obtain ⟨htwo, hthen⟩ := hparts (mixedRules.take 2) (mixedRules.drop 2) none none rfl
    (by decide) (by decide)
  exact ⟨hi, hfs, by decide, hone, htwo, fun op => ⟨hsame op, hthen op⟩⟩

end Session

end SchemaBinding
