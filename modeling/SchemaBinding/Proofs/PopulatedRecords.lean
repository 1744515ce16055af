import SchemaBinding.Proofs.BoundAttributes
import SchemaBinding.Proofs.GroundedSessions

/-!
# Populating kept records

Populating a kept record binds a new record of its class and lays its attributes over those of the
kept one. Of a class whose instances can be given attributes, it fails exactly when binding a new
record does, in the same way and after the same calls of functions, and then leaves every record as
it was. Of any other class it always fails, also when a new record is bound: there is nothing that
the attributes could be read off. A schema class makes the same record of a payload when it is
called as when it builds one or its binder does, as long as no field takes the place of a method.
-/

namespace SchemaBinding

namespace ClassTable

variable {t : ClassTable} {c : ClassRef}

/-- No class that a class inherits from, itself included, has something else in the place of a
method of the base of the schema classes. A field that a class declares leaves an attribute of its
name on the class, which stays when contracts are forgotten. -/
def KeepsMethods (t : ClassTable) (c : ClassRef) : Prop :=
  ∀ k ∈ t.order c, k ≠ .schemaBase → ∀ info ∈ t.info? k, ∀ a ∈ info.attributes, a.1 ∉ methods

instance (t : ClassTable) (c : ClassRef) : Decidable (t.KeepsMethods c) :=
  inferInstanceAs (Decidable (∀ k ∈ t.order c, k ≠ .schemaBase → ∀ info ∈ t.info? k,
    ∀ a ∈ info.attributes, a.1 ∉ methods))

/-- A schema class has the methods of the base, if nothing takes their place. -/
theorem Lawful.attribute?_method (h : t.Lawful) (hc : t.isSchemaClass c = true)
    (hk : t.KeepsMethods c) {name : String} (hn : name ∈ methods) :
    t.attribute? c name = some .method := by
  obtain ⟨base, hb, -, hmethods⟩ := h.info?_schemaBase
  obtain ⟨before, behind, ho, hbefore⟩ := List.eq_append_cons_of_mem
    (List.contains_iff_mem.mp hc)
  have hnone : ∀ k ∈ before, ((t.info? k).bind fun i =>
      (i.attributes.find? fun a => a.1 == name).map Prod.snd) = none := by
    intro k hkb
    have hne : k ≠ .schemaBase := fun he => hbefore (he ▸ hkb)
    have hko : k ∈ t.order c := ho ▸ List.mem_append_left _ hkb
    cases hi : t.info? k with
    | none => rfl
    | some info =>
      rw [Option.bind_some, Option.map_eq_none_iff, List.find?_eq_none]
      intro a ha he
      exact hk k hko hne info hi a ha (eq_of_beq he ▸ hn)
  rw [attribute?, ho, List.findSome?_append, List.findSome?_eq_none_iff.mpr hnone, Option.none_or,
    List.findSome?_cons, hb, Option.bind_some, hmethods name hn]

end ClassTable

namespace Session

open World Binding

variable {s : Session}

/-- A kept record as it reads by now. -/
def view (s : Session) (i : Nat) : Option Kept :=
  (s.records[i]?).map (Kept.current s.world.growth)

/-- What showing a value gives. -/
def display (classes : ClassTable) (v : Value) : Except Fault Outcome :=
  if holdsAny (fun c => !classes.hasAttributes c) v then .error (.type .noAttributes)
  else .ok (.value v)

/-- Showing a value leaves the session. -/
theorem exec_shown (v : Value) (s : Session) :
    exec (shown v) s = (display s.world.classes v, s) := by
  simp only [shown, exec_bind, exec_get, display]
  split <;> rfl

/-- Looking up a kept record leaves the session. -/
theorem exec_record (i : Nat) (s : Session) :
    exec (record i) s = (.ok ((s.view i).getD (Kept.current s.world.growth ⟨.object, []⟩)), s) := by
  simp only [record, stored, exec_bind, exec_get, exec_pure, view]
  cases s.records[i]? <;> rfl

/-- A step goes on from the world that its action leaves, unless that fails. -/
theorem exec_bind_act {α β : Type} (a : Action α) (f : α → Step β) (s : Session) :
    exec (act a >>= f) s = match exec a s.world with
      | (.ok x, w) => exec (f x) { s with world := w }
      | (.error e, w) => (.error e, { s with world := w }) := by
  rw [exec_bind, exec_act]
  rcases exec a s.world with ⟨e | x, w⟩ <;> rfl

/-- A record is kept behind the others. -/
theorem exec_keep (k : Kept) (s : Session) :
    exec (keep k) s = (.ok (), { s with records := s.records ++ [k] }) := rfl

private theorem exec_replace (i : Nat) (k : Kept) (s : Session) :
    exec (replace i k) s = (.ok (), { s with records := s.records.set i k }) := rfl

/-- With a binder, a target is bound to a record of the attributes that are bound. -/
theorem exec_bindTarget (binder : Nat) (c : ClassRef) (data : Value) (w : World) :
    exec (bindTarget planOf (.binder binder) (.cls c) data) w =
      match exec (bindAttrs planOf binder c data) w with
      | (.ok attrs, v) => (.ok ⟨c, attrs⟩, v)
      | (.error e, v) => (.error e, v) := by
  change exec (bindAttrs planOf binder c data >>= fun attrs => pure (Kept.mk c attrs)) w = _
  rw [exec_bind]
  rcases exec (bindAttrs planOf binder c data) w with ⟨e | attrs, v⟩ <;> rfl

/-- Binding a new record that is kept: nothing but the world changes if it fails. -/
theorem exec_run_bind (binder : Nat) (c : ClassRef) (data : Value) (s : Session) :
    exec (run planOf (.bind (.binder binder) (.cls c) data true)) s =
      match exec (bindAttrs planOf binder c data) s.world with
      | (.ok attrs, w) =>
        (display w.classes (.record c attrs), ⟨w, s.records ++ [⟨c, attrs⟩]⟩)
      | (.error e, w) => (.error e, ⟨w, s.records⟩) := by
  change exec (act (bindTarget planOf (.binder binder) (.cls c) data) >>= fun k =>
    keep k >>= fun _ => shown k.toValue) s = _
  rw [exec_bind_act, exec_bindTarget]
  rcases exec (bindAttrs planOf binder c data) s.world with ⟨e | attrs, w⟩
  · rfl
  · dsimp only
    rw [exec_bind_of_ok (exec_keep _ _), exec_shown]
    rfl

/-- Binding onto a record: the attributes of a new one are read off, if its class has any. -/
theorem exec_bindOnto (binder : Nat) (c : ClassRef) (attrs : List (String × Value)) (data : Value)
    (w : World) :
    exec (bindOnto planOf binder c attrs data) w =
      match exec (bindAttrs planOf binder c data) w with
      | (.ok bound, v) =>
        (if v.classes.hasAttributes c then .ok (overlay attrs bound)
          else .error (.type .noAttributes), v)
      | (.error e, v) => (.error e, v) := by
  change exec (bindAttrs planOf binder c data >>= _) w = _
  rw [exec_bind]
  rcases exec (bindAttrs planOf binder c data) w with ⟨e | bound, v⟩
  · rfl
  · dsimp only
    rw [exec_bind, exec_get]
    dsimp only
    split <;> rfl

/-- Populating a kept record: nothing but the world changes if it fails. -/
theorem exec_run_populate (binder : Nat) {i : Nat} {k : Kept} (data : Value)
    (hk : s.records[i]? = some k) :
    exec (run planOf (.populate binder i data)) s =
      match exec (bindOnto planOf binder k.cls k.attrs data) s.world with
      | (.ok attrs, w) =>
        (display w.classes (Kept.current w.growth ⟨k.cls, attrs⟩).toValue,
          ⟨w, s.records.set i ⟨k.cls, attrs⟩⟩)
      | (.error e, w) => (.error e, ⟨w, s.records⟩) := by
  have hs : exec (stored i) s = (.ok k, s) := by
    simp only [stored, exec_bind, exec_get, exec_pure, hk, Option.getD_some]
  change exec (stored i >>= _) s = _
  rw [exec_bind_of_ok hs, exec_bind_act]
  rcases exec (bindOnto planOf binder k.cls k.attrs data) s.world with ⟨e | attrs, w⟩
  · rfl
  · have hi : i < s.records.length := (List.getElem?_eq_some_iff.mp hk).1
    change exec (replace i _ >>= fun _ => record i >>= fun k => shown k.toValue) _ = _
    rw [exec_bind_of_ok (exec_replace _ _ _), exec_bind_of_ok (exec_record _ _), exec_shown, view,
      List.getElem?_set_self hi]
    rfl

/-- What populating a kept record makes of a session, next to what binding a new record of its class
makes of it (specification §4.2). Only showing the record that comes of it, which is no part of
either, can give one of them another outcome than the other: it fails for a record that holds an
instance without attributes. -/
inductive Populates (s : Session) (i : Nat) (k : Kept)
    (bound populated : Except Fault Outcome × Session) : Prop
  /-- Both fail, and all records are as they were. -/
  | failed (e : Fault) (hb : bound.1 = .error e) (hp : populated.1 = .error e)
    (world : populated.2.world = bound.2.world) (kept : bound.2.records = s.records)
    (views : ∀ j, populated.2.view j = s.view j)
  /-- A new record is bound, but the instances of its class have no attributes to be read off: the
  populating fails, and all records are as they were. -/
  | unread (attrs : List (String × Value))
    (none : s.world.classes.hasAttributes k.cls = false)
    (hb : bound.1 = display bound.2.world.classes (.record k.cls attrs))
    (hp : populated.1 = .error (.type .noAttributes))
    (world : populated.2.world = bound.2.world)
    (kept : bound.2.records = s.records ++ [⟨k.cls, attrs⟩])
    (views : ∀ j, populated.2.view j = s.view j)
  /-- Neither fails. The record has the attributes that were bound, and besides them those that it
  had; all other records are as they were. -/
  | done (attrs : List (String × Value)) (after : Kept)
    (some : s.world.classes.hasAttributes k.cls = true)
    (hb : bound.1 = display bound.2.world.classes (.record k.cls attrs))
    (hp : populated.1 = display populated.2.world.classes after.toValue)
    (world : populated.2.world = bound.2.world)
    (kept : bound.2.records = s.records ++ [⟨k.cls, attrs⟩])
    (view : populated.2.view i = .some after) (cls : after.cls = k.cls)
    (attr : ∀ name, Value.attr? name after.attrs =
      (Value.attr? name (Kept.current bound.2.world.growth ⟨k.cls, attrs⟩).attrs).or
        (Value.attr? name k.attrs))
    (views : ∀ j, j ≠ i → populated.2.view j = s.view j)

/-- A step runs its operation from an empty journal. -/
theorem step_eq (s : Session) (op : Operation) : s.step op = exec (run planOf op) s.fresh := rfl

private theorem attr?_current (g : Growth) (k : Kept) (name : String) :
    Value.attr? name (k.current g).attrs = (Value.attr? name k.attrs).map g.current := by
  obtain ⟨cls, attrs⟩ := k
  change Value.attr? name (attrs.map fun a => (a.1, g.current a.2)) = _
  induction attrs with
  | nil => rfl
  | cons a rest ih =>
    rw [List.map_cons, Value.attr?_cons, Value.attr?_cons, ih]
    split <;> rfl

/-- What is bound onto a kept record is what is bound to a new one of its class. -/
theorem populates_step (hs : s.Reachable) (binder : Nat) {i : Nat} {k : Kept} (data : Value)
    (hk : s.view i = some k) :
    s.Populates i k (s.step (.bind (.binder binder) (.cls k.cls) data true))
      (s.step (.populate binder i data)) := by
  obtain ⟨stored, hi, rfl⟩ := Option.map_eq_some_iff.mp hk
  have hw : s.fresh.world.Consistent := hs.consistent.clearJournal
  have hcalm : Calm s.fresh.world
      (exec (bindAttrs planOf binder stored.cls data) s.fresh.world).2 :=
    (calm_of_agree hw fun K hK => agree_bindAttrs hK binder stored.cls data).2
  have hdistinct := yields_bindAttrs planOf binder stored.cls data s.fresh.world
  have hi' : s.fresh.records[i]? = some stored := hi
  have hl : i < s.records.length := (List.getElem?_eq_some_iff.mp hi).1
  change s.Populates i _ (s.step (.bind (.binder binder) (.cls stored.cls) data true)) _
  rw [step_eq, step_eq, exec_run_bind, exec_run_populate binder data hi', exec_bindOnto]
  rcases he : exec (bindAttrs planOf binder stored.cls data) s.fresh.world with ⟨e | attrs, w⟩
  · rw [he] at hcalm
    have hg : w.growth = s.world.growth := hcalm.growth
    refine .failed e rfl rfl rfl rfl fun j => ?_
    rw [view, view, hg]
    rfl
  · rw [he] at hcalm hdistinct
    have hg : w.growth = s.world.growth := hcalm.growth
    have hc : w.classes = s.world.classes := hcalm.classes
    dsimp only
    cases ha : w.classes.hasAttributes stored.cls with
    | false =>
      refine .unread attrs (hc ▸ ha) rfl rfl rfl rfl fun j => ?_
      rw [view, view, ← hg]
      rfl
    | true =>
      refine .done attrs (Kept.current w.growth { stored with attrs := overlay stored.attrs attrs })
        (hc ▸ ha) rfl rfl rfl rfl ?_ rfl (fun name => ?_) fun j hj => ?_
      · rw [view]
        exact congrArg (Option.map _) (List.getElem?_set_self hl)
      · rw [attr?_current, attr?_current, attr?_current, ← hg, attr?_overlay _ (hdistinct _ rfl)]
        cases Value.attr? name attrs <;> rfl
      · rw [view, view, ← hg]
        exact congrArg (Option.map _) (List.getElem?_set_ne (Ne.symm hj))

/-! ### Ways to make a record -/

/-- A schema class binds a payload alike when it is called, when it builds a record and when its
binder does. -/
theorem exec_bindTarget_alike {w : World} (hw : w.Consistent) (hl : w.classes.Lawful) {c : ClassRef}
    (hc : w.classes.isSchemaClass c = true) (hk : w.classes.KeepsMethods c) (data : Value) :
    exec (bindTarget planOf .call (.cls c) data) w =
        exec (bindTarget planOf (.binder (w.binderOf c)) (.cls c) data) w ∧
      exec (bindTarget planOf .fromDict (.cls c) data) w =
        exec (bindTarget planOf (.binder (w.binderOf c)) (.cls c) data) w := by
  have hmethod : ∀ name ∈ ClassTable.methods, requireMethod w.classes c name = .ok () := by
    intro name hn
    rw [requireMethod, hl.attribute?_method hc hk hn]
  have hdistinct := yields_bindAttrs planOf (w.binderOf c) c data w
  have hcalm : Calm w (exec (bindAttrs planOf (w.binderOf c) c data) w).2 :=
    (calm_of_agree hw fun K hK => agree_bindAttrs hK (w.binderOf c) c data).2
  rw [exec_bindTarget]
  constructor
  · simp only [bindTarget, exec_bind, exec_get, hc, if_true, World.lift, exec_mk,
      hmethod "__init__" (by decide), exec_pure, exec_bindOnto]
    rcases he : exec (bindAttrs planOf (w.binderOf c) c data) w with ⟨e | attrs, v⟩
    · rfl
    · rw [he] at hdistinct hcalm
      have hattributes : v.classes.hasAttributes c = true := by
        rw [show v.classes = w.classes from hcalm.classes, hl.hasAttributes hc]
      have hd : DistinctAttrs ([] ++ attrs) := hdistinct attrs rfl
      dsimp only
      rw [if_pos hattributes, overlay_of_distinct hd]
      rfl
  · simp only [bindTarget, exec_bind, exec_get, World.lift, exec_mk,
      hmethod "from_dict" (by decide), exec_pure]
    rcases exec (bindAttrs planOf (w.binderOf c) c data) w with ⟨e | attrs, v⟩ <;> rfl

private theorem step_bind_congr {way other : BindWay} {c : ClassRef} {data : Value}
    (h : exec (bindTarget planOf way (.cls c) data) s.fresh.world =
      exec (bindTarget planOf other (.cls c) data) s.fresh.world) (kept : Bool) :
    s.step (.bind way (.cls c) data kept) = s.step (.bind other (.cls c) data kept) := by
  change exec (act (bindTarget planOf way (.cls c) data) >>= _) s.fresh =
    exec (act (bindTarget planOf other (.cls c) data) >>= _) s.fresh
  rw [exec_bind_act, exec_bind_act, h]

/-- Populating a kept record leaves all records as they were if binding a new record of its class
fails, and then fails with the same error and after the same calls. Otherwise the record has the
attributes that were bound, and keeps its others, except that nothing is laid over a record whose
class lets its instances have no attributes: that fails with a fault that is no binding error. A
schema class in which no field takes the place of a method makes the same of a payload, record or
error, whether it is called, builds a record or has its binder build one. -/
theorem Grounded.populates (hs : s.Grounded) :
    (∀ (binder i : Nat) (k : Kept) (data : Value), s.view i = some k →
      s.Populates i k (s.step (.bind (.binder binder) (.cls k.cls) data true))
        (s.step (.populate binder i data))) ∧
    ∀ (c : ClassRef) (data : Value) (kept : Bool), s.world.classes.isSchemaClass c = true →
      s.world.classes.KeepsMethods c →
      s.step (.bind .call (.cls c) data kept) =
          s.step (.bind (.binder (s.world.binderOf c)) (.cls c) data kept) ∧
        s.step (.bind .fromDict (.cls c) data kept) =
          s.step (.bind (.binder (s.world.binderOf c)) (.cls c) data kept) := by
  refine ⟨fun binder i k data hk => populates_step hs.reachable binder data hk,
    fun c data kept hc hm => ?_⟩
  obtain ⟨hcall, hbuild⟩ := exec_bindTarget_alike hs.reachable.consistent.clearJournal
    hs.established.lawful hc hm data
  exact ⟨step_bind_congr hcall kept, step_bind_congr hbuild kept⟩

/-- A class of pixels with two optional fields. -/
def pixel : ClassRef := ⟨5, "Pixel", true⟩

/-- The session with the class of pixels and a pixel, which is kept. The root of all classes, which
lets its instances have no attributes, is registered too, and an instance of it is kept. -/
def drawn : Session := initial.after [
  .newClass "Pixel" [.schemaBase] none [("x", ⟨.basic .int, []⟩), ("y", ⟨.basic .int, []⟩)],
  .bind (.binder 0) (.cls pixel) (.dict [(.str "x", .int 1), (.str "y", .int 2)]) true,
  .register 0 (.cls .object), .newRecord (.cls .object)]

private theorem drawn_grounded : drawn.Grounded := Grounded.initial.after (by decide +kernel)

/-- The text of a kept record as it reads by now. -/
def viewText (s : Session) (i : Nat) : Option String := (s.view i).map fun k => k.toValue.text

/-- A move to another column. -/
def move : Value := .dict [(.str "x", .int 5)]

/-- A move whose last field is no number. -/
def misplaced : Value := .dict [(.str "x", .int 5), (.str "y", .str "far")]

/-- A pixel that is moved keeps the field that the payload leaves out, and one whose move fails at
its last field stays where it was. The class of pixels makes a new one when it is called. Of the
root of all classes a new record is bound, while no record of it can be populated. -/
theorem pixel_moved : ∃ k root, drawn.view 0 = some k ∧
    drawn.Populates 0 k (drawn.step (.bind (.binder 0) (.cls k.cls) move true))
      (drawn.step (.populate 0 0 move)) ∧
    (drawn.step (.populate 0 0 move)).2.viewText 0 = some "Pixel(x=5, y=2)" ∧
    drawn.Populates 0 k (drawn.step (.bind (.binder 0) (.cls k.cls) misplaced true))
      (drawn.step (.populate 0 0 misplaced)) ∧
    (drawn.step (.populate 0 0 misplaced)).1.isOk = false ∧
    (drawn.step (.populate 0 0 misplaced)).2.viewText 0 = some "Pixel(x=1, y=2)" ∧
    drawn.step (.bind .call (.cls pixel) move true) =
      drawn.step (.bind (.binder (drawn.world.binderOf pixel)) (.cls pixel) move true) ∧
    (drawn.step (.bind .call (.cls pixel) move true)).2.viewText 2 = some "Pixel(x=5)" ∧
    drawn.view 1 = some root ∧
    drawn.Populates 1 root (drawn.step (.bind (.binder 0) (.cls root.cls) (.dict []) true))
      (drawn.step (.populate 0 1 (.dict []))) ∧
    (drawn.step (.bind (.binder 0) (.cls root.cls) (.dict []) true)).2.records.length = 3 ∧
    (drawn.step (.populate 0 1 (.dict []))).1.isOk = false := by
  obtain ⟨hpopulate, hways⟩ := drawn_grounded.populates
  have hsome : (drawn.view 0).isSome := by decide +kernel
  obtain ⟨k, hk⟩ := Option.isSome_iff_exists.mp hsome
  have hcls : (drawn.view 1).map Kept.cls = some .object := by decide +kernel
  obtain ⟨root, hroot, hobject⟩ := Option.map_eq_some_iff.mp hcls
  refine ⟨k, root, hk, hpopulate 0 0 k move hk, by decide +kernel,
    hpopulate 0 0 k misplaced hk, by decide +kernel, by decide +kernel, ?_, by decide +kernel,
    hroot, hpopulate 0 1 root (.dict []) hroot, ?_, by decide +kernel⟩
  · exact (hways pixel move true (by decide +kernel) (by decide +kernel)).1
  · rw [hobject]
    decide +kernel

end Session

end SchemaBinding
