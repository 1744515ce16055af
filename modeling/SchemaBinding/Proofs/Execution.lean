import SchemaBinding.Session.Step

/-!
# Running actions

`exec` runs an action or a step from a state. Two actions agree on a relation of states when, from
related states, they give the same and leave related states. An action mirrors a computation without
a state when the two give related results and the action keeps an invariant. Both notions pass
through sequences, so that they are shown of a composed action part by part.
-/

namespace SchemaBinding

variable {σ α β γ δ : Type}

/-- What an action gives when it is run from a state, and the state that it leaves. -/
def exec (a : ExceptT Fault (StateM σ) α) (s : σ) : Except Fault α × σ :=
  StateT.run (ExceptT.run a) s

/-- An action that only returns leaves the state. -/
theorem exec_pure (x : α) (s : σ) :
    exec (pure x : ExceptT Fault (StateM σ) α) s = (.ok x, s) := rfl

/-- A result that was settled before leaves the state. -/
theorem exec_mk (e : Except Fault α) (s : σ) :
    exec (ExceptT.mk (pure e) : ExceptT Fault (StateM σ) α) s = (e, s) := rfl

/-- Looking at the state gives and leaves it. -/
theorem exec_get (s : σ) : exec (get : ExceptT Fault (StateM σ) σ) s = (.ok s, s) := rfl

/-- A change of the state succeeds. -/
theorem exec_modify (g : σ → σ) (s : σ) :
    exec (modify g : ExceptT Fault (StateM σ) PUnit) s = (.ok ⟨⟩, g s) := rfl

/-- A sequence goes on from where its first part ends, unless that fails. -/
theorem exec_bind (a : ExceptT Fault (StateM σ) α) (f : α → ExceptT Fault (StateM σ) β) (s : σ) :
    exec (a >>= f) s = match exec a s with
      | (.ok x, t) => exec (f x) t
      | (.error e, t) => (.error e, t) := by
  simp only [exec, ExceptT.run, StateT.run, Bind.bind, ExceptT.bind, ExceptT.mk, StateT.bind]
  cases h : a s with
  | mk result t => cases result <;> rfl

/-- A sequence goes on from where its first part succeeds. -/
theorem exec_bind_of_ok {a : ExceptT Fault (StateM σ) α} {s t : σ} {x : α}
    (h : exec a s = (.ok x, t)) (f : α → ExceptT Fault (StateM σ) β) :
    exec (a >>= f) s = exec (f x) t := by
  rw [exec_bind, h]

/-- A sequence ends where its first part fails. -/
theorem exec_bind_of_error {a : ExceptT Fault (StateM σ) α} {s t : σ} {e : Fault}
    (h : exec a s = (.error e, t)) (f : α → ExceptT Fault (StateM σ) β) :
    exec (a >>= f) s = (.error e, t) := by
  rw [exec_bind, h]

/-- A sequence that succeeds is one whose parts do. -/
theorem exec_bind_eq_ok_iff {a : ExceptT Fault (StateM σ) α} {f : α → ExceptT Fault (StateM σ) β}
    {s u : σ} {y : β} : exec (a >>= f) s = (.ok y, u) ↔
      ∃ x t, exec a s = (.ok x, t) ∧ exec (f x) t = (.ok y, u) := by
  rw [exec_bind]
  constructor
  · intro h
    rcases he : exec a s with ⟨e | x, t⟩
    · rw [he] at h
      cases h
    · rw [he] at h
      exact ⟨x, t, rfl, h⟩
  · rintro ⟨x, t, he, hf⟩
    rw [he]
    exact hf

/-- A transitive relation of states that holds over both parts of a sequence holds over the
sequence, of which the second part runs only if the first one succeeds. -/
theorem rel_exec_bind {R : σ → σ → Prop} (hR : ∀ s t u, R s t → R t u → R s u)
    {a : ExceptT Fault (StateM σ) α} {f : α → ExceptT Fault (StateM σ) β} {s : σ}
    (ha : R s (exec a s).2)
    (hf : ∀ x t, exec a s = (.ok x, t) → R s t → R t (exec (f x) t).2) :
    R s (exec (a >>= f) s).2 := by
  rcases he : exec a s with ⟨e | x, t⟩
  · rw [he] at ha
    rw [exec_bind_of_error he]
    exact ha
  · rw [he] at ha
    rw [exec_bind_of_ok he]
    exact hR s t _ ha (hf x t he ha)

/-- A sequence fails as its first part fails. -/
theorem fst_exec_bind_of_error {a : ExceptT Fault (StateM σ) α} {s : σ} {e : Fault}
    (h : (exec a s).1 = .error e) (f : α → ExceptT Fault (StateM σ) β) :
    (exec (a >>= f) s).1 = .error e :=
  congrArg Prod.fst (exec_bind_of_error (Prod.ext h rfl) f)

/-- To change what an action gives leaves the state that it leaves. -/
theorem snd_exec_bind_pure (a : ExceptT Fault (StateM σ) α) (f : α → β) (s : σ) :
    (exec (a >>= fun x => pure (f x)) s).2 = (exec a s).2 := by
  rw [exec_bind]
  rcases exec a s with ⟨e | x, t⟩ <;> rfl

/-- What an action gives may be changed, but not its fault. -/
theorem fst_exec_bind_pure (a : ExceptT Fault (StateM σ) α) (f : α → β) (s : σ) :
    (exec (a >>= fun x => pure (f x)) s).1 = (exec a s).1.map f := by
  rw [exec_bind]
  rcases exec a s with ⟨e | x, t⟩ <;> rfl

/-- A changed result is a value if the result is one that is changed to it. -/
theorem map_eq_ok_iff {ε : Type} {e : Except ε α} {f : α → β} {y : β} :
    e.map f = .ok y ↔ ∃ x, e = .ok x ∧ f x = y := by
  cases e <;> simp [Except.map]

/-- A changed result is a fault only if the result is that fault. -/
theorem eq_error_of_map {e : Except Fault α} {f : α → β} {g : Fault} (h : e.map f = .error g) :
    e = .error g := by
  cases e with
  | error fault => exact congrArg _ (Except.error.inj h)
  | ok x => cases h

/-- What is tried goes on with its handler from where it fails. -/
theorem exec_tryCatch (a : ExceptT Fault (StateM σ) α) (f : Fault → ExceptT Fault (StateM σ) α)
    (s : σ) :
    exec (tryCatch a f) s = match exec a s with
      | (.ok x, t) => (.ok x, t)
      | (.error e, t) => exec (f e) t := by
  simp only [exec, ExceptT.run, StateT.run, tryCatch, tryCatchThe, MonadExceptOf.tryCatch,
    ExceptT.tryCatch, ExceptT.mk, Bind.bind, StateT.bind]
  cases h : a s with
  | mk result t => cases result <;> rfl

/-- An action of the world runs within a session on its world alone. -/
theorem exec_act (a : Action α) (s : Session) :
    exec (Session.act a) s = ((exec a s.world).1, { s with world := (exec a s.world).2 }) := rfl

/-- What is no success is a fault. -/
theorem exists_error_of_isOk {e : Except Fault α} (h : e.isOk = false) : ∃ f, e = .error f := by
  cases e with
  | error f => exact ⟨f, rfl⟩
  | ok x => cases h

/-- What shows something is a success. -/
theorem exists_ok_of_map_toOption {e : Except Fault α} {f : α → β} {y : β}
    (h : e.toOption.map f = some y) : ∃ x, e = .ok x ∧ f x = y := by
  cases e with
  | error fault => cases h
  | ok x => exact ⟨x, rfl, Option.some.inj h⟩

/-- A sequence of computations succeeds if both of its parts do. -/
theorem bind_ok_iff {e : Except Fault α} {f : α → Except Fault β} {y : β} :
    e >>= f = .ok y ↔ ∃ x, e = .ok x ∧ f x = .ok y := by
  cases e with
  | error fault =>
    constructor
    · intro h
      cases h
    · rintro ⟨_, hx, _⟩
      cases hx
  | ok x =>
    constructor
    · intro h
      exact ⟨x, rfl, h⟩
    · rintro ⟨_, hx, h⟩
      cases hx
      exact h

/-! ### Agreement of two actions -/

/-- From one pair of states, two actions give the same and leave related states. -/
def AgreeAt (S : σ → σ → Prop) (a b : ExceptT Fault (StateM σ) α) (s t : σ) : Prop :=
  (exec a s).1 = (exec b t).1 ∧ S (exec a s).2 (exec b t).2

/-- From all related states, two actions give the same and leave related states. -/
def Agree (S : σ → σ → Prop) (a b : ExceptT Fault (StateM σ) α) : Prop :=
  ∀ s t, S s t → AgreeAt S a b s t

variable {S : σ → σ → Prop}

/-- Two actions that only return the same agree. -/
theorem Agree.pure (x : α) : Agree S (pure x) (pure x) := fun _ _ h => ⟨rfl, h⟩

/-- Two actions that fail at once with the same fault agree. -/
theorem Agree.throw (f : Fault) :
    Agree S (throw f : ExceptT Fault (StateM σ) α) (throw f) := fun _ _ h => ⟨rfl, h⟩

/-- A result that was settled before agrees with itself. -/
theorem Agree.mk (e : Except Fault α) :
    Agree S (ExceptT.mk (Pure.pure e) : ExceptT Fault (StateM σ) α)
      (ExceptT.mk (Pure.pure e)) := fun _ _ h => ⟨rfl, h⟩

/-- Two changes of the state agree if they keep states related. -/
theorem Agree.modify {g h : σ → σ} (hm : ∀ s t, S s t → S (g s) (h t)) :
    Agree S (modify g : ExceptT Fault (StateM σ) PUnit) (modify h) :=
  fun s t hs => ⟨rfl, hm s t hs⟩

/-- Two states that are set agree if they are related. -/
theorem Agree.set {s t : σ} (h : S s t) :
    Agree S (MonadStateOf.set s : ExceptT Fault (StateM σ) PUnit) (MonadStateOf.set t) :=
  fun _ _ _ => ⟨rfl, h⟩

/-- What follows need agree only for the values that the first part can give. -/
theorem Agree.bind_of {P : α → Prop} {a b : ExceptT Fault (StateM σ) α}
    {f g : α → ExceptT Fault (StateM σ) β} (ha : Agree S a b)
    (hp : ∀ s x, (exec a s).1 = .ok x → P x) (hf : ∀ x, P x → Agree S (f x) (g x)) :
    Agree S (a >>= f) (b >>= g) := by
  intro s t hs
  obtain ⟨hr, ht⟩ := ha s t hs
  have hx := hp s
  simp only [AgreeAt, exec_bind]
  cases ea : exec a s with
  | mk ra s' =>
    cases eb : exec b t with
    | mk rb t' =>
      rw [ea, eb] at hr ht
      rw [ea] at hx
      cases hr
      cases ra with
      | error e => exact ⟨rfl, ht⟩
      | ok x => exact hf x (hx x rfl) s' t' ht

/-- Sequences agree when their parts do. -/
theorem Agree.bind {a b : ExceptT Fault (StateM σ) α} {f g : α → ExceptT Fault (StateM σ) β}
    (ha : Agree S a b) (hf : ∀ x, Agree S (f x) (g x)) : Agree S (a >>= f) (b >>= g) :=
  ha.bind_of (P := fun _ => True) (fun _ _ _ => trivial) fun x _ => hf x

/-- What follows a reading of the state need agree only at the states that were read. -/
theorem Agree.get {f g : σ → ExceptT Fault (StateM σ) α}
    (hf : ∀ s t, S s t → AgreeAt S (f s) (g t) s t) : Agree S (get >>= f) (get >>= g) := by
  intro s t hs
  simp only [AgreeAt, exec_bind, exec_get]
  exact hf s t hs

/-- Actions still agree when their failures are handled by ones that do. -/
theorem Agree.tryCatch {a b : ExceptT Fault (StateM σ) α}
    {f g : Fault → ExceptT Fault (StateM σ) α} (ha : Agree S a b)
    (hf : ∀ e, Agree S (f e) (g e)) : Agree S (tryCatch a f) (tryCatch b g) := by
  intro s t hs
  obtain ⟨hr, ht⟩ := ha s t hs
  simp only [AgreeAt, exec_tryCatch]
  cases ea : exec a s with
  | mk ra s' =>
    cases eb : exec b t with
    | mk rb t' =>
      rw [ea, eb] at hr ht
      cases hr
      cases ra with
      | error e => exact hf e s' t' ht
      | ok x => exact ⟨rfl, ht⟩

/-! ### Mirroring a computation without a state -/

/-- What a failure lets out: nothing if it is a binding error, which is an answer to the caller. -/
def Fault.escaped : Fault → Option Fault
  | .binding _ => none
  | f => some f

/-- Two results are both values, which are related, or both failures that let out the same. -/
inductive Reflects (Q : α → β → Prop) : Except Fault α → Except Fault β → Prop
  | ok {x : α} {y : β} (h : Q x y) : Reflects Q (.ok x) (.ok y)
  | error {f g : Fault} (h : f.escaped = g.escaped) : Reflects Q (.error f) (.error g)

/-- A result reflects itself. -/
theorem Reflects.refl (e : Except Fault α) : Reflects Eq e e := by
  cases e with
  | error f => exact .error rfl
  | ok x => exact .ok rfl

/-- Sequences reflect each other part by part. -/
theorem Reflects.bind {Q : α → β → Prop} {R : γ → δ → Prop} {e : Except Fault α}
    {p : Except Fault β} {f : α → Except Fault γ} {g : β → Except Fault δ} (h : Reflects Q e p)
    (hf : ∀ x y, Q x y → Reflects R (f x) (g y)) : Reflects R (e >>= f) (p >>= g) := by
  cases h with
  | ok hq => exact hf _ _ hq
  | error he => exact .error he

/-- From all states with an invariant, an action gives the result of a computation, reflected by a
relation, and the invariant still holds. -/
def Mirrors (I : σ → Prop) (Q : α → β → Prop) (a : ExceptT Fault (StateM σ) α)
    (p : Except Fault β) : Prop :=
  ∀ s, I s → Reflects Q (exec a s).1 p ∧ I (exec a s).2

variable {I : σ → Prop} {Q : α → β → Prop} {R : γ → δ → Prop}

/-- An action that only returns mirrors a value that is related. -/
theorem Mirrors.pure {x : α} {y : β} (h : Q x y) :
    Mirrors I Q (pure x : ExceptT Fault (StateM σ) α) (.ok y) := fun _ hs => ⟨.ok h, hs⟩

/-- An action that fails at once mirrors a failure that lets out the same. -/
theorem Mirrors.throw {f g : Fault} (h : f.escaped = g.escaped) :
    Mirrors I Q (throw f : ExceptT Fault (StateM σ) α) (.error g) := fun _ hs => ⟨.error h, hs⟩

/-- A result that was settled before mirrors what it reflects. -/
theorem Mirrors.mk {e : Except Fault α} {p : Except Fault β} (h : Reflects Q e p) :
    Mirrors I Q (ExceptT.mk (Pure.pure e) : ExceptT Fault (StateM σ) α) p := fun _ hs => ⟨h, hs⟩

/-- What mirrors a computation by a relation does so by a weaker one. -/
theorem Mirrors.imp {P : α → β → Prop} {a : ExceptT Fault (StateM σ) α} {p : Except Fault β}
    (ha : Mirrors I Q a p) (h : ∀ x y, Q x y → P x y) : Mirrors I P a p := by
  intro s hs
  obtain ⟨hr, ht⟩ := ha s hs
  refine ⟨?_, ht⟩
  generalize (exec a s).1 = r at hr
  cases hr with
  | ok hq => exact .ok (h _ _ hq)
  | error he => exact .error he

/-- What follows need mirror only for the value that the computation gives. -/
theorem Mirrors.bind_of {a : ExceptT Fault (StateM σ) α} {p : Except Fault β}
    {f : α → ExceptT Fault (StateM σ) γ} {g : β → Except Fault δ} (ha : Mirrors I Q a p)
    (hf : ∀ x y, p = .ok y → Q x y → Mirrors I R (f x) (g y)) :
    Mirrors I R (a >>= f) (p >>= g) := by
  intro s hs
  obtain ⟨hr, ht⟩ := ha s hs
  rw [exec_bind]
  cases ea : exec a s with
  | mk ra t =>
    rw [ea] at hr ht
    cases hr with
    | ok h => exact hf _ _ rfl h t ht
    | error h => exact ⟨.error h, ht⟩

/-- A sequence mirrors a sequence when the parts do. -/
theorem Mirrors.bind {a : ExceptT Fault (StateM σ) α} {p : Except Fault β}
    {f : α → ExceptT Fault (StateM σ) γ} {g : β → Except Fault δ} (ha : Mirrors I Q a p)
    (hf : ∀ x y, Q x y → Mirrors I R (f x) (g y)) : Mirrors I R (a >>= f) (p >>= g) :=
  ha.bind_of fun x y _ => hf x y

/-- A first part that gives a value related to a known one needs no counterpart. -/
theorem Mirrors.bind_left {a : ExceptT Fault (StateM σ) α} {y : β}
    {f : α → ExceptT Fault (StateM σ) γ} {p : Except Fault δ} (ha : Mirrors I Q a (.ok y))
    (hf : ∀ x, Q x y → Mirrors I R (f x) p) : Mirrors I R (a >>= f) p := by
  refine ha.bind_of (g := fun _ => p) fun x z hz hq => ?_
  cases hz
  exact hf x hq

/-- What follows a reading of the state mirrors a computation if it does so at every state. -/
theorem Mirrors.get {f : σ → ExceptT Fault (StateM σ) γ} {p : Except Fault δ}
    (hf : ∀ s, I s → Mirrors I R (f s) p) : Mirrors I R (get >>= f) p := by
  intro s hs
  rw [exec_bind, exec_get]
  exact hf s hs s hs

end SchemaBinding
