import SchemaBinding.Proofs.SessionAgreement

/-!
# The cache of plans

Keeping plans cannot be seen from outside: every run of a session gives the same, step by step, as
the run in which a plan is compiled whenever it is asked for. And it spares work: as long as a
registry does not drop the plans that it keeps, it compiles each class at most once.
-/

namespace SchemaBinding

namespace Session

open World

/-- The sessions that some operations lead to. -/
inductive Reachable : Session → Prop
  | initial : Reachable .initial
  | step (s : Session) (op : Operation) (h : Reachable s) : Reachable (s.step op).2

/-- What operations give one after another, with plans from a source: the outcome of each step, and
the calls of the caller's functions in it. -/
def runWith (source : PlanSource) (s : Session) :
    List Operation → List (Except Fault Outcome × List Call)
  | [] => []
  | op :: ops =>
    ((s.stepWith source op).1, (s.stepWith source op).2.world.calls) ::
      runWith source (s.stepWith source op).2 ops

/-- A session that starts a step. -/
def fresh (s : Session) : Session := { s with world := s.world.clearJournal }

/-- The two sessions differ only in the plans that are kept and in the events that were logged. -/
def Alike (s t : Session) : Prop := s.world.Alike t.world ∧ s.records = t.records

/-- A step gives the same in alike sessions, whether plans are kept or always compiled. -/
theorem Alike.step {s t : Session} (h : s.Alike t) (op : Operation) :
    (s.stepWith planOf op).1 = (t.stepWith recompile op).1 ∧
      (s.stepWith planOf op).2.Alike (t.stepWith recompile op).2 := by
  have hc := h.1.consistent
  have hf : Kin (fun _ => True) s.fresh t.fresh :=
    ⟨⟨⟨⟨hc.faithful, hc.named, hc.bytes⟩, h.1.classes, h.1.registries, h.1.binders, rfl,
      h.1.growth, h.1.supply⟩, trivial⟩, h.2⟩
  have hr := agree_run op (fun _ _ _ _ => trivial) s.fresh t.fresh hf
  exact ⟨hr.1, hr.2.1.1, hr.2.2⟩

/-- The world of a session is consistent, whatever operations led to it. -/
theorem Reachable.consistent {s : Session} (h : Reachable s) : s.world.Consistent := by
  induction h with
  | initial => exact consistent_initial
  | step s op h ih => exact ((Alike.step ⟨ih.refl_alike, rfl⟩ op).2).1.consistent

private theorem Alike.runWith {s t : Session} (h : s.Alike t) (ops : List Operation) :
    s.runWith planOf ops = t.runWith recompile ops := by
  induction ops generalizing s t with
  | nil => rfl
  | cons op ops ih =>
    obtain ⟨hr, hn⟩ := h.step op
    simp only [Session.runWith, hr, hn.1.calls, ih hn]

/-! ### How often a plan is compiled -/

/-- How many times, in a run of operations, a registry logs that it compiled the plan of a class. -/
def compilations (i : Nat) (c : ClassRef) (s : Session) : List Operation → Nat
  | [] => 0
  | op :: ops =>
    (s.step op).2.world.compilations i c + compilations i c (s.step op).2 ops

/-- An operation drops the plans that a registry keeps: it declares or forgets contracts or makes
classes known, and afterwards the registry keeps no plan any more. -/
def Drops (s : Session) (op : Operation) (i : Nat) : Prop :=
  op.declares = true ∧ (s.world.registry i).plans ≠ [] ∧ ((s.step op).2.world.registry i).plans = []

/-- No operation of a run drops the plans that a registry keeps. -/
def Retains (i : Nat) (s : Session) : List Operation → Prop
  | [] => True
  | op :: ops => ¬ s.Drops op i ∧ Retains i (s.step op).2 ops

/-- What a step does to plans, as seen from its start, where nothing has been logged yet. -/
theorem step_changes {s : Session} (h : s.world.Consistent) (op : Operation) :
    op.Changes s.fresh.world (s.step op).2.world := by
  have hc : s.fresh.world.Consistent := h.clearJournal
  have hf : Kin (op.Changes s.fresh.world) s.fresh s.fresh :=
    ⟨⟨hc.refl_alike, Operation.Changes.refl op _⟩, rfl⟩
  exact (agree_run op (fun _ _ hn ho => ho.trans hn) s.fresh s.fresh hf).2.1.2

/-- An operation that does not drop the plans that a registry keeps leaves it with one more plan of
a class for each time that it compiled it. -/
theorem step_compilations {s : Session} (h : s.world.Consistent) {op : Operation} {i : Nat}
    (hd : ¬ s.Drops op i) (c : ClassRef) :
    (s.step op).2.world.compilations i c + s.world.kept i c = (s.step op).2.world.kept i c := by
  have hc := step_changes h op
  have hz : s.fresh.world.compilations i c = 0 := rfl
  have hk : s.fresh.world.kept i c = s.world.kept i c := rfl
  unfold Operation.Changes at hc
  cases hop : op.declares with
  | false =>
    rw [hop] at hc
    have ha := hc.accounts i c
    rw [Accounts, hz, hk] at ha
    omega
  | true =>
    rw [hop] at hc
    have hn := hc.compilations i c
    have hp : ((s.step op).2.world.registry i).plans = (s.world.registry i).plans := by
      rcases hc.plans i with he | he
      · exact he
      · rw [he]
        by_contra hne
        exact hd ⟨hop, fun hs => hne hs.symm, he⟩
    have he : (s.step op).2.world.kept i c = s.world.kept i c := by
      rw [kept, kept, Registry.cached?, Registry.cached?, hp]
    omega

private theorem kept_le_one (w : World) (i : Nat) (c : ClassRef) : w.kept i c ≤ 1 := by
  unfold kept
  split <;> omega

/-- While a registry retains its plans, it compiles a class at most once, and not at all if it keeps
a plan of the class already. -/
theorem compilations_le {s : Session} (h : Reachable s) (i : Nat) (c : ClassRef)
    {ops : List Operation} (hr : Retains i s ops) :
    compilations i c s ops + s.world.kept i c ≤ 1 := by
  induction ops generalizing s with
  | nil =>
    have hk := kept_le_one s.world i c
    simp only [compilations]
    omega
  | cons op ops ih =>
    have hs := step_compilations h.consistent hr.1 c
    have hn := ih (.step s op h) hr.2
    simp only [compilations]
    omega

/-- The cache of plans cannot be seen: every run gives, step by step, what it gives when plans are
always compiled from the contracts. And between two operations that drop the plans of a registry, it
compiles and logs the plan of each class at most once. -/
theorem planCache_transparent :
    (∀ ops, Session.initial.runWith planOf ops = Session.initial.runWith recompile ops) ∧
      ∀ s, Reachable s → ∀ i c ops, Retains i s ops → compilations i c s ops ≤ 1 := by
  refine ⟨fun ops => ?_, fun s hs i c ops hr => ?_⟩
  · exact Alike.runWith ⟨consistent_initial.refl_alike, rfl⟩ ops
  · have hc := compilations_le hs i c hr
    omega

/-- The creation of a class with one integer field. -/
def newPoint : Operation := .newClass "Point" [.schemaBase] none [("x", ⟨.basic .int, []⟩)]

/-- The class that `newPoint` creates in a new session. -/
def point : ClassRef := ⟨5, "Point", true⟩

/-- A plan that is asked for twice is compiled once. -/
theorem plan_twice_compiled_once :
    Retains 0 (initial.step newPoint).2 [.plan 0 (.cls point), .plan 0 (.cls point)] ∧
      compilations 0 point (initial.step newPoint).2
          [.plan 0 (.cls point), .plan 0 (.cls point)] = 1 := by
  have hr : Retains 0 (initial.step newPoint).2 [.plan 0 (.cls point), .plan 0 (.cls point)] :=
    ⟨fun h => Bool.noConfusion h.1, fun h => Bool.noConfusion h.1, trivial⟩
  refine ⟨hr, Nat.le_antisymm ?_ (by decide)⟩
  exact planCache_transparent.2 _ (.step initial newPoint .initial) 0 point _ hr

end Session

end SchemaBinding
