import SchemaBinding.Value.Basic

/-!
# Which lists are one

Labels tell which lists are one and the same, and origins which not-a-numbers are. A value is
labelled when it comes in, and a list that is made later when it is first put somewhere; from then
on it can be followed wherever it goes. What is appended to a list is in it everywhere, which
`Growth` records: `Growth.current` is a value as it is by now. Instances keep the identities that
they come with.

Specification: §3.1.
-/

namespace SchemaBinding

namespace Value

mutual

/-- A value rebuilt from the inside out, its lists, its floating-point numbers and what its records
are by the functions given. -/
def rebuild {m : Type → Type} [Monad m] (onList : List Value → Option Nat → m Value)
    (onFloat : Double → m Value) (onInstance : InstanceRef → m InstanceRef) (v : Value) : m Value :=
  match v with
  | .float x => onFloat x
  | .list items label => do
    let items ← rebuildItems onList onFloat onInstance items
    onList items label
  | .tuple items => do
    let items ← rebuildItems onList onFloat onInstance items
    return .tuple items
  | .dict entries => do
    let entries ← rebuildEntries onList onFloat onInstance entries
    return .dict entries
  | .record cls attrs => do
    let attrs ← rebuildAttrs onList onFloat onInstance attrs
    return .record (← onInstance cls) attrs
  | v => return v
termination_by structural v

/-- Items rebuilt from left to right. -/
def rebuildItems {m : Type → Type} [Monad m] (onList : List Value → Option Nat → m Value)
    (onFloat : Double → m Value) (onInstance : InstanceRef → m InstanceRef)
    (vs : List Value) : m (List Value) :=
  match vs with
  | [] => return []
  | v :: vs => do
    let v ← rebuild onList onFloat onInstance v
    let vs ← rebuildItems onList onFloat onInstance vs
    return v :: vs
termination_by structural vs

/-- A key and its value rebuilt. -/
def rebuildEntry {m : Type → Type} [Monad m] (onList : List Value → Option Nat → m Value)
    (onFloat : Double → m Value) (onInstance : InstanceRef → m InstanceRef)
    (e : Value × Value) : m (Value × Value) :=
  match e with
  | (k, v) => do
    let k ← rebuild onList onFloat onInstance k
    let v ← rebuild onList onFloat onInstance v
    return (k, v)
termination_by structural e

/-- Entries rebuilt in order. -/
def rebuildEntries {m : Type → Type} [Monad m] (onList : List Value → Option Nat → m Value)
    (onFloat : Double → m Value) (onInstance : InstanceRef → m InstanceRef)
    (es : List (Value × Value)) : m (List (Value × Value)) :=
  match es with
  | [] => return []
  | e :: es => do
    let e ← rebuildEntry onList onFloat onInstance e
    let es ← rebuildEntries onList onFloat onInstance es
    return e :: es
termination_by structural es

/-- An attribute rebuilt. -/
def rebuildAttr {m : Type → Type} [Monad m] (onList : List Value → Option Nat → m Value)
    (onFloat : Double → m Value) (onInstance : InstanceRef → m InstanceRef)
    (a : String × Value) : m (String × Value) :=
  match a with
  | (name, v) => do
    let v ← rebuild onList onFloat onInstance v
    return (name, v)
termination_by structural a

/-- Attributes rebuilt in order. -/
def rebuildAttrs {m : Type → Type} [Monad m] (onList : List Value → Option Nat → m Value)
    (onFloat : Double → m Value) (onInstance : InstanceRef → m InstanceRef)
    (as : List (String × Value)) : m (List (String × Value)) :=
  match as with
  | [] => return []
  | a :: as => do
    let a ← rebuildAttr onList onFloat onInstance a
    let as ← rebuildAttrs onList onFloat onInstance as
    return a :: as
termination_by structural as

end

end Value

/-- The numbers that labels and origins are taken from. -/
structure Supply where
  /-- A number that is no label yet, and neither is a greater one. -/
  label : Nat
  /-- A number that is no origin yet, and neither is a greater one. -/
  origin : Nat

namespace Supply

/-- A number that no label has yet. -/
def freshLabel : StateM Supply Nat := do
  let s ← get
  set { s with label := s.label + 1 }
  return s.label

/-- A number that no origin has yet. -/
def freshOrigin : StateM Supply Nat := do
  let s ← get
  set { s with origin := s.origin + 1 }
  return s.origin

end Supply

namespace Value

/-- A value with every list labelled and the origin of every not-a-number known; those that lack a
label or an origin are given one that is in no use yet. -/
def labelled (v : Value) : StateM Supply Value :=
  rebuild
    (fun items label =>
      match label with
      | some n => return .list items (some n)
      | none => return .list items (some (← Supply.freshLabel)))
    (fun x =>
      match x with
      | .nan none => return .float (.nan (some (← Supply.freshOrigin)))
      | x => return .float x)
    pure v

/-- A value with no list labelled: what it holds, regardless of which lists are one. -/
def unlabelled (v : Value) : Value :=
  Id.run (rebuild (fun items _ => pure (.list items none)) (fun x => pure (.float x)) pure v)

/-- A deep copy of a value: its lists and its instances are the same as no others. Not-a-numbers are
not copied and stay the same. -/
def copied (v : Value) : Value :=
  Id.run (rebuild (fun items _ => pure (.list items none)) (fun x => pure (.float x))
    (fun r => pure r.renewed) v)

end Value

/-- What the lists hold by now to which something has been appended, by their labels. -/
abbrev Growth := List (Nat × List Value)

namespace Growth

/-- What a list holds by now, if anything has been appended to it. -/
def items? (g : Growth) (label : Option Nat) : Option (List Value) :=
  label.bind fun n => (g.find? fun e => e.1 == n).map Prod.snd

/-- A value as it is by now. -/
def current (g : Growth) (v : Value) : Value :=
  Id.run (v.rebuild (fun items label => pure (.list ((g.items? label).getD items) label))
    (fun x => pure (.float x)) pure)

/-- Records that the list with a label holds these items by now, in every list that it is in too. -/
def record (g : Growth) (label : Nat) (items : List Value) : Growth :=
  let others := g.filter fun e => e.1 != label
  (label, items) :: others.map fun e => (e.1, e.2.map (current [(label, items)]))

end Growth

end SchemaBinding
