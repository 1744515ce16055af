/-!
# Sorting

Items are put in order by a test that tells whether one comes before another. The test may fail, and
it need not be an order; so it matters what is asked, and in which sequence. A run at the front that
is in order already is kept, turned round if it descends. Each later item is put behind the items
that it does not come before, its place found by halving.
-/

namespace SchemaBinding.Sorting

/-- The items that go on a run whose last item is given, and the rest. In a descending run each item
comes before the last, in an ascending one none does. -/
def takeRun {ε α : Type} (before : α → α → Except ε Bool) (descending : Bool) (last : α) :
    List α → Except ε (List α × List α)
  | [] => .ok ([], [])
  | x :: rest => do
    if (← before x last) == descending then
      let (run, rest) ← takeRun before descending x rest
      return (x :: run, rest)
    else return ([], x :: rest)

/-- Sorted items with one more in its place. The items in question are halved, the one in the middle
going with those behind it. -/
def insert {ε α : Type} (before : α → α → Except ε Bool) (x : α) (sorted : List α) :
    Except ε (List α) :=
  match _h : sorted.drop (sorted.length / 2) with
  | [] => .ok [x]
  | middle :: behind => do
    let front := sorted.take (sorted.length / 2)
    if ← before x middle then return (← insert before x front) ++ middle :: behind
    else return front ++ middle :: (← insert before x behind)
termination_by sorted.length
decreasing_by
  all_goals
    have length := congrArg List.length _h
    simp only [List.length_drop, List.length_cons, List.length_take] at *
    omega

/-- The items in order. -/
def sort {ε α : Type} (before : α → α → Except ε Bool) : List α → Except ε (List α)
  | x :: y :: rest => do
    let descending ← before y x
    let (more, rest) ← takeRun before descending y rest
    let run := x :: y :: more
    rest.foldlM (fun sorted z => insert before z sorted) (if descending then run.reverse else run)
  | items => .ok items

end SchemaBinding.Sorting
