import SizeSurvey.Size
/-!
# Leaders

The largest entries of a stream, at most `capacity` of them. A full table takes a new entry only
for a strictly greater metric, and gives up the least item among those of the least metric.
-/
namespace SizeSurvey

structure Leaders (α : Type) where
  capacity : Nat
  /-- What is kept, in ascending order of metric and item. -/
  ascending : List (Size × α) := []

namespace Leaders

variable {α : Type} [Ord α]

def above (a b : Size × α) : Bool :=
  b.1 < a.1 || (a.1 == b.1 && compare a.2 b.2 == .gt)

def place (entry : Size × α) : List (Size × α) → List (Size × α)
  | [] => [entry]
  | first :: rest => if above entry first then first :: place entry rest else entry :: first :: rest

def length (leaders : Leaders α) : Nat :=
  leaders.ascending.length

def isFull (leaders : Leaders α) : Bool :=
  leaders.capacity ≤ leaders.length

def leastMetric? (leaders : Leaders α) : Option Size :=
  leaders.ascending.head?.map Prod.fst

/-- Whether a push with this metric keeps its entry, which is what the push answers. -/
def admits (leaders : Leaders α) (metric : Size) : Bool :=
  !leaders.isFull || leaders.leastMetric?.any (· < metric)

def push (leaders : Leaders α) (metric : Size) (item : α) : Leaders α :=
  if leaders.isFull then
    if leaders.admits metric then
      { leaders with ascending := place (metric, item) leaders.ascending.tail }
    else leaders
  else { leaders with ascending := place (metric, item) leaders.ascending }

def ofList (capacity : Nat) (entries : List (Size × α)) : Leaders α :=
  entries.foldl (fun leaders entry => leaders.push entry.1 entry.2) { capacity }

/-- What is kept, the largest metric first and the largest item first among equal metrics. -/
def toList (leaders : Leaders α) : List (Size × α) :=
  leaders.ascending.reverse

end Leaders

end SizeSurvey
