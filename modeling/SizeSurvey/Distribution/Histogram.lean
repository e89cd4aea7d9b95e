import SizeSurvey.Size
/-!
# Histograms

Sizes are counted in buckets with inclusive upper bounds. A size belongs to the first bucket whose
bound is not below it, and to the overflow bucket if there is none.
-/
namespace SizeSurvey

structure Bucket where
  label : String
  count : Nat
deriving DecidableEq, Repr

namespace Histogram

/-- The index of the bucket of a size; the overflow bucket comes after all bounds. -/
def position (bounds : List (Size × String)) (size : Size) : Nat :=
  bounds.findIdx fun bound => size ≤ bound.1

def labels (bounds : List (Size × String)) (overflow : String) : List String :=
  bounds.map Prod.snd ++ [overflow]

/-- How many sizes each bucket received, in a counter for each of them. -/
def counts (bounds : List (Size × String)) (sizes : List Size) : List Nat :=
  sizes.foldl (fun counts size => counts.modify (position bounds size) (· + 1))
    (List.replicate (bounds.length + 1) 0)

/-- The buckets that received a size, in the order of their bounds. -/
def ofSizes (bounds : List (Size × String)) (overflow : String) (sizes : List Size) :
    List Bucket :=
  (((labels bounds overflow).zip (counts bounds sizes)).map fun (label, count) =>
    { label, count : Bucket }).filter fun bucket => 0 < bucket.count

end Histogram

end SizeSurvey
