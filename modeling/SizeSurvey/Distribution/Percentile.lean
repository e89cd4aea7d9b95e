/-!
# Percentiles

Two estimates of a percentile of an ascending sample: the interpolated one lies between the two
samples around its rank, and the nearest one is always a sample itself. A share outside the unit
interval counts as the nearer end of it, and a share that is no number as zero.
-/
namespace SizeSurvey.Percentile

/-- The nearer end of the unit interval for a number outside it. -/
def clampUnit (p : Float) : Float :=
  if p < 0.0 then 0.0 else if 1.0 < p then 1.0 else p

/-- The whole number below a rank; a rank that is no number counts as zero. -/
def floorIndex (rank : Float) : UInt64 :=
  rank.toUInt64

def ceilIndex (rank : Float) : UInt64 :=
  let floor := floorIndex rank
  if floor.toFloat < rank then floor + 1 else floor

/-- The whole number nearest to a rank, the even one of two. -/
def nearestIndex (rank : Float) : UInt64 :=
  let floor := floorIndex rank
  let above := rank - floor.toFloat
  if 0.5 < above then floor + 1
  else if above == 0.5 && floor % 2 == 1 then floor + 1
  else floor

def rank (count : Nat) (p : Float) : Float :=
  (UInt64.ofNat (count - 1)).toFloat * clampUnit p

def interpolated (sorted : List UInt64) (p : Float) : Option Float :=
  match sorted with
  | [] => none
  | [only] => some only.toFloat
  | _ =>
    let rank := rank sorted.length p
    let lower := floorIndex rank
    let upper := ceilIndex rank
    if lower = upper then sorted[lower.toNat]?.map UInt64.toFloat
    else do
      let low := (← sorted[lower.toNat]?).toFloat
      let high := (← sorted[upper.toNat]?).toFloat
      return low + (high - low) * (rank - lower.toFloat)

def nearest {α : Type} (sorted : List α) (p : Float) : Option α :=
  match sorted with
  | [] => none
  | [only] => some only
  | _ => sorted[min (nearestIndex (rank sorted.length p)).toNat (sorted.length - 1)]?

end SizeSurvey.Percentile
