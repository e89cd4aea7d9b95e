import SizeSurvey.Gate.Verdict
/-!
# Baselines

A baseline holds the sizes of the components at one time, with their number and their sum.
-/
namespace SizeSurvey

structure BaselineTotals where
  componentCount : Size := 0
  totalSize : Size := 0
deriving DecidableEq, Repr

structure Baseline where
  formatVersion : Nat
  sizes : Metrics
  totals : BaselineTotals

namespace Baseline

def currentVersion : Nat := 1

def ofSizes (sizes : Metrics) : Baseline where
  formatVersion := currentVersion
  sizes := sizes
  totals := ⟨UInt64.ofNat sizes.size, Size.total (sizes.entries.map Prod.snd)⟩

end Baseline

end SizeSurvey
