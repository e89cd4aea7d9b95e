import SizeSurvey.Document.File
import SizeSurvey.Document.Gate
/-!
# Files of the gate

The gate reads the sizes that a survey left behind and those of a baseline. A baseline that has been
written is read back with the same sizes.
-/
namespace SizeSurvey

namespace Metrics

/-- The sizes that a survey left in a directory; there must be some. -/
def load (tree : Node) (directory : String) : Except Fault Metrics := do
  let path := Path.child directory fileName
  if tree.hasFile path then
    let metrics ← tree.readJson path Metrics.reader
    if metrics.isEmpty then .error (.noSizes directory) else return metrics
  else .error (.noSizes directory)

end Metrics

namespace Baseline

/-- Writes a baseline of sizes, in a directory that is made if need be. -/
def save (tree : Node) (sizes : Metrics) (path : String) : Except Fault (Baseline × Node) := do
  let baseline := ofSizes sizes
  let tree ← (tree.makeDirectories (Path.ofSteps (Path.parentSteps path))).mapError Trouble.fault
  return (baseline, ← tree.writeJson path baseline.toJson)

def load (tree : Node) (path : String) : Except Fault Metrics :=
  if tree.hasFile path then tree.readJson path sizesReader else .error (.baselineNotFound path)

end Baseline

end SizeSurvey
