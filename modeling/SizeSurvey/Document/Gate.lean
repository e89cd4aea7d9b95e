import SizeSurvey.Gate.Baseline
import SizeSurvey.Json.Reader
/-!
# Documents about the gate

A baseline document may be a plain map from components to sizes, or carry that map as one of its
members. The second form is tried first.
-/
namespace SizeSurvey

open Json (Reader)

namespace Metrics

def fileName : String := "metrics.json"

def toJson (metrics : Metrics) : Json :=
  .object (metrics.entries.map fun (name, size) => (name, .size size))

def reader : Reader Metrics :=
  .map .size

end Metrics

namespace Regression

def toJson (regression : Regression) : Json :=
  .object [("component", .string regression.component), ("baseline", .size regression.baseline),
    ("current", .size regression.current), ("growth", .size regression.growth),
    ("growth_pct", .option .real regression.percent)]

def reader : Reader Regression :=
  .record ["component", "baseline", "current", "growth", "growth_pct"] fun fields => do
    return {
      component := ← fields.required .text "component"
      baseline := ← fields.required .size "baseline"
      current := ← fields.required .size "current"
      growth := ← fields.required .size "growth"
      percent := ← fields.optional .real "growth_pct" }

end Regression

namespace NewComponent

def toJson (component : NewComponent) : Json :=
  .object [("component", .string component.component), ("size", .size component.size)]

def reader : Reader NewComponent :=
  .record ["component", "size"] fun fields => do
    return {
      component := ← fields.required .text "component"
      size := ← fields.required .size "size" }

end NewComponent

namespace Improvement

def toJson (improvement : Improvement) : Json :=
  .object [("component", .string improvement.component),
    ("reduction", .size improvement.reduction)]

def reader : Reader Improvement :=
  .record ["component", "reduction"] fun fields => do
    return {
      component := ← fields.required .text "component"
      reduction := ← fields.required .size "reduction" }

end Improvement

namespace Verdict

def members (verdict : Verdict) : List (String × Json) :=
  [("passed", .bool verdict.passed), ("failures", .list Regression.toJson verdict.failures),
    ("new_components", .list NewComponent.toJson verdict.newComponents),
    ("improvements", .list Improvement.toJson verdict.improvements)]

def toJson (verdict : Verdict) : Json :=
  .object verdict.members

def fieldNames : List String :=
  ["passed", "failures", "new_components", "improvements"]

def reader : Reader Verdict :=
  .record fieldNames fun fields => do
    return {
      passed := ← fields.required .bool "passed"
      failures := ← fields.required (.list Regression.reader) "failures"
      newComponents := ← fields.required (.list NewComponent.reader) "new_components"
      improvements := ← fields.required (.list Improvement.reader) "improvements" }

end Verdict

namespace GateReport

/-- The members of the verdict stand among those of the report. -/
def toJson (report : GateReport) : Json :=
  .object ([("threshold", .string report.threshold)] ++ report.verdict.members
    ++ [("current_sizes", report.current.toJson), ("baseline_sizes", report.baseline.toJson)])

def fieldNames : List String :=
  ["threshold", "current_sizes", "baseline_sizes"]

/-- The verdict is read from the members that the report has besides its own, which are kept. -/
def reader : Reader GateReport
  | place, .object members => do
    let fields ← Json.Fields.ofJson? fieldNames place (.object members)
    let others := members.filter fun member => !fieldNames.contains member.1
    let inside ← place.keep? (.object others)
    return {
      threshold := ← fields.required .text "threshold"
      verdict := ← Verdict.reader inside (.object others)
      current := ← fields.required Metrics.reader "current_sizes"
      baseline := ← fields.required Metrics.reader "baseline_sizes" }
  | _, _ => none

end GateReport

namespace BaselineTotals

def toJson (totals : BaselineTotals) : Json :=
  .object [("component_count", .size totals.componentCount),
    ("total_size", .size totals.totalSize)]

def reader : Reader BaselineTotals :=
  .record ["component_count", "total_size"] fun fields => do
    return {
      componentCount := ← fields.required .size "component_count"
      totalSize := ← fields.required .size "total_size" }

end BaselineTotals

namespace Baseline

def toJson (baseline : Baseline) : Json :=
  .object [("format_version", .natural baseline.formatVersion), ("sizes", baseline.sizes.toJson),
    ("metadata", baseline.totals.toJson)]

def reader : Reader Baseline :=
  .record ["format_version", "sizes", "metadata"] fun fields => do
    return {
      formatVersion := ← fields.orElse .smallCount "format_version" currentVersion
      sizes := ← fields.required Metrics.reader "sizes"
      totals := ← fields.orElse BaselineTotals.reader "metadata" {} }

/-- The sizes of a baseline document of either form. -/
def sizesReader : Reader Metrics := fun place value => do
  let inside ← place.keep? value
  ((Baseline.reader inside value).map (·.sizes)).or (Metrics.reader inside value)

end Baseline

end SizeSurvey
