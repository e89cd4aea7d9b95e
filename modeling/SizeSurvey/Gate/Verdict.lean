import SizeSurvey.Gate.Threshold
import SizeSurvey.NameMap
import SizeSurvey.Settings
/-!
# Verdicts of the gate

The current sizes of the components are compared with those of a baseline. A component that is
missing in the baseline is new and never a failure; one that is only in the baseline is left out.
-/
namespace SizeSurvey

abbrev Metrics := NameMap Size

structure Regression where
  component : String
  baseline : Size
  current : Size
  growth : Size
  /-- The growth in percent, unless it starts from nothing. -/
  percent : Option Float

structure NewComponent where
  component : String
  size : Size
deriving DecidableEq, Repr

structure Improvement where
  component : String
  reduction : Size
deriving DecidableEq, Repr

structure Verdict where
  passed : Bool
  failures : List Regression
  newComponents : List NewComponent
  improvements : List Improvement

namespace Verdict

def newComponent? (baseline : Metrics) (entry : String × Size) : Option NewComponent :=
  match baseline.get? entry.1 with
  | none => some ⟨entry.1, entry.2⟩
  | some _ => none

def improvement? (baseline : Metrics) (floor : Size) (entry : String × Size) :
    Option Improvement :=
  match baseline.get? entry.1 with
  | none => none
  | some former =>
    if entry.2 ≤ former ∧ floor < former - entry.2 then some ⟨entry.1, former - entry.2⟩ else none

def growthPercent? (baseline growth : Size) : Option Float :=
  if baseline = 0 then none else some (growth.toFloat * 100.0 / baseline.toFloat)

def regression? (baseline : Metrics) (threshold : Threshold) (entry : String × Size) :
    Option Regression :=
  match baseline.get? entry.1 with
  | none => none
  | some former =>
    let growth := entry.2 - former
    if former < entry.2 ∧ threshold.isExceeded former growth then
      some ⟨entry.1, former, entry.2, growth, growthPercent? former growth⟩
    else none

/-- Failures and improvements come with the greatest change first. -/
def of (current baseline : Metrics) (threshold : Threshold) (floor : Size) : Verdict :=
  let failures := current.entries.filterMap (regression? baseline threshold)
  let improvements := current.entries.filterMap (improvement? baseline floor)
  { passed := failures.isEmpty
    failures := failures.mergeSort fun a b => b.growth ≤ a.growth
    newComponents := current.entries.filterMap (newComponent? baseline)
    improvements := improvements.mergeSort fun a b => b.reduction ≤ a.reduction }

def ofSettings (current baseline : Metrics) (settings : GateSettings) : Except Fault Verdict := do
  return of current baseline (← Threshold.parse settings.maxGrowth) settings.reportFloor

end Verdict

structure GateReport where
  threshold : String
  verdict : Verdict
  current : Metrics
  baseline : Metrics

def Metrics.above (metrics : Metrics) (floor : Size) : List (String × Size) :=
  metrics.entries.filter fun entry => floor < entry.2

namespace Size

def textFrom (value : Float) : List String → String
  | [] => Decimal.fixed 2 value ++ " TiB"
  | unit :: larger =>
    if value < 1024.0 then Decimal.fixed 2 value ++ " " ++ unit
    else textFrom (value / 1024.0) larger

/-- A size with two places in the largest binary unit, up to tebibytes, that leaves at least one. -/
def text (size : Size) : String :=
  textFrom size.toFloat ["B", "KiB", "MiB", "GiB"]

end Size

end SizeSurvey
