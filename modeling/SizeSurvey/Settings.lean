import SizeSurvey.Size
/-!
# Settings

What a survey can be told: how long its rankings are, which tools it calls and for how long, and how
much growth the gate allows.
-/
namespace SizeSurvey

/-- The greatest length of a list in a report. -/
abbrev Limit := UInt64

structure KernelSettings where
  topLimit : Limit := 25
  /-- A bound on families besides `topLimit`. -/
  familyLimit : Limit := 20
  /-- The characters of a name that are kept. -/
  nameBudget : Limit := 512
  /-- Whether records and names of different number are a fault. -/
  strictPairing : Bool := false
deriving DecidableEq, Repr

structure SymbolSettings where
  topLimit : Limit := 50
  dynamicNamespaceLimit : Limit := 50
deriving DecidableEq, Repr

structure OverlapSettings where
  topSymbols : Limit := 25
  topNamespaces : Limit := 15
  tripleExamples : Limit := 25
deriving DecidableEq, Repr

inductive DemanglerKind where
  | external
  | builtin
deriving DecidableEq, Repr

structure ToolSettings where
  timeoutSeconds : UInt64 := 300
  sectionLister : String := "readelf"
  symbolLister : String := "nm"
  dependencyLister : String := "ldd"
  abiAuditor : String := "auditwheel"
  /-- Programs that demangle, the preferred one first. -/
  demanglers : List String := ["c++filt", "llvm-cxxfilt"]
  demangler : DemanglerKind := .external
deriving DecidableEq, Repr

structure GateSettings where
  maxGrowth : String := "5%"
  /-- Reductions up to this size are not reported. -/
  reportFloor : Size := 1048576
deriving DecidableEq, Repr

structure Settings where
  kernels : KernelSettings := {}
  symbols : SymbolSettings := {}
  overlap : OverlapSettings := {}
  tools : ToolSettings := {}
  gate : GateSettings := {}
deriving DecidableEq, Repr

end SizeSurvey
