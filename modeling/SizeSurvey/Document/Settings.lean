import SizeSurvey.Document.File
import SizeSurvey.Gate.Threshold
import SizeSurvey.Settings
/-!
# Documents with settings

Every member may be left out and then has its default. Settings under which a ranking would be
empty or no tool could run are refused.
-/
namespace SizeSurvey

open Json (Reader)

namespace KernelSettings

def toJson (settings : KernelSettings) : Json :=
  .object [("top_limit", .size settings.topLimit), ("family_limit", .size settings.familyLimit),
    ("name_budget", .size settings.nameBudget), ("strict_pairing", .bool settings.strictPairing)]

def reader : Reader KernelSettings :=
  .record ["top_limit", "family_limit", "name_budget", "strict_pairing"] fun fields => do
    let initial : KernelSettings := {}
    return {
      topLimit := ← fields.orElse .size "top_limit" initial.topLimit
      familyLimit := ← fields.orElse .size "family_limit" initial.familyLimit
      nameBudget := ← fields.orElse .size "name_budget" initial.nameBudget
      strictPairing := ← fields.orElse .bool "strict_pairing" initial.strictPairing }

end KernelSettings

namespace SymbolSettings

def toJson (settings : SymbolSettings) : Json :=
  .object [("top_limit", .size settings.topLimit),
    ("dynamic_namespace_limit", .size settings.dynamicNamespaceLimit)]

def reader : Reader SymbolSettings :=
  .record ["top_limit", "dynamic_namespace_limit"] fun fields => do
    let initial : SymbolSettings := {}
    return {
      topLimit := ← fields.orElse .size "top_limit" initial.topLimit
      dynamicNamespaceLimit :=
        ← fields.orElse .size "dynamic_namespace_limit" initial.dynamicNamespaceLimit }

end SymbolSettings

namespace OverlapSettings

def toJson (settings : OverlapSettings) : Json :=
  .object [("top_symbols", .size settings.topSymbols),
    ("top_namespaces", .size settings.topNamespaces),
    ("triple_examples", .size settings.tripleExamples)]

def reader : Reader OverlapSettings :=
  .record ["top_symbols", "top_namespaces", "triple_examples"] fun fields => do
    let initial : OverlapSettings := {}
    return {
      topSymbols := ← fields.orElse .size "top_symbols" initial.topSymbols
      topNamespaces := ← fields.orElse .size "top_namespaces" initial.topNamespaces
      tripleExamples := ← fields.orElse .size "triple_examples" initial.tripleExamples }

end OverlapSettings

namespace DemanglerKind

def name : DemanglerKind → String
  | external => "external"
  | builtin => "builtin"

def reader : Reader DemanglerKind :=
  .choice ([external, builtin].map fun kind => (kind.name, kind))

end DemanglerKind

namespace ToolSettings

def toJson (settings : ToolSettings) : Json :=
  .object [("timeout_seconds", .size settings.timeoutSeconds),
    ("readelf", .string settings.sectionLister), ("nm", .string settings.symbolLister),
    ("ldd", .string settings.dependencyLister), ("auditwheel", .string settings.abiAuditor),
    ("demangler_candidates", .list .string settings.demanglers),
    ("demangler", .string settings.demangler.name)]

def reader : Reader ToolSettings :=
  .record ["timeout_seconds", "readelf", "nm", "ldd", "auditwheel", "demangler_candidates",
      "demangler"] fun fields => do
    let initial : ToolSettings := {}
    return {
      timeoutSeconds := ← fields.orElse .size "timeout_seconds" initial.timeoutSeconds
      sectionLister := ← fields.orElse .text "readelf" initial.sectionLister
      symbolLister := ← fields.orElse .text "nm" initial.symbolLister
      dependencyLister := ← fields.orElse .text "ldd" initial.dependencyLister
      abiAuditor := ← fields.orElse .text "auditwheel" initial.abiAuditor
      demanglers := ← fields.orElse (.list .text) "demangler_candidates" initial.demanglers
      demangler := ← fields.orElse DemanglerKind.reader "demangler" initial.demangler }

end ToolSettings

namespace GateSettings

def toJson (settings : GateSettings) : Json :=
  .object [("max_growth", .string settings.maxGrowth),
    ("report_floor_bytes", .size settings.reportFloor)]

def reader : Reader GateSettings :=
  .record ["max_growth", "report_floor_bytes"] fun fields => do
    let initial : GateSettings := {}
    return {
      maxGrowth := ← fields.orElse .text "max_growth" initial.maxGrowth
      reportFloor := ← fields.orElse .size "report_floor_bytes" initial.reportFloor }

end GateSettings

namespace Settings

def toJson (settings : Settings) : Json :=
  .object [("kernels", settings.kernels.toJson), ("symbols", settings.symbols.toJson),
    ("overlap", settings.overlap.toJson), ("tools", settings.tools.toJson),
    ("gate", settings.gate.toJson)]

def reader : Reader Settings :=
  .record ["kernels", "symbols", "overlap", "tools", "gate"] fun fields => do
    return {
      kernels := ← fields.orElse KernelSettings.reader "kernels" {}
      symbols := ← fields.orElse SymbolSettings.reader "symbols" {}
      overlap := ← fields.orElse OverlapSettings.reader "overlap" {}
      tools := ← fields.orElse ToolSettings.reader "tools" {}
      gate := ← fields.orElse GateSettings.reader "gate" {} }

/-- The numbers that must not be zero, in the order in which they are looked at. -/
def positives (settings : Settings) : List (String × UInt64) :=
  [("kernels.top_limit", settings.kernels.topLimit),
    ("kernels.family_limit", settings.kernels.familyLimit),
    ("kernels.name_budget", settings.kernels.nameBudget),
    ("symbols.top_limit", settings.symbols.topLimit),
    ("overlap.top_symbols", settings.overlap.topSymbols),
    ("overlap.top_namespaces", settings.overlap.topNamespaces),
    ("tools.timeout_seconds", settings.tools.timeoutSeconds)]

def validate (settings : Settings) : Except Fault Unit :=
  match settings.positives.find? fun entry => entry.2 = 0 with
  | some (name, _) => .error (.invalidInput (name ++ " must be > 0"))
  | none => (Threshold.parse settings.gate.maxGrowth).map fun _ => ()

def load (tree : Node) (path : String) : Except Fault Settings := do
  let settings ← tree.readJson path reader
  settings.validate
  return settings

end Settings

end SizeSurvey
