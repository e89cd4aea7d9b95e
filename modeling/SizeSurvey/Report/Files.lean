import SizeSurvey.Document.File
import SizeSurvey.Document.Report
/-!
# Files of reports

A survey is written as one file for each part of each library and one for each part of the package;
the last one has the sizes that the gate compares. A file of the same name is overwritten.
-/
namespace SizeSurvey

namespace LibraryReport

def part (report : LibraryReport) (members : List (String × Json)) : Json :=
  .object ([("library", .string report.name), ("path", .string report.path)] ++ members)

def documents (report : LibraryReport) : List (String × Json) :=
  [("sections_" ++ report.name ++ ".json", report.part report.sections.members)]
    ++ (match report.kernels with
      | some (.decoded summary) => [("device_kernels_" ++ report.name ++ ".json", summary.toJson)]
      | _ => [])
    ++ [("symbols_" ++ report.name ++ ".json", report.part report.dynamicSymbols.members),
      ("static_symbols_" ++ report.name ++ ".json", report.part report.staticSymbols.members)]

end LibraryReport

namespace PackageReport

def byName (report : PackageReport) (part : LibraryReport → Json) : Json :=
  .object (NameMap.ofList (report.analyzed.map fun library => (library.name, part library))).entries

/-- The files of a survey in the order in which they are written. -/
def documents (report : PackageReport) : List (String × Json) :=
  report.analyzed.flatMap LibraryReport.documents
    ++ [("sections_summary.json", report.byName (·.sections.toJson)),
      ("symbols_summary.json", report.byName (·.dynamicSymbols.toJson)),
      ("static_symbols_summary.json", report.byName (·.staticSymbols.toJson)),
      ("runtime_dependencies.json", report.byName (.list .string ·.dependencies)),
      ("symbol_overlap.json", report.overlap.toJson),
      ("libraries.json", .list LibraryOutcome.toJson report.libraries)]
    ++ (match report.audit with
      | some audit => [("auditwheel_report.json", audit.toJson)]
      | none => [])
    ++ (match report.inventory with
      | some inventory => [("file_inventory.json", inventory.toJson)]
      | none => [])
    ++ [(Metrics.fileName, report.metrics.toJson)]

/-- Writes the files of a survey below a directory, which is made if need be. The tree is given back
also when a file could not be written. -/
def writeTo (report : PackageReport) (tree : Node) (directory : String) : Node × Option Fault :=
  match tree.makeDirectories directory with
  | .error trouble => (tree, some trouble.fault)
  | .ok tree => tree.writeAll directory report.documents

end PackageReport

end SizeSurvey
