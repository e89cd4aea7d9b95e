import SizeSurvey.Document.Gate
import SizeSurvey.Document.Inventory
import SizeSurvey.Document.Kernels
import SizeSurvey.Document.Overlap
import SizeSurvey.Document.Sections
import SizeSurvey.Document.Symbols
import SizeSurvey.Listing.AbiAudit
import SizeSurvey.Report.Basic
/-!
# Documents about libraries and packages
-/
namespace SizeSurvey

open Json (Reader)

namespace AbiAudit

def toJson (audit : AbiAudit) : Json :=
  .object [("platform_tag", .option .string audit.platformTag),
    ("constrained_tag", .option .string audit.constrainedTag),
    ("external_libs", .list .string audit.externalLibraries), ("raw_output", .string audit.text)]

def reader : Json.Reader AbiAudit :=
  .record ["platform_tag", "constrained_tag", "external_libs", "raw_output"] fun fields => do
    return {
      platformTag := ← fields.optional .text "platform_tag"
      constrainedTag := ← fields.optional .text "constrained_tag"
      externalLibraries := ← fields.required (.list .text) "external_libs"
      text := ← fields.required .text "raw_output" }

end AbiAudit

namespace LibraryReport

def members (report : LibraryReport) : List (String × Json) :=
  [("name", .string report.name), ("path", .string report.path), ("size_bytes", .size report.size),
    ("sections", report.sections.toJson),
    ("device_kernels", .option KernelOutcome.toJson report.kernels),
    ("dynamic_symbols", report.dynamicSymbols.toJson),
    ("dynamic_demangling", report.dynamicDemangling.toJson),
    ("static_symbols", report.staticSymbols.toJson),
    ("static_demangling", report.staticDemangling.toJson),
    ("runtime_dependencies", .list .string report.dependencies)]

def toJson (report : LibraryReport) : Json :=
  .object report.members

def reader : Reader LibraryReport :=
  .record ["name", "path", "size_bytes", "sections", "device_kernels", "dynamic_symbols",
      "dynamic_demangling", "static_symbols", "static_demangling", "runtime_dependencies"]
    fun fields => do
      return {
        name := ← fields.required .text "name"
        path := ← fields.required .text "path"
        size := ← fields.required .size "size_bytes"
        sections := ← fields.required SectionSummary.reader "sections"
        kernels := ← fields.optional KernelOutcome.reader "device_kernels"
        dynamicSymbols := ← fields.required DynamicSummary.reader "dynamic_symbols"
        dynamicDemangling := ← fields.required DemangleStatus.reader "dynamic_demangling"
        staticSymbols := ← fields.required StaticSummary.reader "static_symbols"
        staticDemangling := ← fields.required DemangleStatus.reader "static_demangling"
        dependencies := ← fields.required (.list .text) "runtime_dependencies" }

end LibraryReport

namespace LibraryOutcome

def toJson : LibraryOutcome → Json
  | analyzed report => .object (("status", .string "analyzed") :: report.members)
  | failed name path error =>
    .object [("status", .string "failed"), ("name", .string name), ("path", .string path),
      ("error", .string error)]

def reader : Reader LibraryOutcome :=
  .tagged "status" ["analyzed", "failed"] fun variant =>
    match variant with
    | 0 => fun place value => (LibraryReport.reader place value).map analyzed
    | _ => .record ["name", "path", "error"] fun fields => do
      return failed (← fields.required .text "name") (← fields.required .text "path")
        (← fields.required .text "error")

end LibraryOutcome

namespace PackageReport

def toJson (report : PackageReport) : Json :=
  .object [("libraries", .list LibraryOutcome.toJson report.libraries),
    ("overlap", report.overlap.toJson), ("abi", .option AbiAudit.toJson report.audit),
    ("inventory", .option Inventory.toJson report.inventory)]

def reader : Reader PackageReport :=
  .record ["libraries", "overlap", "abi", "inventory"] fun fields => do
    return {
      libraries := ← fields.required (.list LibraryOutcome.reader) "libraries"
      overlap := ← fields.required Overlap.reader "overlap"
      audit := ← fields.optional AbiAudit.reader "abi"
      inventory := ← fields.optional Inventory.reader "inventory" }

end PackageReport

end SizeSurvey
