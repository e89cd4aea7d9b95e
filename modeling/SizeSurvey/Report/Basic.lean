import SizeSurvey.Gate.Verdict
import SizeSurvey.Inventory
import SizeSurvey.Kernel.Summary
import SizeSurvey.Listing.AbiAudit
import SizeSurvey.Overlap
import SizeSurvey.Section.Summary
import SizeSurvey.Symbol.DynamicSummary
import SizeSurvey.Symbol.StaticSummary
/-!
# Reports

What a survey finds out about one library and about a whole package, and the component sizes that
the gate compares.
-/
namespace SizeSurvey

structure LibraryReport where
  name : String
  path : String
  size : Size
  sections : SectionSummary
  /-- Only for a library with device images. -/
  kernels : Option KernelOutcome
  dynamicSymbols : DynamicSummary
  dynamicDemangling : DemangleStatus
  staticSymbols : StaticSummary
  staticDemangling : DemangleStatus
  dependencies : List String

inductive LibraryOutcome where
  | analyzed (report : LibraryReport)
  | failed (name path error : String)

def LibraryOutcome.report? : LibraryOutcome → Option LibraryReport
  | analyzed report => some report
  | failed .. => none

def LibraryOutcome.name : LibraryOutcome → String
  | analyzed report => report.name
  | failed name _ _ => name

structure PackageReport where
  libraries : List LibraryOutcome
  overlap : Overlap
  audit : Option AbiAudit
  inventory : Option Inventory

namespace PackageReport

def analyzed (report : PackageReport) : List LibraryReport :=
  report.libraries.filterMap LibraryOutcome.report?

end PackageReport

namespace LibraryReport

/-- The components of a library; its own size and that of its device code only if there are any. -/
def components (library : LibraryReport) : List (String × Size) :=
  let device := library.sections.deviceTotals.total
  (if 0 < library.size then [("library_" ++ library.name, library.size)] else [])
    ++ (if 0 < device then [("device_" ++ library.name, device)] else [])
    ++ library.sections.totals.entries.map fun (total, size) =>
      ("section_" ++ library.name ++ "_" ++ total, size)

end LibraryReport

namespace Inventory

def components (inventory : Inventory) : List (String × Size) :=
  (match inventory.archiveSize with
    | some size => [("wheel_compressed", size)]
    | none => []) ++ [("wheel_uncompressed", inventory.totalBytes)]

end Inventory

/-- The sizes of all components; of two components of one name the later one counts. -/
def PackageReport.metrics (report : PackageReport) : Metrics :=
  .ofList ((report.inventory.map Inventory.components).getD []
    ++ report.analyzed.flatMap LibraryReport.components)

end SizeSurvey
