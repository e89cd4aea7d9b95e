import SizeSurvey.Listing.AbiAudit
import SizeSurvey.Listing.SectionTable
import SizeSurvey.Report.Basic
import SizeSurvey.Symbol.Resolved
import SizeSurvey.Tool.Toolchain
/-!
# Surveys

A survey of a library asks the tools for its tables and sums them up. In a survey of a package each
library stands for itself: one that cannot be surveyed is reported as failed, and the others are
surveyed all the same.
-/
namespace SizeSurvey.Survey

variable {m : Type → Type} [Monad m] (tools : Toolchain m)

/-- The symbols of one table. The mangled table is needed, the demangled one only helps. -/
def symbols (demangle : Demangler m) (library : String) (table : SymbolTable) :
    m (Except Fault ResolvedSymbols) := do
  match ← tools.symbolTable library table false with
  | .error fault => return .error fault
  | .ok mangled =>
    let listed := (← tools.symbolTable library table true).toOption.map
      (Listing.symbols .demangled)
    return .ok (← ResolvedSymbols.resolve demangle (Listing.symbols .mangled mangled) listed)

def kernels (demangle : Demangler m) (settings : KernelSettings) (library : String)
    (sections : SectionSummary) : m (Option KernelOutcome) := do
  if sections.hasDeviceImages then
    let image ← tools.readSection library DeviceCategory.imageTableName
    let names ← tools.readSection library DeviceCategory.kernelSymbolName
    return some (← KernelOutcome.ofSections demangle settings image names)
  else return none

/-- The dependencies of a library; a failure to list them is listed in their place. -/
def dependencies (library : String) : m (List String) := do
  match ← tools.dependencies library with
  | .ok text => return Listing.dependencies text
  | .error fault => return [fault.failureLine]

def reportOf (settings : Settings) (demangle : Demangler m) (path : String) (size : Size)
    (sections : SectionSummary) : m (Except Fault LibraryReport) := do
  let kernels ← kernels tools demangle settings.kernels path sections
  match ← symbols tools demangle path .dynamic with
  | .error fault => return .error fault
  | .ok dynamic =>
    match ← symbols tools demangle path .static with
    | .error fault => return .error fault
    | .ok static =>
      return .ok {
        name := Path.fileName path
        path
        size
        sections
        kernels
        dynamicSymbols :=
          .ofSymbols settings.symbols.dynamicNamespaceLimit.toNat dynamic.symbols
        dynamicDemangling := dynamic.demangling
        staticSymbols := .ofSymbols settings.symbols.topLimit.toNat static.symbols
        staticDemangling := static.demangling
        dependencies := ← dependencies tools path }

/-- A survey of one library. The demangler is looked up once its sections are known. -/
def library (settings : Settings) (tree : Node) (path : String) :
    StateT DemanglerSlot m (Except Fault LibraryReport) := do
  match tree.size path with
  | .error trouble => return .error trouble.fault
  | .ok size =>
    match ← StateT.lift (tools.sectionTable path) with
    | .error fault => return .error fault
    | .ok table =>
      let demangle ← tools.demangler
      StateT.lift <| reportOf tools settings demangle path size <|
        SectionSummary.ofSections (Listing.sections table)

def outcome (settings : Settings) (tree : Node) (path : String) :
    StateT DemanglerSlot m LibraryOutcome := do
  match ← library tools settings tree path with
  | .ok report => return .analyzed report
  | .error fault => return .failed (Path.fileName path) path fault.message

/-- The audit of an archive, or nothing when it fails. -/
def audit (archive : Option String) : m (Option AbiAudit) :=
  match archive with
  | none => pure none
  | some archive => do
    match ← tools.abiAudit archive with
    | .ok text => return text.map AbiAudit.ofText
    | .error _ => return none

def overlap (settings : OverlapSettings) (outcomes : List LibraryOutcome) : Overlap :=
  .of settings ((outcomes.filterMap LibraryOutcome.report?).map fun report =>
    (report.name, report.dynamicSymbols.sizes))

/-- A survey of the package below `root`, which was unpacked from `archive` if that is given. -/
def package (settings : Settings) (tree : Node) (root : String) (archive : Option String) :
    StateT DemanglerSlot m (Except Fault PackageReport) := do
  match discover tree root with
  | .error fault => return .error fault
  | .ok libraries =>
    match Inventory.build tree root archive with
    | .error fault => return .error fault
    | .ok inventory =>
      let outcomes ← libraries.mapM (outcome tools settings tree)
      let audit ← StateT.lift (audit tools archive)
      return .ok {
        libraries := outcomes
        overlap := overlap settings.overlap outcomes
        audit
        inventory := some inventory }

end SizeSurvey.Survey
