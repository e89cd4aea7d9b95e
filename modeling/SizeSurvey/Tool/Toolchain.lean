import SizeSurvey.Demangle.Builtin
import SizeSurvey.Demangle.External
import SizeSurvey.Settings
import SizeSurvey.Tool.Slot
/-!
# Toolchains

All that a survey asks of the outside: running a program, finding an installed one, and reading the
bytes of a section. Which programs are run, and with which arguments, is decided here.
-/
namespace SizeSurvey

/-- What a toolchain has without asking the outside. -/
structure Equipment where
  settings : ToolSettings
  manglings : Manglings

structure Toolchain (m : Type → Type) extends Equipment where
  run : String → List String → Option String → m (Except Fault ToolOutput)
  find : String → m (Option String)
  /-- The bytes of a section of a library, or nothing when it is absent or empty. -/
  readSection : String → String → m (Except Fault (Option (List UInt8)))

inductive SymbolTable where
  | dynamic
  | static
deriving DecidableEq

namespace Toolchain

variable {m : Type → Type} [Monad m] (tools : Toolchain m)

def text (program : String) (arguments : List String) : m (Except Fault String) := do
  match ← tools.run program arguments none with
  | .ok output => return output.text program
  | .error fault => return .error fault

def sectionTable (library : String) : m (Except Fault String) :=
  tools.text tools.settings.sectionLister ["--section-headers", "--wide", library]

def symbolArguments (table : SymbolTable) (demangled : Bool) (library : String) : List String :=
  ["--size-sort", "--print-size", "--radix=d", "--format=posix"]
    ++ (if table = .dynamic then ["-D"] else [])
    ++ (if demangled then ["--demangle"] else []) ++ [library]

def symbolTable (library : String) (table : SymbolTable) (demangled : Bool) :
    m (Except Fault String) :=
  tools.text tools.settings.symbolLister (symbolArguments table demangled library)

def dependencies (library : String) : m (Except Fault String) :=
  tools.text tools.settings.dependencyLister [library]

/-- The audit of a package, or nothing when the auditor cannot be had. -/
def abiAudit (archive : String) : m (Except Fault (Option String)) := do
  match ← tools.text tools.settings.abiAuditor ["show", archive] with
  | .ok text => return .ok (some text)
  | .error fault => return if fault.isUnavailable then .ok none else .error fault

/-- The demangler that the settings ask for; an external one is looked up through the slot. -/
def demangler : StateT DemanglerSlot m (Demangler m) := fun slot =>
  match tools.settings.demangler with
  | .builtin => pure (Demangler.builtin tools.manglings, slot)
  | .external => do
    let (program, slot) ← slot.resolve tools.find tools.settings.demanglers
    return (Demangler.external tools.run program, slot)

end Toolchain

end SizeSurvey
