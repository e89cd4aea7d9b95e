import SizeSurvey.Elf
import SizeSurvey.Platform.Demangle.Decorated
import SizeSurvey.Platform.Demangle.HashedPath
import SizeSurvey.Platform.Demangle.Itanium
import SizeSurvey.Platform.Shell.Launch
import SizeSurvey.Tool.Toolchain
/-!
# The toolchain of a file tree

Tools are programs that run in a file tree, which they may change. The interpreter of their scripts
and the readers of mangled names stand in for software that is installed beside a survey; nothing that
a survey does depends on how they work.
-/
namespace SizeSurvey

def Manglings.usual : Manglings where
  rust name := (HashedPath.demangle? name.toList).map String.ofList
  itanium name := (Itanium.demangle? name.toList).map String.ofList
  decorated name := (Decorated.demangle? name.toList).map String.ofList

namespace Toolchain

def installed? (tree : Node) (name : String) : Option String :=
  let launch : Shell.Launch := { program := name, milliseconds := 0 }
  let directories := Shell.Program.searched Shell.Launch.environment
  match Shell.Program.find launch.ports (launch.machine tree) directories name with
  | .ok _ => some (if name.contains '/' then name else "/usr/bin/" ++ name)
  | .error _ => none

def system (settings : ToolSettings) : Toolchain (StateM Node) where
  run program arguments input := fun tree =>
    { program, arguments, input, milliseconds := 1000 * settings.timeoutSeconds.toNat :
      Shell.Launch }.run tree
  find name := fun tree => (installed? tree name, tree)
  readSection library name := fun tree => (Elf.readSection tree library name, tree)
  settings := settings
  manglings := .usual

end Toolchain

end SizeSurvey
