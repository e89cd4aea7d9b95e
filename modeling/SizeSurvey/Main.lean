import SizeSurvey.CommandLine.Run
import SizeSurvey.Platform.System
/-!
# The program

The files that a run may look at are named on the standard input, one path a line. They are read
first, and the files that the run changed are written when it is over. A file that begins like a
script counts as one that may be run.
-/
namespace SizeSurvey.CommandLine

def readFiles (paths : List String) : IO Node :=
  paths.foldlM (fun tree (path : String) => do
    try
      let octets := (← IO.FS.readBinFile path).toList
      let executable := octets.take 2 = [0x23, 0x21]
      return tree.put (Path.names path) (.file octets executable)
    catch _ => return tree) Node.empty

/-- Writes the files of a run that differ from those before it. -/
def writeFiles (before : Node) (files : List Visited) : IO Unit :=
  files.forM fun file => do
    let isSame := match before.at? file.relative with
      | some (.file octets _) => octets == file.octets
      | _ => false
    if isSame then pure ()
    else
      IO.FS.createDirAll (Path.ofSteps (file.relative.dropLast.map Step.name))
      IO.FS.writeBinFile file.path ⟨file.octets.toArray⟩

end SizeSurvey.CommandLine

open SizeSurvey

def main (words : List String) : IO UInt32 := do
  let listing ← (← IO.getStdin).readToEnd
  let paths := (Text.lines listing.toList).map String.ofList
  let before ← CommandLine.readFiles (paths.filter (!·.isEmpty))
  let outcome := CommandLine.run Toolchain.system words before
  CommandLine.writeFiles before (outcome.tree.files "" [])
  IO.print outcome.output
  IO.eprint outcome.error
  return UInt32.ofNat outcome.exitCode
