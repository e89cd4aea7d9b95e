import SizeSurvey.CommandLine.Help
import SizeSurvey.Decimal.Writing
import SizeSurvey.Document.Settings
import SizeSurvey.Gate.Files
import SizeSurvey.Gate.Verdict
import SizeSurvey.Report.Files
import SizeSurvey.Survey
/-!
# Runs of the command line

A run prints lines and writes files, and ends with an exit code: zero when all is well, one when the
gate is closed or something failed, and two when the words make no request. What was printed and
written before a failure stays.
-/
namespace SizeSurvey.CommandLine

/-- The files that a run works on, and the lines that it has printed, the last one first. -/
structure Console where
  tree : Node
  printed : List String := []

structure Failure where
  fault : Fault
  context : Option String := none

abbrev Work := ExceptT Failure (StateM Console)

namespace Work

def print (line : String) : Work Unit :=
  modify fun console => { console with printed := line :: console.printed }

def printAll (lines : List String) : Work Unit :=
  lines.forM print

def tree : Work Node := do
  return (← get).tree

def setTree (tree : Node) : Work Unit :=
  modify fun console => { console with tree }

/-- The value of a result, or its fault as a failure at `context`. -/
def orFail {α : Type} (result : Except Fault α) (context : Option String := none) : Work α :=
  match result with
  | .ok value => return value
  | .error fault => throw { fault, context }

end Work

open Work

def settings (path : Option String) : Work Settings :=
  match path with
  | some path => do orFail (Settings.load (← tree) path) (some ("loading configuration " ++ path))
  | none => return {}

def runSurvey (tools : ToolSettings → Toolchain (StateM Node)) (request : SurveyRequest) :
    Work Bool := do
  let settings ← settings request.config
  let before ← tree
  let survey := Survey.package (tools settings.tools) settings before request.root request.archive
  let (result, after) := (survey.run' {}).run before
  setTree after
  let report ← orFail result
  let (written, fault) := report.writeTo after request.output
  setTree written
  match fault with
  | some fault => throw { fault }
  | none => pure ()
  let analyzed := report.analyzed.length
  print ("Analyzed " ++ Text.decimal report.libraries.length ++ " libraries ("
    ++ Text.decimal (report.libraries.length - analyzed) ++ " failed), "
    ++ Text.decimal report.metrics.size ++ " size metrics written to " ++ request.output)
  return true

def newLine (component : NewComponent) : String :=
  "NEW: " ++ component.component ++ " = " ++ component.size.text

def improvementLines (improvements : List Improvement) : List String :=
  if improvements.isEmpty then []
  else ["", "Size improvements:"] ++ improvements.map fun improvement =>
    "  " ++ improvement.component ++ ": -" ++ improvement.reduction.text

/-- The growth in percent with one place. -/
def percentText (percent : Option Float) : String :=
  match percent with
  | some percent => Decimal.fixed 1 percent ++ "%"
  | none => "new from zero"

def regressionLines (regression : Regression) : List String :=
  ["",
    "  " ++ regression.component ++ ":",
    "    Baseline: " ++ regression.baseline.text,
    "    Current:  " ++ regression.current.text,
    "    Growth:   " ++ regression.growth.text ++ " (" ++ percentText regression.percent ++ ")"]

def verdictLines (threshold : String) (verdict : Verdict) : List String :=
  verdict.newComponents.map newLine ++
    if verdict.passed then
      ("Size check PASSED (threshold: " ++ threshold ++ ")")
        :: improvementLines verdict.improvements
    else
      ["Size check FAILED (threshold: " ++ threshold ++ ")",
        "",
        Text.decimal verdict.failures.length ++ " components exceed growth threshold:"]
        ++ verdict.failures.flatMap regressionLines

def usualBaseline : String := "size_baseline.json"

def saveBaseline (current : Metrics) (path : String) : Work Bool := do
  let (_, written) ← orFail (Baseline.save (← tree) current path)
  setTree written
  print ("Baseline saved to " ++ path)
  return true

def compare (settings : GateSettings) (current : Metrics) (path : String)
    (output : Option String) : Work Bool := do
  let baseline ← orFail (Baseline.load (← tree) path)
  let verdict ← orFail (Verdict.ofSettings current baseline settings)
  printAll (verdictLines settings.maxGrowth verdict)
  match output with
  | none => pure ()
  | some output =>
    let report : GateReport := ⟨settings.maxGrowth, verdict, current, baseline⟩
    setTree (← orFail ((← tree).writeJson output report.toJson) (some ("writing " ++ output)))
  return verdict.passed

def runGate (request : GateRequest) : Work Bool := do
  let loaded := (← settings request.config).gate
  let settings := { loaded with maxGrowth := request.maxGrowth.getD loaded.maxGrowth }
  let current ← orFail (Metrics.load (← tree) request.directory)
  print ("Loaded " ++ Text.decimal current.size ++ " size metrics")
  if request.savesBaseline then saveBaseline current (request.baseline.getD usualBaseline)
  else
    match request.baseline with
    | some baseline => compare settings current baseline request.output
    | none =>
      print "No baseline specified. Current sizes:"
      printAll ((current.above settings.reportFloor).map fun (name, size) =>
        "  " ++ name ++ ": " ++ size.text)
      return true

structure Outcome where
  exitCode : Nat
  output : String := ""
  error : String := ""
  tree : Node

/-- What is said about a failure. One that ends every run is told in one line. -/
def Failure.text (failure : Failure) : String :=
  match failure.context, failure.fault.endsRun with
  | some context, false =>
    "Error: " ++ context ++ "\n\nCaused by:\n    " ++ failure.fault.message ++ "\n"
  | _, _ => "Error: " ++ failure.fault.message ++ "\n"

section Tools
variable (tools : ToolSettings → Toolchain (StateM Node))

def runRequest (request : Request) (tree : Node) : Outcome :=
  let work : Work Bool := match request with
    | .survey request => runSurvey tools request
    | .gate request => runGate request
  let (result, console) := work.run { tree }
  let output := ofLines console.printed.reverse
  match result with
  | .ok passed => { exitCode := if passed then 0 else 1, output, tree := console.tree }
  | .error failure => { exitCode := 1, output, error := failure.text, tree := console.tree }

/-- Runs the request that words make in a tree of files, with the tools that the settings choose. -/
def run (words : List String) (tree : Node) : Outcome :=
  match Request.ofWords words with
  | .ok request => runRequest tools request tree
  | .error (.help topic) => { exitCode := 0, output := helpText topic, tree }
  | .error .version => { exitCode := 0, output := versionText, tree }
  | .error (.misuse reason) =>
    { exitCode := 2
      error := "error: " ++ reason ++ "\n\nFor more information, try '--help'.\n"
      tree }

end Tools

end SizeSurvey.CommandLine
