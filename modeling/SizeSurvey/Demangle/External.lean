import SizeSurvey.Demangle.Basic
import SizeSurvey.Text.Split
import SizeSurvey.Tool.Output
/-!
# Demangling with a tool

The names of a batch go to the tool one on a line, and its lines are taken as the demangled names if
there are as many of them.
-/
namespace SizeSurvey.Demangler

def inputOf (names : List String) : String :=
  String.join (names.map (· ++ "\n"))

def batchOfOutput (names : List String) (stdout : String) : DemangledBatch :=
  let lines := (Text.lines stdout.toList).map String.ofList
  if lines.length = names.length then .complete lines
  else .unchanged names (.countMismatch names.length lines.length)

def batchOfFault (names : List String) (fault : Fault) : DemangledBatch :=
  .unchanged names <|
    if fault.isUnavailable then .toolUnavailable else .toolFailed fault.message

def batchOfCall (names : List String) (program : String) :
    Except Fault ToolOutput → DemangledBatch
  | .error fault => batchOfFault names fault
  | .ok output =>
    match output.text program with
    | .ok stdout => batchOfOutput names stdout
    | .error fault => .unchanged names (.toolFailed fault.failureLine)

/-- Demangles with a program if there is one. Nothing is run for an empty batch. -/
def external {m : Type → Type} [Monad m]
    (run : String → List String → Option String → m (Except Fault ToolOutput))
    (program : Option String) : Demangler m := fun names =>
  if names.isEmpty then pure (.complete [])
  else match program with
    | none => pure (.unchanged names .toolUnavailable)
    | some program => do
      return batchOfCall names program (← run program [] (some (inputOf names)))

end SizeSurvey.Demangler
