import SizeSurvey.Fault
import SizeSurvey.Text.Blank
/-!
# Outputs of tools

What a tool wrote and how it ended. A tool that did not succeed is a fault, told by what it wrote to
its error stream or, when that is blank, by its exit code. A call that is not answered in time is
given up, and counts as one to a missing tool.
-/
namespace SizeSurvey

structure ToolOutput where
  success : Bool
  /-- There is none when a signal ended the tool. -/
  exitCode : Option Int
  stdout : String
  stderr : String
deriving DecidableEq, Repr

namespace ToolOutput

def ok (stdout : String) : ToolOutput :=
  ⟨true, some 0, stdout, ""⟩

def failed (stderr : String) : ToolOutput :=
  ⟨false, some 1, "", stderr⟩

def exitCodeText : Option Int → String
  | none => "None"
  | some code => "Some(" ++ (if code < 0 then "-" else "") ++ Text.decimal code.natAbs ++ ")"

def complaint (output : ToolOutput) : String :=
  let said := Text.trim output.stderr.toList
  if said.isEmpty then "exit code " ++ exitCodeText output.exitCode else String.ofList said

def text (output : ToolOutput) (tool : String) : Except Fault String :=
  if output.success then .ok output.stdout else .error (.toolFailed tool output.complaint)

end ToolOutput

structure Deadline where
  tool : String
  milliseconds : Nat

namespace Deadline

def ofSeconds (tool : String) (seconds : Nat) : Deadline :=
  ⟨tool, 1000 * seconds⟩

/-- The fault of a call that takes too long, which tells whole seconds. -/
def fault (deadline : Deadline) : Fault :=
  .timedOut deadline.tool (deadline.milliseconds / 1000)

/-- The answer to a call, which is missing if it never comes. -/
def await {α : Type} (deadline : Deadline) (answer : Option (Except Fault α)) : Except Fault α :=
  answer.getD (.error deadline.fault)

end Deadline

end SizeSurvey
