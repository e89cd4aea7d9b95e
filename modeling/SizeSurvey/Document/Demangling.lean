import SizeSurvey.Demangle.Basic
import SizeSurvey.Json.Reader
/-!
# Documents about demangling

The reason why a batch was left as it was stands beside the status, not inside it.
-/
namespace SizeSurvey

open Json (Reader)

namespace DegradeReason

def members : DegradeReason → List (String × Json)
  | toolUnavailable => [("reason", .string "tool_unavailable")]
  | toolFailed message => [("reason", .string "tool_failed"), ("message", .string message)]
  | countMismatch expected actual =>
    [("reason", .string "count_mismatch"), ("expected", .natural expected),
      ("actual", .natural actual)]

def toJson (reason : DegradeReason) : Json :=
  .object reason.members

def reader : Reader DegradeReason :=
  .tagged "reason" ["tool_unavailable", "tool_failed", "count_mismatch"] fun variant =>
    match variant with
    | 0 => .bare toolUnavailable
    | 1 => .record ["message"] fun fields => do
      return toolFailed (← fields.required .text "message")
    | _ => .record ["expected", "actual"] fun fields => do
      return countMismatch (← fields.required .count "expected") (← fields.required .count "actual")

end DegradeReason

namespace DemangleStatus

def toJson : DemangleStatus → Json
  | demangled => .object [("status", .string "demangled")]
  | degraded reason => .object (("status", .string "degraded") :: reason.members)

/-- The reason is read from the members beside the status. -/
def degradedReader : Reader DemangleStatus
  | place, .object others => (DegradeReason.reader place (.object others)).map degraded
  | _, _ => none

def reader : Reader DemangleStatus :=
  .tagged "status" ["demangled", "degraded"] fun variant =>
    match variant with
    | 0 => .bare demangled
    | _ => degradedReader

end DemangleStatus

end SizeSurvey
