import SizeSurvey.Text.Digit
/-!
# Faults

What can go wrong while sizes are surveyed. A missing tool and one that runs out of time are the
same class of fault: the capability is not there, but nothing is broken. Four faults end a whole
run, all others concern one library only.
-/
namespace SizeSurvey

inductive Fault where
  | toolUnavailable (tool : String)
  | toolFailed (tool message : String)
  | timedOut (tool : String) (seconds : Nat)
  | pairingMismatch (records names : Nat)
  | invalidThreshold (text : String)
  | baselineNotFound (path : String)
  | noLibraries (path : String)
  | noSizes (path : String)
  | invalidInput (message : String)
  | inputOutput (message : String)
  | malformedDocument
deriving DecidableEq, Repr

namespace Fault

def message : Fault → String
  | toolUnavailable tool => "Tool not available: " ++ tool
  | toolFailed tool message => "Tool '" ++ tool ++ "' failed: " ++ message
  | timedOut tool seconds => "Tool '" ++ tool ++ "' timed out after " ++ Text.decimal seconds ++ "s"
  | pairingMismatch records names =>
    "Kernel table pairing mismatch: " ++ Text.decimal records ++ " records vs "
      ++ Text.decimal names ++ " names"
  | invalidThreshold text => "Invalid growth threshold: " ++ text
  | baselineNotFound path => "Baseline file not found: " ++ path
  | noLibraries path => "No shared libraries found under " ++ path
  | noSizes path => "No size data found in " ++ path
  | invalidInput message => "Invalid input: " ++ message
  | inputOutput message => "I/O error: " ++ message
  | malformedDocument => "Serialization error: malformed document"

/-- Whether a capability is missing rather than broken. -/
def isUnavailable : Fault → Bool
  | toolUnavailable _ => true
  | timedOut _ _ => true
  | _ => false

def endsRun : Fault → Bool
  | baselineNotFound _ => true
  | noLibraries _ => true
  | noSizes _ => true
  | invalidThreshold _ => true
  | _ => false

/-- The text kept of a failed tool call: what the tool said, or else the whole message. -/
def failureLine : Fault → String
  | toolFailed _ message => message
  | fault => fault.message

end Fault

end SizeSurvey
