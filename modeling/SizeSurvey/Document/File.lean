import SizeSurvey.Json.Parser
import SizeSurvey.Json.Printer
import SizeSurvey.Json.Reader
import SizeSurvey.Text.Utf8
import SizeSurvey.Tree.Basic
/-!
# Documents in files

A document is written to a file as its text in UTF-8, and read back through a reader. A file that is
no UTF-8 cannot be read at all.
-/
namespace SizeSurvey

namespace Node

def writeJson (tree : Node) (path : String) (value : Json) : Except Fault Node :=
  (tree.write path (Text.Utf8.encode (Json.write 0 value))).mapError Trouble.fault

def readText (tree : Node) (path : String) : Except Fault String := do
  let octets ← (tree.read path).mapError Trouble.fault
  match Text.Utf8.decodeString? octets with
  | some text => return text
  | none => .error (.inputOutput "stream did not contain valid UTF-8")

def readJson {α : Type} (tree : Node) (path : String) (reader : Json.Reader α) :
    Except Fault α := do
  match (Json.ofText? (← tree.readText path)).bind (reader {}) with
  | some value => return value
  | none => .error .malformedDocument

/-- Writes documents one after the other, up to the first that cannot be written. -/
def writeAll (directory : String) (documents : List (String × Json)) (tree : Node) :
    Node × Option Fault :=
  match documents with
  | [] => (tree, none)
  | (name, value) :: rest =>
    match tree.writeJson (Path.child directory name) value with
    | .ok tree => writeAll directory rest tree
    | .error fault => (tree, some fault)

end Node

end SizeSurvey
