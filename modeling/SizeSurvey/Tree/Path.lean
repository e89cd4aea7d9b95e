import SizeSurvey.Text.Split
/-!
# Paths

A path is a text of steps with slashes between them. As a name of a place, empty steps and steps to
the same directory do not count, except for such a step in front.
-/
namespace SizeSurvey

inductive Step where
  | root
  | here
  | up
  | name (text : String)
deriving DecidableEq, Repr

namespace Path

/-- The texts between the slashes. -/
def pieces (path : String) : List String :=
  (Text.splitAt '/' path.toList).map String.ofList

def step (piece : String) : Step :=
  if piece = ".." then .up else .name piece

def isStep (piece : String) : Bool :=
  piece ≠ "" && piece ≠ "."

/-- The steps that count. -/
def steps (path : String) : List Step :=
  let pieces := pieces path
  let front : List Step := match pieces with
    | "" :: _ :: _ => [.root]
    | "." :: _ => [.here]
    | _ => []
  front ++ (pieces.filter isStep).map step

/-- The steps that are names. -/
def names (path : String) : List String :=
  (steps path).filterMap fun step =>
    match step with
    | .name text => some text
    | _ => none

def fileName? (path : String) : Option String :=
  match (steps path).getLast? with
  | some (.name text) => some text
  | _ => none

/-- The name at the end of a path, or the path itself when it does not end with one. -/
def fileName (path : String) : String :=
  (fileName? path).getD path

/-- What follows the last point of a name, unless the name has no other character before it. -/
def extension? (name : String) : Option String :=
  let reversed := name.toList.reverse
  match reversed.dropWhile (· ≠ '.') with
  | '.' :: _ :: _ => some (String.ofList (reversed.takeWhile (· ≠ '.')).reverse)
  | _ => none

def child (directory name : String) : String :=
  if directory = "" ∨ directory.toList.getLast? = some '/' then directory ++ name
  else directory ++ "/" ++ name

def parentSteps (path : String) : List Step :=
  (steps path).dropLast

def ofSteps : List Step → String
  | [] => ""
  | [.root] => "/"
  | steps => String.ofList <| Text.join ['/'] <| steps.map fun step =>
      match step with
      | .root => []
      | .here => ['.']
      | .up => ['.', '.']
      | .name text => text.toList

end Path

end SizeSurvey
