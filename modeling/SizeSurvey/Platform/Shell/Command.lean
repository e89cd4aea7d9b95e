/-!
# Commands of the shell

A script is a list of commands. Words keep what was quoted in them, because only the other parts are
split into fields and matched against names.
-/
namespace SizeSurvey.Shell

/-- What happens to the value of a parameter. -/
inductive Operator where
  | plain
  | default (emptyToo : Bool)
  | assign (emptyToo : Bool)
  | demand (emptyToo : Bool)
  | alternative (emptyToo : Bool)
  | withoutStart (longest : Bool)
  | withoutEnd (longest : Bool)
  | length
  | unknown
deriving DecidableEq, Repr, Inhabited

/-- How one command follows another. -/
inductive Link where
  | both
  | either
deriving DecidableEq, Repr, Inhabited

mutual

inductive Piece where
  | text (quoted : Bool) (chars : List Char)
  | parameter (quoted : Bool) (name : List Char) (operator : Operator) (operand : List Piece)
  | output (quoted : Bool) (commands : List Command)
  | arithmetic (quoted : Bool) (expression : List Piece)

/-- Where a stream of a command is led. -/
inductive Direction where
  | readFrom (path : List Piece)
  /-- A file that exists is kept from being overwritten if the shell is set to do so. -/
  | writeTo (path : List Piece) (forced : Bool)
  | appendTo (path : List Piece)
  | readAndWrite (path : List Piece)
  | copyOf (stream : List Piece)
  | document (index : Nat)

inductive Redirection where
  | mk (stream : Nat) (direction : Direction)

inductive Command where
  | simple (line : Nat) (assignments : List (List Char × List Piece)) (words : List (List Piece))
      (redirections : List Redirection)
  | pipeline (commands : List Command)
  | negated (command : Command)
  | linked (first : Command) (link : Link) (second : Command)
  | sequence (commands : List Command)
  | background (command : Command)
  | redirected (line : Nat) (command : Command) (redirections : List Redirection)
  | subshell (line : Nat) (body : Command) (redirections : List Redirection)
  | choice (condition thenBranch : Command) (elseBranch : Option Command)
  | loop (untilTrue : Bool) (condition body : Command)
  | each (line : Nat) (name : List Char) (words : Option (List (List Piece))) (body : Command)
  | cases (line : Nat) (word : List Piece) (branches : List (List (List Piece) × Command))
  | define (line : Nat) (name : List Char) (body : Command)

end

instance : Inhabited Piece := ⟨.text false []⟩

instance : Inhabited Command := ⟨.sequence []⟩

abbrev Word := List Piece

namespace Word

/-- The characters of a word of which nothing is quoted and nothing is to be replaced. -/
def plain? (word : Word) : Option (List Char) :=
  (word.mapM fun (piece : Piece) =>
    match piece with
    | .text false chars => some chars
    | _ => none).map List.flatten

def literal (word : Word) : List Char :=
  word.flatMap fun (piece : Piece) =>
    match piece with
    | .text _ chars => chars
    | _ => []

def isQuoted (word : Word) : Bool :=
  word.any fun (piece : Piece) =>
    match piece with
    | .text quoted _ => quoted
    | _ => false

end Word

abbrev Documents := List (Nat × Word)

end SizeSurvey.Shell
