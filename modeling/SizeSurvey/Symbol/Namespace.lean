import SizeSurvey.Text.Split
/-!
# Namespaces of names

A name is cut into tokens at its double colons, leftmost first. A key made of its leading tokens
groups it with other names of the same namespace.
-/
namespace SizeSurvey.Namespace

/-- The pieces between double colons, empty ones included. -/
def pieces : List Char → List (List Char)
  | [] => [[]]
  | ':' :: ':' :: rest => [] :: pieces rest
  | c :: rest =>
    match pieces rest with
    | [] => [[c]]
    | piece :: others => (c :: piece) :: others

def tokens (name : String) : List (List Char) :=
  (pieces name.toList).filter fun piece => !piece.isEmpty

def joined (tokens : List (List Char)) : String :=
  String.ofList (Text.join [':', ':'] tokens)

/-- The leading tokens for the first depth that there are enough tokens for. -/
def leading? (depths : List Nat) (tokens : List (List Char)) : Option String :=
  (depths.find? fun depth => 0 < depth && depth ≤ tokens.length).map fun depth =>
    joined (tokens.take depth)

/-- Three tokens, else the first one, else the whole name. -/
def key (name : String) : String :=
  (leading? [3, 1] (tokens name)).getD name

end SizeSurvey.Namespace
