import SizeSurvey.Platform.Shell.Session
/-!
# Options of the shell's own commands

Options are letters after a hyphen, some of which take an argument. An option that a command does not
have is an error.
-/
namespace SizeSurvey.Shell.Builtin

def letters (plain taking : List Char) (rest : List (List Char)) :
    List Char → Except String (List (Char × List Char) × List (List Char))
  | [] => .ok ([], rest)
  | letter :: more =>
    if plain.contains letter then do
      let (found, rest) ← letters plain taking rest more
      return ((letter, []) :: found, rest)
    else if taking.contains letter then
      match more, rest with
      | [], argument :: rest => .ok ([(letter, argument)], rest)
      | [], [] => .error ("No arg for -" ++ nameOf [letter] ++ " option")
      | more, rest => .ok ([(letter, more)], rest)
    else .error ("Illegal option -" ++ nameOf [letter])

def split (plain taking : List Char) : Nat → List (List Char) →
    Except String (List (Char × List Char) × List (List Char))
  | 0, words => .ok ([], words)
  | fuel + 1, words =>
    match words with
    | ['-', '-'] :: rest => .ok ([], rest)
    | ('-' :: letter :: more) :: rest => do
      let (found, rest) ← letters plain taking rest (letter :: more)
      let (others, operands) ← split plain taking fuel rest
      return (found ++ others, operands)
    | operands => .ok ([], operands)

def options (plain taking : String) (words : List (List Char)) :
    Act (List (Char × List Char) × List (List Char)) := do
  match split plain.toList taking.toList (words.length + 1) words with
  | .ok found => return found
  | .error reason => Act.fail reason

def operands (words : List (List Char)) : Act (List (List Char)) := do
  return (← options "" "" words).2

def number (word : List Char) : Act Nat := do
  match Numeral.whole? false word with
  | some value =>
    if value < 0 ∨ (Nat.pow 2 31 : Nat) ≤ value then Act.fail ("Illegal number: " ++ nameOf word)
    else return value.toNat
  | none => Act.fail ("Illegal number: " ++ nameOf word)

/-- A text in quotation marks that would be read as the same text; marks in it stand in marks of the
other kind. -/
def quotedFrom : Nat → List Char → List Char
  | 0, _ => []
  | fuel + 1, text =>
    let plain := text.takeWhile (· ≠ '\'')
    let rest := text.drop plain.length
    let marks := rest.takeWhile (· = '\'')
    let after := rest.drop marks.length
    ['\''] ++ plain ++ ['\''] ++ (if marks.isEmpty then [] else ['"'] ++ marks ++ ['"'])
      ++ if after.isEmpty then [] else quotedFrom fuel after

def quoted (text : List Char) : List Char :=
  quotedFrom (text.length + 1) text

end SizeSurvey.Shell.Builtin
