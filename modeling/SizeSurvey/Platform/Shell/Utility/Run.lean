import SizeSurvey.Platform.Shell.Machine
import SizeSurvey.Text.Split
/-!
# Runs of utilities

A utility is given words and runs on a machine until it ends with a status. What it writes to its
output is kept until then, unless it says otherwise, and what it says about troubles comes at once.
-/
namespace SizeSurvey.Shell.Utility

/-- A run of a utility so far. -/
structure Run where
  name : String
  ports : Ports
  machine : Machine
  status : Nat := 0
  broken : Option String := none

namespace Run

def write (run : Run) (text : List Char) : Run :=
  if run.broken.isSome then run
  else
    match run.machine.write run.ports.output text with
    | .ok machine => { run with machine }
    | .error reason => { run with broken := some reason }

def say (run : Run) (text : String) : Run :=
  { run with machine := run.machine.append run.ports.error (octetsOf text) }

def complain (run : Run) (text : String) (status : Nat := 1) : Run :=
  { run.say (run.name ++ ": " ++ text ++ "\n") with status }

def hint (run : Run) : String :=
  "Try '" ++ run.name ++ " --help' for more information.\n"

def refuse (run : Run) (text : String) : Run :=
  (run.complain text).say run.hint

def finish (run : Run) : Run :=
  match run.broken with
  | some reason => run.complain ("write error: " ++ reason)
  | none => run

/-- Reads a stream to its end and does something with each piece as soon as it is there. -/
def pour {α : Type} (run : Run) (stream : Option Stream) (initial : α)
    (act : Run → α → List Char → Run × α) : Except String (Run × α) := do
  let (text, closes) ← run.machine.available stream
  let (run, last) := (← run.machine.pieces stream).foldl (fun (run, state) (time, piece) =>
    act { run with machine := run.machine.waitUntil time } state piece) (run, initial)
  let machine := (run.machine.consume stream text.length).waitUntil closes
  return ({ run with machine }, last)

def isInput (operand : List Char) : Bool :=
  operand = ['-']

def readOperand (run : Run) (operand : List Char) : Run × Option (List Char) :=
  let read := if isInput operand then run.machine.readAll run.ports.input
    else run.machine.readPath run.ports (nameOf operand)
  match read with
  | .ok (text, machine) => ({ run with machine }, some text)
  | .error reason => (run.complain (nameOf operand ++ ": " ++ reason), none)

/-- The texts of all operands that can be read, or of the input if there are none. -/
def readOperands (run : Run) (operands : List (List Char)) :
    Run × List (List Char × List Char) :=
  (if operands.isEmpty then [['-']] else operands).foldl (fun (run, texts) operand =>
    match run.readOperand operand with
    | (run, some text) => (run, texts ++ [(operand, text)])
    | (run, none) => (run, texts)) (run, [])

end Run

abbrev Behaviour := List (List Char) → Run → Run

/-- An option: its letter, its long names, and whether it takes an argument. -/
structure Choice where
  letter : Char
  names : List String := []
  takesArgument : Bool := false

/-- The options that were chosen, with their arguments, and the other words. -/
structure Chosen where
  options : List (Char × List Char) := []
  operands : List (List Char) := []

namespace Chosen

def has (chosen : Chosen) (letter : Char) : Bool :=
  chosen.options.any fun option => option.1 = letter

def argument? (chosen : Chosen) (letter : Char) : Option (List Char) :=
  chosen.options.reverse.lookup letter

end Chosen

/-- The options whose long names begin with a word; a name that is the word is the only one. -/
def named (choices : List Choice) (word : String) : List (Choice × String) :=
  let all := choices.flatMap fun choice => choice.names.map fun name => (choice, name)
  match all.find? fun entry => entry.2 = word with
  | some entry => [entry]
  | none => all.filter fun entry => word.toList.isPrefixOf entry.2.toList

/-- The letters of one word, the last of which may take the rest of the word or the next one. -/
def letters (choices : List Choice) (rest : List (List Char)) :
    List Char → Except String (List (Char × List Char) × List (List Char))
  | [] => .ok ([], rest)
  | letter :: more =>
    match choices.find? fun choice => choice.letter = letter with
    | none => .error ("invalid option -- '" ++ nameOf [letter] ++ "'")
    | some choice =>
      if choice.takesArgument then
        if more.isEmpty then
          match rest with
          | argument :: rest => .ok ([(letter, argument)], rest)
          | [] => .error ("option requires an argument -- '" ++ nameOf [letter] ++ "'")
        else .ok ([(letter, more)], rest)
      else do
        let (options, rest) ← letters choices rest more
        return ((letter, []) :: options, rest)

def long (choices : List Choice) (rest : List (List Char)) (word : List Char) :
    Except String (List (Char × List Char) × List (List Char)) :=
  let name := word.takeWhile (· ≠ '=')
  let argument? := if name.length < word.length then some (word.drop (name.length + 1)) else none
  match named choices (nameOf name) with
  | [] => .error ("unrecognized option '--" ++ nameOf word ++ "'")
  | [(choice, found)] =>
    match choice.takesArgument, argument? with
    | true, some argument => .ok ([(choice.letter, argument)], rest)
    | true, none =>
      match rest with
      | argument :: rest => .ok ([(choice.letter, argument)], rest)
      | [] => .error ("option '--" ++ found ++ "' requires an argument")
    | false, some _ => .error ("option '--" ++ found ++ "' doesn't allow an argument")
    | false, none => .ok ([(choice.letter, [])], rest)
  | found =>
    .error ("option '--" ++ nameOf word ++ "' is ambiguous; possibilities:"
      ++ String.join (found.map fun entry => " '--" ++ entry.2 ++ "'"))

/-- Tells options and operands apart. Options may follow operands if they are `mixed`. -/
def choose (choices : List Choice) (mixed : Bool) : Nat → List (List Char) → Except String Chosen
  | 0, words => .ok { operands := words }
  | fuel + 1, words =>
    let add (found : List (Char × List Char)) (chosen : Chosen) : Chosen :=
      { chosen with options := found ++ chosen.options }
    match words with
    | [] => .ok {}
    | ['-', '-'] :: rest => .ok { operands := rest }
    | ('-' :: '-' :: word) :: rest => do
      let (found, rest) ← long choices rest word
      return add found (← choose choices mixed fuel rest)
    | ('-' :: letter :: more) :: rest => do
      let (found, rest) ← letters choices rest (letter :: more)
      return add found (← choose choices mixed fuel rest)
    | operand :: rest =>
      if mixed then do
        let chosen ← choose choices mixed fuel rest
        return { chosen with operands := operand :: chosen.operands }
      else .ok { operands := words }

def withChosen (choices : List Choice) (act : Chosen → Run → Run) (mixed : Bool := true) :
    Behaviour :=
  fun words run =>
    match choose choices mixed (words.length + 1) words with
    | .ok chosen => act chosen run
    | .error reason => run.refuse reason

end SizeSurvey.Shell.Utility
