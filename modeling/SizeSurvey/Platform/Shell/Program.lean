import SizeSurvey.Platform.Shell.Session
import SizeSurvey.Platform.Shell.Surroundings
import SizeSurvey.Platform.Shell.Utility.Table
/-!
# Programs

What is started under a name: a utility, a shell, or a file of the tree whose first line names the
program that reads it.
-/
namespace SizeSurvey.Shell

inductive Program where
  | utility (name : String) (behaviour : Utility.Behaviour)
  | shell (name : String)
  | starter (name : String)
  | file (path : String) (text : List Char)

namespace Program

def named? (name : String) : Option Program :=
  match name with
  | "sh" => some (.shell name)
  | "dash" => some (.shell name)
  | "bash" => some (.shell name)
  | "env" => some (.starter name)
  | name => (Utility.behaviour? name).map (.utility name)

def called (program : Program) (name : String) : Program :=
  match program with
  | utility _ behaviour => .utility name behaviour
  | shell _ => .shell name
  | starter _ => .starter name
  | file path text => .file path text

def atPath (ports : Ports) (machine : Machine) (path : String) : Except Trouble Program :=
  match (Surrounding.programName? path).bind named? with
  | some program => .ok (program.called path)
  | none =>
    let place := ports.resolve path
    if Surrounding.directories.contains place ∨ Surrounding.devices.contains place then
      .error .denied
    else do
      match ← machine.tree.find place with
      | .file octets executable =>
        if path.toList.getLast? = some '/' then .error .notADirectory
        else if executable then return .file path (ofOctets octets)
        else .error .denied
      | _ => .error .denied

def searched (bindings : List (List Char × Variable)) : List String :=
  match (bindings.lookup "PATH".toList).bind Variable.value with
  | some path => (Text.splitAt ':' path).map nameOf
  | none => ["/usr/local/bin", "/usr/bin", "/bin"]

def isAt (ports : Ports) (machine : Machine) (path : String) : Bool :=
  (atPath ports machine path).toOption.isSome

/-- The path of a program in some directories, the empty one being where the shell is. -/
def path? (ports : Ports) (machine : Machine) (directories : List String) (name : String) :
    Option String :=
  let paths := directories.map fun directory =>
    if directory = "" then Path.child "." name else Path.child directory name
  paths.find? (isAt ports machine)

def find (ports : Ports) (machine : Machine) (directories : List String) (name : String) :
    Except Trouble Program :=
  if name.contains '/' then atPath ports machine name
  else
    match (if name = "" then none else path? ports machine directories name) with
    | none => .error .notFound
    | some path => (atPath ports machine path).map (·.called name)

/-- The program that a file names in its first line, and the argument it gives to it. -/
def interpreter? (text : List Char) : Option (String × Option (List Char)) :=
  match text with
  | '#' :: '!' :: rest =>
    let isBlank (c : Char) : Bool := c == ' ' || c == '\t'
    let line := (rest.takeWhile (· ≠ '\n')).dropWhile isBlank
    let path := line.takeWhile (!isBlank ·)
    let argument := ((line.drop path.length).dropWhile isBlank).reverse.dropWhile isBlank
    some (nameOf path, if argument.isEmpty then none else some argument.reverse)
  | _ => none

end Program

/-- What a shell was asked to run. -/
inductive Source where
  | script (text : List Char)
  | file (path : List Char)
  | input

structure ShellArguments where
  source : Source
  name : Option (List Char) := none
  arguments : List (List Char) := []

/-- Settings that options turn on and off, and whether a script is among the arguments. -/
structure ShellOptions where
  changes : List (String × Bool) := []
  hasScript : Bool := false
  fromInput : Bool := false

namespace ShellOptions

def ofLetter (on : Bool) (letter : Char) : Except String (String × Bool) :=
  match Session.settingOf? letter with
  | some setting => .ok (setting, on)
  | none => .error ("Illegal option -" ++ nameOf [letter])

def ofName (on : Bool) (name : List Char) : Except String (String × Bool) :=
  match Session.allSettings.find? fun setting => setting.1 = nameOf name with
  | some setting => .ok (setting.1, on)
  | none => .error ("Illegal option -o " ++ nameOf name)

def ofLetters (on : Bool) (options : ShellOptions) (rest : List (List Char)) :
    List Char → Except String (ShellOptions × List (List Char))
  | [] => .ok (options, rest)
  | 'c' :: letters => ofLetters on { options with hasScript := true } rest letters
  | 'l' :: letters => ofLetters on options rest letters
  | 'o' :: letters =>
    match rest with
    | [] => ofLetters on options rest letters
    | name :: rest => do
      let change ← ofName on name
      ofLetters on { options with changes := options.changes ++ [change] } rest letters
  | letter :: letters => do
    let change ← ofLetter on letter
    ofLetters on
      { options with
        changes := options.changes ++ [change]
        fromInput := options.fromInput || (letter = 's' && on) } rest letters

def ofWords : Nat → ShellOptions → List (List Char) →
    Except String (ShellOptions × List (List Char))
  | 0, options, words => .ok (options, words)
  | fuel + 1, options, words =>
    match words with
    | ['-'] :: rest => .ok (options, rest)
    | ['-', '-'] :: rest => .ok (options, rest)
    | ('-' :: letters) :: rest => do
      let (options, rest) ← ofLetters true options rest letters
      ofWords fuel options rest
    | ('+' :: letters) :: rest => do
      let (options, rest) ← ofLetters false options rest letters
      ofWords fuel options rest
    | words => .ok (options, words)

end ShellOptions

def ShellArguments.ofList (words : List (List Char)) :
    Except String (ShellArguments × List (String × Bool)) := do
  let (options, rest) ← ShellOptions.ofWords (words.length + 1) {} words
  let changes := options.changes
  match options.hasScript, rest with
  | true, [] => throw "-c requires an argument"
  | true, script :: name :: rest =>
    return ({ source := .script script, name := some name, arguments := rest }, changes)
  | true, [script] => return ({ source := .script script }, changes)
  | false, [] => return ({ source := .input }, changes ++ [("stdin", true)])
  | false, path :: rest =>
    if options.fromInput then return ({ source := .input, arguments := path :: rest }, changes)
    else return ({ source := .file path, name := some path, arguments := rest }, changes)

end SizeSurvey.Shell
