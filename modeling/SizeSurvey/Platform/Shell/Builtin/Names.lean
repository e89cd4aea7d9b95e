import SizeSurvey.Platform.Shell.Builtin.Options
import SizeSurvey.Platform.Shell.Program
import SizeSurvey.Platform.Shell.Reader
/-!
# Commands about names

Commands of the shell that tell what a name stands for as a command, and give names to texts.
-/
namespace SizeSurvey.Shell.Builtin

def ownNames : List String :=
  [".", ":", "[", "alias", "bg", "break", "cd", "chdir", "command", "continue", "echo", "eval",
    "exec", "exit", "export", "false", "fg", "getopts", "hash", "jobs", "kill", "local", "printf",
    "pwd", "read", "readonly", "return", "set", "shift", "test", "times", "trap", "true", "type",
    "ulimit", "umask", "unalias", "unset", "wait"]

def isSpecial (name : List Char) : Bool :=
  Read.specialNames.contains (nameOf name)

def isOwn (name : List Char) : Bool :=
  ownNames.contains (nameOf name)

def programPath? (session : Session) (machine : Machine) (name : List Char) : Option String :=
  if name.contains '/' then
    if Program.isAt session.ports machine (nameOf name) then some (nameOf name) else none
  else Program.path? session.ports machine (Program.searched session.bindings) (nameOf name)

/-- Tells what a name stands for, in many words or just so that it can be called. -/
def describe (verbose : Bool) (name : List Char) : Act Nat := do
  let session ← Act.session
  let tell (long short : String) : Act Nat := do
    Act.writeLine (if verbose then name ++ octetsOf long else octetsOf short)
    return 0
  let plain := nameOf name
  if (Keyword.ofWord? name).isSome then tell " is a shell keyword" plain
  else
    match session.aliases.lookup name with
    | some value =>
      if verbose then tell (" is an alias for " ++ nameOf value) plain
      else
        Act.writeLine ("alias ".toList ++ name ++ ['='] ++ quoted value)
        return 0
    | none =>
      if isSpecial name then tell " is a special shell builtin" plain
      else if session.functions.any (·.name = name) then tell " is a shell function" plain
      else if isOwn name then tell " is a shell builtin" plain
      else
        match programPath? session (← Act.machine) name with
        | some path =>
          let isTracked := session.tracked.contains name
          tell ((if isTracked then " is a tracked alias for " else " is ") ++ path) path
        | none =>
          if verbose then Act.writeLine (name ++ ": not found".toList)
          return 127

def type (words : List (List Char)) : Act Nat :=
  words.foldlM (fun status name => do return max status (← describe true name)) 0

def aliasLine (name value : List Char) : List Char :=
  name ++ ['='] ++ quoted value

def alias_ (words : List (List Char)) : Act Nat := do
  if words.isEmpty then
    for (name, value) in (← Act.session).aliases.reverse do
      Act.writeLine (aliasLine name value)
    return 0
  else
    words.foldlM (fun status word => do
      let name := word.takeWhile (· ≠ '=')
      match name, word.drop name.length with
      | _ :: _, _ :: value =>
        Act.changeSession fun session =>
          { session with
            aliases := (name, value) :: session.aliases.filter (·.1 ≠ name) }
        return status
      | _, _ =>
        match (← Act.session).aliases.lookup word with
        | some value =>
          Act.writeLine (aliasLine word value)
          return status
        | none =>
          Act.say (octetsOf ("alias: " ++ nameOf word ++ " not found\n"))
          return 1) 0

def unalias (words : List (List Char)) : Act Nat := do
  let (chosen, names) ← options "a" "" words
  if !chosen.isEmpty then
    Act.changeSession fun session => { session with aliases := [] }
    return 0
  else
    names.foldlM (fun status name => do
      if ((← Act.session).aliases.lookup name).isSome then
        Act.changeSession fun session =>
          { session with aliases := session.aliases.filter (·.1 ≠ name) }
        return status
      else
        Act.say (octetsOf ("unalias: " ++ nameOf name ++ " not found\n"))
        return 1) 0

def hash (words : List (List Char)) : Act Nat := do
  let (chosen, names) ← options "r" "" words
  if !chosen.isEmpty then
    Act.changeSession fun session => { session with tracked := [] }
    return 0
  else if names.isEmpty then
    let session ← Act.session
    let machine ← Act.machine
    for name in session.tracked do
      match programPath? session machine name with
      | some path => Act.writeLine (octetsOf path)
      | none => pure ()
    return 0
  else
    names.foldlM (fun status name => do
      let session ← Act.session
      if isOwn name || session.functions.any (·.name = name) then return status
      else
        match programPath? session (← Act.machine) name with
        | some _ =>
          Act.changeSession fun session =>
            { session with tracked := name :: session.tracked.filter (· ≠ name) }
          return status
        | none =>
          Act.complain (nameOf name ++ ": not found")
          return 1) 0

end SizeSurvey.Shell.Builtin
