import SizeSurvey.Platform.Shell.Builtin.Names
import SizeSurvey.Platform.Shell.Builtin.Places
import SizeSurvey.Platform.Shell.Builtin.Processes
import SizeSurvey.Platform.Shell.Builtin.Variables
import SizeSurvey.Platform.Shell.Format
import SizeSurvey.Platform.Shell.Test
/-!
# The shell's own commands

Commands that the shell carries out without starting a program, because they look at the session or
change it, or because they are quick.
-/
namespace SizeSurvey.Shell.Builtin

def echo (words : List (List Char)) : Act Nat := do
  Act.write (Format.shellEcho words)
  return 0

def printf (words : List (List Char)) : Act Nat := do
  let printed := Format.printf words
  for complaint in printed.complaints do
    Act.complain complaint
  Act.write printed.text
  match printed.broken with
  | some reason => Act.fail reason
  | none => return if printed.complaints.isEmpty then 0 else 1

def check (words : List (List Char)) : Act Nat := do
  match Test.evaluate ⟨← Act.ports, ← Act.machine⟩ words with
  | .ok value => return if value then 0 else 1
  | .error reason => Act.fail reason

def bracket (words : List (List Char)) : Act Nat := do
  if words.getLast? = some [']'] then check words.dropLast else Act.fail "missing ]"

/-- The status that a word names, or the one that counts without a word. -/
def statusOf (words : List (List Char)) (otherwise : Nat) : Act Nat := do
  match words with
  | [] => return otherwise
  | word :: _ => number word

def exit_ (words : List (List Char)) : Act Nat := do
  let session ← Act.session
  throw (.exit (← statusOf words (session.exitStatus.getD session.status)))

def return_ (words : List (List Char)) : Act Nat := do
  throw (.returning (← statusOf words (← Act.session).status))

def levels (words : List (List Char)) : Act Nat := do
  let count ← statusOf words 1
  if count = 0 then Act.fail "Illegal number: 0"
  else return min count (← Act.session).loops

def break_ (words : List (List Char)) : Act Nat := do
  match ← levels words with
  | 0 => return 0
  | count => throw (.breakLoop count)

def continue_ (words : List (List Char)) : Act Nat := do
  match ← levels words with
  | 0 => return 0
  | count => throw (.nextRound count)

def ulimit (_ : List (List Char)) : Act Nat := do
  Act.writeLine "unlimited".toList
  return 0

/-- What a command of the shell does. Commands that run other ones are not among these. -/
def behaviour? (name : List Char) : Option (List (List Char) → Act Nat) :=
  match nameOf name with
  | ":" => some fun _ => return 0
  | "true" => some fun _ => return 0
  | "false" => some fun _ => return 1
  | "[" => some bracket
  | "alias" => some alias_
  | "bg" => some noCurrentJob
  | "break" => some break_
  | "cd" => some cd
  | "chdir" => some cd
  | "continue" => some continue_
  | "echo" => some echo
  | "exit" => some exit_
  | "export" => some export_
  | "fg" => some noCurrentJob
  | "getopts" => some getopts
  | "hash" => some hash
  | "jobs" => some jobs
  | "kill" => some kill
  | "local" => some local_
  | "printf" => some printf
  | "pwd" => some pwd
  | "read" => some read_
  | "readonly" => some readonly_
  | "return" => some return_
  | "set" => some set_
  | "shift" => some shift
  | "test" => some check
  | "times" => some times
  | "trap" => some trap
  | "type" => some type
  | "ulimit" => some ulimit
  | "umask" => some umask
  | "unalias" => some unalias
  | "unset" => some unset
  | "wait" => some wait
  | _ => none

def takesAssignments (name : List Char) : Bool :=
  ["alias", "export", "local", "readonly"].contains (nameOf name)

/-- Carries out a command. A text that could not be written is a failure, and so is an error unless
the command is special. -/
def carryOut (name : List Char) (isSpecial : Bool) (act : Act Nat) : Act Nat := do
  let before := (← Act.session).speaker
  Act.changeSession fun session => { session with speaker := some name, isBroken := false }
  let result ← Act.caught act
  let isBroken := (← Act.session).isBroken
  if isBroken then Act.complain (nameOf name ++ ": I/O error")
  Act.changeSession fun session => { session with speaker := before, isBroken := false }
  match result with
  | .error .failed => if isSpecial then throw .failed else return 2
  | .error leaving => throw leaving
  | .ok status => return if isBroken then status ||| 1 else status

end SizeSurvey.Shell.Builtin
