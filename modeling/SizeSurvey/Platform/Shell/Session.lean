import SizeSurvey.Platform.Shell.Command
import SizeSurvey.Platform.Shell.Machine
import SizeSurvey.Platform.Shell.Number
import SizeSurvey.Platform.Shell.Signal
/-!
# Sessions of the shell

What a running shell knows: its variables, arguments and functions, its settings, its streams, the
jobs that it started, and how its last command ended. A command either ends with a status or leaves
the commands around it.
-/
namespace SizeSurvey.Shell

structure Variable where
  value : Option (List Char) := none
  exported : Bool := false
  readOnly : Bool := false

structure Definition where
  name : List Char
  body : Command
  documents : Documents

/-- A command that the shell did not wait for. -/
structure Job where
  number : Nat
  process : Nat
  isNoticed : Bool := false
  isOver : Bool := false

structure Session where
  name : List Char
  arguments : List (List Char) := []
  bindings : List (List Char × Variable) := []
  aliases : List (List Char × List Char) := []
  functions : List Definition := []
  documents : Documents := []
  ports : Ports
  status : Nat := 0
  outputStatus : Nat := 0
  settings : List String := []
  traps : List (Nat × List Char) := []
  jobs : List Job := []
  process : Nat
  parent : Nat
  /-- The process that the shell goes by, which a copy of the shell keeps. -/
  shownProcess : Nat
  background : Option Nat := none
  line : Nat := 1
  speaker : Option (List Char) := none
  isBroken : Bool := false
  /-- The variables that get back what they were, for each command that is running. -/
  kept : List (List (List Char × Option Variable)) := []
  calls : Nat := 0
  loops : Nat := 0
  /-- The argument that is looked at for options next, and the place in the one before it. -/
  optionIndex : Nat := 1
  optionPlace : Option Nat := none
  /-- The status to exit with in what is done on a signal or at the end. -/
  exitStatus : Option Nat := none
  tracked : List (List Char) := []
  mask : Nat := 0o22

structure World where
  session : Session
  machine : Machine

/-- How the commands around a command are left. -/
inductive Leaving where
  | exit (status : Nat)
  | failed
  | breakLoop (levels : Nat)
  | nextRound (levels : Nat)
  | returning (status : Nat)
  | killed (signal : Nat)
  | outOfTime

namespace Session

def value? (session : Session) (name : List Char) : Option (List Char) :=
  (session.bindings.lookup name).bind Variable.value

def isReadOnly (session : Session) (name : List Char) : Bool :=
  (session.bindings.lookup name).any Variable.readOnly

def put (session : Session) (name : List Char) (found : Option Variable) : Session :=
  let others := session.bindings.filter (·.1 ≠ name)
  { session with
    bindings := match found with
      | some found => (name, found) :: others
      | none => others }

def isSet (session : Session) (setting : String) : Bool :=
  session.settings.contains setting

def assign (session : Session) (name value : List Char) : Session :=
  let before := (session.bindings.lookup name).getD {}
  let exported := before.exported || session.isSet "allexport"
  let session := session.put name (some { before with value, exported })
  if name = "OPTIND".toList then
    { session with
      optionIndex := max 1 ((Text.readDecimal? value).getD 1)
      optionPlace := none }
  else session

def change (session : Session) (name : List Char) (change : Variable → Variable) : Session :=
  session.put name (some (change ((session.bindings.lookup name).getD {})))

def keep (session : Session) (name : List Char) : Session :=
  match session.kept with
  | frame :: frames =>
    if (frame.lookup name).isSome then session
    else { session with kept := ((name, session.bindings.lookup name) :: frame) :: frames }
  | [] => session

def giveBack (session : Session) : Session :=
  match session.kept with
  | frame :: frames =>
    frame.foldl (fun session (name, before) => session.put name before)
      { session with kept := frames }
  | [] => session

def environment (session : Session) : List (List Char × Variable) :=
  (session.bindings.filter fun (_, found) => found.exported && found.value.isSome).map
    fun (name, found) => (name, { found with readOnly := false })

def fieldSeparators (session : Session) : List Char :=
  (session.value? "IFS".toList).getD [' ', '\t', '\n']

def joinedArguments (session : Session) : List Char :=
  let separators := session.fieldSeparators
  List.intercalate (separators.take 1) session.arguments

def allSettings : List (String × Option Char) :=
  [("errexit", some 'e'), ("noglob", some 'f'), ("ignoreeof", some 'I'), ("interactive", some 'i'),
    ("monitor", some 'm'), ("noexec", some 'n'), ("stdin", some 's'), ("xtrace", some 'x'),
    ("verbose", some 'v'), ("vi", some 'V'), ("emacs", some 'E'), ("noclobber", some 'C'),
    ("allexport", some 'a'), ("notify", some 'b'), ("nounset", some 'u'),
    ("privileged", some 'p'), ("nolog", none), ("debug", none)]

def settingOf? (letter : Char) : Option String :=
  (allSettings.find? fun setting => setting.2 = some letter).map Prod.fst

def setTo (session : Session) (setting : String) (on : Bool) : Session :=
  let others := session.settings.filter (· ≠ setting)
  { session with settings := if on then setting :: others else others }

def letters (session : Session) : List Char :=
  (allSettings.filterMap fun (name, letter) =>
    if session.isSet name then letter else none).reverse

def parameter? (session : Session) (name : List Char) : Option (List Char) :=
  match name with
  | ['#'] => some (Nat.toDigits 10 session.arguments.length)
  | ['?'] => some (Nat.toDigits 10 session.status)
  | ['$'] => some (Nat.toDigits 10 session.shownProcess)
  | ['@'] => if session.arguments.isEmpty then none else some session.joinedArguments
  | ['*'] => if session.arguments.isEmpty then none else some session.joinedArguments
  | ['-'] => some session.letters
  | ['!'] => session.background.map (Nat.toDigits 10)
  | name =>
    match Text.readDecimal? name with
    | some 0 => some session.name
    | some n => session.arguments[n - 1]?
    | none => session.value? name

def trap? (session : Session) (signal : Nat) : Option (List Char) :=
  session.traps.lookup signal

/-- A copy of the shell, which keeps only those arrangements for signals that pass them over. -/
def copy (session : Session) (process : Nat) : Session :=
  { session with
    process
    parent := session.process
    traps := session.traps.filter fun trap => trap.2.isEmpty
    jobs := [] }

end Session

abbrev Act := ExceptT Leaving (StateM World)

namespace Act

def session : Act Session := do
  return (← get).session

def machine : Act Machine := do
  return (← get).machine

def ports : Act Ports := do
  return (← get).session.ports

def setMachine (machine : Machine) : Act Unit :=
  modify fun world => { world with machine }

def changeMachine (change : Machine → Machine) : Act Unit :=
  modify fun world => { world with machine := change world.machine }

def changeSession (change : Session → Session) : Act Unit :=
  modify fun world => { world with session := change world.session }

def setStatus (status : Nat) : Act Unit :=
  changeSession fun session => { session with status }

def setPorts (ports : Ports) : Act Unit :=
  changeSession fun session => { session with ports }

def write (text : List Char) : Act Unit := do
  match (← machine).write (← ports).output text with
  | .ok machine => setMachine machine
  | .error _ => changeSession fun session => { session with isBroken := true }

def writeLine (text : List Char) : Act Unit :=
  write (text ++ ['\n'])

def say (text : List Char) : Act Unit := do
  setMachine ((← machine).append (← ports).error text)

def complain (text : String) : Act Unit := do
  let session ← session
  let speaker := match session.speaker with
    | some speaker => speaker ++ [':', ' ']
    | none => []
  say (session.name ++ octetsOf (": " ++ Text.decimal session.line ++ ": ") ++ speaker
    ++ octetsOf (text ++ "\n"))

def fail {α : Type} (text : String) : Act α := do
  complain text
  throw .failed

def spend (microseconds : Nat) : Act Unit :=
  changeMachine fun machine => machine.pass microseconds

def checkTime : Act Unit := do
  if (← machine).isLate then throw .outOfTime

def caught {α : Type} (act : Act α) : Act (Except Leaving α) := fun world =>
  let (result, world) := act.run world
  (.ok result, world)

def resume {α : Type} (result : Except Leaving α) : Act α :=
  match result with
  | .ok value => return value
  | .error leaving => throw leaving

/-- Runs an action and then another one, however the first was left. -/
def afterwards {α : Type} (act : Act α) (next : Act Unit) : Act α := do
  let result ← caught act
  next
  resume result

def assign (name value : List Char) : Act Unit := do
  if (← session).isReadOnly name then fail (nameOf name ++ ": is read only")
  else changeSession (·.assign name value)

end Act

end SizeSurvey.Shell
