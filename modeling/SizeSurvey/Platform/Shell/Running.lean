import SizeSurvey.Platform.Shell.Builtin.Table
import SizeSurvey.Platform.Shell.Reader
/-!
# Processes of the shell

Scripts are read and carried out line by line. What a shell does in a process of its own changes only
the machine, and it takes time to start a process. How a single command is run is given from
outside.
-/
namespace SizeSurvey.Shell

/-- How a command is run. -/
structure Manner where
  tested : Bool := false
  exits : Bool := false

abbrev Runner := Manner → Command → Act Nat

namespace Running

def commandCost : Nat := 10

def copyCost : Nat := 400

/-- What it takes until a shell goes on after it has started a process. -/
def startCost : Nat := 100

def programCost : Nat := 700

def all (run : Runner) (manner : Manner) : List Command → Act Nat
  | [] => return 0
  | [last] => run manner last
  | first :: rest => do
    let _ ← run { manner with exits := false } first
    all run manner rest

def lines (run : Runner) (manner : Manner) : Nat → Reading → Nat → Act Nat
  | 0, _, status => return status
  | fuel + 1, reading, status => do
    let reading := { reading with aliases := (← Act.session).aliases }
    match reading.next with
    | .error mistake =>
      Act.changeSession fun session => { session with line := mistake.line }
      Act.fail ("Syntax error: " ++ mistake.blunder.message)
    | .ok (none, _) => return status
    | .ok (some commands, after) =>
      Act.changeSession fun session => { session with documents := after.documents }
      if commands.isEmpty || (← Act.session).isSet "noexec" then lines run manner fuel after status
      else
        let isLast := match after.pushed with
          | some .endOfFile => true
          | _ => false
        let status ← all run { manner with exits := manner.exits && isLast } commands
        lines run manner fuel after status

def script (run : Runner) (manner : Manner) (text : List Char) : Act Nat := do
  let before := (← Act.session).documents
  Act.afterwards (lines run manner (text.length + 2) { text } 0)
    (Act.changeSession fun session => { session with documents := before })

def heedSignals (run : Runner) : Act Unit := do
  let session ← Act.session
  let (signals, machine) := (← Act.machine).reached session.process
  Act.setMachine machine
  for signal in signals do
    let session ← Act.session
    if signal = Signal.kill then throw (.killed signal)
    else if signal = 19 then throw .outOfTime
    else
      match session.trap? signal with
      | some [] => pure ()
      | some action =>
        Act.changeSession fun session => { session with exitStatus := some session.status }
        let result ← Act.caught (script run {} action)
        Act.changeSession fun after =>
          { after with exitStatus := session.exitStatus, status := session.status }
        let _ ← Act.resume result
      | none =>
        if Signal.halts signal then throw .outOfTime
        else if !Signal.isHarmless signal then throw (.killed signal)

def exitStatus? (result : Except Leaving Nat) (last : Nat) : Option Nat :=
  match result with
  | .ok status => some status
  | .error (.exit status) => some status
  | .error (.returning status) => some status
  | .error .failed => some 2
  | .error (.breakLoop _) => some last
  | .error (.nextRound _) => some last
  | .error (.killed _) => none
  | .error .outOfTime => none

def closing (run : Runner) (act : Act Nat) : Act Nat := do
  let result ← Act.caught act
  match exitStatus? result (← Act.session).status with
  | none => Act.resume result
  | some status =>
    match (← Act.session).trap? 0 with
    | none => return status
    | some action =>
      Act.changeSession fun session =>
        { session with
          traps := session.traps.filter (·.1 ≠ 0)
          status
          exitStatus := some status
          speaker := none }
      match ← Act.caught (script run {} action) with
      | .error (.exit status) => return status
      | .error .failed => return 2
      | .error (.killed signal) => throw (.killed signal)
      | .error .outOfTime => throw .outOfTime
      | _ => return status

def ending (result : Except Leaving Nat) : Ending :=
  match result with
  | .ok status => .exited (status % 256)
  | .error (.killed signal) => .signalled signal
  | .error .outOfTime => .unfinished
  | .error _ => .exited 2

structure Past where
  process : Nat
  label : Nat
  finish : Nat
  ending : Ending

/-- Runs an action in a process of its own, on a copy of the session that `prepare` changes. -/
def inProcess (run : Runner) (prepare : Session → Session) (act : Act Nat) : Act Past := do
  let before ← Act.session
  let parent := (← Act.machine).label
  let (process, machine) := (← Act.machine).newProcess
  let (label, machine) := machine.launch
  Act.setMachine { machine.pass copyCost with label }
  let copy := prepare (before.copy process)
  Act.changeSession fun _ => copy
  let result ← Act.caught (closing run act)
  Act.changeMachine fun machine => { machine.hold copy.ports with label := parent }
  Act.changeSession fun _ => { before with jobs := before.jobs.filter fun job => !job.isOver }
  return ⟨process, label, (← Act.machine).clock, ending result⟩

def noteEnd (ending : Ending) : Act Nat := do
  let machine ← Act.machine
  Act.changeSession fun session =>
    { session with
      jobs := session.jobs.map fun job =>
        if (machine.task? job.process).any fun task => task.finish ≤ machine.clock then
          { job with isNoticed := true }
        else job }
  match ending with
  | .exited status => return status
  | .signalled signal =>
    match Signal.notice? signal with
    | some notice => Act.say (notice ++ "\n").toList
    | none => pure ()
    return 128 + signal
  | .unfinished => throw .outOfTime

/-- The output of commands without the ends of lines after it. -/
def output (run : Runner) (commands : List Command) : Act (List Char) := do
  if commands.isEmpty then
    Act.changeSession fun session => { session with outputStatus := 0 }
    return []
  else
    let (channel, machine) := (← Act.machine).addChannel
    Act.setMachine machine
    let lead (session : Session) : Session :=
      { session with ports := session.ports.set 1 (.channel channel) }
    let past ← inProcess run lead (all run { exits := true } commands)
    Act.changeMachine fun machine => machine.waitUntil (machine.openUntil channel)
    let status ← noteEnd past.ending
    Act.changeSession fun session => { session with outputStatus := status }
    let written := ((← Act.machine).channelText channel).filter (· ≠ '\x00')
    return (written.reverse.dropWhile (· = '\n')).reverse

def sourceText (name : List Char) (source : Source) : Act (List Char) := do
  let ports ← Act.ports
  match source with
  | .script text => return text
  | .input =>
    match (← Act.machine).readAll ports.input with
    | .ok (text, machine) =>
      Act.setMachine machine
      return text
    | .error _ => return []
  | .file path =>
    match (← Act.machine).openToRead ports (nameOf path) with
    | .error _ =>
      Act.say (name ++ octetsOf (": 0: cannot open " ++ nameOf path ++ ": No such file\n"))
      throw (.exit 2)
    | .ok (stream, machine) =>
      match machine.readAll (some stream) with
      | .ok (text, machine) =>
        Act.setMachine machine
        return text
      | .error _ => return []

/-- A shell that takes over a process, of which only the environment, the streams and the signals
that are passed over are left. -/
def shell (run : Runner) (name : List Char) (words : List (List Char)) : Act Nat := do
  let before ← Act.session
  match ShellArguments.ofList words with
  | .error reason =>
    Act.say (name ++ octetsOf (": 0: " ++ reason ++ "\n"))
    throw (.exit 2)
  | .ok (chosen, changes) =>
    let parent := Nat.toDigits 10 before.parent
    let fresh : Session :=
      { name := chosen.name.getD name
        arguments := chosen.arguments
        bindings := before.environment
        ports := before.ports
        traps := before.traps.filter fun trap => trap.2.isEmpty
        process := before.process
        parent := before.parent
        shownProcess := before.process
        mask := before.mask }
    let fresh := ((fresh.assign "PPID".toList parent).assign "OPTIND".toList ['1']).assign
      "PWD".toList (octetsOf before.ports.absoluteDirectory)
    Act.changeSession fun _ =>
      changes.foldl (fun session (setting, on) => session.setTo setting on) fresh
    let text ← sourceText name chosen.source
    script run {} text

def environmentWords (words : List (List Char)) :
    List (List Char × List Char) × List (List Char) :=
  let assigned := words.takeWhile (·.contains '=')
  let split (word : List Char) : List Char × List Char :=
    let name := word.takeWhile (· ≠ '=')
    (name, word.drop (name.length + 1))
  (assigned.map split, words.drop assigned.length)

/-- Runs a program that was started with some words. Programs may start each other. -/
def program (run : Runner) : Nat → Program → List (List Char) → Act Nat
  | 0, _, _ => throw .outOfTime
  | fuel + 1, called, words => do
    let session ← Act.session
    match called with
    | .utility name behaviour =>
      let machine ← Act.machine
      let ended := behaviour words { name, ports := session.ports, machine }
      Act.setMachine ended.machine
      return ended.status
    | .shell name => shell run (octetsOf name) words
    | .starter name =>
      let isEmpty := words.head? = some ['-', 'i'] ∨ words.head? = some ['-']
      if isEmpty then Act.changeSession fun session => { session with bindings := [] }
      let (assigned, rest) := environmentWords (if isEmpty then words.tail else words)
      for (name, value) in assigned do
        Act.changeSession fun session =>
          (session.assign name value).change name fun before => { before with exported := true }
      match rest with
      | [] =>
        for (name, found) in (← Act.session).environment do
          Act.writeLine (name ++ '=' :: found.value.getD [])
        return 0
      | started :: words =>
        let session ← Act.session
        match Program.find session.ports (← Act.machine) (Program.searched session.bindings)
            (nameOf started) with
        | .ok called => program run fuel called words
        | .error trouble =>
          Act.say (octetsOf
            (name ++ ": '" ++ nameOf started ++ "': " ++ complaint trouble ++ "\n"))
          return if trouble = .notFound then 127 else 126
    | .file path text =>
      match Program.interpreter? text with
      | none => shell run ['s', 'h'] (octetsOf path :: words)
      | some (interpreter, argument) =>
        match Program.atPath session.ports (← Act.machine) interpreter with
        | .ok called => program run fuel called (argument.toList ++ octetsOf path :: words)
        | .error _ =>
          Act.complain (path ++ ": not found")
          return 127

def longestStart : Nat := 8

def startFault (trouble : Trouble) : String × Nat :=
  match trouble with
  | .notFound => ("not found", 127)
  | .notADirectory => ("not found", 127)
  | _ => ("Permission denied", 126)

def external (run : Runner) (manner : Manner) (name : List Char) (words : List (List Char)) :
    Act Nat := do
  let session ← Act.session
  match Program.find session.ports (← Act.machine) (Program.searched session.bindings)
      (nameOf name) with
  | .ok called =>
    let act : Act Nat := do
      Act.spend programCost
      program run longestStart called words
    if manner.exits && session.traps.all (·.2.isEmpty) then act
    else
      if !name.contains '/' then
        Act.changeSession fun session =>
          { session with tracked := name :: session.tracked.filter (· ≠ name) }
      noteEnd (← inProcess run id act).ending
  | .error trouble =>
    let (reason, status) := startFault trouble
    Act.complain (nameOf name ++ ": " ++ reason)
    return status

end Running

end SizeSurvey.Shell
