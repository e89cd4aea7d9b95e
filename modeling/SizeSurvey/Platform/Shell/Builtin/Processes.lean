import SizeSurvey.Platform.Shell.Builtin.Options
/-!
# Commands about processes

Commands of the shell that send signals, make arrangements for them, and wait for what runs in the
background.
-/
namespace SizeSurvey.Shell.Builtin

def jobTasks : Act (List (Job × Task)) := do
  let machine ← Act.machine
  return (← Act.session).jobs.filterMap fun job =>
    (machine.task? job.process).map fun task => (job, task)

def changeJob (process : Nat) (change : Job → Job) : Act Unit :=
  Act.changeSession fun session =>
    { session with
      jobs := session.jobs.map fun job => if job.process = process then change job else job }

def jobOf (word : List Char) : Act Job := do
  let jobs := (← Act.session).jobs.filter fun job => !job.isOver
  let found := match word.drop 1 with
    | [] => jobs.head?
    | ['%'] => jobs.head?
    | ['+'] => jobs.head?
    | ['-'] => jobs.tail.head?
    | digits =>
      (Text.readDecimal? digits).bind fun number => jobs.find? fun job => job.number = number
  match found with
  | some job => return job
  | none => Act.fail ("No such job: " ++ nameOf word)

def interruption? (session : Session) (machine : Machine) (finish : Nat) : Option Sent :=
  machine.pending.find? fun sent =>
    sent.process = session.process && sent.time + 500 < finish
      && (session.trap? sent.signal).any fun action => !action.isEmpty

/-- Waits for a job, unless a signal comes first. What is said about its end is said now if the
shell did not know of it. -/
def waitFor (job : Job) : Act Nat := do
  let session ← Act.session
  let machine ← Act.machine
  match machine.task? job.process with
  | none => return 127
  | some task =>
    match interruption? session machine task.finish with
    | some sent =>
      Act.setMachine (machine.waitUntil sent.time)
      return 128 + sent.signal
    | none =>
      Act.setMachine (machine.waitUntil task.finish)
      Act.checkTime
      match task.ending with
      | .signalled signal =>
        if !job.isNoticed then
          match Signal.notice? signal with
          | some notice => Act.say (notice ++ "\n").toList
          | none => pure ()
      | _ => pure ()
      changeJob job.process fun job => { job with isNoticed := true, isOver := true }
      return task.ending.status

def waitForWord (word : List Char) : Act Nat := do
  if word.head? = some '%' then waitFor (← jobOf word)
  else
    let process ← number word
    match (← Act.session).jobs.find? fun job => job.process = process with
    | some job => waitFor job
    | none => return 127

def wait (words : List (List Char)) : Act Nat := do
  match ← operands words with
  | [] =>
    let finish := (← jobTasks).foldl (fun time (_, task) => max time task.finish) 0
    let session ← Act.session
    match interruption? session (← Act.machine) finish with
    | some sent =>
      Act.changeMachine (·.waitUntil sent.time)
      return 128 + sent.signal
    | none =>
      Act.changeMachine (·.waitUntil finish)
      Act.checkTime
      Act.changeSession fun session =>
        { session with jobs := session.jobs.map fun job => { job with isNoticed := true } }
      return 0
  | words => words.foldlM (fun _ word => waitForWord word) 0

def jobLine (mark : Char) (job : Job) (task : Task) (clock : Nat) : String :=
  let state := if clock < task.finish then "Running"
    else match task.ending with
      | .exited 0 => "Done"
      | .exited status => "Done(" ++ Text.decimal status ++ ")"
      | .signalled signal => (Signal.notice? signal).getD ""
      | .unfinished => "Running"
  let front := "[" ++ Text.decimal job.number ++ "] " ++ mark.toString ++ " " ++ state
  front ++ String.ofList (List.replicate (33 - front.length) ' ') ++ "\n"

def jobs (words : List (List Char)) : Act Nat := do
  let _ ← options "lp" "" words
  let clock := (← Act.machine).clock
  let listed := (← jobTasks).filter fun (job, _) => !job.isOver
  for ((job, task), index) in listed.zipIdx do
    let mark := if index = 0 then '+' else if index = 1 then '-' else ' '
    Act.write (jobLine mark job task clock).toList
    if task.finish ≤ clock then
      changeJob job.process fun job => { job with isNoticed := true, isOver := true }
  return 0

def noCurrentJob (words : List (List Char)) : Act Nat := do
  match words with
  | [] => Act.fail "No current job"
  | word :: _ => Act.fail ("No such job: " ++ nameOf word)

def listSignals (words : List (List Char)) : Act Nat := do
  match words with
  | [] =>
    Act.writeLine ['0']
    for signal in List.range Signal.last do
      Act.writeLine (Signal.name (signal + 1)).toList
    return 0
  | word :: _ =>
    let status ← number word
    let signal := if 128 < status then status - 128 else status
    if 0 < signal ∧ signal ≤ Signal.last then
      Act.writeLine (Signal.name signal).toList
      return 0
    else Act.fail ("invalid signal number or exit status: " ++ nameOf word)

def killUsage : String :=
  "Usage: kill [-s sigspec | -signum | -sigspec] [pid | job]... or\nkill -l [exitstatus]"

def send (signal process : Nat) : Act Bool := do
  let machine ← Act.machine
  match machine.task? process with
  | some task =>
    let isReaped := (← Act.session).jobs.any fun job => job.process = process && job.isNoticed
    if task.finish ≤ machine.clock && isReaped then return false
    else
      if signal ≠ 0 && !Signal.isHarmless signal then
        Act.setMachine (machine.killTask task signal)
      return true
  | none =>
    if firstProcess ≤ process ∧ process ≤ machine.lastProcess then
      if signal ≠ 0 then Act.setMachine (machine.signal process signal)
      return true
    else return false

def sendToAll (signal : Nat) (words : List (List Char)) : Act Nat :=
  words.foldlM (fun status word => do
    let process ← if word.head? = some '%' then do pure (← jobOf word).process else number word
    if ← send signal process then return status
    else
      Act.complain "No such process\n"
      return 1) 0

def signalOf (word : List Char) : Act Nat := do
  match Signal.ofWord? 0 word with
  | some signal => return signal
  | none => Act.fail ("invalid signal number or name: " ++ nameOf word)

def kill (words : List (List Char)) : Act Nat := do
  match words with
  | ['-', 'l'] :: rest => listSignals rest
  | ['-', 's'] :: name :: rest => sendToAll (← signalOf name) (← operands rest)
  | ['-', 's'] :: [] => Act.fail "No arg for -s option"
  | ['-', '-'] :: rest => if rest.isEmpty then Act.fail killUsage else sendToAll 15 rest
  | ('-' :: letter :: more) :: rest =>
    match Signal.ofWord? 0 (letter :: more) with
    | some signal =>
      let processes ← operands rest
      if processes.isEmpty then Act.fail killUsage else sendToAll signal processes
    | none =>
      if letter = 's' then sendToAll (← signalOf more) (← operands rest)
      else Act.fail ("Illegal option -" ++ nameOf [letter])
  | [] => Act.fail killUsage
  | rest => sendToAll 15 rest

def listTraps : Act Nat := do
  let session ← Act.session
  for signal in List.range (Signal.last + 1) do
    match session.trap? signal with
    | some action =>
      Act.writeLine ("trap -- ".toList ++ quoted action ++ ' ' :: (Signal.name signal).toList)
    | none => pure ()
  return 0

def arrange (action : Option (List Char)) : List (List Char) → Act Nat
  | [] => return 0
  | word :: rest => do
    match Signal.ofWord? 0 word with
    | none =>
      Act.say (octetsOf ("trap: " ++ nameOf word ++ ": bad trap\n"))
      return 1
    | some signal =>
      Act.changeSession fun session =>
        let others := session.traps.filter (·.1 ≠ signal)
        { session with
          traps := match action with
            | some action => (signal, action) :: others
            | none => others }
      arrange action rest

def trap (words : List (List Char)) : Act Nat := do
  match ← operands words with
  | [] => listTraps
  | [word] => arrange none [word]
  | first :: rest =>
    if !first.isEmpty && first.all Text.isDigit && (Signal.ofWord? 0 first).isSome then
      arrange none (first :: rest)
    else arrange (if first = ['-'] then none else some first) rest

def times (_ : List (List Char)) : Act Nat := do
  Act.write "0m0.000000s 0m0.000000s\n0m0.000000s 0m0.000000s\n".toList
  return 0

end SizeSurvey.Shell.Builtin
