import SizeSurvey.Platform.Shell.Redirecting
/-!
# Evaluation of commands

Each kind of command is evaluated by a function that is given how the commands inside it are run,
and `evaluate` ties them together with fuel.
-/
namespace SizeSurvey.Shell.Evaluation

open Running

def mostCalls : Nat := 1000

def function (run : Runner) (manner : Manner) (definition : Definition)
    (words : List (List Char)) : Act Nat := do
  let before ← Act.session
  if mostCalls ≤ before.calls then
    Act.fail ("Maximum function recursion depth (" ++ Text.decimal mostCalls ++ ") reached")
  else
    Act.changeSession fun session =>
      { session with
        arguments := words
        documents := definition.documents
        calls := session.calls + 1
        loops := 0
        optionIndex := 1
        optionPlace := none }
    let result ← Act.caught (run { tested := manner.tested } definition.body)
    Act.changeSession fun session =>
      { session with
        arguments := before.arguments
        documents := before.documents
        calls := before.calls
        loops := before.loops
        optionIndex := before.optionIndex
        optionPlace := before.optionPlace }
    match result with
    | .error (.returning status) => return status
    | result => Act.resume result

/-- The file that the command for reading scripts means: one in a directory that is searched, unless
its name has a slash. -/
def sourceFile? (session : Session) (machine : Machine) (name : List Char) : Option String :=
  if name.contains '/' then some (nameOf name)
  else
    let paths := (Program.searched session.bindings).map fun directory =>
      if directory = "" then nameOf name else Path.child directory (nameOf name)
    paths.find? fun path => machine.tree.hasFile (session.ports.resolve path)

def dot (run : Runner) (words : List (List Char)) : Act Nat := do
  match ← Builtin.operands words with
  | [] => return 0
  | name :: _ =>
    let session ← Act.session
    match sourceFile? session (← Act.machine) name with
    | none => Act.fail (nameOf name ++ ": not found")
    | some path =>
      match (← Act.machine).openToRead session.ports path with
      | .error _ => Act.fail ("cannot open " ++ path ++ ": No such file")
      | .ok (stream, machine) =>
        let text := match machine.readAll (some stream) with
          | .ok (text, _) => text
          | .error _ => []
        Act.changeSession fun session => { session with speaker := some (octetsOf path) }
        match ← Act.caught (script run {} text) with
        | .error (.returning status) => return status
        | result => Act.resume result

/-- The shell makes way for a program. Without one, its streams stay where they were led. -/
def takeOver (run : Runner) (words : List (List Char)) : Act Nat := do
  match words with
  | [] => return 0
  | name :: arguments =>
    let session ← Act.session
    match Program.find session.ports (← Act.machine) (Program.searched session.bindings)
        (nameOf name) with
    | .ok called =>
      Act.changeSession fun session =>
        { session with traps := session.traps.filter fun trap => trap.2.isEmpty }
      Act.spend programCost
      throw (.exit (← program run longestStart called arguments))
    | .error trouble =>
      let (reason, status) := startFault trouble
      Act.complain (nameOf name ++ ": " ++ reason)
      throw (.exit status)

/-- What a name stands for. -/
inductive Kind where
  | own (isSpecial : Bool)
  | function (definition : Definition)
  | program

def Kind.isSpecial : Kind → Bool
  | own isSpecial => isSpecial
  | _ => false

/-- What a name stands for as a command, functions being left out if so wanted. -/
def kindOf (session : Session) (withFunctions : Bool) (name : List Char) : Kind :=
  if Builtin.isSpecial name then .own withFunctions
  else
    match (if withFunctions then session.functions.find? (·.name = name) else none) with
    | some definition => .function definition
    | none => if Builtin.isOwn name then .own false else .program

/-- A command after the words that only tell to leave out functions, and whether there were any. -/
def stripped : Nat → List (List Char) → List (List Char) × Bool
  | 0, words => (words, false)
  | fuel + 1, words =>
    match words with
    | ['c', 'o', 'm', 'm', 'a', 'n', 'd'] :: rest =>
      let after := if rest.head? = some ['-', 'p'] then rest.tail else rest
      let after := if after.head? = some ['-', '-'] then after.tail else after
      match after with
      | ('-' :: _) :: _ => (words, false)
      | [] => (words, false)
      | next => ((stripped fuel next).1, true)
    | words => (words, false)

def tellCommands (words : List (List Char)) : Act Nat := do
  let (chosen, names) ← Builtin.options "pvV" "" words
  let isVerbose := chosen.any fun option => option.1 = 'V'
  match names with
  | [] => return 0
  | name :: _ => Builtin.describe isVerbose name

def own (run : Runner) (manner : Manner) (name : List Char) (words : List (List Char)) :
    Act Nat := do
  match nameOf name with
  | "eval" => script run { tested := manner.tested } (List.intercalate [' '] words)
  | "." => dot run words
  | "exec" => takeOver run words
  | "command" => tellCommands words
  | _ =>
    match Builtin.behaviour? name with
    | some behaviour => behaviour words
    | none => return 0

def called (run : Runner) (manner : Manner) (kind : Kind) (name : List Char)
    (words : List (List Char)) : Act Nat := do
  match kind with
  | .own isSpecial =>
    Act.spend commandCost
    Builtin.carryOut name isSpecial (own run manner name words)
  | .function definition => function run manner definition words
  | .program => external run manner name words

def trace (session : Session) (texts : List (List Char)) : Act Unit := do
  if session.isSet "xtrace" then
    let front := (session.value? "PS4".toList).getD ['+', ' ']
    let machine ← Act.machine
    Act.setMachine
      (machine.append session.ports.error (front ++ List.intercalate [' '] texts ++ ['\n']))

/-- The values of assignments, one after the other, each of which is done with. -/
def assignments (run : Runner) (store : List Char → List Char → Act Unit) :
    List (List Char × Word) → Act (List (List Char))
  | [] => return []
  | (name, word) :: rest => do
    let value ← Expansion.assigned (output run) word
    store name value
    return (name ++ '=' :: value) :: (← assignments run store rest)

def argumentFields (run : Runner) (keepsAssignments : Bool) (word : Word) :
    Act (List (List Char)) := do
  match keepsAssignments, Read.assignment? word with
  | true, some (name, value) =>
    let value ← Expansion.assigned (output run) value
    return [name ++ '=' :: value]
  | _, _ => Expansion.fields (output run) word

/-- The fields of all words. The first ones tell what the others may be. -/
def commandFields (run : Runner) : List Word → List (List Char) → Act (List (List Char))
  | [], done => return done
  | word :: rest, done => do
    let named := (stripped done.length done).1
    let keeps := named.head?.any Builtin.takesAssignments
    let fields ← argumentFields run keeps word
    commandFields run rest (done ++ fields)

def nameless (run : Runner) (line : List (List Char × Word)) (redirections : List Redirection) :
    Act Nat := do
  let before ← Act.session
  Redirecting.within run redirections (return 2) do
    let shown ← assignments run Act.assign line
    if !(shown.isEmpty && redirections.isEmpty) then trace before shown
    return (← Act.session).outputStatus

def withAssignments (run : Runner) (isLasting isExported : Bool)
    (line : List (List Char × Word)) (before : Session) (words : List (List Char))
    (act : Act Nat) : Act Nat := do
  let store (name value : List Char) : Act Unit := do
    if !isLasting then Act.changeSession (·.keep name)
    Act.assign name value
    if !isLasting || isExported then
      Act.changeSession (·.change name fun found => { found with exported := true })
  let shown ← assignments run store line
  trace before (shown ++ words)
  act

def simple (run : Runner) (manner : Manner) (line : Nat) (assigned : List (List Char × Word))
    (words : List Word) (redirections : List Redirection) : Act Nat := do
  Act.changeSession fun session => { session with line, outputStatus := 0 }
  let fields ← commandFields run words []
  let (named, leavesOut) := stripped fields.length fields
  match named with
  | [] => nameless run assigned redirections
  | name :: arguments =>
    let before ← Act.session
    let kind := kindOf before (!leavesOut) name
    let isSpecial := kind.isSpecial
    let failure : Act Nat := if isSpecial then throw .failed else return 2
    let act : Act Nat :=
      withAssignments run isSpecial (nameOf name = "exec" && !arguments.isEmpty) assigned before
        fields (called run manner kind name arguments)
    if nameOf name = "exec" then
      if ← Redirecting.apply run redirections then act else failure
    else if isSpecial then Redirecting.within run redirections failure act
    else
      Act.changeSession fun session => { session with kept := [] :: session.kept }
      Act.afterwards (Redirecting.within run redirections failure act)
        (Act.changeSession Session.giveBack)

/-- What is left of a pipeline, as it goes when nobody waits for it. -/
structure Flow where
  ending : Ending
  finish : Nat
  others : List Ending := []

def brokenOff (machine : Machine) (channel read : Nat) (past : Past) : Past :=
  match (machine.channelPieces channel).find? fun piece => read < piece.time with
  | some piece =>
    { past with finish := min past.finish piece.time, ending := .signalled Signal.pipe }
  | none => past

/-- Commands of which each reads what the one before it wrote. They run at the same time. -/
def stages (run : Runner) (manner : Manner) (start : Nat) (input : Option Nat) :
    List Command → Act Flow
  | [] => return ⟨.exited 0, start, []⟩
  | command :: rest => do
    Act.changeMachine fun machine => { machine with clock := start }
    let lead (session : Session) : Session :=
      match input with
      | some supply => { session with ports := session.ports.set 0 (.supply supply) }
      | none => session
    match rest with
    | [] =>
      let past ← inProcess run lead (run { manner with exits := true } command)
      return ⟨past.ending, past.finish, []⟩
    | rest =>
      let (channel, machine) := (← Act.machine).addChannel
      Act.setMachine machine
      let past ← inProcess run
        (fun session =>
          let session := lead session
          { session with ports := session.ports.set 1 (.channel channel) })
        (run { manner with exits := true } command)
      let machine ← Act.machine
      let (supply, machine) := machine.addSupply (machine.supplyOf channel past.finish)
      Act.setMachine machine
      let flow ← stages run manner (start + startCost) (some supply) rest
      let machine ← Act.machine
      let past := brokenOff machine channel flow.finish past
      Act.setMachine (machine.breakChannel channel flow.finish)
      return ⟨flow.ending, max past.finish flow.finish, past.ending :: flow.others⟩

def pipeline (run : Runner) (manner : Manner) (commands : List Command) : Act Nat := do
  let start := (← Act.machine).clock
  let flow ← stages run manner start none commands
  Act.changeMachine fun machine => { machine with clock := flow.finish }
  for ending in flow.others do
    let _ ← noteEnd ending
  noteEnd flow.ending

def background (run : Runner) (command : Command) : Act Nat := do
  let clock := (← Act.machine).clock
  let ignored := (← Act.session).traps.filterMap fun (signal, action) =>
    if action.isEmpty then some signal else none
  let lead (session : Session) : Session :=
    { session with ports := session.ports.set 0 .nowhere }
  let past ← inProcess run lead (run { exits := true } command)
  Act.changeMachine fun machine =>
    { machine with
      clock := clock + startCost
      tasks := ⟨past.process, past.label, past.finish, past.ending,
        Signal.interrupt :: Signal.quit :: ignored⟩ :: machine.tasks }
  Act.changeSession fun session =>
    let number := session.jobs.foldl (fun most job => max most job.number) 0 + 1
    { session with
      background := some past.process
      jobs := { number, process := past.process } :: session.jobs }
  return 0

/-- A shell of its own for a command. A process that ends with it need not be copied. -/
def subshell (run : Runner) (manner : Manner) (line : Nat) (body : Command)
    (redirections : List Redirection) : Act Nat := do
  Act.changeSession fun session => { session with line }
  let act : Act Nat := do
    if ← Redirecting.apply run redirections then run { manner with exits := true } body
    else throw (.exit 2)
  if manner.exits && (← Act.session).traps.all (·.2.isEmpty) then act
  else noteEnd (← inProcess run id act).ending

/-- How a round of a loop ended. -/
inductive Round where
  | next (status : Nat)
  | over (status : Nat)

def round (body : Act Nat) : Act Round := do
  Act.changeSession fun session => { session with loops := session.loops + 1 }
  let result ← Act.caught body
  Act.changeSession fun session => { session with loops := session.loops - 1 }
  match result with
  | .ok status => return .next status
  | .error (.breakLoop levels) =>
    if levels ≤ 1 then return .over 0 else throw (.breakLoop (levels - 1))
  | .error (.nextRound levels) =>
    if levels ≤ 1 then return .next 0 else throw (.nextRound (levels - 1))
  | .error leaving => throw leaving

/-- How many rounds a loop may have; one with more is taken to go on until the time is over. -/
def mostRounds : Nat := 200000

def rounds (run : Runner) (tested untilTrue : Bool) (condition body : Command) :
    Nat → Nat → Act Nat
  | 0, _ => do
    Act.changeMachine fun machine => machine.waitUntil (machine.deadline.getD machine.clock)
    throw .outOfTime
  | fuel + 1, status => do
    match ← round (run { tested := true } condition) with
    | .over _ => return status
    | .next found =>
      if (found = 0) = untilTrue then return status
      else
        match ← round (run { tested } body) with
        | .next status => rounds run tested untilTrue condition body fuel status
        | .over status => return status

def roundsOver (run : Runner) (tested : Bool) (name : List Char) (body : Command) :
    List (List Char) → Nat → Act Nat
  | [], status => return status
  | value :: rest, _ => do
    Act.assign name value
    match ← round (run { tested } body) with
    | .next status => roundsOver run tested name body rest status
    | .over status => return status

def branch (run : Runner) (manner : Manner) (text : List Char) :
    List (List Word × Command) → Act Nat
  | [] => return 0
  | (patterns, body) :: rest => do
    let fits ← patterns.anyM fun pattern => do
      return Glob.accepts (Glob.ofPattern (← Expansion.pattern (output run) pattern)) text
    if fits then run manner body else branch run manner text rest

def mayStop : Command → Bool
  | .simple _ _ _ _ => true
  | .pipeline _ => true
  | .subshell _ _ _ => true
  | _ => false

/-- Whether the shell ends if a command fails that is run in a manner. -/
def stopsIn (manner : Manner) : Act Bool := do
  return (← Act.session).isSet "errexit" && !manner.tested

def step (run : Runner) (manner : Manner) (command : Command) : Act Nat := do
  let inner : Manner := { tested := manner.tested }
  match command with
  | .simple line assigned words redirections =>
    simple run manner line assigned words redirections
  | .pipeline commands => pipeline run manner commands
  | .negated command =>
    let status ← run { tested := true } command
    return if status = 0 then 1 else 0
  | .linked first link second =>
    let status ← run { tested := true } first
    match link with
    | .both => if status = 0 then run manner second else return status
    | .either => if status = 0 then return status else run manner second
  | .sequence commands => all run manner commands
  | .background command => background run command
  | .redirected line command redirections =>
    Act.changeSession fun session => { session with line }
    let failure : Act Nat := do
      if ← stopsIn manner then throw (.exit 2) else return 2
    Redirecting.within run redirections failure (run inner command)
  | .subshell line body redirections => subshell run manner line body redirections
  | .choice condition thenBranch elseBranch =>
    if (← run { tested := true } condition) = 0 then run manner thenBranch
    else
      match elseBranch with
      | some elseBranch => run manner elseBranch
      | none => return 0
  | .loop untilTrue condition body =>
    rounds run manner.tested untilTrue condition body mostRounds 0
  | .each line name words body =>
    Act.changeSession fun session => { session with line }
    let values ← match words with
      | some words => do pure (← words.mapM (Expansion.fields (output run))).flatten
      | none => do pure (← Act.session).arguments
    roundsOver run manner.tested name body values 0
  | .cases line word branches =>
    Act.changeSession fun session => { session with line }
    branch run manner (← Expansion.text (output run) word) branches
  | .define _ name body =>
    Act.changeSession fun session =>
      { session with
        functions := { name, body, documents := session.documents }
          :: session.functions.filter (·.name ≠ name) }
    return 0

/-- A command, inside which commands are nested at most as deep as the fuel. In a shell that only
reads commands none is run. -/
def evaluate : Nat → Runner
  | 0 => fun _ _ => throw .outOfTime
  | fuel + 1 => fun manner command => do
    if (← Act.session).isSet "noexec" then return (← Act.session).status
    else
      heedSignals (evaluate fuel)
      let status ← step (evaluate fuel) manner command
      Act.setStatus status
      heedSignals (evaluate fuel)
      Act.checkTime
      if mayStop command && status ≠ 0 && (← stopsIn manner) then throw (.exit status)
      else return (← Act.session).status

def depth : Nat := 20000

end SizeSurvey.Shell.Evaluation
