import SizeSurvey.Platform.Shell.Evaluation
import SizeSurvey.Tool.Output
/-!
# Launching programs

A program is started in a file tree with arguments and perhaps an input, and is given up when its
time is over. What it wrote is read as UTF-8 with replacements. A program that cannot be started is
a fault that comes before any lack of time.
-/
namespace SizeSurvey.Shell

/-- How a program is started. -/
structure Launch where
  program : String
  arguments : List String := []
  input : Option String := none
  milliseconds : Nat

namespace Launch

def ports (launch : Launch) : Ports where
  streams := [(0, if launch.input.isSome then .supply 0 else .nowhere), (1, .channel 0),
    (2, .channel 1)]

def machine (launch : Launch) (tree : Node) : Machine where
  tree := tree
  channels := [{}, {}]
  supplies := (launch.input.map fun text => { pieces := [(0, octetsOf text)] }).toList
  clock := Running.programCost
  deadline := some (launch.milliseconds * 1000)

def environment : List (List Char × Variable) :=
  [("HOME", "/root"), ("PATH", "/usr/local/sbin:/usr/local/bin:/usr/sbin:/usr/bin:/sbin:/bin")].map
    fun (name, value) => (name.toList, { value := some value.toList, exported := true })

def session (launch : Launch) : Session where
  name := launch.program.toList
  bindings := environment
  ports := launch.ports
  process := firstProcess
  parent := 1
  shownProcess := firstProcess

def isPlain (launch : Launch) : Bool :=
  (launch.program :: launch.arguments).all fun text => !text.contains '\x00'

def startFault (launch : Launch) (trouble : Trouble) : Fault :=
  if trouble = .notFound then .toolUnavailable launch.program else trouble.fault

def program? (launch : Launch) (tree : Node) : Except Fault Program := do
  let machine := launch.machine tree
  let directories := Program.searched environment
  if !launch.isPlain then .error (.inputOutput "nul byte found in provided data")
  else
    match Program.find launch.ports machine directories launch.program with
    | .error trouble => .error (launch.startFault trouble)
    | .ok (.file path text) =>
      match Program.interpreter? text with
      | none => .error (.inputOutput "Exec format error (os error 8)")
      | some (interpreter, _) =>
        match Program.atPath launch.ports machine interpreter with
        | .error trouble => .error (launch.startFault trouble)
        | .ok _ => return .file path text
    | .ok program => return program

def written (machine : Machine) (channel : Nat) : String :=
  nameOf (machine.channelText channel)

def output (machine : Machine) (exitCode : Option Nat) : ToolOutput where
  success := exitCode = some 0
  exitCode := exitCode.map Int.ofNat
  stdout := written machine 0
  stderr := written machine 1

def finish (machine : Machine) : Nat :=
  max machine.clock (max (machine.openUntil 0) (machine.openUntil 1))

def run (launch : Launch) (tree : Node) : Except Fault ToolOutput × Node :=
  match launch.program? tree with
  | .error fault => (.error fault, tree)
  | .ok program =>
    let runner := Evaluation.evaluate Evaluation.depth
    let act := Running.closing runner
      (Running.program runner Running.longestStart program (launch.arguments.map octetsOf))
    let (result, world) := act.run ⟨launch.session, launch.machine tree⟩
    let machine := world.machine.waitUntil (finish world.machine)
    let deadline : Deadline := ⟨launch.program, launch.milliseconds⟩
    let answer : Option (Except Fault ToolOutput) :=
      if machine.isLate then none
      else match Running.ending result with
        | .exited status => some (.ok (output machine (some status)))
        | .signalled _ => some (.ok (output machine none))
        | .unfinished => none
    (deadline.await answer, machine.tree)

end Launch

end SizeSurvey.Shell
