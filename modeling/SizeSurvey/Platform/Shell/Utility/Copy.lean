import SizeSurvey.Platform.Shell.Utility.Run
/-!
# Copying texts

`cat` writes the texts of its operands one after the other, perhaps with its lines numbered and its
characters shown, and `tee` writes its input to several places.
-/
namespace SizeSurvey.Shell.Utility

namespace Cat

def choices : List Choice :=
  [{ letter := 'b', names := ["number-nonblank"] }, { letter := 'n', names := ["number"] },
    { letter := 's', names := ["squeeze-blank"] }, { letter := 'v', names := ["show-nonprinting"] },
    { letter := 'E', names := ["show-ends"] }, { letter := 'T', names := ["show-tabs"] },
    { letter := 'A', names := ["show-all"] }, { letter := 'e' }, { letter := 't' },
    { letter := 'u' }]

structure Style where
  numbersAll : Bool := false
  numbersFilled : Bool := false
  squeezes : Bool := false
  showsEnds : Bool := false
  showsTabs : Bool := false
  showsOthers : Bool := false

def Style.ofChosen (chosen : Chosen) : Style where
  numbersAll := chosen.has 'n' && !chosen.has 'b'
  numbersFilled := chosen.has 'b'
  squeezes := chosen.has 's'
  showsEnds := chosen.has 'E' || chosen.has 'A' || chosen.has 'e'
  showsTabs := chosen.has 'T' || chosen.has 'A' || chosen.has 't'
  showsOthers := chosen.has 'v' || chosen.has 'A' || chosen.has 'e' || chosen.has 't'

def Style.isPlain (style : Style) : Bool :=
  !(style.numbersAll || style.numbersFilled || style.squeezes || style.showsEnds
    || style.showsTabs || style.showsOthers)

def shownLow (c : Char) : List Char :=
  if c.toNat < 32 then ['^', Char.ofNat (c.toNat + 64)]
  else if c.toNat = 127 then ['^', '?']
  else [c]

def shown (style : Style) (c : Char) : List Char :=
  if c = '\t' then if style.showsTabs then ['^', 'I'] else [c]
  else if !style.showsOthers then [c]
  else if c.toNat < 128 then shownLow c
  else 'M' :: '-' :: shownLow (Char.ofNat (c.toNat - 128))

/-- Where a text that is written stands: the number of the last line, how many empty lines came
before, and whether a line is to be started. -/
structure Place where
  line : Nat := 0
  empties : Nat := 0
  atStart : Bool := true

def numbered (line : Nat) : List Char :=
  let digits := Nat.toDigits 10 line
  List.replicate (6 - digits.length) ' ' ++ digits ++ ['\t']

def step (style : Style) (place : Place) (c : Char) (next : Option Char) : List Char × Place :=
  let isEmpty := place.atStart && c = '\n'
  let empties := if isEmpty then place.empties + 1 else 0
  if isEmpty && style.squeezes && 1 < empties then ([], { place with empties })
  else
    let counts := place.atStart
      && (style.numbersAll || (style.numbersFilled && c ≠ '\n'))
    let line := if counts then place.line + 1 else place.line
    let front := if counts then numbered line else []
    let text :=
      if c = '\n' then if style.showsEnds then ['$', '\n'] else ['\n']
      else if c = '\r' && style.showsEnds && next = some '\n' then ['^', 'M']
      else shown style c
    (front ++ text, { line, empties, atStart := c = '\n' })

def format (style : Style) : List Char → Place → List Char × Place
  | [], place => ([], place)
  | c :: rest, place =>
    let (text, place) := step style place c rest.head?
    let (more, place) := format style rest place
    (text ++ more, place)

def isOutputFile (run : Run) (stream : Option Stream) (text : List Char) : Bool :=
  match stream, run.ports.output with
  | some (.file source), some (.file target) =>
    match run.machine.files[source]?, run.machine.files[target]? with
    | some source, some target => source.place = target.place && !text.isEmpty
    | _, _ => false
  | _, _ => false

def copy (style : Style) (operand : List Char) (stream : Option Stream) (state : Run × Place) :
    Run × Place :=
  let (run, place) := state
  let write (run : Run) (place : Place) (text : List Char) : Run × Place :=
    if style.isPlain then (run.write text, place)
    else
      let (text, place) := format style text place
      (run.write text, place)
  match run.machine.available stream with
  | .ok (text, _) =>
    if isOutputFile run stream text then
      (run.complain (nameOf operand ++ ": input file is output file"), place)
    else
      match run.pour stream place write with
      | .ok state => state
      | .error _ => state
  | .error reason => (run.complain (nameOf operand ++ ": " ++ reason), place)

def copyOperand (style : Style) (state : Run × Place) (operand : List Char) : Run × Place :=
  let (run, place) := state
  if Run.isInput operand then copy style operand run.ports.input state
  else
    match run.machine.openToRead run.ports (nameOf operand) with
    | .ok (stream, machine) => copy style operand (some stream) ({ run with machine }, place)
    | .error trouble =>
      (run.complain (nameOf operand ++ ": " ++ complaint trouble), place)

def finish (usedInput : Bool) (run : Run) : Run :=
  let run := run.finish
  if usedInput && run.ports.input.isNone then
    run.complain ("closing standard input: " ++ badDescriptor)
  else run

end Cat

def cat : Behaviour :=
  withChosen Cat.choices fun chosen run =>
    if run.ports.output.isNone then run.complain ("standard output: " ++ badDescriptor)
    else
      let operands := if chosen.operands.isEmpty then [['-']] else chosen.operands
      let style := Cat.Style.ofChosen chosen
      let (run, _) := operands.foldl (Cat.copyOperand style) (run, {})
      Cat.finish (operands.any Run.isInput) run

namespace Tee

def choices : List Choice :=
  [{ letter := 'a', names := ["append"] }, { letter := 'i', names := ["ignore-interrupts"] },
    { letter := 'p' }]

def openAll (mode : Machine.Mode) (run : Run) (operands : List (List Char)) :
    Run × List (List Char × Stream) :=
  operands.foldl (fun (run, targets) operand =>
    match run.machine.openToWrite run.ports (nameOf operand) mode with
    | .ok (stream, machine) => ({ run with machine }, targets ++ [(operand, stream)])
    | .error trouble => (run.complain (nameOf operand ++ ": " ++ complaint trouble), targets))
    (run, [])

def writeAll (run : Run) (targets : List (List Char × Stream)) (text : List Char) :
    Run × List (List Char × Stream) :=
  targets.foldl (fun (run, kept) (operand, stream) =>
    match run.machine.write (some stream) text with
    | .ok machine => ({ run with machine }, kept ++ [(operand, stream)])
    | .error reason => (run.complain (nameOf operand ++ ": " ++ reason), kept)) (run, [])

end Tee

def tee : Behaviour :=
  withChosen Tee.choices fun chosen run =>
    let mode := if chosen.has 'a' then Machine.Mode.append else .truncate
    let (run, targets) := Tee.openAll mode run chosen.operands
    match run.pour run.ports.input targets fun run targets text =>
        Tee.writeAll (run.write text) targets text with
    | .ok (run, _) =>
      match run.broken with
      | some reason => run.complain ("'standard output': " ++ reason)
      | none => run
    | .error reason =>
      let run := run.complain ("read error: " ++ reason)
      if run.ports.input.isNone then run.complain ("standard input: " ++ reason) else run

end SizeSurvey.Shell.Utility
