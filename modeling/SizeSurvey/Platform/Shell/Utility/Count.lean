import SizeSurvey.Platform.Shell.Utility.Run
/-!
# Counting

`wc` counts lines, words, characters and octets, and finds how wide the widest line is. The counts
are aligned to the sizes of the files that they are about.
-/
namespace SizeSurvey.Shell.Utility

structure Counts where
  lines : Nat := 0
  words : Nat := 0
  octets : Nat := 0
  width : Nat := 0

/-- Counts so far, the column, and whether the text is inside of a word. -/
structure Counting where
  counts : Counts := {}
  column : Nat := 0
  inWord : Bool := false

namespace Counting

def endLine (counting : Counting) : Counting :=
  { counting with
    counts := { counting.counts with width := max counting.counts.width counting.column }
    column := 0
    inWord := false }

def step (counting : Counting) (c : Char) : Counting :=
  let counts := { counting.counts with octets := counting.counts.octets + 1 }
  let counting := { counting with counts }
  if c = '\n' then { counting with counts := { counts with lines := counts.lines + 1 } }.endLine
  else if c = '\r' ∨ c = '\x0c' then counting.endLine
  else if c = '\t' then
    { counting with column := counting.column + (8 - counting.column % 8), inWord := false }
  else if c = ' ' then { counting with column := counting.column + 1, inWord := false }
  else if c = '\x0b' then { counting with inWord := false }
  else if ' ' < c ∧ c < '\x7f' then
    { counts := if counting.inWord then counts else { counts with words := counts.words + 1 }
      column := counting.column + 1
      inWord := true }
  else counting

end Counting

namespace Counts

def ofText (text : List Char) : Counts :=
  (text.foldl Counting.step {}).endLine.counts

def add (a b : Counts) : Counts where
  lines := a.lines + b.lines
  words := a.words + b.words
  octets := a.octets + b.octets
  width := max a.width b.width

end Counts

namespace Wc

def choices : List Choice :=
  [{ letter := 'c', names := ["bytes"] }, { letter := 'm', names := ["chars"] },
    { letter := 'l', names := ["lines"] }, { letter := 'w', names := ["words"] },
    { letter := 'L', names := ["max-line-length"] },
    { letter := 'T', names := ["total"], takesArgument := true }]

def chosenCounts (chosen : Chosen) (counts : Counts) : List Nat :=
  let isPlain := !(['c', 'm', 'l', 'w', 'L'].any chosen.has)
  (if isPlain || chosen.has 'l' then [counts.lines] else [])
    ++ (if isPlain || chosen.has 'w' then [counts.words] else [])
    ++ (if chosen.has 'm' then [counts.octets] else [])
    ++ (if isPlain || chosen.has 'c' then [counts.octets] else [])
    ++ (if chosen.has 'L' then [counts.width] else [])

def fileSize? (machine : Machine) (stream : Option Stream) : Option Nat :=
  match stream with
  | some (.file index) =>
    (machine.files[index]?).map fun file => (machine.octetsAt file.place).length
  | _ => none

/-- What is known of an operand beforehand: nothing, or the size of the file if it is one. -/
def sizeOf (run : Run) (operand : List Char) : Option (Option Nat) :=
  if Run.isInput operand then
    if run.ports.input.isNone then none else some (fileSize? run.machine run.ports.input)
  else
    match run.machine.openToRead run.ports (nameOf operand) with
    | .ok (stream, machine) => some (fileSize? machine (some stream))
    | .error _ => none

/-- How wide counts are: as the sum of the sizes, and seven where something is no file. -/
def widthFor (run : Run) (operands : List (List Char)) : Nat :=
  let sizes := operands.filterMap (sizeOf run)
  let sum := (sizes.filterMap id).foldl (· + ·) 0
  let least := if sizes.any Option.isNone then 7 else 1
  max least (Nat.toDigits 10 sum).length

def padded (width : Nat) (n : Nat) : List Char :=
  let digits := Nat.toDigits 10 n
  List.replicate (width - digits.length) ' ' ++ digits

def line (chosen : Chosen) (width : Nat) (label : List Char) (counts : Counts) : List Char :=
  List.intercalate [' '] ((chosenCounts chosen counts).map (padded width)) ++ label ++ ['\n']

def countsOf (run : Run) (operand : List Char) (isNamed : Bool) : Run × Option Counts :=
  let shown := if isNamed then nameOf operand else "'standard input'"
  if Run.isInput operand then
    let shown := if isNamed then "-" else "'standard input'"
    match run.machine.readAll run.ports.input with
    | .ok (text, machine) => ({ run with machine }, some (Counts.ofText text))
    | .error reason => (run.complain (shown ++ ": " ++ reason), some {})
  else if operand.isEmpty then (run.complain "invalid zero-length file name", none)
  else
    match run.machine.openToRead run.ports (nameOf operand) with
    | .error trouble => (run.complain (shown ++ ": " ++ complaint trouble), none)
    | .ok (stream, machine) =>
      match machine.readAll (some stream) with
      | .ok (text, machine) => ({ run with machine }, some (Counts.ofText text))
      | .error reason => ({ run with machine }.complain (shown ++ ": " ++ reason), some {})

end Wc

open Wc in
def wc : Behaviour :=
  withChosen choices fun chosen run =>
    let isNamed := !chosen.operands.isEmpty
    let operands := if isNamed then chosen.operands else [['-']]
    let isSingle := operands.length = 1 && (chosenCounts chosen {}).length = 1
    let total := (chosen.argument? 'T').map nameOf
    let isOnly := total = some "only"
    let width := if isSingle || isOnly then 1 else widthFor run operands
    let (run, sum) := operands.foldl (fun ((run, sum) : Run × Counts) operand =>
      match countsOf run operand isNamed with
      | (run, some counts) =>
        let label := if isNamed then ' ' :: operand else []
        let run := if isOnly then run else run.write (line chosen width label counts)
        (run, sum.add counts)
      | (run, none) => (run, sum)) (run, {})
    let hasTotal := match total with
      | some "always" => true
      | some "only" => true
      | some "never" => false
      | _ => 1 < operands.length
    let label := if isOnly then [] else " total".toList
    (if hasTotal then run.write (line chosen width label sum) else run).finish

end SizeSurvey.Shell.Utility
