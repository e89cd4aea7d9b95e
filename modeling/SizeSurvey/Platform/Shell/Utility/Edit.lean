import SizeSurvey.Platform.Shell.Regex
import SizeSurvey.Platform.Shell.Utility.Lines
/-!
# Editing lines

`sed` applies the rules of a script to each line of its text. A rule has an address, which tells the
lines that it is for, and an edit.
-/
namespace SizeSurvey.Shell.Utility

namespace Sed

inductive Address where
  | line (n : Nat)
  | final
  | matching (expression : List Regex)

/-- The lines that a rule is for. -/
inductive Scope where
  | always
  | at (address : Address)
  | between (first last : Address)

/-- What takes the place of what was found. -/
inductive Replacement where
  | char (c : Char)
  | group (number : Nat)

structure Substitution where
  expression : List Regex
  replacement : List Replacement
  everywhere : Bool
  printed : Bool
  ordinal : Nat

inductive Edit where
  | substitute (substitution : Substitution)
  | exchange (pairs : List (Char × Char))
  | print
  | delete
  | quit
  | number
  | append (text : List Char)
  | insert (text : List Char)
  | change (text : List Char)

structure Rule where
  scope : Scope
  negated : Bool
  edit : Edit

def upTo (separator : Char) (done : List Char) : List Char → Option (List Char × List Char)
  | [] => none
  | '\\' :: c :: rest =>
    if c = separator then upTo separator (c :: done) rest
    else upTo separator (c :: '\\' :: done) rest
  | c :: rest =>
    if c = separator then some (done.reverse, rest) else upTo separator (c :: done) rest

def address? (extended : Bool) (text : List Char) : Option (Option Address × List Char) :=
  match text with
  | '$' :: rest => some (some .final, rest)
  | '/' :: rest => do
    let (body, rest) ← upTo '/' [] rest
    return (some (.matching (← Regex.ofText? extended body)), rest)
  | text =>
    let digits := text.takeWhile Text.isDigit
    some ((Text.readDecimal? digits).map .line, text.drop digits.length)

def scope? (extended : Bool) (text : List Char) : Option (Scope × List Char) := do
  match ← address? extended text with
  | (none, rest) => return (.always, rest)
  | (some first, ',' :: rest) =>
    match ← address? extended rest with
    | (some last, rest) => return (.between first last, rest)
    | (none, _) => none
  | (some first, rest) => return (.at first, rest)

def replacement : List Char → List Replacement
  | [] => []
  | '\\' :: 'n' :: rest => .char '\n' :: replacement rest
  | '\\' :: 't' :: rest => .char '\t' :: replacement rest
  | '\\' :: c :: rest =>
    match Text.digit? c with
    | some n => .group n :: replacement rest
    | none => .char c :: replacement rest
  | '&' :: rest => .group 0 :: replacement rest
  | c :: rest => .char c :: replacement rest

def lineText (text : List Char) : List Char × List Char :=
  let text := match text.dropWhile (· = ' ') with
    | '\\' :: '\n' :: rest => rest
    | '\\' :: rest => rest
    | rest => rest
  let line := text.takeWhile (· ≠ '\n')
  (line, text.drop line.length)

def isFlag (c : Char) : Bool :=
  c == 'g' || c == 'p' || c == 'I' || c == 'i' || Text.isDigit c

def edit? (extended : Bool) (text : List Char) : Option (Edit × List Char) :=
  match text with
  | 'p' :: rest => some (.print, rest)
  | 'd' :: rest => some (.delete, rest)
  | 'q' :: rest => some (.quit, rest)
  | '=' :: rest => some (.number, rest)
  | 'a' :: rest =>
    let (line, rest) := lineText rest
    some (.append line, rest)
  | 'i' :: rest =>
    let (line, rest) := lineText rest
    some (.insert line, rest)
  | 'c' :: rest =>
    let (line, rest) := lineText rest
    some (.change line, rest)
  | 's' :: separator :: rest => do
    let (pattern, rest) ← upTo separator [] rest
    let (written, rest) ← upTo separator [] rest
    let flags := rest.takeWhile isFlag
    let substitution : Substitution :=
      { expression := ← Regex.ofText? extended pattern
        replacement := replacement written
        everywhere := flags.contains 'g'
        printed := flags.contains 'p'
        ordinal := (Text.readDecimal? (flags.filter Text.isDigit)).getD 1 }
    return (.substitute substitution, rest.drop flags.length)
  | 'y' :: separator :: rest => do
    let (source, rest) ← upTo separator [] rest
    let (target, rest) ← upTo separator [] rest
    if source.length = target.length then some (.exchange (source.zip target), rest) else none
  | _ => none

def isBreak (c : Char) : Bool :=
  c == ';' || c == '\n' || c == ' '

def rules? (extended : Bool) : Nat → List Char → Option (List Rule)
  | 0, _ => none
  | fuel + 1, text =>
    match text.dropWhile isBreak with
    | [] => some []
    | text => do
      let (scope, text) ← scope? extended text
      let text := text.dropWhile (· = ' ')
      let (negated, text) := match text with
        | '!' :: rest => (true, rest.dropWhile (· = ' '))
        | rest => (false, rest)
      let (edit, text) ← edit? extended text
      return ⟨scope, negated, edit⟩ :: (← rules? extended fuel text)

def replaced (found : Regex.Match) (replacement : List Replacement) : List Char :=
  replacement.flatMap fun part =>
    match part with
    | .char c => [c]
    | .group 0 => found.text
    | .group number =>
      match found.captures.find? fun capture => capture.number = number with
      | some capture => capture.text
      | none => []

/-- The rest of a line from a place on with matches replaced, of which so many were passed over. -/
def substituted (substitution : Substitution) (line : List Char) :
    Nat → Nat → Nat → List Char × Bool
  | 0, start, _ => (line.drop start, false)
  | fuel + 1, start, seen =>
    match Regex.findFrom substitution.expression line start with
    | none => (line.drop start, false)
    | some found =>
      let isChosen := substitution.ordinal ≤ seen + 1
      let text := if isChosen then replaced found substitution.replacement else found.text
      let stop := line.length - found.after.length
      if isChosen && !substitution.everywhere then (found.before ++ text ++ found.after, true)
      else if found.text.isEmpty then
        match found.after with
        | [] => (found.before ++ text, isChosen)
        | c :: _ =>
          let (more, changed) := substituted substitution line fuel (stop + 1) (seen + 1)
          (found.before ++ text ++ c :: more, changed || isChosen)
      else
        let (more, changed) := substituted substitution line fuel stop (seen + 1)
        (found.before ++ text ++ more, changed || isChosen)

/-- A line with its number and whether it is the last one. -/
structure Line where
  number : Nat
  isLast : Bool
  text : List Char

def Address.accepts (address : Address) (line : Line) : Bool :=
  match address with
  | .line n => n == line.number
  | .final => line.isLast
  | .matching expression => (Regex.findFrom expression line.text 0).isSome

/-- Whether a rule is for a line, and whether the lines that it is for go on. -/
def Scope.accepts (scope : Scope) (open_ : Bool) (line : Line) : Bool × Bool :=
  match scope with
  | .always => (true, false)
  | .at address => (address.accepts line, false)
  | .between first last =>
    if open_ then (true, !last.accepts line)
    else if first.accepts line then
      match last with
      | .line n => (true, line.number < n)
      | _ => (true, true)
    else (false, false)

/-- What the rules made of a line. -/
structure Outcome where
  written : List (List Char) := []
  later : List (List Char) := []
  kept : Option (List Char)
  stops : Bool := false

/-- Applies rules, each with whether the lines that it is for go on, to a line. -/
def apply (line : Line) : List (Rule × Bool) → Outcome × List Bool
  | [] => ({ kept := some line.text }, [])
  | (rule, open_) :: rules =>
    let (fits, stays) := rule.scope.accepts open_ line
    let others := rules.map Prod.snd
    let goOn (line : Line) (written later : List (List Char)) : Outcome × List Bool :=
      let (outcome, states) := apply line rules
      ({ outcome with written := written ++ outcome.written, later := later ++ outcome.later },
        stays :: states)
    if fits = rule.negated then goOn line [] []
    else
      match rule.edit with
      | .delete => ({ kept := none }, stays :: others)
      | .quit => ({ kept := some line.text, stops := true }, stays :: others)
      | .change text => ({ written := [text], kept := none }, stays :: others)
      | .print => goOn line [line.text] []
      | .number => goOn line [Nat.toDigits 10 line.number] []
      | .append text => goOn line [] [text]
      | .insert text => goOn line [text] []
      | .exchange pairs =>
        goOn { line with text := line.text.map fun c => (pairs.lookup c).getD c } [] []
      | .substitute substitution =>
        let (text, changed) :=
          substituted substitution line.text (line.text.length + 2) 0 0
        goOn { line with text } (if changed && substitution.printed then [text] else []) []

def lines (rules : List Rule) (quiet : Bool) (number : Nat) (states : List Bool) :
    List (List Char) → List (List Char)
  | [] => []
  | text :: rest =>
    let line : Line := ⟨number, rest.isEmpty, text⟩
    let (outcome, states) := apply line (rules.zip states)
    let kept := if quiet then [] else outcome.kept.toList
    let here := outcome.written ++ kept ++ outcome.later
    if outcome.stops then here else here ++ lines rules quiet (number + 1) states rest

def choices : List Choice :=
  [{ letter := 'n', names := ["quiet", "silent"] }, { letter := 'E', names := ["regexp-extended"] },
    { letter := 'r' }, { letter := 'e', names := ["expression"], takesArgument := true }]

end Sed

open Sed in
def sed : Behaviour :=
  withChosen choices fun chosen run =>
    let scripts := chosen.options.filterMap fun (letter, script) =>
      if letter = 'e' then some script else none
    let (script, operands) := if scripts.isEmpty then
        (chosen.operands.headD [], chosen.operands.tail)
      else (List.intercalate ['\n'] scripts, chosen.operands)
    match rules? (chosen.has 'E' || chosen.has 'r') (script.length + 1) script with
    | none => run.complain "-e expression #1, char 1: unknown command"
    | some rules =>
      let (run, texts) := run.readOperands operands
      let (found, ended) := linesOf (texts.flatMap Prod.snd)
      let states := rules.map fun _ => false
      (run.write (unlines (lines rules (chosen.has 'n') 1 states found) ended)).finish

end SizeSurvey.Shell.Utility
