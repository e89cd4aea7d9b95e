import SizeSurvey.Platform.Shell.Number
import SizeSurvey.Platform.Shell.Pattern
import SizeSurvey.Text.Split
/-!
# Regular expressions

Expressions of lines in the two notations of line editors: in the basic one, groups and counts are
written with a backward slash. A match is looked for from left to right, and repetitions take as much
as they can.
-/
namespace SizeSurvey.Shell

inductive Regex where
  | one (item : Item)
  | lineStart
  | lineEnd
  | group (number : Nat) (body : List Regex)
  | again (number : Nat)
  | either (branches : List (List Regex))
  | repeated (least : Nat) (most : Option Nat) (body : Regex)
deriving Inhabited

namespace Regex

/-- A part of a line that a group was matched by, as it ends before the rest of the line. -/
structure Capture where
  number : Nat
  text : List Char

/-- What is to be matched next. -/
inductive Task where
  | expression (regex : Regex)
  /-- The end of a group, which began where so much of the line was left. -/
  | close (number length : Nat)
  /-- A repetition after some rounds, the last of which began where so much was left. -/
  | repetition (rounds length : Nat) (least : Nat) (most : Option Nat) (body : Regex)

/-- The line, what is left of it, and what groups have matched. -/
structure Place where
  line : List Char
  rest : List Char
  captures : List Capture := []

namespace Place

def length (place : Place) : Nat :=
  place.rest.length

/-- The text from where so much of the line was left up to here. -/
def since (place : Place) (length : Nat) : List Char :=
  (place.line.drop (place.line.length - length)).take (length - place.length)

end Place

def run : Nat → List Task → Place → Option Place
  | 0, _, _ => none
  | _ + 1, [], place => some place
  | fuel + 1, task :: tasks, place =>
    match task with
    | .expression (.one item) =>
      match place.rest with
      | c :: rest => if item.accepts c then run fuel tasks { place with rest } else none
      | [] => none
    | .expression .lineStart =>
      if place.length = place.line.length then run fuel tasks place else none
    | .expression .lineEnd => if place.rest.isEmpty then run fuel tasks place else none
    | .expression (.group number body) =>
      run fuel (body.map .expression ++ .close number place.length :: tasks) place
    | .close number length =>
      run fuel tasks
        { place with captures := ⟨number, place.since length⟩ :: place.captures }
    | .expression (.again number) =>
      match place.captures.find? fun capture => capture.number = number with
      | none => none
      | some capture =>
        match Text.afterStart? capture.text place.rest with
        | some rest => run fuel tasks { place with rest }
        | none => none
    | .expression (.either branches) =>
      let found := branches.filterMap fun branch =>
        run fuel (branch.map .expression ++ tasks) place
      found.foldl (fun (best : Option Place) (next : Place) =>
        match best with
        | some place => if next.length < place.length then some next else best
        | none => some next) none
    | .expression (.repeated least most body) =>
      run fuel (.repetition 0 (place.length + 1) least most body :: tasks) place
    | .repetition rounds length least most body =>
      let mayGoOn := most.all (rounds < ·) && (place.length < length || rounds < least)
      let further := if mayGoOn then
          run fuel (.expression body
            :: .repetition (rounds + 1) place.length least most body :: tasks) place
        else none
      match further with
      | some place => some place
      | none => if least ≤ rounds then run fuel tasks place else none

/-- What was found in a line: the text before it, the text itself, the text after it, and what groups
have matched. -/
structure Match where
  before : List Char
  text : List Char
  after : List Char
  captures : List Capture

def matchFuel (line : List Char) : Nat :=
  20 * line.length + 2000

def findFrom (expression : List Regex) (line : List Char) (start : Nat) : Option Match :=
  (List.range (line.length + 1 - start)).findSome? fun skipped =>
    let begin := start + skipped
    let place : Place := { line, rest := line.drop begin }
    (run (matchFuel line) (expression.map .expression) place).map fun place =>
      { before := (line.take begin).drop start
        text := place.since (line.length - begin)
        after := place.rest
        captures := place.captures }

/-- What is being read: the rest of the text and how many groups were opened. -/
structure Reading where
  text : List Char
  groups : Nat := 0

/-- What a sign means in the notation. -/
inductive Sign where
  | open
  | close
  | or
  | times (least : Nat) (most : Option Nat)
  | plain
deriving DecidableEq

def counts? (extended : Bool) (text : List Char) : Option (Nat × Option Nat × List Char) :=
  let low := text.takeWhile Text.isDigit
  let least := (Text.readDecimal? low).getD 0
  let finish (most : Option Nat) (rest : List Char) : Option (Nat × Option Nat × List Char) :=
    match extended, rest with
    | true, '\x7d' :: rest => some (least, most, rest)
    | false, '\\' :: '\x7d' :: rest => some (least, most, rest)
    | _, _ => none
  match text.drop low.length with
  | ',' :: rest =>
    let high := rest.takeWhile Text.isDigit
    finish (Text.readDecimal? high) (rest.drop high.length)
  | rest => if low.isEmpty then none else finish (some least) rest

def sign (extended : Bool) (text : List Char) : Sign × List Char :=
  let braced (rest : List Char) : Sign × List Char :=
    match counts? extended rest with
    | some (least, most, rest) => (.times least most, rest)
    | none => (.plain, text)
  let special (c : Char) (rest : List Char) : Sign × List Char :=
    match c with
    | '(' => (.open, rest)
    | ')' => (.close, rest)
    | '|' => (.or, rest)
    | '+' => (.times 1 none, rest)
    | '?' => (.times 0 (some 1), rest)
    | '\x7b' => braced rest
    | _ => (.plain, text)
  match text with
  | '*' :: rest => (.times 0 none, rest)
  | '\\' :: c :: rest => if extended then (.plain, text) else special c rest
  | c :: rest => if extended then special c rest else (.plain, text)
  | [] => (.plain, text)

def bracket? (text : List Char) : Option (Item × List Char) :=
  let (negated, body) := match text with
    | '^' :: rest => (true, rest)
    | rest => (false, rest)
  (bracketRanges (body.length + 1) true [] body).map fun (ranges, rest) =>
    (.oneOf negated ranges, rest)

/-- An expression for one character or place at the front of a text. `isFirst` and `isLast` tell
whether the ends of a line can be meant. -/
def atom? (extended isFirst : Bool) (text : List Char) : Option (Regex × List Char) :=
  match text with
  | '.' :: rest => some (.one .any, rest)
  | '[' :: rest => (bracket? rest).map fun (item, rest) => (.one item, rest)
  | '^' :: rest => some (if extended || isFirst then .lineStart else .one (.char '^'), rest)
  | '$' :: rest =>
    let isLast := rest.isEmpty || (sign extended rest).1 = .close || (sign extended rest).1 = .or
    some (if extended || isLast then .lineEnd else .one (.char '$'), rest)
  | '\\' :: 'n' :: rest => some (.one (.char '\n'), rest)
  | '\\' :: 't' :: rest => some (.one (.char '\t'), rest)
  | '\\' :: c :: rest =>
    match Text.digit? c with
    | some (n + 1) => some (.again (n + 1), rest)
    | _ => some (.one (.char c), rest)
  | ['\\'] => none
  | c :: rest => some (.one (.char c), rest)
  | [] => none

def withRepetitions (extended : Bool) : Nat → Regex → List Char → Regex × List Char
  | 0, regex, text => (regex, text)
  | fuel + 1, regex, text =>
    match sign extended text with
    | (.times least most, rest) => withRepetitions extended fuel (.repeated least most regex) rest
    | _ => (regex, text)

/-- Branches up to a closing sign or the end. `done` are the branches before the one that is read,
and `current` is that one, both with the last part first. -/
def branches? (extended isInner : Bool) : Nat → List (List Regex) → List Regex → Reading →
    Option (List (List Regex) × Reading)
  | 0, _, _, _ => none
  | fuel + 1, done, current, reading =>
    let text := reading.text
    if text.isEmpty then
      if isInner then none else some ((current.reverse :: done).reverse, reading)
    else
      let add (regex : Regex) (rest : List Char) (groups : Nat) :
          Option (List (List Regex) × Reading) :=
        let (regex, rest) := withRepetitions extended (rest.length + 1) regex rest
        branches? extended isInner fuel done (regex :: current) ⟨rest, groups⟩
      match sign extended text with
      | (.close, rest) =>
        if isInner then some ((current.reverse :: done).reverse, { reading with text := rest })
        else if extended then add (.one (.char ')')) rest reading.groups
        else none
      | (.or, rest) =>
        branches? extended isInner fuel (current.reverse :: done) [] { reading with text := rest }
      | (.open, rest) =>
        let number := reading.groups + 1
        match branches? extended true fuel [] [] ⟨rest, number⟩ with
        | some ([body], after) => add (.group number body) after.text after.groups
        | some (bodies, after) => add (.group number [.either bodies]) after.text after.groups
        | none => none
      | (.times _ _, rest) =>
        let isPlain := current.isEmpty || (match current with
          | [.lineStart] => true
          | _ => false)
        if isPlain && text.head? = some '*' then add (.one (.char '*')) rest reading.groups
        else none
      | (.plain, _) =>
        match atom? extended current.isEmpty text with
        | some (.lineStart, rest) =>
          branches? extended isInner fuel done (.lineStart :: current) { reading with text := rest }
        | some (regex, rest) => add regex rest reading.groups
        | none => none

def ofText? (extended : Bool) (text : List Char) : Option (List Regex) :=
  match branches? extended false (2 * text.length + 2) [] [] { text } with
  | some ([body], _) => some body
  | some (bodies, _) => some [.either bodies]
  | none => none

end Regex

end SizeSurvey.Shell
