import SizeSurvey.Platform.Shell.Regex
import SizeSurvey.Platform.Shell.Utility.Run
/-!
# Lines

Utilities that choose, order or shorten the lines of a text.
-/
namespace SizeSurvey.Shell.Utility

def linesOf (text : List Char) : List (List Char) × Bool :=
  if text.isEmpty then ([], true)
  else
    let pieces := Text.splitAt '\n' text
    if pieces.getLast? = some [] then (pieces.dropLast, true) else (pieces, false)

def unlines (lines : List (List Char)) (ended : Bool) : List Char :=
  let text := List.intercalate ['\n'] lines
  if lines.isEmpty || !ended then text else text ++ ['\n']

def filter (choices : List Choice) (change : Chosen → List Char → List Char) : Behaviour :=
  withChosen choices fun chosen run =>
    let (run, texts) := run.readOperands chosen.operands
    (run.write (change chosen (texts.flatMap Prod.snd))).finish

namespace Portion

def choices : List Choice :=
  [{ letter := 'n', names := ["lines"], takesArgument := true },
    { letter := 'c', names := ["bytes"], takesArgument := true },
    { letter := 'q', names := ["quiet", "silent"] }, { letter := 'v', names := ["verbose"] }]

def modern (words : List (List Char)) : List (List Char) :=
  match words with
  | ('-' :: c :: more) :: rest =>
    if Text.isDigit c then ['-', 'n'] :: (c :: more) :: rest else words
  | words => words

def count? (word : List Char) : Option (Option Char × Nat) :=
  match word with
  | '-' :: digits => (Text.readNumber? 10 Text.digit? digits).map fun n => (some '-', n)
  | '+' :: digits => (Text.readNumber? 10 Text.digit? digits).map fun n => (some '+', n)
  | digits => (Text.readDecimal? digits).map fun n => (none, n)

/-- The portion that the options ask for: whether it is one of octets, and how much it is. -/
def ofChosen (chosen : Chosen) : Except String (Bool × Option Char × Nat) :=
  let read (octets : Bool) (word : List Char) : Except String (Bool × Option Char × Nat) :=
    match count? word with
    | some (sign, n) => .ok (octets, sign, n)
    | none =>
      .error ("invalid number of " ++ (if octets then "bytes" else "lines") ++ ": '" ++ nameOf word
        ++ "'")
  match chosen.argument? 'c', chosen.argument? 'n' with
  | some word, _ => read true word
  | none, some word => read false word
  | none, none => .ok (false, none, 10)

/-- The first items, or all but the last ones after a minus sign. -/
def first {α : Type} (sign : Option Char) (n : Nat) (items : List α) : List α :=
  if sign = some '-' then items.take (items.length - n) else items.take n

/-- The last items, or those from a place on after a plus sign. -/
def last {α : Type} (sign : Option Char) (n : Nat) (items : List α) : List α :=
  if sign = some '+' then items.drop (n - 1) else items.drop (items.length - n)

def ofText (select : List (List Char) → List (List Char)) (text : List Char) : List Char :=
  let (lines, ended) := linesOf text
  let marked := lines.zipIdx.map fun (line, index) =>
    if ended || index + 1 < lines.length then line ++ ['\n'] else line
  (select marked).flatten

/-- A utility that writes a part of each text, with titles if there are several. -/
def utility (select : {α : Type} → Option Char → Nat → List α → List α) : Behaviour :=
  fun words => withChosen choices (fun chosen run =>
    match ofChosen chosen with
    | .error reason => run.complain reason
    | .ok (octets, sign, n) =>
      let (run, texts) := run.readOperands chosen.operands
      let titled := (1 < chosen.operands.length || chosen.has 'v') && !chosen.has 'q'
      let parts := texts.zipIdx.map fun ((operand, text), index) =>
        let label := if Run.isInput operand then "standard input".toList else operand
        let title := if !titled then []
          else (if index = 0 then [] else ['\n']) ++ "==> ".toList ++ label ++ " <==\n".toList
        title ++ (if octets then select sign n text else ofText (select sign n) text)
      (run.write parts.flatten).finish) true (modern words)

end Portion

def head : Behaviour :=
  Portion.utility Portion.first

def tail : Behaviour :=
  Portion.utility Portion.last

namespace Grep

def choices : List Choice :=
  [{ letter := 'v', names := ["invert-match"] }, { letter := 'c', names := ["count"] },
    { letter := 'q', names := ["quiet", "silent"] }, { letter := 'F', names := ["fixed-strings"] },
    { letter := 'E', names := ["extended-regexp"] }, { letter := 'i', names := ["ignore-case"] },
    { letter := 'x', names := ["line-regexp"] }, { letter := 'n', names := ["line-number"] },
    { letter := 'o', names := ["only-matching"] }, { letter := 's', names := ["no-messages"] },
    { letter := 'e', names := ["regexp"], takesArgument := true },
    { letter := 'l', names := ["files-with-matches"] }, { letter := 'h', names := ["no-filename"] }]

def find? (chosen : Chosen) (pattern line : List Char) : Option Regex.Match :=
  let fold (text : List Char) : List Char :=
    if chosen.has 'i' then text.map Char.toLower else text
  let expression := if chosen.has 'F' then some ((fold pattern).map fun c => Regex.one (.char c))
    else Regex.ofText? (chosen.has 'E') (fold pattern)
  let expression := if chosen.has 'x' then
      expression.map fun body => .lineStart :: body ++ [.lineEnd]
    else expression
  expression.bind fun body => Regex.findFrom body (fold line) 0

def shown (chosen : Chosen) (pattern front text : List Char) : List (List Char) :=
  ((linesOf text).1.zipIdx 1).filterMap fun (line, number) =>
    let found := find? chosen pattern line
    if found.isSome = chosen.has 'v' then none
    else
      let front := front
        ++ if chosen.has 'n' then Nat.toDigits 10 number ++ [':'] else []
      match chosen.has 'o', found with
      | true, some found =>
        some (front ++ (line.drop found.before.length).take found.text.length)
      | _, _ => some (front ++ line)

end Grep

def grep : Behaviour :=
  withChosen Grep.choices fun chosen run =>
    let (pattern, operands) := match chosen.argument? 'e' with
      | some pattern => (pattern, chosen.operands)
      | none => (chosen.operands.headD [], chosen.operands.tail)
    let (after, texts) := run.readOperands operands
    let isNamed := 1 < operands.length && !chosen.has 'h'
    let found := texts.map fun (operand, text) =>
      let front := if isNamed then operand ++ [':'] else []
      (operand, front, Grep.shown chosen pattern front text)
    let written := found.flatMap fun (operand, front, lines) =>
      if chosen.has 'q' then []
      else if chosen.has 'l' then if lines.isEmpty then [] else operand ++ ['\n']
      else if chosen.has 'c' then front ++ Nat.toDigits 10 lines.length ++ ['\n']
      else unlines lines true
    let status := if after.status ≠ 0 then 2
      else if found.all fun (_, _, lines) => lines.isEmpty then 1 else 0
    ({ after with status }.write written).finish

namespace Order

def choices : List Choice :=
  [{ letter := 'r', names := ["reverse"] }, { letter := 'n', names := ["numeric-sort"] },
    { letter := 'u', names := ["unique"] }]

def number (line : List Char) : Int :=
  (Numeral.ofText false line).value

/-- Whether a line comes before another one or may do so. -/
def comesFirst (chosen : Chosen) (a b : List Char) : Bool :=
  let ordered (a b : List Char) : Bool := !List.lex b a fun c d => c < d
  let byText := if chosen.has 'r' then ordered b a else ordered a b
  if !chosen.has 'n' || number a = number b then byText
  else if chosen.has 'r' then number b < number a else number a < number b

end Order

def withoutRepeats (lines : List (List Char)) : List (List Char) :=
  (lines.foldl (fun (kept : List (List Char)) line =>
    if kept.head? = some line then kept else line :: kept) []).reverse

def sort : Behaviour :=
  filter Order.choices fun chosen text =>
    let lines := (linesOf text).1.mergeSort (Order.comesFirst chosen)
    unlines (if chosen.has 'u' then withoutRepeats lines else lines) true

def uniq : Behaviour :=
  filter [{ letter := 'c', names := ["count"] }] fun chosen text =>
    let lines := (linesOf text).1
    let groups := (lines.foldl (fun (groups : List (Nat × List Char)) line =>
      match groups with
      | (count, last) :: rest =>
        if last = line then (count + 1, last) :: rest else (1, line) :: groups
      | [] => [(1, line)]) []).reverse
    let shown := groups.map fun (count, line) =>
      if chosen.has 'c' then
        let digits := Nat.toDigits 10 count
        List.replicate (7 - digits.length) ' ' ++ digits ++ ' ' :: line
      else line
    unlines shown true

def rev : Behaviour :=
  filter [] fun _ text =>
    let (lines, ended) := linesOf text
    unlines (lines.map List.reverse) ended

namespace Cut

def choices : List Choice :=
  [{ letter := 'd', names := ["delimiter"], takesArgument := true },
    { letter := 'f', names := ["fields"], takesArgument := true },
    { letter := 'c', names := ["characters"], takesArgument := true },
    { letter := 'b', names := ["bytes"], takesArgument := true },
    { letter := 's', names := ["only-delimited"] }]

def holds (ranges : List Char) (n : Nat) : Bool :=
  (Text.splitAt ',' ranges).any fun range =>
    let low := range.takeWhile (· ≠ '-')
    let least := (Text.readDecimal? low).getD 1
    match range.drop low.length with
    | [] => n = least
    | _ :: high => least ≤ n && (Text.readDecimal? high).all (n ≤ ·)

def kept {α : Type} (ranges : List Char) (items : List α) : List α :=
  (items.zipIdx 1).filterMap fun (item, n) => if holds ranges n then some item else none

def line (chosen : Chosen) (text : List Char) : Option (List Char) :=
  match chosen.argument? 'f', (chosen.argument? 'c').or (chosen.argument? 'b') with
  | some ranges, _ =>
    let separator := (chosen.argument? 'd').bind List.head? |>.getD '\t'
    let fields := Text.splitAt separator text
    if fields.length ≤ 1 then if chosen.has 's' then none else some text
    else some (List.intercalate [separator] (kept ranges fields))
  | none, some ranges => some (kept ranges text)
  | none, none => some text

end Cut

def cut : Behaviour :=
  filter Cut.choices fun chosen text => unlines ((linesOf text).1.filterMap (Cut.line chosen)) true

/-- The numbers between two bounds, one being the first bound unless it is given. -/
def seq : Behaviour := fun words run =>
  let numbers := words.map fun word => (Numeral.ofText false word).value
  let (first, step, last) : Int × Int × Int := match numbers with
    | [last] => (1, 1, last)
    | [first, last] => (first, 1, last)
    | first :: step :: last :: _ => (first, step, last)
    | [] => (1, 1, 0)
  let count : Nat := if step = 0 then 0 else ((last - first) / step + 1).toNat
  let lines := (List.range count).map fun (n : Nat) => signedDigits (first + step * n)
  (run.write (unlines lines true)).finish

end SizeSurvey.Shell.Utility
