import SizeSurvey.Decimal.Reading
import SizeSurvey.Platform.Shell.Format
import SizeSurvey.Platform.Shell.Test
import SizeSurvey.Platform.Shell.Utility.Copy
import SizeSurvey.Platform.Shell.Utility.Count
import SizeSurvey.Platform.Shell.Utility.Edit
import SizeSurvey.Platform.Shell.Utility.Files
import SizeSurvey.Platform.Shell.Utility.Translate
/-!
# The utilities that are installed

The smallest utilities, and all of them by their names.
-/
namespace SizeSurvey.Shell.Utility

def microsecondsOf? (word : List Char) : Option Nat :=
  let (factor, number) : Nat × List Char := match word.reverse with
    | 's' :: rest => (1, rest.reverse)
    | 'm' :: rest => (60, rest.reverse)
    | 'h' :: rest => (3600, rest.reverse)
    | 'd' :: rest => (86400, rest.reverse)
    | _ => (1, word)
  let number := number.dropWhile Numeral.isSpace
  match number with
  | '-' :: _ => none
  | '0' :: x :: digits =>
    if x = 'x' ∨ x = 'X' then
      (Text.readHex? digits).map fun n => n * factor * 1000000
    else (Decimal.read? number).bind (ofSeconds factor)
  | number => (Decimal.read? number).bind (ofSeconds factor)
where
  ofSeconds (factor : Nat) (x : Float) : Option Nat :=
    if x.isNaN || x < 0.0 then none
    else some ((min x 1e12 * factor.toFloat * 1e6).ceil.toUInt64.toNat)

def sleep : Behaviour :=
  withChosen [] fun chosen run =>
    let times := chosen.operands.map fun word => (word, microsecondsOf? word)
    let wrong := times.filter fun (_, time) => time.isNone
    if times.isEmpty then run.refuse "missing operand"
    else if wrong.isEmpty then
      { run with machine := run.machine.pass ((times.filterMap Prod.snd).foldl (· + ·) 0) }
    else
      (wrong.foldl (fun run (word, _) =>
        run.complain ("invalid time interval '" ++ nameOf word ++ "'")) run).say run.hint

def printf : Behaviour := fun words run =>
  let printed := Format.printf words
  let run := printed.complaints.foldl (fun run text => run.complain text) run
  let run := run.write printed.text
  match printed.broken with
  | some reason => run.complain reason
  | none => run.finish

def test : Behaviour := fun words run =>
  match Test.evaluate ⟨run.ports, run.machine⟩ words with
  | .ok value => { run with status := if value then 0 else 1 }
  | .error reason => run.complain reason 2

def bracket : Behaviour := fun words run =>
  if words.getLast? = some [']'] then test words.dropLast run else run.complain "missing ']'" 2

def pwd : Behaviour := fun _ run =>
  (run.write (octetsOf run.ports.absoluteDirectory ++ ['\n'])).finish

def behaviour? (name : String) : Option Behaviour :=
  match name with
  | "true" => some fun _ run => run
  | "false" => some fun _ run => { run with status := 1 }
  | "echo" => some fun words run => (run.write (Format.programEcho words)).finish
  | "printf" => some printf
  | "test" => some test
  | "[" => some bracket
  | "cat" => some cat
  | "tee" => some tee
  | "wc" => some wc
  | "tr" => some tr
  | "sleep" => some sleep
  | "head" => some head
  | "tail" => some tail
  | "grep" => some grep
  | "sed" => some sed
  | "sort" => some sort
  | "uniq" => some uniq
  | "rev" => some rev
  | "cut" => some cut
  | "seq" => some seq
  | "touch" => some touch
  | "mkdir" => some mkdir
  | "rm" => some rm
  | "ls" => some ls
  | "basename" => some basename
  | "dirname" => some dirname
  | "pwd" => some pwd
  | _ => none

end SizeSurvey.Shell.Utility
