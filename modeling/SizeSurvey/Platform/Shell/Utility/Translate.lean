import SizeSurvey.Platform.Shell.Number
import SizeSurvey.Platform.Shell.Pattern
import SizeSurvey.Platform.Shell.Utility.Run
/-!
# Translating characters

`tr` replaces, deletes and squeezes characters. Its sets are written with escapes, ranges, classes
and repeated characters, and the second one is made as long as the first.
-/
namespace SizeSurvey.Shell.Utility

namespace Tr

/-- A character of a set as it is written, and whether an escape stands for it. -/
abbrev Sign := Char × Bool

/-- A part of a set. -/
inductive Member where
  | char (c : Char)
  | range (low high : Char)
  | named (name : String)
  | equal (c : Char)
  | repeated (c : Char) (count : Option Nat)

def unescape : Nat → List Char → List Sign × List String
  | 0, _ => ([], [])
  | fuel + 1, text =>
    let join (sign : Sign) (rest : List Char) : List Sign × List String :=
      let (signs, said) := unescape fuel rest
      (sign :: signs, said)
    match text with
    | [] => ([], [])
    | ['\\'] =>
      ([('\\', true)], ["warning: an unescaped backslash at end of string is not portable"])
    | '\\' :: c :: rest =>
      let found := Numeral.digits Numeral.octalDigit? ((c :: rest).take 3)
      if !found.isEmpty then
        let value := (Text.readDigits 8 Numeral.octalDigit? found 0).getD 0
        if value < 256 then join (Char.ofNat value, true) ((c :: rest).drop found.length)
        else
          let kept := found.take 2
          let value := (Text.readDigits 8 Numeral.octalDigit? kept 0).getD 0
          let (signs, said) := unescape fuel ((c :: rest).drop 2)
          ((Char.ofNat value, true) :: signs,
            ("warning: the ambiguous octal escape \\" ++ nameOf found
              ++ " is being\n\tinterpreted as the 2-byte sequence \\0" ++ nameOf kept ++ ", "
              ++ nameOf (found.drop 2)) :: said)
      else
        let plain := match c with
          | 'a' => '\x07'
          | 'b' => '\x08'
          | 'f' => '\x0c'
          | 'n' => '\n'
          | 'r' => '\r'
          | 't' => '\t'
          | 'v' => '\x0b'
          | c => c
        join (plain, true) rest
    | c :: rest => join (c, false) rest

def upTo (sign : Char) : List Sign → Option (List Char × List Sign)
  | (c, escaped) :: (']', false) :: rest =>
    if c = sign && !escaped then some ([], rest)
    else (upTo sign ((']', false) :: rest)).map fun (name, after) => (c :: name, after)
  | (c, _) :: rest => (upTo sign rest).map fun (name, after) => (c :: name, after)
  | [] => none

def repeated? (signs : List Sign) : Option (Except String Member × List Sign) :=
  match signs with
  | (c, _) :: ('*', false) :: rest =>
    let count := rest.takeWhile fun sign => sign ≠ (']', false)
    match rest.drop count.length with
    | [] => none
    | _ :: after =>
      let digits := count.map Prod.fst
      let invalid : Except String Member :=
        .error ("invalid repeat count '" ++ nameOf digits ++ "' in [c*n] construct")
      let base := if digits.head? = some '0' then 8 else 10
      let member : Except String Member :=
        if digits.isEmpty then .ok (.repeated c none)
        else
          match Text.readDigits base (if base = 8 then Numeral.octalDigit? else Text.digit?)
              digits 0 with
          | some 0 => .ok (.repeated c none)
          | some count => if count < UInt64.size then .ok (.repeated c (some count)) else invalid
          | none => invalid
      some (member, after)
  | _ => none

def bracketed? (signs : List Sign) : Option (Except String Member × List Sign) :=
  match signs with
  | ('[', false) :: (':', false) :: rest =>
    match upTo ':' rest with
    | some (name, after) =>
      let name := nameOf name
      if (classRanges? name).isSome then some (.ok (.named name), after)
      else match repeated? ((':', false) :: rest) with
        | some found => some found
        | none => some (.error ("invalid character class '" ++ name ++ "'"), after)
    | none => repeated? ((':', false) :: rest)
  | ('[', false) :: ('=', false) :: rest =>
    match upTo '=' rest with
    | some ([c], after) => some (.ok (.equal c), after)
    | some (text, after) =>
      match repeated? (('=', false) :: rest) with
      | some found => some found
      | none =>
        some (.error (if text.isEmpty then "missing equivalence class character '[==]'"
          else nameOf text ++ ": equivalence class operand must be a single character"), after)
    | none => repeated? (('=', false) :: rest)
  | ('[', false) :: rest => repeated? rest
  | _ => none

def shownChar (c : Char) : String :=
  if ' ' ≤ c ∧ c < '\x7f' then nameOf [c]
  else
    let digits := Nat.toDigits 8 c.toNat
    "\\" ++ String.ofList (List.replicate (3 - digits.length) '0' ++ digits)

def members : Nat → List Sign → Except String (List Member)
  | 0, _ => .ok []
  | fuel + 1, signs =>
    match bracketed? signs with
    | some (member, after) => do
      let first ← member
      return first :: (← members fuel after)
    | none =>
      match signs with
      | [] => .ok []
      | (low, _) :: ('-', false) :: (high, _) :: rest =>
        if high < low then
          .error ("range-endpoints of '" ++ shownChar low ++ "-" ++ shownChar high
            ++ "' are in reverse collating sequence order")
        else do return .range low high :: (← members fuel rest)
      | (c, _) :: rest => do return .char c :: (← members fuel rest)

def between (low high : Char) : List Char :=
  (List.range (high.toNat + 1 - low.toNat)).map fun n => Char.ofNat (low.toNat + n)

def classChars (name : String) : List Char :=
  ((classRanges? name).getD []).flatMap fun (low, high) => between low high

/-- The characters of a member; `fill` is how often a character is repeated to fill the set up. -/
def chars (fill : Nat) : Member → List Char
  | .char c => [c]
  | .range low high => between low high
  | .named name => classChars name
  | .equal c => [c]
  | .repeated c count => List.replicate (count.getD fill) c

def isFilling : Member → Bool
  | .repeated _ none => true
  | _ => false

def isCase : Member → Bool
  | .named name => name = "upper" || name = "lower"
  | _ => false

def isNamed : Member → Bool
  | .named _ => true
  | _ => false

def isEqual : Member → Bool
  | .equal _ => true
  | _ => false

def everything : List Char :=
  between '\x00' '\xff'

structure Sets where
  first : List Member
  second : Option (List Member)
  complement : Bool
  truncate : Bool

namespace Sets

def firstChars (sets : Sets) : List Char :=
  let found := sets.first.flatMap (chars 0)
  if sets.complement then everything.filter fun c => !found.contains c else found

def secondChars (sets : Sets) (length : Nat) : List Char :=
  match sets.second with
  | none => []
  | some members =>
    let fixed := (members.flatMap (chars 0)).length
    members.flatMap (chars (length - fixed))

/-- The places in the first set where classes that tell upper from lower case begin. -/
def casePlaces (members : List Member) (fill : Nat) : List Nat :=
  (members.foldl (fun (places, place) member =>
    (if isCase member then places ++ [place] else places, place + (chars fill member).length))
    (([] : List Nat), 0)).1

def translationFault? (sets : Sets) (second : List Member) : Option String :=
  let length := sets.firstChars.length
  let fixed := (second.flatMap (chars 0)).length
  let fill := length - fixed
  if second.any isEqual then
    some "[=c=] expressions may not appear in string2 when translating"
  else if second.any fun member => isNamed member && !isCase member then
    some ("when translating, the only character classes that may appear in\nstring2 are 'upper'"
      ++ " and 'lower'")
  else if !sets.complement && !(casePlaces second fill).all (casePlaces sets.first 0).contains then
    some "misaligned [:upper:] and/or [:lower:] construct"
  else if (second.flatMap (chars fill)).length < length && !sets.truncate then
    if second.isEmpty then some "when not truncating set1, string2 must be non-empty"
    else if second.getLast?.any isNamed then
      some ("when translating with string1 longer than string2,\nthe latter string must not end"
        ++ " with a character class")
    else none
  else none

def isTooVaried (sets : Sets) : Bool :=
  let first := sets.firstChars
  let second := sets.secondChars first.length
  let isOne := match second with
    | c :: rest => rest.all (· = c)
    | [] => true
  sets.complement && sets.first.any isNamed && !isOne

def fault? (sets : Sets) (translates : Bool) : Option String :=
  if sets.first.any isFilling then some "the [c*] repeat construct may not appear in string1"
  else match sets.second with
    | none => none
    | some second =>
      if 1 < second.countP isFilling then
        some "only one [c*] repeat construct may appear in string2"
      else if translates then
        match translationFault? sets second with
        | some fault => some fault
        | none =>
          if sets.isTooVaried then
            some ("when translating with complemented character classes,\nstring2 must map all"
              ++ " characters in the domain to one")
          else none
      else if second.any isFilling then
        some "the [c*] construct may appear in string2 only when translating"
      else none

def pairs (sets : Sets) : List (Char × Char) :=
  let first := sets.firstChars
  let second := sets.secondChars first.length
  let more := List.replicate (first.length - second.length) (second.getLastD ' ')
  first.zip (if sets.truncate then second else second ++ more)

end Sets

def squeeze (set : List Char) (text : List Char) : List Char :=
  (text.foldl (fun (done, last) c =>
    if some c = last ∧ set.contains c then (done, last) else (c :: done, some c))
    (([] : List Char), (none : Option Char))).1.reverse

def choices : List Choice :=
  [{ letter := 'c', names := ["complement"] }, { letter := 'C' },
    { letter := 'd', names := ["delete"] }, { letter := 's', names := ["squeeze-repeats"] },
    { letter := 't', names := ["truncate-set1"] }]

def operandFault? (chosen : Chosen) : Option (String × Option String) :=
  let deletes := chosen.has 'd'
  let squeezes := chosen.has 's'
  let least := if deletes = squeezes then 2 else 1
  let most := if deletes && !squeezes then 1 else 2
  match chosen.operands with
  | [] => some ("missing operand", none)
  | operands =>
    if operands.length < least then
      some ("missing operand after '" ++ nameOf (operands.getLastD []) ++ "'",
        some (if squeezes then
          "Two strings must be given when both deleting and squeezing repeats.\n"
          else "Two strings must be given when translating.\n"))
    else
      match operands[most]? with
      | some extra =>
        some ("extra operand '" ++ nameOf extra ++ "'",
          if operands.length = 2 then
            some ("Only one string may be given when deleting without squeezing repeats.\n")
          else none)
      | none => none

def apply (chosen : Chosen) (sets : Sets) (text : List Char) : List Char :=
  let first := sets.firstChars
  let second := sets.second.map fun _ => sets.secondChars first.length
  let text :=
    if chosen.has 'd' then text.filter fun c => !first.contains c
    else match second with
      | none => text
      | some _ =>
        let pairs := sets.pairs.reverse
        text.map fun c => (pairs.lookup c).getD c
  if chosen.has 's' then squeeze (second.getD first) text else text

def read (word : List Char) : Except String (List Member) × List String :=
  let (signs, said) := unescape (word.length + 1) word
  (members (signs.length + 1) signs, said)

end Tr

open Tr in
def tr : Behaviour :=
  withChosen choices (fun chosen run =>
    match operandFault? chosen with
    | some (reason, more) =>
      (((run.complain reason).say (more.getD "")).say run.hint)
    | none =>
      let words := chosen.operands
      let (first, said) := read (words.headD [])
      let run := said.foldl (fun run text => run.say (run.name ++ ": " ++ text ++ "\n")) run
      match first with
      | .error reason => run.complain reason
      | .ok first =>
        let (second, said) := read (words.tail.headD [])
        let run := said.foldl (fun run text => run.say (run.name ++ ": " ++ text ++ "\n")) run
        match second with
        | .error reason => run.complain reason
        | .ok second =>
          let sets : Sets :=
            { first
              second := if words.length = 2 then some second else none
              complement := chosen.has 'c' || chosen.has 'C'
              truncate := chosen.has 't' }
          let translates := words.length = 2 && !chosen.has 'd'
          match sets.fault? translates with
          | some reason => run.complain reason
          | none =>
            match run.machine.readAll run.ports.input with
            | .error reason => run.complain ("read error: " ++ reason)
            | .ok (text, machine) =>
              ({ run with machine }.write (apply chosen sets text)).finish) false

end SizeSurvey.Shell.Utility
