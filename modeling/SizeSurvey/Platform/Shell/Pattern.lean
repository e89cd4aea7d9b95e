/-!
# Patterns

Patterns of the shell stand for names and words. Most signs stand for themselves; a question mark
and a bracket stand for one character, and an asterisk for any number of them.
-/
namespace SizeSurvey.Shell

def classRanges? (name : String) : Option (List (Char × Char)) :=
  match name with
  | "lower" => some [('a', 'z')]
  | "upper" => some [('A', 'Z')]
  | "digit" => some [('0', '9')]
  | "xdigit" => some [('0', '9'), ('A', 'F'), ('a', 'f')]
  | "alpha" => some [('A', 'Z'), ('a', 'z')]
  | "alnum" => some [('0', '9'), ('A', 'Z'), ('a', 'z')]
  | "space" => some [('\t', '\r'), (' ', ' ')]
  | "blank" => some [('\t', '\t'), (' ', ' ')]
  | "punct" => some [('!', '/'), (':', '@'), ('[', '\x60'), ('\x7b', '~')]
  | "print" => some [(' ', '~')]
  | "graph" => some [('!', '~')]
  | "cntrl" => some [('\x00', '\x1f'), ('\x7f', '\x7f')]
  | _ => none

/-- What stands for one character. -/
inductive Item where
  | char (c : Char)
  | any
  | oneOf (negated : Bool) (ranges : List (Char × Char))
deriving DecidableEq, Repr

def Item.accepts (item : Item) (c : Char) : Bool :=
  match item with
  | char d => c == d
  | any => true
  | oneOf negated ranges => ranges.any (fun (low, high) => low ≤ c && c ≤ high) != negated

def className? (text : List Char) : Option (String × List Char) :=
  let name := text.takeWhile Char.isAlpha
  match text.drop name.length with
  | ':' :: ']' :: rest => some (String.ofList name, rest)
  | _ => none

def bracketRanges : Nat → Bool → List (Char × Char) → List Char →
    Option (List (Char × Char) × List Char)
  | 0, _, _, _ => none
  | fuel + 1, isFirst, done, text =>
    match text with
    | [] => none
    | ']' :: rest =>
      if isFirst then bracketRanges fuel false ((']', ']') :: done) rest
      else some (done.reverse, rest)
    | '[' :: ':' :: rest =>
      match className? rest with
      | some (name, rest) =>
        (classRanges? name).bind fun ranges => bracketRanges fuel false (ranges ++ done) rest
      | none => bracketRanges fuel false (('[', '[') :: done) (':' :: rest)
    | a :: '-' :: b :: rest =>
      if b = ']' then bracketRanges fuel false ((a, a) :: done) ('-' :: b :: rest)
      else bracketRanges fuel false ((a, b) :: done) rest
    | c :: rest => bracketRanges fuel false ((c, c) :: done) rest

namespace Glob

/-- A part of a shell pattern. -/
inductive Part where
  | one (item : Item)
  | many
deriving DecidableEq, Repr

abbrev Pattern := List (Char × Bool)

def ranges? : Nat → Bool → List (Char × Char) → Pattern → Option (List (Char × Char) × Pattern)
  | 0, _, _, _ => none
  | fuel + 1, isFirst, done, pattern =>
    match pattern with
    | [] => none
    | (']', false) :: rest =>
      if isFirst then ranges? fuel false ((']', ']') :: done) rest else some (done.reverse, rest)
    | ('[', false) :: (':', _) :: rest =>
      match className? (rest.map Prod.fst) with
      | some (name, after) =>
        match classRanges? name with
        | some ranges =>
          ranges? fuel false (ranges ++ done) (rest.drop (rest.length - after.length))
        | none => ranges? fuel false (('[', '[') :: done) ((':', false) :: rest)
      | none => ranges? fuel false (('[', '[') :: done) ((':', false) :: rest)
    | (a, _) :: ('-', false) :: (b, quoted) :: rest =>
      if b = ']' ∧ quoted = false then
        ranges? fuel false ((a, a) :: done) (('-', false) :: (b, quoted) :: rest)
      else ranges? fuel false ((a, b) :: done) rest
    | (c, _) :: rest => ranges? fuel false ((c, c) :: done) rest

def bracket? (pattern : Pattern) : Option (Item × Pattern) :=
  let (negated, body) := match pattern with
    | ('!', false) :: rest => (true, rest)
    | rest => (false, rest)
  (ranges? (body.length + 1) true [] body).map fun (ranges, rest) => (.oneOf negated ranges, rest)

def parts : Nat → Pattern → List Part
  | 0, _ => []
  | fuel + 1, pattern =>
    match pattern with
    | [] => []
    | ('*', false) :: rest => .many :: parts fuel rest
    | ('?', false) :: rest => .one .any :: parts fuel rest
    | ('\\', false) :: (c, _) :: rest => .one (.char c) :: parts fuel rest
    | ('[', false) :: rest =>
      match bracket? rest with
      | some (item, rest) => .one item :: parts fuel rest
      | none => .one (.char '[') :: parts fuel rest
    | (c, _) :: rest => .one (.char c) :: parts fuel rest

def ofPattern (pattern : Pattern) : List Part :=
  parts (pattern.length + 1) pattern

/-- The text and all that is left of it after some of its characters. -/
def suffixes : List Char → List (List Char)
  | [] => [[]]
  | c :: rest => (c :: rest) :: suffixes rest

def accepts : List Part → List Char → Bool
  | [], text => text.isEmpty
  | .one item :: rest, text =>
    match text with
    | c :: text => item.accepts c && accepts rest text
    | [] => false
  | .many :: rest, text => (suffixes text).any (accepts rest)

def isPattern (word : Pattern) : Bool :=
  word.any fun (c, quoted) => !quoted && (c == '*' || c == '?' || c == '[')

end Glob

end SizeSurvey.Shell
