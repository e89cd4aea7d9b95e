import SizeSurvey.Text.Digit
/-!
# Numbers in texts of programs

Whole numbers are read from the front of a text: blanks, a sign, and digits. In base zero a prefix
tells the base. A number that is too large for 64 bits counts as the nearest one that is not.
-/
namespace SizeSurvey.Shell

/-- A number at the front of a text. -/
structure Numeral where
  value : Int
  /-- What follows the number, or the whole text if there is no number. -/
  rest : List Char
  found : Bool
  cut : Bool
deriving Repr

namespace Numeral

def isSpace (c : Char) : Bool :=
  c == ' ' || ('\t' ≤ c && c ≤ '\r')

def octalDigit? (c : Char) : Option Nat :=
  if '0' ≤ c ∧ c ≤ '7' then some (c.toNat - '0'.toNat) else none

def digits (digit? : Char → Option Nat) (text : List Char) : List Char :=
  text.takeWhile fun c => (digit? c).isSome

def based (text : List Char) : Nat × (Char → Option Nat) × List Char :=
  match text with
  | '0' :: x :: rest =>
    if (x = 'x' ∨ x = 'X') ∧ (rest.head?.bind Text.hexDigit?).isSome then
      (16, Text.hexDigit?, rest)
    else (8, octalDigit?, text)
  | '0' :: _ => (8, octalDigit?, text)
  | text => (10, Text.digit?, text)

/-- The sign and the size of a number, which may be of any base if `anyBase` says so. -/
def unsigned (anyBase : Bool) (text : List Char) : Bool × Option Nat × List Char :=
  let trimmed := text.dropWhile isSpace
  let (negative, body) := match trimmed with
    | '-' :: rest => (true, rest)
    | '+' :: rest => (false, rest)
    | rest => (false, rest)
  let (base, digit?, body) := if anyBase then based body else (10, Text.digit?, body)
  let found := digits digit? body
  if found.isEmpty then (negative, none, text)
  else (negative, Text.readDigits base digit? found 0, body.drop found.length)

def largest : Int := (Nat.pow 2 63 : Nat) - 1

def smallest : Int := -(Nat.pow 2 63 : Nat)

def ofText (anyBase : Bool) (text : List Char) : Numeral :=
  match unsigned anyBase text with
  | (_, none, rest) => ⟨0, rest, false, false⟩
  | (negative, some size, rest) =>
    let value : Int := if negative then -size else size
    let nearest := max smallest (min largest value)
    ⟨nearest, rest, true, nearest ≠ value⟩

def unsignedOfText (text : List Char) : Numeral :=
  match unsigned true text with
  | (_, none, rest) => ⟨0, rest, false, false⟩
  | (negative, some size, rest) =>
    if UInt64.size ≤ size then ⟨(UInt64.size - 1 : Nat), rest, true, true⟩
    else ⟨(if negative then -(size : Int) else size) % (UInt64.size : Nat), rest, true, false⟩

def whole? (anyBase : Bool) (text : List Char) : Option Int :=
  let numeral := ofText anyBase text
  if numeral.cut ∨ !numeral.found ∨ !numeral.rest.all isSpace then none else some numeral.value

end Numeral

/-- The decimal digits of a number, after a minus sign if it is negative. -/
def signedDigits (value : Int) : List Char :=
  (if value < 0 then ['-'] else []) ++ Nat.toDigits 10 value.natAbs

end SizeSurvey.Shell
