import SizeSurvey.Text.Digit
import SizeSurvey.Text.Split
/-!
# Reading decimals

A decimal has an optional sign, digits with an optional point among, before or after them, and an
optional exponent; the words for infinity and for "not a number" are read too. The result is the
nearest floating point number.
-/
namespace SizeSurvey.Decimal

/-- The nearest floating point number to `digits * 10 ^ exponent`. -/
def nearest (digits : Nat) (exponent : Int) : Float :=
  let size : Int := (Nat.toDigits 10 digits).length + exponent
  if digits = 0 then 0.0
  else if 310 < size then 1.0 / 0.0
  else if size < -345 then 0.0
  else match exponent with
    | .ofNat e => Float.ofScientific (digits * Nat.pow 10 e) false 0
    | .negSucc e => Float.ofScientific digits true (e + 1)

/-- The sign of a number, as whether it is negative, and what follows it. -/
def readSign : List Char → Bool × List Char
  | '-' :: rest => (true, rest)
  | '+' :: rest => (false, rest)
  | text => (false, text)

def digitsValue (digits : List Char) : Nat :=
  (Text.readDigits 10 Text.digit? digits 0).getD 0

/-- An exponent with its mark, or nothing. -/
def readExponent? : List Char → Option Int
  | [] => some 0
  | mark :: rest =>
    if mark = 'e' ∨ mark = 'E' then
      let (negative, digits) := readSign rest
      if !digits.isEmpty && digits.all Text.isDigit then
        let value : Int := digitsValue digits
        some (if negative then -value else value)
      else none
    else none

def readWord? (text : List Char) : Option Float :=
  let word := String.ofList (text.map Text.toAsciiLower)
  if word = "inf" ∨ word = "infinity" then some (1.0 / 0.0)
  else if word = "nan" then some (0.0 / 0.0)
  else none

def readUnsigned? (text : List Char) : Option Float :=
  let whole := text.takeWhile Text.isDigit
  let rest := text.dropWhile Text.isDigit
  let (fraction, rest) := match rest with
    | '.' :: rest => (rest.takeWhile Text.isDigit, rest.dropWhile Text.isDigit)
    | _ => ([], rest)
  if whole.isEmpty && fraction.isEmpty then readWord? text
  else (readExponent? rest).map fun exponent =>
    nearest (digitsValue (whole ++ fraction)) (exponent - fraction.length)

def read? (text : List Char) : Option Float :=
  let (negative, rest) := readSign text
  (readUnsigned? rest).map fun x => if negative then -x else x

end SizeSurvey.Decimal
