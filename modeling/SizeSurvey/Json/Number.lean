import SizeSurvey.Json.Basic
import SizeSurvey.Text.Digit
/-!
# Numbers in JSON documents

Digits alone that fit into a size are a natural number. Every other number is computed in floating
point: the digits that fit into 64 bits are converted, and then scaled by one power of ten, or by
several when the exponent lies outside the range of floating point. The result may differ from the
nearest floating point number in its last bit.
-/
namespace SizeSurvey.Json

/-- The parts of a number; `none` stands for a part that is not written. -/
structure Literal where
  negative : Bool
  whole : List Char
  fraction : Option (List Char) := none
  /-- Whether the exponent is negative, and its digits. -/
  exponent : Option (Bool × List Char) := none

namespace Literal

def digit (c : Char) : Nat :=
  (Text.digit? c).getD 0

/-- The leading digits whose value fits into 64 bits, as a value, and the remaining digits. -/
def significand : Nat → List Char → Nat × List Char
  | value, [] => (value, [])
  | value, c :: rest =>
    let next := value * 10 + digit c
    if next < UInt64.size then significand next rest else (value, c :: rest)

def largestExponent : Nat := Nat.pow 2 31 - 1

/-- An exponent is kept within 32 bits. -/
def clampExponent (e : Int) : Int :=
  max (-(largestExponent : Int) - 1) (min e largestExponent)

def powerOfTen (n : Nat) : Float :=
  Float.ofScientific 1 false n

/-- Scales by a power of ten; no result means that the number is out of range. -/
def scale : Nat → Float → Int → Option Float
  | 0, x, _ => some x
  | fuel + 1, x, exponent =>
    if exponent.natAbs ≤ 308 then
      if 0 ≤ exponent then
        let scaled := x * powerOfTen exponent.natAbs
        if scaled.isInf then none else some scaled
      else some (x / powerOfTen exponent.natAbs)
    else if x == 0.0 then some x
    else if 0 ≤ exponent then none
    else scale fuel (x / powerOfTen 308) (exponent + 308)

/-- A significand divided three times by the largest power of ten is zero. -/
def scaleSteps : Nat := 4

/-- The significand and the exponent that the written exponent is added to. -/
def scaled (literal : Literal) : Nat × Int :=
  let (whole, skipped) := significand 0 literal.whole
  let fraction := literal.fraction.getD []
  if skipped.isEmpty then
    let (value, rest) := significand whole fraction
    (value, -((fraction.length - rest.length : Nat) : Int))
  else
    let (value, rest) := significand whole fraction
    (value, (skipped.length : Int) - ((fraction.length - rest.length : Nat) : Int))

def magnitude (literal : Literal) : Option Float :=
  let (value, exponent) := literal.scaled
  let start := (UInt64.ofNat value).toFloat
  match literal.exponent with
  | none => scale scaleSteps start exponent
  | some (negative, digits) =>
    let written := digits.foldl (fun n c => n * 10 + digit c) 0
    if largestExponent < written then
      if value ≠ 0 ∧ negative = false then none else some 0.0
    else
      let sum := if negative then exponent - written else exponent + written
      scale scaleSteps start (clampExponent sum)

def toJson (literal : Literal) : Json :=
  let (value, skipped) := significand 0 literal.whole
  if literal.negative = false ∧ skipped.isEmpty ∧ literal.fraction.isNone
      ∧ literal.exponent.isNone then natural value
  else match literal.magnitude with
    | none => unreadable
    | some x => real (if literal.negative then -x else x)

end Literal

end SizeSurvey.Json
