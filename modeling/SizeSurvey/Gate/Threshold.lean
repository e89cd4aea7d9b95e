import SizeSurvey.Decimal.Reading
import SizeSurvey.Decimal.Writing
import SizeSurvey.Fault
import SizeSurvey.Size
import SizeSurvey.Text.Blank
/-!
# Growth thresholds

A threshold bounds the growth of a component, either by a share of its former size or by a number of
bytes. It is written as a number with a percent sign, or as a number with an optional binary unit.
-/
namespace SizeSurvey

inductive Threshold where
  /-- A share of the former size, `0.05` for five percent. -/
  | share (limit : Float)
  | bytes (limit : Float)

namespace Threshold

def units : List (Char × Float) :=
  [('K', 1024.0), ('M', 1048576.0), ('G', 1073741824.0)]

/-- A finite number that is not negative. -/
def number? (text : List Char) : Option Float :=
  match Decimal.read? (Text.trim text) with
  | some x => if x.isFinite && !(x < 0.0) then some x else none
  | none => none

/-- The factor of the unit at the end of a text, and the text before it. -/
def unit? (text : List Char) : Option (Float × List Char) :=
  units.findSome? fun (unit, factor) => (Text.beforeEnd? [unit] text).map (factor, ·)

def read? (text : List Char) : Option Threshold :=
  let text := Text.trim text
  match Text.beforeEnd? ['%'] text with
  | some percent => (number? percent).map fun x => share (x / 100.0)
  | none =>
    match unit? (text.map Text.toAsciiUpper) with
    | some (factor, number) => (number? number).map fun x => bytes (x * factor)
    | none => (number? text).map bytes

def parse (text : String) : Except Fault Threshold :=
  match read? text.toList with
  | some threshold => .ok threshold
  | none => .error (.invalidThreshold text)

/-- Any growth from nothing exceeds every share. -/
def isExceeded (threshold : Threshold) (baseline growth : Size) : Bool :=
  if growth = 0 then false
  else match threshold with
    | share limit => baseline = 0 || limit < growth.toFloat / baseline.toFloat
    | bytes limit => limit < growth.toFloat

/-- A number in the fewest digits that read back, never with an exponent. -/
def numberText (x : Float) : String :=
  match Dyadic.ofFloat? x with
  | none => if x.isNaN then "NaN" else if x < 0.0 then "-inf" else "inf"
  | some value =>
    (if value.negative then "-" else "") ++ (Decimal.shortest .up value).positional ""

def text : Threshold → String
  | share limit => numberText (limit * 100.0) ++ "%"
  | bytes limit => numberText limit ++ " bytes"

end Threshold

end SizeSurvey
