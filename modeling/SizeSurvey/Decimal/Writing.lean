import SizeSurvey.Decimal.Binary64
import SizeSurvey.Text.Digit
/-!
# Writing decimals

The shortest decimal of a floating point number has the fewest digits that read back as that number
and is, among those, the one nearest to it. It is found by trying ever finer decimal grids: if a
point of a grid reads back as the number, then so does one of its two neighbours on that grid.

With a fixed number of places the exact binary value is rounded once, a tie to the even neighbour.
-/
namespace SizeSurvey

/-- The number `digits * 10 ^ exponent`. -/
structure Decimal where
  digits : Nat
  exponent : Int
deriving DecidableEq, Repr

namespace Decimal

inductive Tie where
  | toEven
  | up
deriving DecidableEq

def length (n : Nat) : Nat :=
  (Nat.toDigits 10 n).length

/-- An interval around a positive number, all three as multiples of `1 / den`. -/
structure Around where
  low : Nat
  value : Nat
  high : Nat
  den : Nat
  /-- Whether the ends belong to the interval. -/
  closed : Bool

/-- The reals that are rounded to a positive floating point number. -/
def Around.ofDyadic (x : Dyadic) : Around :=
  let scale (n : Nat) : Nat := (Dyadic.ratio n (x.exponent - 2)).1
  { low := scale (4 * x.significand - if x.isLowerNearer then 1 else 2)
    value := scale (4 * x.significand)
    high := scale (4 * x.significand + 2)
    den := (Dyadic.ratio 1 (x.exponent - 2)).2
    closed := x.significand % 2 == 0 }

/-- Whether `n / (den * unit)` lies in the interval. -/
def Around.holds (around : Around) (unit n : Nat) : Bool :=
  if around.closed then around.low * unit ≤ n && n ≤ around.high * unit
  else around.low * unit < n && n < around.high * unit

/-- A shift that makes every positive floating point number larger than one. -/
def margin : Nat := 400

def Around.leading (around : Around) : Int :=
  (length (around.value * Nat.pow 10 margin / around.den) : Int) - 1 - margin

/-- The neighbour on the grid of multiples of `10 ^ exponent` that reads back, if there is one. -/
def Around.onGrid? (around : Around) (tie : Tie) (exponent : Int) : Option Decimal :=
  let (step, unit) := match exponent with
    | .ofNat e => (Nat.pow 10 e, 1)
    | .negSucc e => (1, Nat.pow 10 (e + 1))
  let value := around.value * unit
  let spacing := step * around.den
  let below := value / spacing
  let rest := value % spacing
  let candidate (digits : Nat) : Option Decimal :=
    if around.holds unit (digits * spacing) then some ⟨digits, exponent⟩ else none
  match candidate below, candidate (below + 1) with
  | some low, some high =>
    if 2 * rest < spacing then some low
    else if spacing < 2 * rest then some high
    else match tie with
      | .up => some high
      | .toEven => if below % 2 = 0 then some low else some high
  | some low, none => some low
  | none, high => high

/-- Seventeen digits always suffice. -/
def mostDigits : Nat := 17

/-- Drops the zeros at the end of the digits, at most `fuel` of them. -/
def stripZeros : Nat → Decimal → Decimal
  | 0, decimal => decimal
  | fuel + 1, ⟨digits, exponent⟩ =>
    if digits % 10 = 0 then stripZeros fuel ⟨digits / 10, exponent + 1⟩ else ⟨digits, exponent⟩

def shortest (tie : Tie) (x : Dyadic) : Decimal :=
  if x.significand = 0 then ⟨0, 0⟩
  else
    let around := Around.ofDyadic x
    let leading := around.leading
    let grids := (List.range mostDigits).map fun (n : Nat) => leading - n
    stripZeros mostDigits ((grids.findSome? (around.onGrid? tie)).getD ⟨0, 0⟩)

/-- Writes a decimal without an exponent, `afterWhole` following a whole number. -/
def positional (afterWhole : String) (decimal : Decimal) : String :=
  let digits := Nat.toDigits 10 decimal.digits
  match decimal.exponent with
  | .ofNat e => String.ofList (digits ++ List.replicate e '0') ++ afterWhole
  | .negSucc e =>
    let places := e + 1
    let padded := List.replicate (places + 1 - digits.length) '0' ++ digits
    let whole := padded.length - places
    String.ofList (padded.take whole ++ '.' :: padded.drop whole)

/-- Writes a decimal with one digit before the point and an exponent, which always has a sign. -/
def scientific (decimal : Decimal) : String :=
  let digits := Nat.toDigits 10 decimal.digits
  let exponent := decimal.exponent + (digits.length - 1 : Nat)
  let tail := if digits.length ≤ 1 then [] else '.' :: digits.tail
  String.ofList (digits.take 1 ++ tail) ++ "e"
    ++ (if exponent < 0 then "-" else "+") ++ Text.decimal exponent.natAbs

/-! ## A fixed number of places -/

/-- The whole number nearest to a quotient, the even one of two. -/
def roundRatio (num den : Nat) : Nat :=
  let below := num / den
  let rest := num % den
  if 2 * rest < den then below
  else if den < 2 * rest then below + 1
  else if below % 2 = 0 then below else below + 1

def fixed (places : Nat) (x : Float) : String :=
  match Dyadic.ofFloat? x with
  | none => if x.isNaN then "NaN" else if x < 0.0 then "-inf" else "inf"
  | some value =>
    let (num, den) := Dyadic.ratio value.significand value.exponent
    let scaled := roundRatio (num * Nat.pow 10 places) den
    let fraction := Text.decimal (scaled % Nat.pow 10 places)
    let padded := String.ofList (List.replicate (places - fraction.length) '0') ++ fraction
    (if value.negative then "-" else "") ++ Text.decimal (scaled / Nat.pow 10 places)
      ++ (if places = 0 then "" else "." ++ padded)

end Decimal

end SizeSurvey
