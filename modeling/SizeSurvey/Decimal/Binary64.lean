/-!
# Binary floating point numbers, exactly

A finite 64-bit floating point number is a whole number times a power of two. Everything that is
written about such numbers in decimal is computed from that whole number and that power.
-/
namespace SizeSurvey

/-- The number `significand * 2 ^ exponent`, and its sign. -/
structure Dyadic where
  negative : Bool
  significand : Nat
  exponent : Int
deriving DecidableEq, Repr

namespace Dyadic

/-- The exponent of the least positive floating point number. -/
def leastExponent : Int := -1074

def ofFloat? (x : Float) : Option Dyadic :=
  let bits := x.toBits
  let fraction := (bits &&& 0xfffffffffffff).toNat
  let field := ((bits >>> 52) &&& 0x7ff).toNat
  let negative := bits >>> 63 == 1
  if field = 0x7ff then none
  else if field = 0 then some ⟨negative, fraction, leastExponent⟩
  else some ⟨negative, Nat.pow 2 52 + fraction, leastExponent + (field - 1 : Nat)⟩

/-- Whether the number below is nearer than the number above, as after a power of two. -/
def isLowerNearer (x : Dyadic) : Bool :=
  x.significand == Nat.pow 2 52 && leastExponent < x.exponent

/-- Numerator and denominator of `n * 2 ^ e`. -/
def ratio (n : Nat) (e : Int) : Nat × Nat :=
  match e with
  | .ofNat e => (n * Nat.pow 2 e, 1)
  | .negSucc e => (n, Nat.pow 2 (e + 1))

end Dyadic

end SizeSurvey
