/-!
# Byte sizes

A size is a number of bytes below `2 ^ 64`. Sums stop at the largest size instead of wrapping, so
a total is never smaller than any of its parts.
-/
namespace SizeSurvey

abbrev Size := UInt64

namespace Size

def largest : Size := 0xffffffffffffffff

/-- The sum of two sizes, or the largest size when the sum does not fit. -/
def plus (a b : Size) : Size :=
  if a + b < a then largest else a + b

def total (sizes : List Size) : Size :=
  sizes.foldl plus 0

def ofNat? (n : Nat) : Option Size :=
  if n < UInt64.size then some (UInt64.ofNat n) else none

end Size

end SizeSurvey
