import SizeSurvey.Symbol.Namespace
/-!
# Families of kernels

A kernel belongs to the family named by the first known namespace in its name and by the tokens that
follow it, or to no known family.
-/
namespace SizeSurvey.KernelFamily

/-- Known namespaces in the order in which they are tried, with the number of tokens that count. -/
def markers : List (String × Nat) :=
  [("oneapi::dal::", 3), ("oneapi::mkl::", 3), ("daal::", 3), ("sycl::_V1::", 2)]

def other : String := "other"

/-- The family for a marker, if the name has it. -/
def afterMarker? (name : String) (marker : String × Nat) : Option String :=
  (Text.cutAt? marker.1.toList name.toList).map fun (_, tail) =>
    let tokens := (Namespace.tokens (String.ofList tail)).take marker.2
    if tokens.isEmpty then
      String.ofList (marker.1.toList.reverse.dropWhile (· = ':')).reverse
    else marker.1 ++ Namespace.joined tokens

def ofName (name : String) : String :=
  (markers.findSome? (afterMarker? name)).getD other

/-- The mangled name inside a stored name, which may follow a label and a point. -/
def identifier (stored : String) : String :=
  if Text.contains "._Z".toList stored.toList then
    String.ofList ((stored.toList.dropWhile (· ≠ '.')).drop 1)
  else stored

end SizeSurvey.KernelFamily
