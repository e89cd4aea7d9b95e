import SizeSurvey.Size
/-!
# JSON documents

A document as it is read and written. Members keep their order and may repeat a name. Some texts are
correct JSON and still denote no value, such as a number beyond the range of floating point or a
string with half a surrogate pair; they stay in the document as `unreadable`, because a reader may
skip them.
-/
namespace SizeSurvey

inductive Json where
  | null
  | bool (value : Bool)
  /-- A number written with digits alone that is below `2 ^ 64`. -/
  | natural (value : Nat)
  | real (value : Float)
  | unreadable
  | string (value : String)
  | array (elements : List Json)
  | object (members : List (String × Json))
deriving Inhabited

namespace Json

def size (n : Size) : Json :=
  natural n.toNat

def option {α : Type} (write : α → Json) : Option α → Json
  | none => null
  | some value => write value

def list {α : Type} (write : α → Json) (values : List α) : Json :=
  array (values.map write)

mutual

/-- The number of arrays and objects around the innermost value. -/
def depth : Json → Nat
  | array elements => depthOfElements elements + 1
  | object members => depthOfMembers members + 1
  | _ => 0

def depthOfElements : List Json → Nat
  | [] => 0
  | value :: rest => max (depth value) (depthOfElements rest)

def depthOfMembers : List (String × Json) → Nat
  | [] => 0
  | (_, value) :: rest => max (depth value) (depthOfMembers rest)

end

mutual

/-- Whether every part of the document denotes a value. -/
def isReadable : Json → Bool
  | unreadable => false
  | array elements => areElementsReadable elements
  | object members => areMembersReadable members
  | _ => true

def areElementsReadable : List Json → Bool
  | [] => true
  | value :: rest => isReadable value && areElementsReadable rest

def areMembersReadable : List (String × Json) → Bool
  | [] => true
  | (_, value) :: rest => isReadable value && areMembersReadable rest

end

end Json

end SizeSurvey
