import SizeSurvey.Json.Basic
import SizeSurvey.NameMap
/-!
# Readers

A reader takes a value of some type from a document, or fails. A record may be written as an object
or as the array of its fields; in an object unknown members are skipped, and a known one may occur
only once.

A value whose kind is known only after one of its members has been read is kept as a whole first.
What is kept must be readable in all its parts and lie within the nesting limit of the document, and
inside it the forms of a tag and of a choice are slightly wider.
-/
namespace SizeSurvey.Json

/-- Where a value stands: whether it belongs to a kept value, and the values around it. -/
structure Place where
  kept : Bool := false
  level : Nat := 0

namespace Place

def inner (place : Place) : Place :=
  { place with level := place.level + 1 }

def deepest : Nat := 127

/-- The place for reading a value that is kept as a whole, if it can be. -/
def keep? (place : Place) (value : Json) : Option Place :=
  if place.kept then some place
  else if value.isReadable && place.level + value.depth ≤ deepest then
    some { place with kept := true }
  else none

end Place

abbrev Reader (α : Type) := Place → Json → Option α

namespace Reader

def text : Reader String
  | _, .string s => some s
  | _, _ => none

/-- Any number below `2 ^ 64` that is written with digits alone. -/
def count : Reader Nat
  | _, .natural n => if n < UInt64.size then some n else none
  | _, _ => none

/-- A number below `2 ^ 32`. -/
def smallCount : Reader Nat
  | _, .natural n => if n < UInt32.size then some n else none
  | _, _ => none

def size : Reader Size
  | _, .natural n => Size.ofNat? n
  | _, _ => none

def real : Reader Float
  | _, .natural n => some (UInt64.ofNat n).toFloat
  | _, .real x => some x
  | _, _ => none

def bool : Reader Bool
  | _, .bool b => some b
  | _, _ => none

def char : Reader Char
  | _, .string s =>
    match s.toList with
    | [c] => some c
    | _ => none
  | _, _ => none

def option {α : Type} (read : Reader α) : Reader (Option α)
  | _, .null => some none
  | place, value => (read place value).map some

def list {α : Type} (read : Reader α) : Reader (List α)
  | place, .array elements => elements.mapM (read place.inner)
  | _, _ => none

def pair {α β : Type} (first : Reader α) (second : Reader β) : Reader (α × β)
  | place, .array [a, b] => do return (← first place.inner a, ← second place.inner b)
  | _, _ => none

/-- An object of any names; of two members of one name the later one holds. -/
def map {α : Type} (read : Reader α) : Reader (NameMap α)
  | place, .object members => do
    return NameMap.ofList (← members.mapM fun (name, value) =>
      (read place.inner value).map (name, ·))
  | _, _ => none

/-- One of several words, or an object whose one member is named by the word. -/
def choice {α : Type} (words : List (String × α)) : Reader α
  | _, .string s => words.lookup s
  | _, .object [(word, .null)] => words.lookup word
  | place, .object [(word, .object [])] => if place.kept then words.lookup word else none
  | _, _ => none

end Reader

inductive Slot where
  | given (value : Json)
  | missingMember
  | missingElement

structure Fields where
  place : Place
  slot : String → Slot

namespace Fields

/-- The fields with these names, from an object or from an array in their order. -/
def ofJson? (names : List String) (place : Place) (value : Json) : Option Fields :=
  match value with
  | .object members =>
    if names.all fun name => (members.filter fun member => member.1 == name).length ≤ 1 then
      some ⟨place.inner, fun name =>
        match members.lookup name with
        | some value => .given value
        | none => .missingMember⟩
    else none
  | .array elements =>
    if elements.length ≤ names.length then
      some ⟨place.inner, fun name =>
        match (names.zip elements).lookup name with
        | some value => .given value
        | none => .missingElement⟩
    else none
  | _ => none

variable {α : Type} (fields : Fields)

def required (read : Reader α) (name : String) : Option α :=
  match fields.slot name with
  | .given value => read fields.place value
  | _ => none

/-- A field that may be left out of an object, but not out of an array. -/
def optional (read : Reader α) (name : String) : Option (Option α) :=
  match fields.slot name with
  | .given value => Reader.option read fields.place value
  | .missingMember => some none
  | .missingElement => none

def orElse (read : Reader α) (name : String) (initial : α) : Option α :=
  match fields.slot name with
  | .given value => read fields.place value
  | _ => some initial

end Fields

def Reader.record {α : Type} (names : List String) (build : Fields → Option α) : Reader α :=
  fun place value => (Fields.ofJson? names place value).bind build

/-- The other members of an object whose member `tag` is its tag, or the elements after the tag of an
array, which has the tag in front. -/
def splitTag? (tag : String) : Json → Option (Json × Json)
  | .object members =>
    match members.partition fun member => member.1 == tag with
    | ([(_, value)], others) => some (value, .object others)
    | _ => none
  | .array (value :: rest) => some (value, .array rest)
  | _ => none

def variantOf? (variants : List String) (kept : Bool) : Json → Option Nat
  | .string s => variants.idxOf? s
  | .natural n => if kept && n < variants.length then some n else none
  | _ => none

/-- Reads a value whose kind is written in its member `tag`: the index of the kind among `variants`
goes to `build` together with the rest of the value. -/
def Reader.tagged {α : Type} (tag : String) (variants : List String)
    (build : Nat → Reader α) : Reader α :=
  fun place value => do
    let inside ← place.keep? value
    let (name, rest) ← splitTag? tag value
    let variant ← variantOf? variants place.kept name
    build variant inside rest

/-- The rest of a tagged value whose kind has no fields. -/
def Reader.bare {α : Type} (value : α) : Reader α
  | _, .object _ => some value
  | _, .array [] => some value
  | _, _ => none

end SizeSurvey.Json
