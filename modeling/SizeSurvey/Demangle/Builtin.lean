import SizeSurvey.Demangle.Basic
import SizeSurvey.Text.Split
/-!
# Demangling without a tool

A name is tried as one of Rust first, then as an Itanium name and then as a decorated name, the last
two only if it looks like one. A name that is none of them stays as it is, so this demangler never
degrades.
-/
namespace SizeSurvey

/-- What reads the names of each mangling. -/
structure Manglings where
  rust : String → Option String := fun _ => none
  itanium : String → Option String := fun _ => none
  decorated : String → Option String := fun _ => none

namespace Manglings

def looksItanium : List Char → Bool
  | '_' :: 'Z' :: c :: _ => c.isAlphanum || c = '_'
  | _ => false

def isDecoratedChar (c : Char) : Bool :=
  c.isAlphanum || ['_', '@', '$', '?'].contains c

/-- Whether two at signs stand behind a question mark, with characters of a decoration on both sides
of them. -/
def looksDecorated : List Char → Bool
  | '?' :: text =>
    match Text.cutAt? ['@', '@'] ((text.takeWhile isDecoratedChar).drop 1) with
    | some (_, _ :: _) => true
    | _ => false
  | _ => false

def demangle? (manglings : Manglings) (name : String) : Option String :=
  let itanium := if looksItanium name.toList then manglings.itanium name else none
  let decorated := if looksDecorated name.toList then manglings.decorated name else none
  (manglings.rust name).or (itanium.or decorated)

end Manglings

def Demangler.builtin {m : Type → Type} [Monad m] (manglings : Manglings) : Demangler m :=
  fun names => pure (.complete (names.map fun name => (manglings.demangle? name).getD name))

end SizeSurvey
