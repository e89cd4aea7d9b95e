import SizeSurvey.Size
import SizeSurvey.Text.Blank
import SizeSurvey.Text.Digit
import SizeSurvey.Text.Split
/-!
# Symbol tables

A line of a symbol table has a name, a kind of one character, a value and a size. Mangled names have
no spaces, so such a line has four words. Demangled names may have spaces, so there the last three
fields are split off at the right. Empty lines, messages of the lister and lines of any other form
are skipped.
-/
namespace SizeSurvey.Listing

structure SymbolRow where
  name : String
  kind : Char
  size : Size
deriving DecidableEq, Repr

inductive NameLayout where
  | mangled
  | demangled
deriving DecidableEq

/-- A number in decimal digits, or in hexadecimal ones after `0x`. -/
def number? (field : List Char) : Option Nat :=
  match field with
  | '0' :: 'x' :: rest => Text.readHex? rest
  | '0' :: 'X' :: rest => Text.readHex? rest
  | _ => Text.readDecimal? field

def size? (field : List Char) : Option Size :=
  (number? field).bind Size.ofNat?

/-- Name, kind and size of a line; its value is not needed. -/
def symbolFields? (layout : NameLayout) (line : List Char) :
    Option (List Char × List Char × List Char) :=
  match layout with
  | .mangled =>
    match Text.words line with
    | [name, kind, _, size] => some (name, kind, size)
    | _ => none
  | .demangled =>
    match Text.splitLast ' ' 3 line with
    | [size, _, kind, name] => some (name, kind, size)
    | _ => none

def symbolOfLine? (layout : NameLayout) (line : List Char) : Option SymbolRow :=
  match symbolFields? layout line with
  | some (name, [kind], size) =>
    (size? size).map fun size => { name := String.ofList name, kind, size }
  | _ => none

/-- Messages of the lister stand among the rows. -/
def isMessage (line : List Char) : Bool :=
  "nm:".toList.isPrefixOf line

def symbolLines (text : String) : List (List Char) :=
  ((Text.lines text.toList).map Text.trim).filter fun line => !line.isEmpty && !isMessage line

def symbols (layout : NameLayout) (text : String) : List SymbolRow :=
  (symbolLines text).filterMap (symbolOfLine? layout)

end SizeSurvey.Listing
