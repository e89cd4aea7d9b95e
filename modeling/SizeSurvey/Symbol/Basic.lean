import SizeSurvey.Size
import SizeSurvey.Text.Lowercase
import SizeSurvey.Text.Split
/-!
# Symbols

A lister describes a symbol by one character. It gives the binding, the sort of entity and the
region of the file that the bytes of the symbol take; a small letter mostly means that the symbol is
local.
-/
namespace SizeSurvey

inductive Binding where
  | «local»
  | weak
  | global
  | undefined
deriving DecidableEq, Repr

namespace Binding

def name : Binding → String
  | «local» => "LOCAL"
  | weak => "WEAK"
  | global => "GLOBAL"
  | undefined => "UNDEFINED"

def all : List Binding := [«local», weak, global, undefined]

end Binding

inductive Entity where
  | function
  | object
  | unknown
deriving DecidableEq, Repr

namespace Entity

def name : Entity → String
  | function => "FUNC"
  | object => "OBJECT"
  | unknown => "UNKNOWN"

def all : List Entity := [function, object, unknown]

end Entity

inductive Region where
  | text
  | rodata
  | rwdata
  | bss
  | common
  | absolute
  | other
deriving DecidableEq, Repr

namespace Region

def name : Region → String
  | text => "text"
  | rodata => "rodata"
  | rwdata => "rwdata"
  | bss => "bss"
  | common => "common"
  | absolute => "absolute"
  | other => "other"

def all : List Region := [text, rodata, rwdata, bss, common, absolute, other]

def ofKind (kind : Char) : Region :=
  match Text.toAsciiUpper kind with
  | 'T' | 'W' => text
  | 'R' => rodata
  | 'D' | 'S' | 'V' => rwdata
  | 'B' => bss
  | 'C' => common
  | 'A' => absolute
  | _ => other

end Region

def Binding.ofKind (kind : Char) : Binding :=
  match Text.toAsciiUpper kind with
  | 'U' => undefined
  | 'W' | 'V' => weak
  | _ => if Text.isLowercase kind then «local» else global

def Entity.ofKind (kind : Char) : Entity :=
  match Text.toAsciiUpper kind with
  | 'T' | 'W' => function
  | 'V' | 'D' | 'B' | 'R' | 'S' | 'C' => object
  | _ => unknown

structure Symbol where
  name : String
  /-- The name for readers; it is the mangled one where demangling failed. -/
  demangled : String
  size : Size
  kind : Char
  binding : Binding
  entity : Entity
  region : Region
deriving DecidableEq, Repr

namespace Symbol

def ofKind (name demangled : String) (kind : Char) (size : Size) : Symbol :=
  { name, demangled, size, kind, binding := .ofKind kind, entity := .ofKind kind,
    region := .ofKind kind }

def isDefined (symbol : Symbol) : Bool :=
  symbol.binding ≠ .undefined

def isLocal (symbol : Symbol) : Bool :=
  symbol.binding = .local

def displayName (symbol : Symbol) : String :=
  if symbol.demangled.isEmpty then symbol.name else symbol.demangled

end Symbol

end SizeSurvey
