import SizeSurvey.Json.Basic
import SizeSurvey.Decimal.Writing
/-!
# Writing JSON texts

Documents are written on several lines with two spaces for each level, and empty arrays and objects
on one. Characters are escaped only where they must be. Floating point numbers are written in the
fewest digits that read back, with a point or an exponent, and as `null` when they are not finite.
-/
namespace SizeSurvey.Json

def hexCode (n : Nat) : List Char :=
  [Nat.digitChar (n / 16), Nat.digitChar (n % 16)]

def writeChar (c : Char) : List Char :=
  match c with
  | '"' => ['\\', '"']
  | '\\' => ['\\', '\\']
  | '\n' => ['\\', 'n']
  | '\r' => ['\\', 'r']
  | '\t' => ['\\', 't']
  | '\x08' => ['\\', 'b']
  | '\x0c' => ['\\', 'f']
  | c => if c.toNat < 0x20 then ['\\', 'u', '0', '0'] ++ hexCode c.toNat else [c]

def writeString (s : String) : List Char :=
  '"' :: s.toList.flatMap writeChar ++ ['"']

/-- Numbers from a hundred-thousandth up to ten quadrillions are written without an exponent. -/
def isPositional (leading : Int) : Bool :=
  -5 ≤ leading && leading ≤ 15

def writeReal (x : Float) : List Char :=
  match Dyadic.ofFloat? x with
  | none => "null".toList
  | some value =>
    let decimal := Decimal.shortest .toEven value
    let leading := decimal.exponent + (Decimal.length decimal.digits : Int) - 1
    let text :=
      if isPositional leading then decimal.positional ".0" else decimal.scientific
    (if value.negative then ['-'] else []) ++ text.toList

def newLine (level : Nat) : List Char :=
  '\n' :: List.replicate (2 * level) ' '

mutual

def write (level : Nat) : Json → List Char
  | null => "null".toList
  | unreadable => "null".toList
  | bool true => "true".toList
  | bool false => "false".toList
  | natural n => Nat.toDigits 10 n
  | real x => writeReal x
  | string s => writeString s
  | array [] => ['[', ']']
  | array (first :: rest) =>
    '[' :: newLine (level + 1) ++ write (level + 1) first ++ writeElements (level + 1) rest
      ++ newLine level ++ [']']
  | object [] => ['\x7b', '\x7d']
  | object ((name, value) :: rest) =>
    '\x7b' :: newLine (level + 1) ++ writeString name ++ [':', ' '] ++ write (level + 1) value
      ++ writeMembers (level + 1) rest ++ newLine level ++ ['\x7d']

/-- The elements after the first one. -/
def writeElements (level : Nat) : List Json → List Char
  | [] => []
  | value :: rest => ',' :: newLine level ++ write level value ++ writeElements level rest

/-- The members after the first one. -/
def writeMembers (level : Nat) : List (String × Json) → List Char
  | [] => []
  | (name, value) :: rest =>
    ',' :: newLine level ++ writeString name ++ [':', ' '] ++ write level value
      ++ writeMembers level rest

end

def toText (value : Json) : String :=
  String.ofList (write 0 value)

end SizeSurvey.Json
