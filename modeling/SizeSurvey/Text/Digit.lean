/-!
# Digits

The decimal digits of all scripts (Unicode category `Nd`) come in runs of ten that start at the
zero of their script. Numbers are read from ASCII digits only, in base ten or sixteen.
-/
namespace SizeSurvey.Text

def scriptZeros : List Nat :=
  [0x30, 0x660, 0x6f0, 0x7c0, 0x966, 0x9e6, 0xa66, 0xae6, 0xb66, 0xbe6, 0xc66, 0xce6, 0xd66,
   0xde6, 0xe50, 0xed0, 0xf20, 0x1040, 0x1090, 0x17e0, 0x1810, 0x1946, 0x19d0, 0x1a80, 0x1a90,
   0x1b50, 0x1bb0, 0x1c40, 0x1c50, 0xa620, 0xa8d0, 0xa900, 0xa9d0, 0xa9f0, 0xaa50, 0xabf0, 0xff10,
   0x104a0, 0x10d30, 0x10d40, 0x11066, 0x110f0, 0x11136, 0x111d0, 0x112f0, 0x11450, 0x114d0,
   0x11650, 0x116c0, 0x116d0, 0x116da, 0x11730, 0x118e0, 0x11950, 0x11bf0, 0x11c50, 0x11d50,
   0x11da0, 0x11f50, 0x16130, 0x16a60, 0x16ac0, 0x16b50, 0x16d70, 0x1ccf0, 0x1d7ce, 0x1d7d8, 0x1d7e2,
   0x1d7ec, 0x1d7f6, 0x1e140, 0x1e2f0, 0x1e4f0, 0x1e5f1, 0x1e950, 0x1fbf0]

/-- A decimal digit of any script. -/
def isScriptDigit (c : Char) : Bool :=
  scriptZeros.any fun first => first ≤ c.toNat && c.toNat ≤ first + 9

def digit? (c : Char) : Option Nat :=
  if '0' ≤ c ∧ c ≤ '9' then some (c.toNat - '0'.toNat) else none

def hexDigit? (c : Char) : Option Nat :=
  if '0' ≤ c ∧ c ≤ '9' then some (c.toNat - '0'.toNat)
  else if 'a' ≤ c ∧ c ≤ 'f' then some (c.toNat - 'a'.toNat + 10)
  else if 'A' ≤ c ∧ c ≤ 'F' then some (c.toNat - 'A'.toNat + 10)
  else none

def isDigit (c : Char) : Bool :=
  (digit? c).isSome

def isHexDigit (c : Char) : Bool :=
  (hexDigit? c).isSome

/-- The number written by digits, most significant first, after the digits of `high`. -/
def readDigits (base : Nat) (value : Char → Option Nat) : List Char → Nat → Option Nat
  | [], high => some high
  | c :: rest, high => (value c).bind fun d => readDigits base value rest (high * base + d)

/-- A number of at least one digit, which a plus sign may precede. -/
def readNumber? (base : Nat) (value : Char → Option Nat) (text : List Char) : Option Nat :=
  let digits := match text with
    | '+' :: rest => rest
    | _ => text
  if digits.isEmpty then none else readDigits base value digits 0

def readDecimal? (text : List Char) : Option Nat :=
  readNumber? 10 digit? text

def readHex? (text : List Char) : Option Nat :=
  readNumber? 16 hexDigit? text

def decimal (n : Nat) : String :=
  String.ofList (Nat.toDigits 10 n)

def hexOctet (octet : UInt8) : List Char :=
  [Nat.digitChar (octet.toNat / 16), Nat.digitChar (octet.toNat % 16)]

end SizeSurvey.Text
