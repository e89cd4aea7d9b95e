import SizeSurvey.Json.Number
/-!
# Reading JSON texts

The grammar is the strict one: no comments, no trailing commas, no zeros in front of a number, no
raw control characters in strings, and nothing but white space after the document. Nesting is not
limited here.
-/
namespace SizeSurvey.Json

def isSpace (c : Char) : Bool :=
  c == ' ' || c == '\n' || c == '\t' || c == '\r'

def skipSpace (text : List Char) : List Char :=
  text.dropWhile isSpace

/-- A part of a string: a character, or the number of an escape with four digits. -/
inductive Unit16 where
  | char (c : Char)
  | code (n : Nat)

/-- Pairs of surrogates become one character; a surrogate without its partner denotes nothing. -/
def Unit16.decode : List Unit16 → Option (List Char)
  | [] => some []
  | .char c :: rest => (decode rest).map (c :: ·)
  | .code n :: .code m :: rest =>
    if 0xd800 ≤ n ∧ n < 0xdc00 then
      if 0xdc00 ≤ m ∧ m < 0xe000 then
        (decode rest).map (Char.ofNat (0x10000 + (n - 0xd800) * 0x400 + (m - 0xdc00)) :: ·)
      else none
    else if 0xdc00 ≤ n ∧ n < 0xe000 then none
    else (decode (.code m :: rest)).map (Char.ofNat n :: ·)
  | .code n :: rest =>
    if 0xd800 ≤ n ∧ n < 0xe000 then none else (decode rest).map (Char.ofNat n :: ·)

def escaped? (c : Char) : Option Char :=
  match c with
  | '"' => some '"'
  | '\\' => some '\\'
  | '/' => some '/'
  | 'b' => some '\x08'
  | 'f' => some '\x0c'
  | 'n' => some '\n'
  | 'r' => some '\r'
  | 't' => some '\t'
  | _ => none

/-- The parts of a string up to its closing quote, the last part first, and what follows. -/
def readUnits (done : List Unit16) : List Char → Option (List Unit16 × List Char)
  | [] => none
  | '"' :: rest => some (done, rest)
  | '\\' :: 'u' :: a :: b :: c :: d :: rest =>
    match Text.readDigits 16 Text.hexDigit? [a, b, c, d] 0 with
    | some n => readUnits (.code n :: done) rest
    | none => none
  | '\\' :: c :: rest =>
    match escaped? c with
    | some e => readUnits (.char e :: done) rest
    | none => none
  | c :: rest => if c.toNat < 0x20 ∨ c = '\\' then none else readUnits (.char c :: done) rest

/-- A string whose opening quote has been read; the inner `none` is a string without a value. -/
def readString (text : List Char) : Option (Option String × List Char) :=
  (readUnits [] text).map fun (units, rest) =>
    ((Unit16.decode units.reverse).map String.ofList, rest)

/-- At least one digit, and what follows the digits. -/
def readDigitRun (text : List Char) : Option (List Char × List Char) :=
  let digits := text.takeWhile Text.isDigit
  if digits.isEmpty then none else some (digits, text.dropWhile Text.isDigit)

def readWhole : List Char → Option (List Char × List Char)
  | '0' :: rest =>
    match rest with
    | c :: _ => if Text.isDigit c then none else some (['0'], rest)
    | [] => some (['0'], rest)
  | text => readDigitRun text

def readFraction : List Char → Option (Option (List Char) × List Char)
  | '.' :: rest => (readDigitRun rest).map fun (digits, rest) => (some digits, rest)
  | text => some (none, text)

def readExponent : List Char → Option (Option (Bool × List Char) × List Char)
  | [] => some (none, [])
  | c :: rest =>
    if c = 'e' ∨ c = 'E' then
      let (negative, rest) := match rest with
        | '-' :: rest => (true, rest)
        | '+' :: rest => (false, rest)
        | rest => (false, rest)
      (readDigitRun rest).map fun (digits, rest) => (some (negative, digits), rest)
    else some (none, c :: rest)

def readNumber (text : List Char) : Option (Json × List Char) := do
  let (negative, text) := match text with
    | '-' :: rest => (true, rest)
    | text => (false, text)
  let (whole, text) ← readWhole text
  let (fraction, text) ← readFraction text
  let (exponent, text) ← readExponent text
  return ({ negative, whole, fraction, exponent : Literal }.toJson, text)

/-- An object is unreadable if one of its names is. -/
def objectOf (members : List (Option String × Json)) : Json :=
  match members.mapM fun (name, value) => name.map (·, value) with
  | some members => object members
  | none => unreadable

def readWord (word : List Char) (value : Json) (text : List Char) : Option (Json × List Char) :=
  if word.isPrefixOf text then some (value, text.drop word.length) else none

mutual

def readValue : Nat → List Char → Option (Json × List Char)
  | 0, _ => none
  | fuel + 1, text =>
    match skipSpace text with
    | [] => none
    | '[' :: rest =>
      match skipSpace rest with
      | ']' :: rest => some (array [], rest)
      | rest => (readElements fuel [] rest).map fun (elements, rest) => (array elements, rest)
    | '\x7b' :: rest =>
      match skipSpace rest with
      | '\x7d' :: rest => some (object [], rest)
      | rest => (readMembers fuel [] rest).map fun (members, rest) => (objectOf members, rest)
    | '"' :: rest =>
      (readString rest).map fun (value, rest) =>
        (match value with
          | some s => string s
          | none => unreadable, rest)
    | 'n' :: rest => readWord ['u', 'l', 'l'] null rest
    | 't' :: rest => readWord ['r', 'u', 'e'] (bool true) rest
    | 'f' :: rest => readWord ['a', 'l', 's', 'e'] (bool false) rest
    | text => readNumber text

/-- The elements of an array up to its closing bracket, after those already read. -/
def readElements : Nat → List Json → List Char → Option (List Json × List Char)
  | 0, _, _ => none
  | fuel + 1, done, text =>
    match readValue fuel text with
    | none => none
    | some (value, rest) =>
      match skipSpace rest with
      | ',' :: rest => readElements fuel (value :: done) rest
      | ']' :: rest => some ((value :: done).reverse, rest)
      | _ => none

/-- The members of an object up to its closing brace, after those already read. -/
def readMembers : Nat → List (Option String × Json) → List Char →
    Option (List (Option String × Json) × List Char)
  | 0, _, _ => none
  | fuel + 1, done, text =>
    match skipSpace text with
    | '"' :: rest =>
      match readString rest with
      | none => none
      | some (name, rest) =>
        match skipSpace rest with
        | ':' :: rest =>
          match readValue fuel rest with
          | none => none
          | some (value, rest) =>
            match skipSpace rest with
            | ',' :: rest => readMembers fuel ((name, value) :: done) rest
            | '\x7d' :: rest => some (((name, value) :: done).reverse, rest)
            | _ => none
        | _ => none
    | _ => none

end

def parse? (text : List Char) : Option Json :=
  match readValue (2 * text.length + 2) text with
  | some (value, rest) => if (skipSpace rest).isEmpty then some value else none
  | none => none

def ofText? (text : String) : Option Json :=
  parse? text.toList

end SizeSurvey.Json
