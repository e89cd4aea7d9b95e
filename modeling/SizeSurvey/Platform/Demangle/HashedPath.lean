import SizeSurvey.Text.Digit
import SizeSurvey.Text.Split
/-!
# Hashed path names

The elements of a path, each after its length, up to a closing `E`; the last one is mostly a hash.
Punctuation inside an element is written with points and with escapes between dollar signs. A
compiler may add a suffix of its own, which is dropped, and words after points, which are kept.
-/
namespace SizeSurvey.HashedPath

def afterMark? (name : List Char) : Option (List Char) :=
  ["_ZN", "ZN", "__ZN"].findSome? fun mark => Text.afterStart? mark.toList name

def element? (text : List Char) : Option (List Char × List Char) :=
  let length := text.takeWhile Text.isDigit
  let rest := text.dropWhile Text.isDigit
  match Text.readDecimal? length with
  | none => none
  | some n => if n < rest.length then some (rest.take n, rest.drop n) else none

def elements? : Nat → List Char → Option (List (List Char) × List Char)
  | 0, _ => none
  | fuel + 1, text =>
    match text with
    | [] => none
    | 'E' :: rest => some ([], rest)
    | text => do
      let (element, rest) ← element? text
      let (others, rest) ← elements? fuel rest
      return (element :: others, rest)

def isControl (n : Nat) : Bool :=
  n < 0x20 || (0x7f ≤ n && n < 0xa0)

def coded? (digits : List Char) : Option Char :=
  if digits.all fun c => Text.isDigit c || ('a' ≤ c && c ≤ 'f') then
    match Text.readHex? digits with
    | some n => if n.isValidChar ∧ isControl n = false then some (Char.ofNat n) else none
    | none => none
  else none

def escape? (name : List Char) : Option Char :=
  match name with
  | ['S', 'P'] => some '@'
  | ['B', 'P'] => some '*'
  | ['R', 'F'] => some '&'
  | ['L', 'T'] => some '<'
  | ['G', 'T'] => some '>'
  | ['L', 'P'] => some '('
  | ['R', 'P'] => some ')'
  | ['C'] => some ','
  | 'u' :: digits => coded? digits
  | _ => none

/-- An element as it is read; from an unknown escape on it stays as it is. -/
def readElement : Nat → List Char → List Char
  | 0, text => text
  | fuel + 1, text =>
    match text with
    | [] => []
    | '.' :: '.' :: rest => ':' :: ':' :: readElement fuel rest
    | '.' :: rest => '.' :: readElement fuel rest
    | '$' :: rest =>
      match rest.dropWhile (· ≠ '$') with
      | _ :: after =>
        match escape? (rest.takeWhile (· ≠ '$')) with
        | some c => c :: readElement fuel after
        | none => text
      | [] => text
    | c :: rest => c :: readElement fuel rest

def showElement (element : List Char) : List Char :=
  match element with
  | '_' :: '$' :: rest => readElement element.length ('$' :: rest)
  | _ => readElement element.length element

def withoutLinkSuffix (name : List Char) : List Char :=
  match Text.cutAt? ".llvm.".toList name with
  | some (before, after) =>
    if after.all fun c => Text.isDigit c || ('A' ≤ c && c ≤ 'F') || c == '@' then before else name
  | none => name

def isSymbolLike (text : List Char) : Bool :=
  text.all fun c => 0x20 < c.toNat && c.toNat < 0x7f

def demangle? (name : List Char) : Option (List Char) := do
  let text ← afterMark? (withoutLinkSuffix name)
  if text.all fun c => c.toNat < 0x80 then
    let (elements, suffix) ← elements? (text.length + 1) text
    if suffix.isEmpty || (suffix.head? = some '.' && isSymbolLike suffix) then
      return Text.join [':', ':'] (elements.map showElement) ++ suffix
    else none
  else none

end SizeSurvey.HashedPath
