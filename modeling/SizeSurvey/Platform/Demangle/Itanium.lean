import SizeSurvey.Text.Digit
import SizeSurvey.Text.Split
/-!
# Itanium names

The part of the Itanium mangling that plain libraries need: functions and variables in namespaces
and classes, constructors and destructors, member functions for constant objects, the tables about
classes, builtin and class types, pointers and references to them, and references back to parts that
occurred before. A name must fit as a whole.
-/
namespace SizeSurvey.Itanium

/-- What is left of a name, and the parts that may be referred back to. -/
structure State where
  text : List Char
  parts : List (List Char) := []

abbrev Parse := StateT State Option

def rest : Parse (List Char) := do
  return (← get).text

def advance (text : List Char) : Parse Unit :=
  modify fun state => { state with text }

def accept (word : String) : Parse Bool := do
  match Text.afterStart? word.toList (← rest) with
  | some text =>
    advance text
    return true
  | none => return false

def record (part : List Char) : Parse Unit :=
  modify fun state => { state with parts := state.parts ++ [part] }

def isIdentifierChar (c : Char) : Bool :=
  c.isAlphanum || c == '_' || c == '$' || c == '.'

def isAnonymous (identifier : List Char) : Bool :=
  match Text.afterStart? "_GLOBAL_".toList identifier with
  | some (c :: 'N' :: _) => c == '.' || c == '_' || c == '$'
  | _ => false

def sourceName : Parse (List Char) := do
  let text ← rest
  let length := text.takeWhile Text.isDigit
  let text := text.dropWhile Text.isDigit
  let n ← (Text.readDecimal? length : Option Nat)
  let identifier := text.take n
  if length.head? = some '0' ∨ identifier.length < n ∨ identifier.all isIdentifierChar = false then
    failure
  advance (text.drop n)
  return if isAnonymous identifier then "(anonymous namespace)".toList else identifier

/-- The index after an `S`: nothing is zero, and a number in base 36 counts from one. -/
def backIndex? (digits : List Char) : Option Nat :=
  if digits.isEmpty then some 0
  else
    let value (c : Char) : Option Nat :=
      match Text.digit? c with
      | some d => some d
      | none => if 'A' ≤ c ∧ c ≤ 'Z' then some (c.toNat - 'A'.toNat + 10) else none
    (Text.readDigits 36 value digits 0).map (· + 1)

def backReference : Parse (List Char) := do
  match ← rest with
  | 't' :: text =>
    advance text
    return "std".toList
  | 'a' :: text =>
    advance text
    return "std::allocator".toList
  | 'b' :: text =>
    advance text
    return "std::basic_string".toList
  | 's' :: text =>
    advance text
    return "std::string".toList
  | text =>
    match text.dropWhile (· ≠ '_') with
    | _ :: after =>
      let index ← (backIndex? (text.takeWhile (· ≠ '_')) : Option Nat)
      advance after
      ((← get).parts[index]? : Option (List Char))
    | [] => failure

def within (scope name : List Char) : List Char :=
  if scope.isEmpty then name else scope ++ "::".toList ++ name

def unqualified (scopes : List (List Char)) : Parse (List Char) := do
  match ← rest, scopes.getLast? with
  | 'C' :: c :: text, some owner =>
    if c = '1' ∨ c = '2' ∨ c = '3' ∨ c = '4' then
      advance text
      return owner
    else failure
  | 'D' :: c :: text, some owner =>
    if c = '0' ∨ c = '1' ∨ c = '2' ∨ c = '4' then
      advance text
      return '~' :: owner
    else failure
  | 'L' :: text, _ =>
    advance text
    sourceName
  | _, _ => sourceName

def lastName (name : List Char) : List Char :=
  match Text.cutAt? "::".toList name.reverse with
  | some (before, _) => before.reverse
  | none => name

/-- The names up to the closing `E`, after the scope so far. All but the last are recorded. -/
def nestedNames : Nat → List Char → List (List Char) → Parse (List Char)
  | 0, _, _ => failure
  | fuel + 1, scope, names => do
    match ← rest with
    | 'E' :: text =>
      if names.isEmpty then failure
      else
        advance text
        return scope
    | 'S' :: text =>
      if scope.isEmpty then
        advance text
        let part ← backReference
        nestedNames fuel part [lastName part]
      else failure
    | _ =>
      let name ← unqualified names
      let scope := within scope name
      match ← rest with
      | 'E' :: _ => pure ()
      | _ => record scope
      nestedNames fuel scope (names ++ [name])

def qualifiers : Parse (List Char) := do
  let restrict := if ← accept "r" then " restrict" else ""
  let volatile := if ← accept "V" then " volatile" else ""
  let const := if ← accept "K" then " const" else ""
  return (const ++ volatile ++ restrict).toList

def name : Parse (List Char × List Char) := do
  if ← accept "N" then
    let words ← qualifiers
    let fuel := (← rest).length + 1
    return (← nestedNames fuel [] [], words)
  else if ← accept "St" then
    return (within "std".toList (← unqualified []), [])
  else return (← unqualified [], [])

def builtin? (c : Char) : Option String :=
  [('v', "void"), ('w', "wchar_t"), ('b', "bool"), ('c', "char"), ('a', "signed char"),
    ('h', "unsigned char"), ('s', "short"), ('t', "unsigned short"), ('i', "int"),
    ('j', "unsigned int"), ('l', "long"), ('m', "unsigned long"), ('x', "long long"),
    ('y', "unsigned long long"), ('n', "__int128"), ('o', "unsigned __int128"), ('f', "float"),
    ('d', "double"), ('e', "long double"), ('g', "__float128"), ('z', "...")].lookup c

def type : Nat → Parse (List Char)
  | 0 => failure
  | fuel + 1 => do
    let pointed (mark : String) : Parse (List Char) := do
      let part := (← type fuel) ++ mark.toList
      record part
      return part
    let text ← rest
    match text with
    | 'P' :: text =>
      advance text
      pointed "*"
    | 'R' :: text =>
      advance text
      pointed "&"
    | 'O' :: text =>
      advance text
      pointed "&&"
    | c :: after =>
      if c = 'r' ∨ c = 'V' ∨ c = 'K' then
        let words ← qualifiers
        let part := (← type fuel) ++ words
        record part
        return part
      else match builtin? c with
        | some word =>
          advance after
          return word.toList
        | none =>
          if c = 'S' ∧ after.head? ≠ some 't' then
            advance after
            backReference
          else
            let (part, _) ← name
            record part
            return part
    | [] => failure

def types : Nat → Parse (List (List Char))
  | 0 => failure
  | fuel + 1 => do
    match ← rest with
    | [] => return []
    | '.' :: _ => return []
    | text =>
      let first ← type (text.length + 1)
      return first :: (← types fuel)

def parameters (types : List (List Char)) : List Char :=
  if types = ["void".toList] then "()".toList
  else '(' :: Text.join [',', ' '] types ++ [')']

/-- A function, or a variable when there are no types. -/
def encoding : Parse (List Char) := do
  let (name, words) ← name
  let types ← types ((← rest).length + 1)
  return if types.isEmpty then name ++ words else name ++ parameters types ++ words

def special : Parse (List Char) := do
  let ofType (before after : String) : Parse (List Char) := do
    return before.toList ++ (← type ((← rest).length + 1)) ++ after.toList
  if ← accept "TV" then ofType "\x7bvtable(" ")\x7d"
  else if ← accept "TT" then ofType "\x7bvtt(" ")\x7d"
  else if ← accept "TI" then ofType "typeinfo for " ""
  else if ← accept "TS" then ofType "typeinfo name for " ""
  else failure

/-- Whether a text can be the mark of a clone: a word and numbers, each after a point. -/
def isCloneMark (text : List Char) : Bool :=
  match (Text.splitAt '.' text) with
  | [] :: first :: numbers =>
    !first.isEmpty && first.all (fun c => c.isAlphanum || c == '_')
      && numbers.all fun n => !n.isEmpty && n.all Text.isDigit
  | _ => false

def whole : Parse (List Char) := do
  let start ← rest
  let name ← if start.head? = some 'T' then special else encoding
  let after ← rest
  if after.isEmpty then return name
  else if isCloneMark after then return name ++ " [clone ".toList ++ after ++ [']']
  else failure

def isMarked (name : List Char) : Bool :=
  match Text.afterStart? "_Z".toList name with
  | some (c :: _) => c.isAlphanum || c == '_'
  | _ => false

def demangle? (name : List Char) : Option (List Char) :=
  if isMarked name then (whole.run { text := name.drop 2 }).map Prod.fst else none

end SizeSurvey.Itanium
