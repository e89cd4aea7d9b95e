import SizeSurvey.Text.Digit
import SizeSurvey.Text.Split
/-!
# Decorated names

The part of the Microsoft decoration that plain functions, member functions and variables need: a
name with its scopes, innermost first, and then the kind of entity, the calling convention and the
types.
-/
namespace SizeSurvey.Decorated

abbrev Parse := StateT (List Char) Option

def accept (word : String) : Parse Bool := do
  match Text.afterStart? word.toList (← get) with
  | some text =>
    set text
    return true
  | none => return false

def next : Parse Char := do
  match ← get with
  | c :: text =>
    set text
    return c
  | [] => failure

def piece : Parse (List Char) := do
  let text ← get
  match text.takeWhile (· ≠ '@'), text.dropWhile (· ≠ '@') with
  | name@(_ :: _), _ :: text =>
    set text
    return name
  | _, _ => failure

def scopes : Nat → Parse (List (List Char))
  | 0 => failure
  | fuel + 1 => do
    if ← accept "@" then return []
    else return (← piece) :: (← scopes fuel)

inductive Special where
  | constructor
  | destructor

def qualifiedName : Parse (List Char × Option Special) := do
  let fuel := (← get).length + 1
  let shown (names : List (List Char)) : List Char := Text.join "::".toList names.reverse
  if ← accept "?0" then
    let names ← scopes fuel
    let owner ← (names.head? : Option (List Char))
    return (shown (owner :: names), some .constructor)
  else if ← accept "?1" then
    let names ← scopes fuel
    let owner ← (names.head? : Option (List Char))
    return (shown (('~' :: owner) :: names), some .destructor)
  else
    let name ← piece
    return (shown (name :: (← scopes fuel)), none)

def builtin? (c : Char) : Option String :=
  [('C', "signed char"), ('D', "char"), ('E', "unsigned char"), ('F', "short"),
    ('G', "unsigned short"), ('H', "int"), ('I', "unsigned int"), ('J', "long"),
    ('K', "unsigned long"), ('M', "float"), ('N', "double"), ('O', "long double"),
    ('X', "void")].lookup c

def extended? (c : Char) : Option String :=
  [('N', "bool"), ('J', "int64_t"), ('K', "uint64_t"), ('W', "wchar_t")].lookup c

def type : Nat → Parse (List Char)
  | 0 => failure
  | fuel + 1 => do
    let c ← next
    if c = 'P' ∨ c = 'A' then
      let _ ← accept "E"
      let constant := (← next) = 'B'
      let inner ← type fuel
      return inner ++ (if constant then " const" else "").toList
        ++ (if c = 'P' then " *" else " &").toList
    else if c = '_' then
      let word ← (extended? (← next) : Option String)
      return word.toList
    else
      let word ← (builtin? c : Option String)
      return word.toList

def types : Nat → Parse (List (List Char))
  | 0 => failure
  | fuel + 1 => do
    if ← accept "@" then return []
    else return (← type fuel) :: (← types fuel)

def parameters : Parse (List Char) := do
  if ← accept "X" then return "void".toList
  else return Text.join [',', ' '] (← types ((← get).length + 1))

def convention? (c : Char) : Option String :=
  [('A', "__cdecl"), ('E', "__thiscall"), ('G', "__stdcall"), ('I', "__fastcall"),
    ('Q', "__vectorcall")].lookup c

def function (access : String) (name : List Char) (special : Option Special) (after : String) :
    Parse (List Char) := do
  let convention ← (convention? (← next) : Option String)
  let result ← match special with
    | some _ => do
      if ← accept "@" then pure [] else failure
    | none => do
      pure ((← type ((← get).length + 1)) ++ [' '])
  let types ← parameters
  if ← accept "Z" then
    return access.toList ++ result ++ convention.toList ++ [' '] ++ name ++ ['('] ++ types ++ [')']
      ++ after.toList
  else failure

def member (access : String) (name : List Char) (special : Option Special) :
    Parse (List Char) := do
  let _ ← accept "E"
  let constant := (← next) = 'B'
  function access name special (if constant then " const" else "")

def entity : Parse (List Char) := do
  let (name, special) ← qualifiedName
  match ← next with
  | 'Y' => function "" name special ""
  | 'Q' => member "public: " name special
  | 'I' => member "protected: " name special
  | 'A' => member "private: " name special
  | '3' => do
    let type ← type ((← get).length + 1)
    let constant := (← next) = 'B'
    return type ++ (if constant then " const " else " ").toList ++ name
  | _ => failure

def isDecorationChar (c : Char) : Bool :=
  c.isAlphanum || c == '_' || c == '@' || c == '$' || c == '?'

/-- Whether a name has two signs in a row with something of the decoration on both sides. -/
def isMarked (name : List Char) : Bool :=
  match name with
  | '?' :: rest =>
    let run := rest.takeWhile isDecorationChar
    (List.range run.length).any fun n =>
      0 < n && (run[n]?, run[n + 1]?) == (some '@', some '@') && n + 2 < run.length
  | _ => false

def demangle? (name : List Char) : Option (List Char) :=
  if isMarked name then (entity.run (name.drop 1)).map Prod.fst else none

end SizeSurvey.Decorated
