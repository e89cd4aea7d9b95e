import SizeSurvey.Platform.Shell.Machine
import SizeSurvey.Platform.Shell.Number
/-!
# Arithmetic of the shell

Whole numbers of 64 bits with the operators that the shell has in common with most languages. A
name stands for the value of a variable, and an unset one for zero. Assignments have values, too.
What is not needed for the value is read without being carried out.
-/
namespace SizeSurvey.Shell.Arithmetic

/-- Why an expression has no value. -/
inductive Defect where
  | expecting (what : String)
  | divisionByZero
  | illegalNumber (text : List Char)
  | readOnly (name : List Char)

def Defect.message (expression : List Char) : Defect → String
  | expecting what =>
    "arithmetic expression: expecting " ++ what ++ ": \"" ++ nameOf expression ++ "\""
  | divisionByZero =>
    "arithmetic expression: division by zero: \"" ++ nameOf expression ++ "\""
  | illegalNumber text => "Illegal number: " ++ nameOf text
  | readOnly name => nameOf name ++ ": is read only"

inductive Token where
  | number (value : Int)
  | name (text : List Char)
  | operator (text : String)
  | other
deriving DecidableEq

def operators : List String :=
  ["<<=", ">>=", "<<", ">>", "<=", ">=", "==", "!=", "&&", "||", "+=", "-=", "*=", "/=", "%=", "&=",
    "|=", "^=", "+", "-", "*", "/", "%", "<", ">", "&", "|", "^", "!", "~", "(", ")", "?", ":", "="]

def isNameChar (c : Char) : Bool :=
  c.isAlphanum || c == '_'

def tokens : Nat → List Char → List Token
  | 0, _ => []
  | fuel + 1, text =>
    match text.dropWhile fun c => c == ' ' || c == '\t' || c == '\n' with
    | [] => []
    | c :: rest =>
      let text := c :: rest
      if Text.isDigit c then
        let numeral := Numeral.ofText true text
        .number numeral.value :: tokens fuel numeral.rest
      else if isNameChar c then
        let word := text.takeWhile isNameChar
        .name word :: tokens fuel (text.drop word.length)
      else
        match operators.find? fun operator => operator.toList.isPrefixOf text with
        | some operator => .operator operator :: tokens fuel (text.drop operator.length)
        | none => [.other]

def looseness? (operator : String) : Option Nat :=
  [("*", 0), ("/", 0), ("%", 0), ("+", 1), ("-", 1), ("<<", 2), (">>", 2), ("<", 3), ("<=", 3),
    (">", 3), (">=", 3), ("==", 4), ("!=", 4), ("&", 5), ("^", 6), ("|", 7)].lookup operator

def loosest : Nat := 8

def changing? (operator : String) : Option String :=
  [("+=", "+"), ("-=", "-"), ("*=", "*"), ("/=", "/"), ("%=", "%"), ("<<=", "<<"), (">>=", ">>"),
    ("&=", "&"), ("|=", "|"), ("^=", "^")].lookup operator

def ofBool (b : Bool) : Int :=
  if b then 1 else 0

def wrapped (value : Int) : Int :=
  (Int64.ofInt value).toInt

def combine (operator : String) (a b : Int) : Except Defect Int :=
  let places := (b % 64).toNat
  match operator with
  | "+" => .ok (wrapped (a + b))
  | "-" => .ok (wrapped (a - b))
  | "*" => .ok (wrapped (a * b))
  | "/" => if b = 0 then .error .divisionByZero else .ok (wrapped (a.tdiv b))
  | "%" => if b = 0 then .error .divisionByZero else .ok (wrapped (a.tmod b))
  | "==" => .ok (ofBool (a = b))
  | "!=" => .ok (ofBool (a ≠ b))
  | "<" => .ok (ofBool (a < b))
  | "<=" => .ok (ofBool (a ≤ b))
  | ">" => .ok (ofBool (b < a))
  | ">=" => .ok (ofBool (b ≤ a))
  | "<<" => .ok (wrapped (a * (Nat.pow 2 places : Nat)))
  | ">>" => .ok (a.shiftRight places)
  | "&" => .ok (Int64.ofInt a &&& Int64.ofInt b).toInt
  | "|" => .ok (Int64.ofInt a ||| Int64.ofInt b).toInt
  | "^" => .ok (Int64.ofInt a ^^^ Int64.ofInt b).toInt
  | _ => .error (.expecting "primary")

/-- What an expression can refer to. -/
structure Variables where
  value? : List Char → Option (List Char)
  isReadOnly : List Char → Bool

/-- The tokens that are left, and the values that were assigned, the last one first. -/
structure State where
  tokens : List Token
  assigned : List (List Char × Int) := []

abbrev Evaluate := StateT State (Except Defect)

def next? : Evaluate (Option Token) := do
  return (← get).tokens.head?

def drop : Evaluate Unit :=
  modify fun state => { state with tokens := state.tokens.tail }

def accept (operator : String) : Evaluate Bool := do
  if (← next?) = some (.operator operator) then
    drop
    return true
  else return false

def lookUp (scope : Variables) (name : List Char) : Evaluate Int := do
  match (← get).assigned.lookup name with
  | some value => return value
  | none =>
    let text := (scope.value? name).getD []
    if text.all Numeral.isSpace then return 0
    else
      match Numeral.whole? true text with
      | some value => return value
      | none => throw (.illegalNumber text)

mutual

def assignment (scope : Variables) : Nat → Bool → Evaluate Int
  | 0, _ => throw (.expecting "primary")
  | fuel + 1, skipped => do
    match (← get).tokens with
    | .name name :: .operator operator :: rest =>
      if operator = "=" ∨ (changing? operator).isSome then
        modify fun state => { state with tokens := rest }
        let value ← assignment scope fuel skipped
        if skipped then return value
        else
          let value ← match changing? operator with
            | some operator => do
              let before ← lookUp scope name
              match combine operator before value with
              | .ok value => pure value
              | .error defect => throw defect
            | none => pure value
          if scope.isReadOnly name then throw (.readOnly name)
          modify fun state => { state with assigned := (name, value) :: state.assigned }
          return value
      else choice scope fuel skipped
    | _ => choice scope fuel skipped

def choice (scope : Variables) : Nat → Bool → Evaluate Int
  | 0, _ => throw (.expecting "primary")
  | fuel + 1, skipped => do
    let condition ← disjunction scope fuel skipped
    if ← accept "?" then
      let first ← assignment scope fuel (skipped || condition = 0)
      if ← accept ":" then
        let second ← choice scope fuel (skipped || condition ≠ 0)
        return if condition = 0 then second else first
      else throw (.expecting "':'")
    else return condition

def disjunction (scope : Variables) : Nat → Bool → Evaluate Int
  | 0, _ => throw (.expecting "primary")
  | fuel + 1, skipped => do
    let first ← conjunction scope fuel skipped
    if ← accept "||" then
      let second ← disjunction scope fuel (skipped || first ≠ 0)
      return ofBool (first ≠ 0 ∨ second ≠ 0)
    else return first

def conjunction (scope : Variables) : Nat → Bool → Evaluate Int
  | 0, _ => throw (.expecting "primary")
  | fuel + 1, skipped => do
    let first ← primary scope fuel skipped
    let first ← continued scope fuel skipped loosest first
    if ← accept "&&" then
      let second ← conjunction scope fuel (skipped || first = 0)
      return ofBool (first ≠ 0 ∧ second ≠ 0)
    else return first

/-- A value with the operators after it that bind more tightly than `bound`. -/
def continued (scope : Variables) : Nat → Bool → Nat → Int → Evaluate Int
  | 0, _, _, _ => throw (.expecting "primary")
  | fuel + 1, skipped, bound, first => do
    match ← next? with
    | some (.operator operator) =>
      match looseness? operator with
      | some looseness =>
        if looseness < bound then
          drop
          let second ← primary scope fuel skipped
          let second ← continued scope fuel skipped looseness second
          let value ← if skipped then pure second
            else match combine operator first second with
              | .ok value => pure value
              | .error defect => throw defect
          continued scope fuel skipped bound value
        else return first
      | none => return first
    | _ => return first

def primary (scope : Variables) : Nat → Bool → Evaluate Int
  | 0, _ => throw (.expecting "primary")
  | fuel + 1, skipped => do
    match ← next? with
    | some (.number value) =>
      drop
      return value
    | some (.name name) =>
      drop
      if skipped then return 0 else lookUp scope name
    | some (.operator "(") =>
      drop
      let value ← assignment scope fuel skipped
      if ← accept ")" then return value else throw (.expecting "')'")
    | some (.operator "+") =>
      drop
      primary scope fuel skipped
    | some (.operator "-") =>
      drop
      return wrapped (-(← primary scope fuel skipped))
    | some (.operator "!") =>
      drop
      return ofBool ((← primary scope fuel skipped) = 0)
    | some (.operator "~") =>
      drop
      return -(← primary scope fuel skipped) - 1
    | _ => throw (.expecting "primary")

end

def evaluate (scope : Variables) (text : List Char) :
    Except Defect (Int × List (List Char × Int)) := do
  let tokens := tokens (text.length + 1) text
  let (value, state) ← (assignment scope (4 * tokens.length + 8) false).run { tokens }
  if state.tokens.isEmpty then return (value, state.assigned)
  else throw (.expecting "EOF")

end SizeSurvey.Shell.Arithmetic
