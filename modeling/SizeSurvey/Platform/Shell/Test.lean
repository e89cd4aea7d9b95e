import SizeSurvey.Platform.Shell.Number
import SizeSurvey.Platform.Shell.Surroundings
/-!
# Tests

Expressions of `test` compare texts and numbers and look at files. They are made of the arguments
of a command, so that a word that looks like an operator may also be an operand; its neighbours
decide.
-/
namespace SizeSurvey.Shell.Test

inductive Sign where
  | unary (letter : Char)
  | binary (name : String)
  | negation
  | both
  | either
  | opening
  | closing
deriving DecidableEq, Repr

def unaryLetters : List Char :=
  ['r', 'w', 'x', 'e', 'f', 'd', 'c', 'b', 'p', 'u', 'g', 'k', 's', 't', 'z', 'n', 'h', 'O', 'G',
    'L', 'S']

def binaryNames : List String :=
  ["=", "!=", "<", ">", "-eq", "-ne", "-ge", "-gt", "-le", "-lt", "-nt", "-ot", "-ef"]

def sign? (word : List Char) : Option Sign :=
  match word with
  | ['!'] => some .negation
  | ['('] => some .opening
  | [')'] => some .closing
  | ['-', 'a'] => some .both
  | ['-', 'o'] => some .either
  | word =>
    if binaryNames.contains (nameOf word) then some (.binary (nameOf word))
    else match word with
      | ['-', letter] => if unaryLetters.contains letter then some (.unary letter) else none
      | _ => none

inductive Token where
  | over
  | operand
  | sign (sign : Sign)
deriving DecidableEq, Repr

def isOperand (after : List (List Char)) : Bool :=
  match after with
  | [] => true
  | [_] => false
  | word :: _ =>
    match sign? word with
    | some (.binary _) => true
    | _ => false

def token (words : List (List Char)) : Token :=
  match words with
  | [] => .over
  | word :: after =>
    match sign? word with
    | some (.unary letter) => if isOperand after then .operand else .sign (.unary letter)
    | some .opening => if after.isEmpty then .operand else .sign .opening
    | some sign => .sign sign
    | none => .operand

structure Surroundings where
  ports : Ports
  machine : Machine

abbrev Check := StateT (List (List Char)) (Except String)

def advance (count : Nat) : Check Token := do
  modify fun words => words.drop count
  return token (← get)

def number (word : List Char) : Check Int :=
  match Numeral.whole? false word with
  | some value => return value
  | none => throw ("Illegal number: " ++ nameOf word)

def holds (surroundings : Surroundings) (letter : Char) (word : List Char) : Check Bool := do
  let found? (follow : Bool) : Option Entry :=
    Entry.ofPath? surroundings.ports surroundings.machine word follow
  match letter with
  | 'z' => return word.isEmpty
  | 'n' => return !word.isEmpty
  | 't' =>
    let _ ← number word
    return false
  | 'h' => return (found? false).any Entry.isLink
  | 'L' => return (found? false).any Entry.isLink
  | 'f' => return (found? true).any Entry.isFile
  | 'd' => return (found? true).any Entry.isDirectory
  | 'c' => return (found? true).any Entry.isDevice
  | 'x' => return (found? true).any Entry.isExecutable
  | 's' => return (found? true).any fun entry => !entry.isEmpty
  | letter =>
    if ['e', 'r', 'w', 'O', 'G'].contains letter then return (found? true).isSome else return false

def areSame (surroundings : Surroundings) (first second : List Char) : Bool :=
  let place? (path : List Char) : Option (List String) :=
    let name := surroundings.ports.resolve (nameOf path)
    match surroundings.machine.tree.locate true name with
    | .ok place => if (surroundings.machine.tree.at? place).isSome then some place else none
    | .error _ => none
  (place? first).isSome && place? first = place? second

def compare (surroundings : Surroundings) (name : String) (first second : List Char) :
    Check Bool := do
  match name with
  | "=" => return first = second
  | "!=" => return first ≠ second
  | "<" => return List.lex first second fun c d => c < d
  | ">" => return List.lex second first fun c d => c < d
  | "-nt" => return false
  | "-ot" => return false
  | "-ef" => return areSame surroundings first second
  | name =>
    let a ← number first
    let b ← number second
    match name with
    | "-eq" => return a = b
    | "-ne" => return a ≠ b
    | "-lt" => return a < b
    | "-le" => return a ≤ b
    | "-gt" => return b < a
    | _ => return b ≤ a

mutual

def disjunction (surroundings : Surroundings) : Nat → Token → Check Bool
  | 0, _ => throw "too complex"
  | fuel + 1, first => do
    let left ← conjunction surroundings fuel first
    if token ((← get).drop 1) = .sign .either then
      let right ← disjunction surroundings fuel (← advance 2)
      return left || right
    else return left

def conjunction (surroundings : Surroundings) : Nat → Token → Check Bool
  | 0, _ => throw "too complex"
  | fuel + 1, first => do
    let left ← negation surroundings fuel first
    if token ((← get).drop 1) = .sign .both then
      let right ← conjunction surroundings fuel (← advance 2)
      return left && right
    else return left

def negation (surroundings : Surroundings) : Nat → Token → Check Bool
  | 0, _ => throw "too complex"
  | fuel + 1, first => do
    if first = .sign .negation then
      let next := token ((← get).drop 1)
      if next ≠ .over then
        let _ ← advance 1
      return !(← negation surroundings fuel next)
    else primary surroundings fuel first

def primary (surroundings : Surroundings) : Nat → Token → Check Bool
  | 0, _ => throw "too complex"
  | fuel + 1, first => do
    match first with
    | .over => return false
    | .sign .opening =>
      let inner ← advance 1
      if inner = .sign .closing then return false
      else
        let value ← disjunction surroundings fuel inner
        if (← advance 1) = .sign .closing then return value else throw "closing paren expected"
    | .sign (.unary letter) =>
      let _ ← advance 1
      match ← get with
      | [] => throw ("-" ++ letter.toString ++ ": argument expected")
      | word :: _ => holds surroundings letter word
    | _ =>
      match ← get with
      | [] => return false
      | word :: rest =>
        match token rest with
        | .sign (.binary name) =>
          let _ ← advance 2
          match ← get with
          | [] => throw (name ++ ": argument expected")
          | second :: _ => compare surroundings name word second
        | _ => return !word.isEmpty

end

def isBetween (words : List (List Char)) : Bool :=
  match words with
  | [_, operator, _] =>
    match sign? operator with
    | some (.binary _) => true
    | _ => false
  | _ => false

def isBracketed (words : List (List Char)) : Bool :=
  words.head? = some ['('] && words.getLast? = some [')']

/-- Whether an expression holds, or what is wrong with it. Up to four words follow rules of their
own. -/
def evaluate (surroundings : Surroundings) (words : List (List Char)) : Except String Bool :=
  let finish (first : Token) (words : List (List Char)) : Except String Bool := do
    let (value, left) ← (disjunction surroundings (4 * words.length + 8) first).run words
    match left with
    | word :: _ :: _ =>
      throw (if word.isEmpty then "unexpected operator" else nameOf word ++ ": unexpected operator")
    | _ => return value
  match words with
  | [] => .ok false
  | words =>
    if isBetween words then finish .operand words
    else if words.length = 3 ∨ words.length = 4 then
      if isBracketed words then
        let inner := (words.drop 1).dropLast
        finish (token inner) inner
      else if words.head? = some ['!'] then (evaluate surroundings words.tail).map (!·)
      else finish (token words) words
    else finish (token words) words
termination_by words.length
decreasing_by
  rename_i h _ _
  cases words with
  | nil => exact absurd h (by decide)
  | cons word rest => exact Nat.lt_succ_self rest.length

end SizeSurvey.Shell.Test
