import SizeSurvey.Platform.Shell.Command
import SizeSurvey.Text.Digit
import SizeSurvey.Text.Split
/-!
# Tokens of scripts

The signs and words that scripts are made of, what can be wrong with them, and the state of a script
that is being read. Outside single quotation marks a backward slash at the end of a line joins the
line with the next one.
-/
namespace SizeSurvey.Shell

inductive Keyword where
  | negation
  | case
  | do
  | done
  | elseIf
  | else
  | endCase
  | endIf
  | for
  | if
  | in
  | then
  | until
  | while
  | opening
  | closing
deriving DecidableEq, Repr

namespace Keyword

def word : Keyword → String
  | negation => "!"
  | .case => "case"
  | .do => "do"
  | done => "done"
  | elseIf => "elif"
  | .else => "else"
  | endCase => "esac"
  | endIf => "fi"
  | .for => "for"
  | .if => "if"
  | .in => "in"
  | .then => "then"
  | .until => "until"
  | .while => "while"
  | opening => "\x7b"
  | closing => "\x7d"

def all : List Keyword :=
  [negation, .case, .do, done, elseIf, .else, endCase, endIf, .for, .if, .in, .then, .until,
    .while, opening, closing]

def ofWord? (text : List Char) : Option Keyword :=
  all.find? fun keyword => keyword.word.toList = text

def endsList : Keyword → Bool
  | .do | done | elseIf | .else | endCase | endIf | .then | closing => true
  | _ => false

end Keyword

/-- The kind of a redirection, whose word follows. -/
inductive Arrow where
  | read
  | write (forced : Bool)
  | append
  | readAndWrite
  | copy
  | document (stripped : Bool)
deriving DecidableEq, Repr

inductive Token where
  | endOfFile
  | newLine
  | semicolon
  | background
  | both
  | either
  | pipe
  | openBracket
  | closeBracket
  | endBranch
  | redirection (stream : Nat) (arrow : Arrow)
  | word (word : Word)
  | keyword (key : Keyword)

namespace Token

def name : Token → String
  | endOfFile => "end of file"
  | newLine => "newline"
  | semicolon => "\";\""
  | background => "\"&\""
  | both => "\"&&\""
  | either => "\"||\""
  | pipe => "\"|\""
  | openBracket => "\"(\""
  | closeBracket => "\")\""
  | endBranch => "\";;\""
  | redirection _ _ => "redirection"
  | .word _ => "word"
  | .keyword key => "\"" ++ key.word ++ "\""

def endsList : Token → Bool
  | endOfFile | closeBracket | endBranch => true
  | .keyword key => key.endsList
  | _ => false

end Token

/-- What is wrong with a script. -/
inductive Blunder where
  | unexpected (found : Token) (expected : Option Token)
  | unterminatedQuote
  | missingBrace
  | missingArithmeticEnd
  | missingBackQuote
  | badLoopName
  | badFunctionName
  | tooDeep

def Blunder.message : Blunder → String
  | unexpected found none => found.name ++ " unexpected"
  | unexpected found (some expected) =>
    found.name ++ " unexpected (expecting " ++ expected.name ++ ")"
  | unterminatedQuote => "Unterminated quoted string"
  | missingBrace => "Missing '\x7d'"
  | missingArithmeticEnd => "Missing '))'"
  | missingBackQuote => "EOF in backquote substitution"
  | badLoopName => "Bad for loop variable"
  | badFunctionName => "Bad function name"
  | tooDeep => "Nesting too deep"

/-- A text that starts on the next line: its last line, and how it is written. -/
structure Due where
  index : Nat
  mark : List Char
  verbatim : Bool
  stripped : Bool

/-- A word that is being replaced by another text. -/
structure Replacing where
  name : List Char
  rest : Nat
  goesOn : Bool

structure Reading where
  text : List Char
  line : Nat := 1
  pushed : Option Token := none
  due : List Due := []
  announced : Nat := 0
  documents : Documents := []
  aliases : List (List Char × List Char) := []
  replacing : List Replacing := []

/-- Something wrong, and the line in which it was found. -/
structure Mistake where
  line : Nat
  blunder : Blunder

abbrev Read := StateT Reading (Except Mistake)

namespace Read

def fail {α : Type} (blunder : Blunder) : Read α := do
  throw ⟨(← get).line, blunder⟩

def unexpected {α : Type} (found : Token) (expected : Option Token := none) : Read α :=
  fail (.unexpected found expected)

def joinLines : Nat → Reading → Reading
  | 0, state => state
  | fuel + 1, state =>
    match state.text with
    | '\\' :: '\n' :: rest => joinLines fuel { state with text := rest, line := state.line + 1 }
    | _ => state

def peek : Read (Option Char) := do
  modify fun state => joinLines state.text.length state
  return (← get).text.head?

def take : Read Unit := do
  modify fun state =>
    { state with
      text := state.text.tail
      line := if state.text.head? = some '\n' then state.line + 1 else state.line }

def accept (c : Char) : Read Bool := do
  if (← peek) = some c then
    take
    return true
  else return false

def takeWhile (accepts : Char → Bool) : Nat → List Char → Read (List Char)
  | 0, done => return done.reverse
  | fuel + 1, done => do
    match ← peek with
    | some c =>
      if accepts c then
        take
        takeWhile accepts fuel (c :: done)
      else return done.reverse
    | none => return done.reverse

def rest : Read (List Char) := do
  return (← get).text

def drop (n : Nat) : Read Unit :=
  modify fun state =>
    { state with
      text := state.text.drop n
      line := state.line + (state.text.take n).count '\n' }

def isNameStart (c : Char) : Bool :=
  c.isAlpha || c == '_'

def isNameChar (c : Char) : Bool :=
  c.isAlphanum || c == '_'

def isName (text : List Char) : Bool :=
  match text with
  | c :: rest => isNameStart c && rest.all isNameChar
  | [] => false

def isSpecial (c : Char) : Bool :=
  c == '@' || c == '*' || c == '#' || c == '?' || c == '$' || c == '!' || c == '-'

def isSeparator (c : Char) : Bool :=
  c == ' ' || c == '\t' || c == '\n' || c == ';' || c == '&' || c == '|' || c == '<' || c == '>'
    || c == '(' || c == ')'

def skipSpace : Nat → Read Unit
  | 0 => pure ()
  | fuel + 1 => do
    match ← peek with
    | some ' ' => take; skipSpace fuel
    | some '\t' => take; skipSpace fuel
    | some '#' => drop ((← rest).takeWhile (· ≠ '\n')).length
    | _ => pure ()

def spaces : Read Unit := do
  skipSpace ((← rest).length + 1)

def sign? : Read (Option Token) := do
  match ← peek with
  | none => return some .endOfFile
  | some '\n' =>
    take
    return some .newLine
  | some '&' =>
    take
    return some (if ← accept '&' then .both else .background)
  | some '|' =>
    take
    return some (if ← accept '|' then .either else .pipe)
  | some ';' =>
    take
    return some (if ← accept ';' then .endBranch else .semicolon)
  | some '(' =>
    take
    return some .openBracket
  | some ')' =>
    take
    return some .closeBracket
  | some _ => return none

def arrow : Read Arrow := do
  if ← accept '>' then
    if ← accept '>' then return .append
    else if ← accept '|' then return .write true
    else if ← accept '&' then return .copy
    else return .write false
  else
    take
    if ← accept '<' then return .document (← accept '-')
    else if ← accept '&' then return .copy
    else if ← accept '>' then return .readAndWrite
    else return .read

/-- The stream that a redirection of a kind is about unless it says so. -/
def initialStream (isWriting : Bool) : Nat :=
  if isWriting then 1 else 0

/-- A redirection after the word in front of it, if it is one and the word can be its stream. -/
def redirection? (word : Word) : Read (Option Token) := do
  let next ← peek
  if next ≠ some '<' ∧ next ≠ some '>' then return none
  else
    let isWriting := next = some '>'
    match word.plain? with
    | some [] => return some (.redirection (initialStream isWriting) (← arrow))
    | some [c] =>
      match Text.digit? c with
      | some stream => return some (.redirection stream (← arrow))
      | none => return none
    | _ => return none

/-- The lines of a text up to its mark, and what follows the line of the mark. A line that is joined
with the one before it is not the mark. -/
def documentLines (due : Due) (joined : Bool) (done : List Char) :
    Nat → List Char → List Char × List Char
  | 0, text => (done, text)
  | fuel + 1, text =>
    if text.isEmpty then (done, [])
    else
      let line := text.takeWhile (· ≠ '\n')
      let isEnded := line.length < text.length
      let rest := text.drop (line.length + 1)
      let line := if due.stripped && !joined then line.dropWhile (· = '\t') else line
      if !joined && line = due.mark then (done, rest)
      else
        let slashes := (line.reverse.takeWhile (· = '\\')).length
        let joins := !due.verbatim && slashes % 2 = 1
        let line := if isEnded then line ++ ['\n'] else line
        documentLines due joins (done ++ line) fuel rest

def merged : List Piece → List Piece
  | .text quoted chars :: rest =>
    match merged rest with
    | .text quoted' more :: rest' =>
      if quoted = quoted' then .text quoted (chars ++ more) :: rest'
      else .text quoted chars :: .text quoted' more :: rest'
    | rest => .text quoted chars :: rest
  | piece :: rest => piece :: merged rest
  | [] => []

def assignment? (word : Word) : Option (List Char × Word) :=
  match word with
  | .text false chars :: rest =>
    let name := chars.takeWhile (· ≠ '=')
    match chars.drop name.length with
    | _ :: value =>
      if isName name then
        some (name, if value.isEmpty then rest else .text false value :: rest)
      else none
    | [] => none
  | _ => none

def alias? (word : List Char) : Read (Option (List Char)) := do
  let state ← get
  let inUse := state.replacing.any fun replacing =>
    replacing.name = word && replacing.rest < state.text.length + 1
  return if inUse then none else state.aliases.lookup word

def replace (word text : List Char) : Read Unit :=
  modify fun state =>
    let goesOn := match text.getLast? with
      | some c => c == ' ' || c == '\t'
      | none => false
    { state with
      text := text ++ state.text
      replacing := ⟨word, state.text.length, goesOn⟩
        :: state.replacing.filter (·.rest < state.text.length + 1) }

/-- Whether the text that the word before stood for is over and lets the next word be replaced. -/
def goesOn (before : Nat) : Read Bool := do
  let state ← get
  return state.replacing.any fun replacing =>
    replacing.goesOn && state.text.length < replacing.rest + 1 && replacing.rest < before + 1

end Read

end SizeSurvey.Shell
