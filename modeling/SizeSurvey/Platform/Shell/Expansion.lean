import SizeSurvey.Platform.Shell.Arithmetic
import SizeSurvey.Platform.Shell.Pattern
import SizeSurvey.Platform.Shell.Session
/-!
# Expansion of words

Before a command runs, the pieces of its words are replaced by what they stand for. Values that are
not quoted are split into fields, and fields with signs of patterns stand for the paths that fit.
How the output of commands is obtained is given from outside.
-/
namespace SizeSurvey.Shell

abbrev Field := List (Char × Bool)

/-- A part of an expanded word. -/
inductive Part where
  | fixed (quoted : Bool) (chars : List Char)
  | value (chars : List Char)
  | apart (arguments : List (List Char))
  | between

namespace Part

def ofValue (quoted : Bool) (chars : List Char) : Part :=
  if quoted then .fixed true chars else .value chars

def field : Part → Field
  | fixed quoted chars => chars.map (·, quoted)
  | value chars => chars.map (·, false)
  | apart arguments => (List.intercalate [' '] arguments).map (·, true)
  | between => [(' ', false)]

def chars (part : Part) : List Char :=
  part.field.map Prod.fst

def splitting : Part → Part
  | fixed false chars => .value chars
  | part => part

end Part

/-- The fields of a word so far, the last one first, and the field that is still open with its last
character first. -/
structure Fields where
  done : List Field := []
  current : Option Field := none
  /-- Whether blanks ended the last field, so that a separator after them ends it, too. -/
  absorbs : Bool := false

namespace Fields

def close (fields : Fields) : Fields :=
  match fields.current with
  | none => { fields with absorbs := false }
  | some field => { done := field.reverse :: fields.done }

def start (fields : Fields) : Fields :=
  { fields with current := some (fields.current.getD []), absorbs := false }

def add (quoted : Bool) (fields : Fields) (c : Char) : Fields :=
  { fields with current := some ((c, quoted) :: fields.current.getD []), absorbs := false }

def isBlank (c : Char) : Bool :=
  c == ' ' || c == '\t' || c == '\n'

/-- Adds a character of a value. A separator that is no blank ends a field even if it is empty. -/
def addSplit (separators : List Char) (fields : Fields) (c : Char) : Fields :=
  if !separators.contains c then fields.add false c
  else if isBlank c then
    if fields.current.isSome then { fields.close with absorbs := true } else fields
  else if fields.absorbs then { fields with absorbs := false }
  else fields.start.close

def addPart (separators : List Char) (fields : Fields) : Part → Fields
  | .fixed quoted chars =>
    chars.foldl (add quoted) (if quoted then fields.start else fields)
  | .value chars => chars.foldl (addSplit separators) { fields with absorbs := false }
  | .apart [] => fields
  | .apart (first :: rest) =>
    rest.foldl (fun fields argument => argument.foldl (add true) fields.close.start)
      (first.foldl (add true) fields.start)
  | .between => fields.close

def toList (fields : Fields) : List Field :=
  fields.close.done.reverse

end Fields

namespace Expansion

def segments (field : Field) : List Field :=
  field.foldr (fun c segments =>
    if c.1 = '/' then [] :: segments
    else match segments with
      | segment :: rest => (c :: segment) :: rest
      | [] => [[c]]) [[]]

def fitsName (segment : Field) (name : List Char) : Bool :=
  (name.head? ≠ some '.' || (segment.head?.map Prod.fst) = some '.')
    && Glob.accepts (Glob.ofPattern segment) name

def names (node : Node) : List (List Char) :=
  if node.isDirectory then
    ['.'] :: ['.', '.'] :: node.entries.map fun entry => octetsOf entry.1
  else []

def pathsFrom (tree : Node) (ports : Ports) (found : List Char) : List Field → List (List Char)
  | [] => [found]
  | segment :: rest =>
    let next (name : List Char) : List (List Char) :=
      pathsFrom tree ports (found ++ name ++ (if rest.isEmpty then [] else ['/'])) rest
    if Glob.isPattern segment then
      match tree.find (ports.resolve (if found.isEmpty then "." else nameOf found)) with
      | .ok node => ((names node).filter (fitsName segment)).flatMap next
      | .error _ => []
    else next (segment.map Prod.fst)

/-- Whether something is at a path; after a slash it has to be a directory. The directory around one
that is there is there as well, even if it is not in the tree. -/
def isThere (tree : Node) (ports : Ports) (path : List Char) : Bool :=
  path.reverse.takeWhile (· ≠ '/') = ['.', '.'] ||
    match tree.find (ports.resolve (nameOf path)) with
    | .ok node => node.isDirectory || path.getLast? ≠ some '/'
    | .error _ => false

/-- The paths that a field stands for: itself, unless it is a pattern that something fits. -/
def paths (tree : Node) (ports : Ports) (field : Field) : List (List Char) :=
  let plain := field.map Prod.fst
  if Glob.isPattern field then
    let found := (pathsFrom tree ports [] (segments field)).filter (isThere tree ports)
    if found.isEmpty then [plain]
    else found.mergeSort fun a b => !List.lex b a fun c d => c < d
  else [plain]

/-- What is left of a text without the part at its start that fits, the longest such part or the
shortest one. -/
def withoutStart (longest : Bool) (pattern : Field) (text : List Char) : List Char :=
  let parts := Glob.ofPattern pattern
  let counts := List.range (text.length + 1)
  let fits (n : Nat) : Bool := Glob.accepts parts (text.take n)
  match (if longest then counts.reverse else counts).find? fits with
  | some n => text.drop n
  | none => text

def withoutEnd (longest : Bool) (pattern : Field) (text : List Char) : List Char :=
  let parts := Glob.ofPattern pattern
  let counts := List.range (text.length + 1)
  let fits (n : Nat) : Bool := Glob.accepts parts (text.drop n)
  match (if longest then counts else counts.reverse).find? fits with
  | some n => text.take n
  | none => text

def variablesOf (session : Session) : Arithmetic.Variables where
  value? := session.value?
  isReadOnly := session.isReadOnly

def calculate (expression : List Char) : Act Int := do
  match Arithmetic.evaluate (variablesOf (← Act.session)) expression with
  | .ok (value, assigned) =>
    for (name, value) in assigned.reverse do
      Act.assign name (signedDigits value)
    return value
  | .error defect => Act.fail (defect.message expression)

def home? (session : Session) (user : List Char) : Option (List Char) :=
  if user.isEmpty then session.value? "HOME".toList
  else [("root", "/root"), ("nobody", "/nonexistent")].lookup (nameOf user) |>.map String.toList

/-- A text in which a tilde and a name in front, which ends at one of some signs or with the text,
stand for a directory. `isWhole` tells whether nothing quoted follows. -/
def withHome (session : Session) (isEnd : Char → Bool) (isWhole : Bool) (text : List Char) :
    Option (List Char × List Char) :=
  match text with
  | '~' :: rest =>
    let user := rest.takeWhile (!isEnd ·)
    let after := rest.drop user.length
    if after.isEmpty && !isWhole then none
    else (home? session user).map fun directory => (directory, after)
  | _ => none

def firstText (session : Session) (isWhole : Bool) (text : List Char) : List Part :=
  match withHome session (· == '/') isWhole text with
  | some (directory, rest) => [.fixed true directory, .fixed false rest]
  | none => [.fixed false text]

/-- A text in an assignment, in which tildes may stand at the start and after colons. -/
def assignedText (session : Session) (isFirst isLast : Bool) (text : List Char) : List Char :=
  let pieces := Text.splitAt ':' text
  let count := pieces.length
  let expanded := pieces.zipIdx.map fun (piece, index) =>
    if index = 0 && !isFirst then piece
    else
      match withHome session (· == '/') (isLast || index + 1 < count) piece with
      | some (directory, rest) => directory ++ rest
      | none => piece
  List.intercalate [':'] expanded

/-- The parts of the value of a parameter. Where nothing is split all arguments are one value. -/
def valueParts (session : Session) (splits quoted : Bool) (name value : List Char) : List Part :=
  if splits && (name = ['@'] || name = ['*']) then
    if !quoted then (session.arguments.map Part.value).intersperse .between
    else if name = ['@'] then [.apart session.arguments]
    else [.ofValue quoted value]
  else [.ofValue quoted value]

/-- The value of a parameter, which must be set if the shell is told to care. -/
def demanded (session : Session) (name : List Char) : Act (List Char) := do
  match session.parameter? name with
  | some value => return value
  | none =>
    if session.isSet "nounset" && name ≠ ['@'] && name ≠ ['*'] then
      Act.fail (nameOf name ++ ": parameter not set")
    else return []

def isName (name : List Char) : Bool :=
  match name with
  | c :: rest => (c.isAlpha || c == '_') && rest.all Arithmetic.isNameChar
  | [] => false

/-- The parts of a parameter. `operand` are the parts of the word after its operator. -/
def parameter (splits quoted : Bool) (name : List Char) (operator : Operator)
    (operand : Act (List Part)) : Act (List Part) := do
  let session ← Act.session
  let value := session.parameter? name
  let given (emptyToo : Bool) : Option (List Char) :=
    if emptyToo then value.filter (!·.isEmpty) else value
  match operator with
  | .plain => return valueParts session splits quoted name (← demanded session name)
  | .default emptyToo =>
    match given emptyToo with
    | some value => return valueParts session splits quoted name value
    | none => operand
  | .assign emptyToo =>
    match given emptyToo with
    | some value => return valueParts session splits quoted name value
    | none =>
      let value := (← operand).flatMap Part.chars
      if isName name then
        Act.assign name value
        return [.ofValue quoted value]
      else Act.fail (nameOf name ++ ": bad variable name")
  | .alternative emptyToo => if (given emptyToo).isSome then operand else return []
  | .demand emptyToo =>
    match given emptyToo with
    | some value => return valueParts session splits quoted name value
    | none =>
      let text := (← operand).flatMap Part.chars
      let unset := if emptyToo then "parameter not set or null" else "parameter not set"
      Act.fail (nameOf name ++ ": " ++ (if text.isEmpty then unset else nameOf text))
  | .withoutStart longest =>
    let text ← demanded session name
    return [.ofValue quoted (withoutStart longest ((← operand).flatMap Part.field) text)]
  | .withoutEnd longest =>
    let text ← demanded session name
    return [.ofValue quoted (withoutEnd longest ((← operand).flatMap Part.field) text)]
  | .length => return [.ofValue quoted (Nat.toDigits 10 (← demanded session name).length)]
  | .unknown => Act.fail "Bad substitution"

def isPatternOperator : Operator → Bool
  | .withoutStart _ => true
  | .withoutEnd _ => true
  | _ => false

def pieceParts (output : List Command → Act (List Char))
    (inner : Bool → Word → Act (List Part)) (splits : Bool) (piece : Piece) : Act (List Part) := do
  match piece with
  | .text quoted chars => return [.fixed quoted chars]
  | .parameter quoted name operator operand =>
    parameter splits quoted name operator do
      if isPatternOperator operator then inner false operand
      else
        let found ← inner splits operand
        return if quoted then found else found.map Part.splitting
  | .output quoted commands =>
    let text ← output commands
    return [.ofValue quoted text]
  | .arithmetic quoted expression =>
    let text := (← inner false expression).flatMap Part.chars
    return [.ofValue quoted (signedDigits (← calculate text))]

/-- The parts of a word, the words of operators being nested at most as deep as the fuel. -/
def parts (output : List Command → Act (List Char)) : Nat → Bool → Word → Act (List Part)
  | 0, _, _ => throw .outOfTime
  | fuel + 1, splits, word => do
    let expand (pieces : Word) : Act (List Part) := do
      return (← pieces.mapM (pieceParts output (parts output fuel) splits)).flatten
    match word with
    | .text false chars :: rest =>
      let first := firstText (← Act.session) rest.isEmpty chars
      return first ++ (← expand rest)
    | word => expand word

def depth : Nat := 200

def text (output : List Command → Act (List Char)) (word : Word) : Act (List Char) := do
  return (← parts output depth false word).flatMap Part.chars

def assigned (output : List Command → Act (List Char)) (word : Word) : Act (List Char) := do
  let session ← Act.session
  let count := word.length
  let prepared : Word := word.zipIdx.map fun (piece, index) =>
    match piece with
    | .text false chars => .text true (assignedText session (index = 0) (index + 1 = count) chars)
    | piece => piece
  text output prepared

def pattern (output : List Command → Act (List Char)) (word : Word) : Act Field := do
  return (← parts output depth false word).flatMap Part.field

def fields (output : List Command → Act (List Char)) (word : Word) : Act (List (List Char)) := do
  let parts ← parts output depth true word
  let session ← Act.session
  let fields := (parts.foldl (Fields.addPart session.fieldSeparators) {}).toList
  if session.isSet "noglob" then return fields.map fun field => field.map Prod.fst
  else
    let tree := (← Act.machine).tree
    return fields.flatMap (paths tree session.ports)

end Expansion

end SizeSurvey.Shell
