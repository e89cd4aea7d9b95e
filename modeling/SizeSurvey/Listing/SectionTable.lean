import SizeSurvey.Section.Basic
import SizeSurvey.Text.Blank
import SizeSurvey.Text.Digit
import SizeSurvey.Text.Split
/-!
# Section tables

A row of a section table is an index in brackets and then the name, type, address, offset, size,
entry size and flags of a section, divided by white space; address, offset and size are hexadecimal.
A row is looked for at each opening bracket of a line, and the first that fits is taken. Lines
without one are titles and legends. The unnamed first section fits with its type in the place of its
name, and has size zero.
-/
namespace SizeSurvey.Listing

/-- What follows at least one white space. -/
def afterBlanks? : List Char → Option (List Char)
  | [] => none
  | c :: rest => if Text.isBlank c then some (Text.trimStart rest) else none

/-- A column after white space, and what follows it. -/
def column? (text : List Char) : Option (List Char × List Char) := do
  let text ← afterBlanks? text
  let column := text.takeWhile fun c => !Text.isBlank c
  if column.isEmpty then none
  else return (column, text.dropWhile fun c => !Text.isBlank c)

def hexColumn? (text : List Char) : Option (List Char × List Char) := do
  let (column, rest) ← column? text
  if column.all Text.isHexDigit then return (column, rest) else none

/-- What follows an index and its closing bracket. -/
def afterIndex? (text : List Char) : Option (List Char) :=
  let text := Text.trimStart text
  match text.takeWhile Text.isScriptDigit, text.dropWhile Text.isScriptDigit with
  | _ :: _, ']' :: rest => some rest
  | _, _ => none

structure SectionRow where
  name : List Char
  size : List Char
  flags : List Char

def isLetter (c : Char) : Bool :=
  ('a' ≤ c && c ≤ 'z') || ('A' ≤ c && c ≤ 'Z')

/-- A row whose opening bracket has been read. -/
def sectionRow? (text : List Char) : Option SectionRow := do
  let text ← afterIndex? text
  let (name, text) ← column? text
  let (_, text) ← column? text
  let (_, text) ← hexColumn? text
  let (_, text) ← hexColumn? text
  let (size, text) ← hexColumn? text
  let (_, text) ← column? text
  let text ← afterBlanks? text
  return { name, size, flags := text.takeWhile isLetter }

def firstSectionRow? : List Char → Option SectionRow
  | [] => none
  | c :: rest =>
    if c = '[' then (sectionRow? rest).or (firstSectionRow? rest) else firstSectionRow? rest

def sectionOfLine? (line : List Char) : Option Section := do
  let row ← firstSectionRow? line
  let size ← Size.ofNat? (← Text.readHex? row.size)
  return { name := String.ofList row.name, size, flags := String.ofList row.flags }

def sections (text : String) : List Section :=
  (Text.lines text.toList).filterMap sectionOfLine?

end SizeSurvey.Listing
