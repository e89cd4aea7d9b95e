/-!
# Pieces of texts

Cutting a text at a character or at a word, looking for a word inside a text, and taking a word
off either end. Occurrences are taken leftmost first and do not overlap.

A line ends at a line feed, and a carriage return just before that line feed belongs to the line
end. What follows the last line feed is a line of its own unless it is empty.
-/
namespace SizeSurvey.Text

/-- What follows `start` in a text that begins with it. -/
def afterStart? : List Char → List Char → Option (List Char)
  | [], text => some text
  | _ :: _, [] => none
  | s :: start, c :: text => if s = c then afterStart? start text else none

/-- What precedes `finish` in a text that ends with it. -/
def beforeEnd? (finish text : List Char) : Option (List Char) :=
  (afterStart? finish.reverse text.reverse).map List.reverse

/-- What precedes and what follows the first occurrence of a word. -/
def cutAt? (word : List Char) : List Char → Option (List Char × List Char)
  | [] => if word.isEmpty then some ([], []) else none
  | c :: text =>
    match afterStart? word (c :: text) with
    | some rest => some ([], rest)
    | none => (cutAt? word text).map fun (before, after) => (c :: before, after)

def contains (word text : List Char) : Bool :=
  (cutAt? word text).isSome

/-- The pieces of a sequence between the occurrences of a separator. -/
def splitAt {α : Type} [DecidableEq α] (separator : α) (text : List α) : List (List α) :=
  text.foldr (fun c pieces =>
    if c = separator then [] :: pieces
    else match pieces with
      | [] => [[c]]
      | piece :: rest => (c :: piece) :: rest) [[]]

/-- Splits at the last `n` occurrences of a character; the pieces come last first. -/
def splitLast (separator : Char) : Nat → List Char → List (List Char)
  | 0, text => [text]
  | n + 1, text =>
    let last := (text.reverse.takeWhile (· ≠ separator)).reverse
    match text.reverse.dropWhile (· ≠ separator) with
    | [] => [last]
    | _ :: rest => last :: splitLast separator n rest.reverse

/-- One character of a text that is cut into lines: the line so far, reversed, and the lines before.
-/
def lineStep (state : List Char × List (List Char)) (c : Char) : List Char × List (List Char) :=
  if c = '\n' then
    let line := match state.1 with
      | '\r' :: rest => rest
      | line => line
    ([], line.reverse :: state.2)
  else (c :: state.1, state.2)

def lines (text : List Char) : List (List Char) :=
  let (line, done) := text.foldl lineStep ([], [])
  (if line.isEmpty then done else line.reverse :: done).reverse

def join (separator : List Char) : List (List Char) → List Char
  | [] => []
  | [text] => text
  | text :: rest => text ++ separator ++ join separator rest

def toAsciiLower (c : Char) : Char :=
  if 'A' ≤ c ∧ c ≤ 'Z' then Char.ofNat (c.toNat + 32) else c

def toAsciiUpper (c : Char) : Char :=
  if 'a' ≤ c ∧ c ≤ 'z' then Char.ofNat (c.toNat - 32) else c

end SizeSurvey.Text
