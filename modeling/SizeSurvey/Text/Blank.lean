/-!
# White space

The characters with the Unicode property `White_Space`, and the two ways in which listings are cut
at them: trimming a text at its ends and splitting it into words.
-/
namespace SizeSurvey.Text

def isBlank (c : Char) : Bool :=
  let n := c.toNat
  (9 ≤ n && n ≤ 13) || n == 0x20 || n == 0x85 || n == 0xa0 || n == 0x1680
    || (0x2000 ≤ n && n ≤ 0x200a) || n == 0x2028 || n == 0x2029 || n == 0x202f || n == 0x205f
    || n == 0x3000

def trimStart (text : List Char) : List Char :=
  text.dropWhile isBlank

def trimEnd (text : List Char) : List Char :=
  (text.reverse.dropWhile isBlank).reverse

def trim (text : List Char) : List Char :=
  trimEnd (trimStart text)

/-- One character of a text that is cut into words: the word so far, reversed, and the words before.
-/
def wordStep (state : List Char × List (List Char)) (c : Char) : List Char × List (List Char) :=
  if isBlank c then
    if state.1.isEmpty then state else ([], state.1.reverse :: state.2)
  else (c :: state.1, state.2)

/-- The maximal runs of characters that are no white space. -/
def words (text : List Char) : List (List Char) :=
  let (word, done) := text.foldl wordStep ([], [])
  (if word.isEmpty then done else word.reverse :: done).reverse

end SizeSurvey.Text
