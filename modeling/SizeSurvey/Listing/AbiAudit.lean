import SizeSurvey.Text.Blank
import SizeSurvey.Text.Split
/-!
# Compatibility audits and dependencies

The auditor of a package writes prose. Two platform tags stand in it between quotes after fixed
words, and the system libraries in a paragraph of their own, each before the versions that are used
of it. A list of dependencies has one on each line that is not blank.
-/
namespace SizeSurvey

structure AbiAudit where
  platformTag : Option String
  constrainedTag : Option String
  externalLibraries : List String
  text : String
deriving DecidableEq, Repr

namespace AbiAudit

/-- What stands up to the next quote, if that is anything. -/
def upToQuote? (text : List Char) : Option (List Char) :=
  match text.takeWhile (· ≠ '"'), text.dropWhile (· ≠ '"') with
  | tag@(_ :: _), '"' :: _ => some tag
  | _, _ => none

/-- The first quoted text after the words of `lead`, which end with the opening quote. -/
def quotedAfter? (lead : List Char) : List Char → Option (List Char)
  | [] => none
  | c :: text =>
    (((Text.afterStart? lead (c :: text)).bind upToQuote?)).or (quotedAfter? lead text)

/-- The rest of a paragraph, which a blank line ends. -/
def paragraph (text : List Char) : List Char :=
  match Text.cutAt? ['\n', '\n'] text with
  | some (before, _) => before
  | none => text

def withoutBraces (text : List Char) : List Char :=
  text.map fun c => if c = '\x7b' ∨ c = '\x7d' then ' ' else c

/-- The library named by a piece of the list of libraries, which says more than the name. -/
def library? (piece : List Char) : Option (List Char) :=
  let piece := Text.trim piece
  if "lib".toList.isPrefixOf piece && piece.contains ' ' then (Text.words piece).head? else none

def libraries (text : List Char) : List (List Char) :=
  match Text.cutAt? "system-provided shared libraries:".toList text with
  | some (_, rest) => (Text.splitAt ',' (withoutBraces (paragraph rest))).filterMap library?
  | none => []

def ofText (text : String) : AbiAudit where
  platformTag := (quotedAfter? "platform tag: \"".toList text.toList).map String.ofList
  constrainedTag :=
    (quotedAfter? "This constrains the platform tag to \"".toList text.toList).map String.ofList
  externalLibraries := (libraries text.toList).map String.ofList
  text := text

end AbiAudit

def Listing.dependencies (text : String) : List String :=
  (((Text.lines text.toList).map Text.trim).filter fun line => !line.isEmpty).map String.ofList

end SizeSurvey
