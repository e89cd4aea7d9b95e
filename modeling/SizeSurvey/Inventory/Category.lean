import SizeSurvey.Text.Digit
import SizeSurvey.Tree.Path
/-!
# Kinds of files in a package

A file is told by where it lies in the package and by how its name ends.
-/
namespace SizeSurvey

inductive FileCategory where
  | metadata
  | sharedLibrary
  | nativePayload
  | python
  | other
deriving DecidableEq, Repr

def isVersion (part : List Char) : Bool :=
  !part.isEmpty && part.all Text.isDigit

/-- Whether a name ends with the suffix of shared objects and any number of versions. Only the first
part `so` after the stem is looked at. -/
def hasSharedObjectSuffix (name : String) : Bool :=
  match (Text.splitAt '.' name.toList).tail.dropWhile (· ≠ ['s', 'o']) with
  | [] => false
  | _ :: versions => versions.all isVersion

namespace FileCategory

def name : FileCategory → String
  | metadata => "metadata"
  | sharedLibrary => "shared_library"
  | nativePayload => "native_payload"
  | python => "python"
  | other => "other"

def endsWith (finish : String) (text : String) : Bool :=
  (Text.beforeEnd? finish.toList text.toList).isSome

def ofPath (path : String) : FileCategory :=
  let names := Path.names path
  if names.any (endsWith ".dist-info") then metadata
  else if names.any (endsWith ".data") && names.contains "lib" then
    if hasSharedObjectSuffix (names.getLast?.getD "") then sharedLibrary else nativePayload
  else if (Path.fileName? path).bind Path.extension? = some "py" then python
  else other

end FileCategory

end SizeSurvey
