import SizeSurvey.Tree.Basic
/-!
# Walks through file trees

A walk visits the files below a directory depth first, the entries of each directory in the order of
their names. Links are not followed, except one at the place where the walk starts.
-/
namespace SizeSurvey

structure Visited where
  path : String
  /-- The names that lead to it from the start. -/
  relative : List String
  octets : List UInt8
deriving DecidableEq, Repr

namespace Visited

def size (visited : Visited) : Size :=
  UInt64.ofNat visited.octets.length

end Visited

namespace Node

mutual

/-- The files at and below a node that is reached by a path. -/
def files (path : String) (relative : List String) : Node → List Visited
  | file octets _ => [⟨path, relative, octets⟩]
  | directory entries =>
    ((filesOfEntries path relative entries).mergeSort fun a b => a.1 ≤ b.1).flatMap Prod.snd
  | link _ => []

def filesOfEntries (path : String) (relative : List String) :
    List (String × Node) → List (String × List Visited)
  | [] => []
  | (name, node) :: rest =>
    (name, files (Path.child path name) (relative ++ [name]) node)
      :: filesOfEntries path relative rest

end

def walk (root : Node) (path : String) : Except Trouble (List Visited) := do
  match ← root.find path false with
  | .link _ =>
    match ← root.find path with
    | .directory entries => return files path [] (.directory entries)
    | _ => return []
  | node => return files path [] node

end Node

end SizeSurvey
