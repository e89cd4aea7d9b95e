import SizeSurvey.Inventory.Category
import SizeSurvey.NameMap
import SizeSurvey.Sha256
import SizeSurvey.Tree.Walk
/-!
# File inventories

Every regular file of a package with its size, its digest and its kind, the largest one first and
files of one size in the order of their paths.
-/
namespace SizeSurvey

structure InventoryEntry where
  path : String
  size : Size
  digest : String
  category : FileCategory
deriving DecidableEq, Repr

structure Inventory where
  archiveFile : Option String
  archiveSize : Option Size
  totalBytes : Size
  files : List InventoryEntry
  topEntries : List InventoryEntry
  bytesByCategory : NameMap Size

namespace InventoryEntry

def digestText (octets : List UInt8) : String :=
  String.ofList ((Sha256.digest octets).flatMap Text.hexOctet)

def ofVisited (visited : Visited) : InventoryEntry :=
  let path := String.ofList (Text.join ['/'] (visited.relative.map String.toList))
  { path
    size := visited.size
    digest := digestText visited.octets
    category := .ofPath path }

def notAfter (a b : InventoryEntry) : Bool :=
  b.size < a.size || (a.size == b.size && a.path ≤ b.path)

end InventoryEntry

namespace Inventory

/-- How many of the largest files are listed once more. -/
def topCount : Nat := 25

def categoryBytes (files : List InventoryEntry) : NameMap Size :=
  files.foldl (fun map file => map.update file.category.name 0 (· + file.size)) ∅

/-- The inventory of the files of a walk, for an archive with a name and a size. -/
def ofVisited (visited : List Visited) (archive : Option (Option String × Size)) : Inventory :=
  let files := (visited.map InventoryEntry.ofVisited).mergeSort InventoryEntry.notAfter
  { archiveFile := archive.bind Prod.fst
    archiveSize := archive.map Prod.snd
    totalBytes := (files.map (·.size)).foldl (· + ·) 0
    files
    topEntries := files.take topCount
    bytesByCategory := categoryBytes files }

def build (tree : Node) (root : String) (archive : Option String) : Except Fault Inventory := do
  let visited ← (tree.walk root).mapError Trouble.fault
  match archive with
  | none => return ofVisited visited none
  | some path =>
    let size ← (tree.size path).mapError Trouble.fault
    return ofVisited visited (some (Path.fileName? path, size))

def fileDigest (tree : Node) (path : String) : Except Fault String :=
  match tree.read path with
  | .ok octets => .ok (InventoryEntry.digestText octets)
  | .error trouble => .error trouble.fault

end Inventory

/-- The shared libraries below `root`, in the order of a walk. -/
def discover (tree : Node) (root : String) : Except Fault (List String) :=
  let visited := match tree.walk root with
    | .ok visited => visited
    | .error _ => []
  let libraries := visited.filter fun file =>
    hasSharedObjectSuffix (file.relative.getLast?.getD (Path.fileName root))
  if libraries.isEmpty then .error (.noLibraries root) else .ok (libraries.map (·.path))

end SizeSurvey
