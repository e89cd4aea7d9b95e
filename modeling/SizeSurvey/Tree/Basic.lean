import SizeSurvey.Fault
import SizeSurvey.Size
import SizeSurvey.Tree.Path
/-!
# File trees

A tree of directories, files and symbolic links, and what can be done with it through paths. A path
is followed step by step, and a link on the way is replaced by its target. All paths start at the root
of the tree, absolute ones and others, and a step up from there stays there.
-/
namespace SizeSurvey

inductive Node where
  | file (octets : List UInt8) (executable : Bool)
  | directory (entries : List (String × Node))
  | link (target : String)
deriving Inhabited

inductive Trouble where
  | notFound
  | notADirectory
  | isADirectory
  | tooManyLinks
  | exists
  | denied
deriving DecidableEq, Repr

namespace Trouble

def message : Trouble → String
  | notFound => "No such file or directory (os error 2)"
  | notADirectory => "Not a directory (os error 20)"
  | isADirectory => "Is a directory (os error 21)"
  | tooManyLinks => "Too many levels of symbolic links (os error 40)"
  | .exists => "File exists (os error 17)"
  | denied => "Permission denied (os error 13)"

def fault (trouble : Trouble) : Fault :=
  .inputOutput trouble.message

end Trouble

namespace Node

def empty : Node := directory []

def child? (name : String) : Node → Option Node
  | directory entries => entries.lookup name
  | _ => none

def at? (node : Node) : List String → Option Node
  | [] => some node
  | name :: rest =>
    match node.child? name with
    | some child => child.at? rest
    | none => none

/-- Puts a node under a name among entries that are ordered by name. -/
def putEntry (name : String) (node : Node) : List (String × Node) → List (String × Node)
  | [] => [(name, node)]
  | entry :: rest =>
    if name < entry.1 then (name, node) :: entry :: rest
    else if name = entry.1 then (name, node) :: rest
    else entry :: putEntry name node rest

def entries : Node → List (String × Node)
  | directory entries => entries
  | _ => []

/-- Puts a node at a location; directories that are missing on the way are made. -/
def put (node : Node) (place : List String) (new : Node) : Node :=
  match place with
  | [] => new
  | name :: rest =>
    directory (putEntry name (put ((node.child? name).getD empty) rest new) node.entries)

def isDirectory : Node → Bool
  | directory _ => true
  | _ => false

def isFile : Node → Bool
  | file _ _ => true
  | _ => false

/-- How many links are followed on one path. -/
def mostLinks : Nat := 40

/-- Where the target of a link in the directory at `here` is followed from. -/
def linkStart (here : List String) (target : String) : List String :=
  if target.toList.head? = some '/' then [] else here

/-- The location that pieces of a path lead to from the directory at `here`. The last piece may be
missing. A link at the end is followed only if `follow` says so. -/
def locateFrom (root : Node) (follow : Bool) (links : Nat) (here : List String)
    (pieces : List String) : Except Trouble (List String) :=
  match pieces with
  | [] => .ok here
  | piece :: rest =>
    if piece = "" ∨ piece = "." then locateFrom root follow links here rest
    else if piece = ".." then locateFrom root follow links here.dropLast rest
    else
      let place := here ++ [piece]
      match root.at? place with
      | none => if rest.isEmpty then .ok place else .error .notFound
      | some (.directory _) => locateFrom root follow links place rest
      | some (.file _ _) => if rest.isEmpty then .ok place else .error .notADirectory
      | some (.link target) =>
        if rest.isEmpty && !follow then .ok place
        else match links with
          | 0 => .error .tooManyLinks
          | links + 1 =>
            locateFrom root follow links (linkStart here target) (Path.pieces target ++ rest)
termination_by (links, pieces.length)

def locate (root : Node) (follow : Bool) (path : String) : Except Trouble (List String) :=
  if path = "" then .error .notFound
  else locateFrom root follow mostLinks [] (Path.pieces path)

def find (root : Node) (path : String) (follow : Bool := true) : Except Trouble Node := do
  match root.at? (← root.locate follow path) with
  | some node => .ok node
  | none => .error .notFound

def read (root : Node) (path : String) : Except Trouble (List UInt8) := do
  match ← root.find path with
  | .file octets _ => .ok octets
  | _ => .error .isADirectory

def hasFile (root : Node) (path : String) : Bool :=
  match root.find path with
  | .ok node => node.isFile
  | .error _ => false

def hasDirectory (root : Node) (path : String) : Bool :=
  match root.find path with
  | .ok node => node.isDirectory
  | .error _ => false

/-- The size that a directory itself has. -/
def directorySize : Size := 4096

def size (root : Node) (path : String) : Except Trouble Size := do
  match ← root.find path with
  | .file octets _ => .ok (UInt64.ofNat octets.length)
  | _ => .ok directorySize

/-- Writes a file in an existing directory; a file that is there keeps its mode. -/
def write (root : Node) (path : String) (octets : List UInt8) : Except Trouble Node := do
  let place ← root.locate true path
  match root.at? place with
  | some (.file _ executable) => .ok (root.put place (.file octets executable))
  | some _ => .error .isADirectory
  | none => .ok (root.put place (.file octets false))

def makeDirectory (root : Node) (path : String) : Except Trouble Node := do
  let place ← root.locate false path
  match root.at? place with
  | some _ => .error .exists
  | none => .ok (root.put place empty)

/-- Makes a directory and those around it, outermost first, unless they are there. -/
def makeDirectories (root : Node) (path : String) : Except Trouble Node :=
  let steps := Path.steps path
  (List.range steps.length).foldlM (fun root n =>
    let directory := Path.ofSteps (steps.take (n + 1))
    if root.hasDirectory directory then .ok root else root.makeDirectory directory) root

end Node

end SizeSurvey
