import SizeSurvey.Platform.Shell.Machine
/-!
# What lies around the tree

Absolute paths that every machine has, although they are not in the tree: a few directories, devices,
and the programs that are installed.
-/
namespace SizeSurvey.Shell

inductive Surrounding where
  | directory
  | device
  | program
deriving DecidableEq, Repr

namespace Surrounding

def directories : List String :=
  ["/", "/bin", "/dev", "/etc", "/home", "/lib", "/opt", "/proc", "/root", "/sbin", "/tmp", "/usr",
    "/usr/bin", "/usr/lib", "/usr/local", "/usr/local/bin", "/usr/sbin", "/var", "/var/tmp"]

def devices : List String :=
  ["/dev/null", "/dev/zero", "/dev/full", "/dev/random", "/dev/urandom", "/dev/tty"]

def programDirectories : List String :=
  ["/usr/bin/", "/bin/"]

def programs : List String :=
  ["[", "basename", "bash", "cat", "cut", "dash", "dirname", "echo", "env", "false", "grep", "head",
    "ls", "mkdir", "printf", "pwd", "rev", "rm", "sed", "seq", "sh", "sleep", "sort", "tail", "tee",
    "test", "touch", "tr", "true", "uniq", "wc"]

def programName? (path : String) : Option String :=
  programDirectories.findSome? fun directory =>
    (Text.afterStart? directory.toList path.toList).map String.ofList

def ofPath? (path : String) : Option Surrounding :=
  if directories.contains path then some .directory
  else if devices.contains path then some .device
  else match programName? path with
    | some name => if programs.contains name then some .program else none
    | none => none

end Surrounding

/-- What tests of files look for. -/
structure Entry where
  isFile : Bool := false
  isDirectory : Bool := false
  isDevice : Bool := false
  isExecutable : Bool := false
  isEmpty : Bool := false
  isLink : Bool := false

namespace Entry

def ofNode : Node → Entry
  | .file octets executable =>
    { isFile := true, isExecutable := executable, isEmpty := octets.isEmpty }
  | .directory _ => { isDirectory := true, isExecutable := true }
  | .link _ => { isLink := true }

def ofSurrounding : Surrounding → Entry
  | .directory => { isDirectory := true, isExecutable := true }
  | .device => { isDevice := true, isEmpty := true }
  | .program => { isFile := true, isExecutable := true }

/-- What is at a path, in the tree or around it. A slash at the end asks for a directory. -/
def ofPath? (ports : Ports) (machine : Machine) (path : List Char) (follow : Bool) :
    Option Entry :=
  let name := ports.resolve (nameOf path)
  if name.toList.head? = some '/' then (Surrounding.ofPath? name).map ofSurrounding
  else
    match machine.tree.find name follow with
    | .ok node =>
      let entry := ofNode node
      if path.getLast? = some '/' && !entry.isDirectory then none else some entry
    | .error _ => none

end Entry

end SizeSurvey.Shell
