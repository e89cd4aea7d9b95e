import SizeSurvey.Text.Split
import SizeSurvey.Text.Utf8
import SizeSurvey.Tree.Basic
/-!
# Machines

The outside that programs run in: a file tree, the texts that they read and write, and a clock, which
is moved on by what takes time. What is written carries its time, so that the texts of programs that
run side by side can be put in order. In texts of programs each character stands for one octet.
-/
namespace SizeSurvey.Shell

def ofOctets (octets : List UInt8) : List Char :=
  octets.map fun octet => Char.ofNat octet.toNat

def toOctets (text : List Char) : List UInt8 :=
  text.map fun c => UInt8.ofNat c.toNat

def nameOf (text : List Char) : String :=
  String.ofList (Text.Utf8.decodeReplacing (toOctets text))

def octetsOf (name : String) : List Char :=
  ofOctets (Text.Utf8.encodeString name)

/-- What a stream of a program leads to. -/
inductive Stream where
  | supply (index : Nat)
  | channel (index : Nat)
  | file (index : Nat)
  | directory
  | nowhere
  | full
deriving DecidableEq, Repr

/-- A piece of what was written to a channel. -/
structure Written where
  time : Nat
  label : Nat
  text : List Char

structure Channel where
  pieces : List Written := []
  holders : List (Nat × Nat) := []

/-- A text that can be read bit by bit, each with the time from which on it is there. -/
structure Supply where
  pieces : List (Nat × List Char)
  closes : Nat := 0

/-- A file that was opened, and the place in it where reading or writing goes on. -/
structure OpenFile where
  place : List String
  offset : Nat := 0
  appends : Bool := false
  readable : Bool := false
  writable : Bool := false

/-- The streams of a program under their numbers, and its directory. -/
structure Ports where
  streams : List (Nat × Stream)
  directory : String := ""

inductive Ending where
  | exited (status : Nat)
  | signalled (signal : Nat)
  | unfinished
deriving DecidableEq, Repr

def Ending.status : Ending → Nat
  | exited status => status
  | signalled signal => 128 + signal
  | unfinished => 0

/-- A process that was left to itself. Its run is known from the start. -/
structure Task where
  process : Nat
  label : Nat
  finish : Nat
  ending : Ending
  ignored : List Nat

/-- How a process came about. -/
structure Launched where
  parent : Nat
  start : Nat

/-- A signal that a process has not looked at yet. -/
structure Sent where
  time : Nat
  process : Nat
  signal : Nat

def firstProcess : Nat := 4242

structure Machine where
  tree : Node
  channels : List Channel := []
  supplies : List Supply := []
  files : List OpenFile := []
  clock : Nat := 0
  deadline : Option Nat := none
  label : Nat := 0
  launched : List Launched := []
  lastProcess : Nat := firstProcess
  tasks : List Task := []
  pending : List Sent := []

def complaint : Trouble → String
  | .notFound => "No such file or directory"
  | .notADirectory => "Not a directory"
  | .isADirectory => "Is a directory"
  | .tooManyLinks => "Too many levels of symbolic links"
  | .exists => "File exists"
  | .denied => "Permission denied"

def badDescriptor : String := "Bad file descriptor"

def noSpace : String := "No space left on device"

namespace Ports

def stream? (ports : Ports) (number : Nat) : Option Stream :=
  ports.streams.lookup number

def close (ports : Ports) (number : Nat) : Ports :=
  { ports with streams := ports.streams.filter (·.1 ≠ number) }

def set (ports : Ports) (number : Nat) (stream : Stream) : Ports :=
  { ports with streams := (number, stream) :: (ports.close number).streams }

def input (ports : Ports) : Option Stream :=
  ports.stream? 0

def output (ports : Ports) : Option Stream :=
  ports.stream? 1

def error (ports : Ports) : Option Stream :=
  ports.stream? 2

def rootPath : String := "/tmp/survey"

def steps (path : String) : List String :=
  (Path.pieces path).foldl (fun (names : List String) piece =>
    if piece = "" ∨ piece = "." then names
    else if piece = ".." then names.dropLast
    else names ++ [piece]) []

def below? (path : String) : Option String :=
  match Text.afterStart? rootPath.toList path.toList with
  | some [] => some "."
  | some ('/' :: rest) => some (if rest.isEmpty then "." else String.ofList rest)
  | _ => none

def resolve (ports : Ports) (path : String) : String :=
  let full := if path.toList.head? ≠ some '/' ∧ ports.directory.toList.head? = some '/' then
      Path.child ports.directory path
    else path
  if path = "" then path
  else if full.toList.head? = some '/' then
    match below? full with
    | some place => place
    | none =>
      let direct := "/" ++ "/".intercalate (steps full)
      (below? direct).getD direct
  else Path.child ports.directory path

def absoluteDirectory (ports : Ports) : String :=
  if ports.directory.toList.head? = some '/' then ports.directory
  else if ports.directory = "" ∨ ports.directory = "." then rootPath
  else Path.child rootPath ports.directory

end Ports

namespace Machine

def isLate (machine : Machine) : Bool :=
  machine.deadline.any (· ≤ machine.clock)

def pass (machine : Machine) (microseconds : Nat) : Machine :=
  { machine with clock := machine.clock + microseconds }

def waitUntil (machine : Machine) (time : Nat) : Machine :=
  { machine with clock := max machine.clock time }

def newProcess (machine : Machine) : Nat × Machine :=
  (machine.lastProcess + 1, { machine with lastProcess := machine.lastProcess + 1 })

def addChannel (machine : Machine) : Nat × Machine :=
  (machine.channels.length, { machine with channels := machine.channels ++ [{}] })

def addSupply (machine : Machine) (supply : Supply) : Nat × Machine :=
  (machine.supplies.length, { machine with supplies := machine.supplies ++ [supply] })

def addFile (machine : Machine) (file : OpenFile) : Nat × Machine :=
  (machine.files.length, { machine with files := machine.files ++ [file] })

def channelPieces (machine : Machine) (index : Nat) : List Written :=
  let pieces := ((machine.channels[index]?.map Channel.pieces).getD []).reverse
  pieces.mergeSort fun a b => a.time ≤ b.time

def channelText (machine : Machine) (index : Nat) : List Char :=
  (machine.channelPieces index).flatMap Written.text

def openUntil (machine : Machine) (index : Nat) : Nat :=
  ((machine.channels[index]?.map Channel.holders).getD []).foldl (fun time holder =>
    max time holder.2) 0

def supplyOf (machine : Machine) (index : Nat) (closes : Nat) : Supply where
  pieces := (machine.channelPieces index).map fun piece => (piece.time, piece.text)
  closes := max closes (machine.openUntil index)

def launch (machine : Machine) : Nat × Machine :=
  (machine.launched.length + 1,
    { machine with launched := machine.launched ++ [⟨machine.label, machine.clock⟩] })

def hold (machine : Machine) (ports : Ports) : Machine :=
  let indices := ports.streams.filterMap fun (_, stream) =>
    match stream with
    | .channel index => some index
    | _ => none
  { machine with
    channels := indices.foldl (fun channels index =>
      channels.modify index fun channel =>
        { channel with holders := (machine.label, machine.clock) :: channel.holders })
      machine.channels }

/-- The processes that are never started if one of them ends at a time. -/
def neverStarted (machine : Machine) (label time : Nat) : List Nat :=
  (machine.launched.zipIdx 1).foldl (fun found (launched, child) =>
    if (launched.parent = label && time < launched.start) || found.contains launched.parent then
      child :: found
    else found) []

def endProcess (machine : Machine) (label time : Nat) : Machine :=
  let never := machine.neverStarted label time
  { machine with
    channels := machine.channels.map fun channel =>
      { pieces := channel.pieces.filter fun piece =>
          (piece.label ≠ label || piece.time ≤ time) && !never.contains piece.label
        holders := (channel.holders.filter fun holder => !never.contains holder.1).map fun holder =>
          if holder.1 = label then (label, min time holder.2) else holder } }

/-- Ends the processes that write to a channel after it was no longer read from. -/
def breakChannel (machine : Machine) (index time : Nat) : Machine :=
  (machine.channelPieces index).foldl (fun machine piece =>
    if time < piece.time then machine.endProcess piece.label piece.time else machine) machine

def octetsAt (machine : Machine) (place : List String) : List UInt8 :=
  match machine.tree.at? place with
  | some (.file octets _) => octets
  | _ => []

/-- All that can still be read from a stream, and the time when that is known. -/
def available (machine : Machine) (stream : Option Stream) : Except String (List Char × Nat) :=
  match stream with
  | none => .error badDescriptor
  | some (.supply index) =>
    match machine.supplies[index]? with
    | some supply => .ok (supply.pieces.flatMap Prod.snd, supply.closes)
    | none => .ok ([], 0)
  | some (.channel _) => .error badDescriptor
  | some (.file index) =>
    match machine.files[index]? with
    | some file =>
      if file.readable then
        .ok (ofOctets ((machine.octetsAt file.place).drop file.offset), 0)
      else .error badDescriptor
    | none => .error badDescriptor
  | some .directory => .error (complaint .isADirectory)
  | some .nowhere => .ok ([], 0)
  | some .full => .ok ([], 0)

/-- The pieces of a supply after so many characters, and the time when the last of those came. -/
def afterPieces (time : Nat) : Nat → List (Nat × List Char) → Nat × List (Nat × List Char)
  | _, [] => (time, [])
  | count, (since, text) :: rest =>
    if count = 0 then (time, (since, text) :: rest)
    else if count < text.length then (max time since, (since, text.drop count) :: rest)
    else afterPieces (max time since) (count - text.length) rest

/-- Takes so many characters from a stream, for which one may have to wait. -/
def consume (machine : Machine) (stream : Option Stream) (count : Nat) : Machine :=
  match stream with
  | some (.supply index) =>
    match machine.supplies[index]? with
    | some supply =>
      let (time, pieces) := afterPieces 0 count supply.pieces
      { machine.waitUntil time with
        supplies := machine.supplies.set index { supply with pieces } }
    | none => machine
  | some (.file index) =>
    { machine with
      files := machine.files.modify index fun file =>
        { file with offset := file.offset + count } }
  | _ => machine

def readAll (machine : Machine) (stream : Option Stream) :
    Except String (List Char × Machine) := do
  let (text, closes) ← machine.available stream
  return (text, (machine.consume stream text.length).waitUntil closes)

def pieces (machine : Machine) (stream : Option Stream) :
    Except String (List (Nat × List Char)) := do
  let (text, _) ← machine.available stream
  match stream with
  | some (.supply index) => return (machine.supplies[index]?.map Supply.pieces).getD []
  | _ => return if text.isEmpty then [] else [(machine.clock, text)]

def overwritten (octets : List UInt8) (offset : Nat) (text : List UInt8) : List UInt8 :=
  octets.take offset ++ List.replicate (offset - octets.length) 0 ++ text
    ++ octets.drop (offset + text.length)

def write (machine : Machine) (stream : Option Stream) (text : List Char) :
    Except String Machine :=
  match stream with
  | none => .error badDescriptor
  | some (.supply _) => .error badDescriptor
  | some .directory => .error badDescriptor
  | some .nowhere => .ok machine
  | some .full => if text.isEmpty then .ok machine else .error noSpace
  | some (.channel index) =>
    if text.isEmpty then .ok machine
    else .ok { machine with
      channels := machine.channels.modify index fun channel =>
        { channel with pieces := ⟨machine.clock, machine.label, text⟩ :: channel.pieces } }
  | some (.file index) =>
    match machine.files[index]? with
    | none => .error badDescriptor
    | some file =>
      if !file.writable then .error badDescriptor
      else
        let executable := match machine.tree.at? file.place with
          | some (.file _ executable) => executable
          | _ => false
        let octets := machine.octetsAt file.place
        let offset := if file.appends then octets.length else file.offset
        let added := toOctets text
        let octets := overwritten octets offset added
        .ok { machine with
          tree := machine.tree.put file.place (.file octets executable)
          files := machine.files.set index { file with offset := offset + added.length } }

def append (machine : Machine) (stream : Option Stream) (text : List Char) : Machine :=
  match machine.write stream text with
  | .ok machine => machine
  | .error _ => machine

/-- How a file is opened for writing. -/
inductive Mode where
  | truncate
  | append
  | update
deriving DecidableEq, Repr

def namedStream? (ports : Ports) (path : String) : Option (Option Stream) :=
  match path with
  | "/dev/null" => some (some .nowhere)
  | "/dev/full" => some (some .full)
  | "/dev/stdin" => some ports.input
  | "/dev/stdout" => some ports.output
  | "/dev/stderr" => some ports.error
  | "/dev/fd/0" => some ports.input
  | "/dev/fd/1" => some ports.output
  | "/dev/fd/2" => some ports.error
  | _ => none

def openToWrite (machine : Machine) (ports : Ports) (path : String) (mode : Mode) :
    Except Trouble (Stream × Machine) := do
  match namedStream? ports path with
  | some (some stream) => return (stream, machine)
  | some none => throw .notFound
  | none =>
    let isSlashed := path.toList.getLast? = some '/'
    let bare := String.ofList (path.toList.reverse.dropWhile (· = '/')).reverse
    let place ← machine.tree.locate true (ports.resolve (if isSlashed then bare else path))
    if isSlashed then throw .isADirectory
    let file : OpenFile :=
      { place, appends := mode = .append, readable := mode = .update, writable := true }
    match machine.tree.at? place with
    | some (.file octets executable) =>
      let kept := if mode = .truncate then [] else octets
      let (index, machine) := machine.addFile file
      return (.file index, { machine with tree := machine.tree.put place (.file kept executable) })
    | some _ => throw .isADirectory
    | none =>
      let (index, machine) := machine.addFile file
      return (.file index, { machine with tree := machine.tree.put place (.file [] false) })

def openToRead (machine : Machine) (ports : Ports) (path : String) :
    Except Trouble (Stream × Machine) := do
  match namedStream? ports path with
  | some (some stream) => return (stream, machine)
  | some none => throw .notFound
  | none =>
    let place ← machine.tree.locate true (ports.resolve path)
    match machine.tree.at? place with
    | some (.file _ _) =>
      if path.toList.getLast? = some '/' then throw .notADirectory
      let (index, machine) := machine.addFile { place, readable := true }
      return (.file index, machine)
    | some _ => return (.directory, machine)
    | none => throw .notFound

/-- The text of a path, reading of which may use up a stream of the program. -/
def readPath (machine : Machine) (ports : Ports) (path : String) :
    Except String (List Char × Machine) :=
  match machine.openToRead ports path with
  | .error trouble => .error (complaint trouble)
  | .ok (stream, machine) => machine.readAll (some stream)

def signal (machine : Machine) (process number : Nat) : Machine :=
  { machine with pending := machine.pending ++ [⟨machine.clock, process, number⟩] }

def reached (machine : Machine) (process : Nat) : List Nat × Machine :=
  let (found, others) := machine.pending.partition fun sent =>
    sent.process = process && sent.time ≤ machine.clock
  (found.map Sent.signal, { machine with pending := others })

def task? (machine : Machine) (process : Nat) : Option Task :=
  machine.tasks.find? fun task => task.process = process

/-- Ends a process that was left to itself by a signal, unless the signal is passed over. -/
def killTask (machine : Machine) (task : Task) (signal : Nat) : Machine :=
  if task.finish ≤ machine.clock ∨ task.ignored.contains signal then machine
  else
    let machine := machine.endProcess task.label machine.clock
    { machine with
      tasks := machine.tasks.map fun other =>
        if other.process = task.process then
          { other with finish := machine.clock, ending := .signalled signal }
        else other }

end Machine

end SizeSurvey.Shell
