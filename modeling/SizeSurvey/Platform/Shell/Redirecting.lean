import SizeSurvey.Platform.Shell.Running
/-!
# Redirections

Before a command runs, its streams are led to files, to texts in the script, or to where other streams
lead. If that is not possible, the command is not run.
-/
namespace SizeSurvey.Shell.Redirecting

/-- Where a stream is to be led, all words being expanded. -/
inductive Target where
  | readFrom (path : List Char)
  | writeTo (path : List Char) (mode : Machine.Mode) (forced : Bool)
  | copyOf (stream : Nat)
  | closed
  | text (chars : List Char)

def streamOf (word : List Char) : Act Target := do
  match word with
  | ['-'] => return .closed
  | [c] =>
    match Text.digit? c with
    | some stream => return .copyOf stream
    | none => Act.fail "Syntax error: Bad fd number"
  | _ => Act.fail "Syntax error: Bad fd number"

def expand (run : Runner) (direction : Direction) : Act Target := do
  let text (word : Word) : Act (List Char) := Expansion.text (Running.output run) word
  match direction with
  | .readFrom path => return .readFrom (← text path)
  | .writeTo path forced => return .writeTo (← text path) .truncate forced
  | .appendTo path => return .writeTo (← text path) .append true
  | .readAndWrite path => return .writeTo (← text path) .update true
  | .copyOf stream => streamOf (← text stream)
  | .document index =>
    let word := ((← Act.session).documents.lookup index).getD []
    return .text (← text word)

def openComplaint (writing : Bool) (path : List Char) (trouble : Trouble) : String :=
  let reason := match trouble, writing with
    | .notFound, true => "Directory nonexistent"
    | .notFound, false => "No such file"
    | .notADirectory, true => "Directory nonexistent"
    | .notADirectory, false => "No such file"
    | trouble, _ => complaint trouble
  (if writing then "cannot create " else "cannot open ") ++ nameOf path ++ ": " ++ reason

def isKept (session : Session) (machine : Machine) (path : List Char) : Bool :=
  session.isSet "noclobber"
    && (machine.tree.find (session.ports.resolve (nameOf path))).toOption.any Node.isFile

def lead (stream : Nat) (target : Target) : Act Bool := do
  let session ← Act.session
  let ports := session.ports
  let machine ← Act.machine
  let use (found : Except Trouble (Stream × Machine)) (complaint : Trouble → String) :
      Act Bool := do
    match found with
    | .ok (found, machine) =>
      Act.setMachine machine
      Act.setPorts (ports.set stream found)
      return true
    | .error trouble =>
      Act.complain (complaint trouble)
      return false
  match target with
  | .readFrom path =>
    use (machine.openToRead ports (nameOf path)) (openComplaint false path)
  | .writeTo path mode forced =>
    if !forced && isKept session machine path then
      use (.error .exists) (openComplaint true path)
    else use (machine.openToWrite ports (nameOf path) mode) (openComplaint true path)
  | .copyOf source =>
    match ports.stream? source with
    | some found =>
      Act.setPorts (ports.set stream found)
      return true
    | none =>
      Act.complain (Text.decimal source ++ ": " ++ badDescriptor)
      return false
  | .closed =>
    Act.setPorts (ports.close stream)
    return true
  | .text chars =>
    let (index, machine) := machine.addSupply { pieces := [(0, chars)] }
    Act.setMachine machine
    Act.setPorts (ports.set stream (.supply index))
    return true

def leadAll : List (Nat × Target) → Act Bool
  | [] => return true
  | (stream, target) :: rest => do
    if ← lead stream target then leadAll rest else return false

def apply (run : Runner) (redirections : List Redirection) : Act Bool := do
  let targets ← redirections.mapM fun (redirection : Redirection) =>
    match redirection with
    | .mk stream direction => do
      let target ← expand run direction
      return (stream, target)
  leadAll targets

/-- Runs an action with its streams led elsewhere, and another one if that is not possible. -/
def within (run : Runner) (redirections : List Redirection) (failure act : Act Nat) : Act Nat := do
  let before := (← Act.ports).streams
  Act.afterwards (do if ← apply run redirections then act else failure)
    (Act.changeSession fun session =>
      { session with ports := { session.ports with streams := before } })

end SizeSurvey.Shell.Redirecting
