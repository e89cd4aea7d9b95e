import SizeSurvey.Platform.Shell.Builtin.Options
import SizeSurvey.Platform.Shell.Surroundings
/-!
# Commands about places

Commands of the shell that change its directory and tell what it is, and the mask of new files.
-/
namespace SizeSurvey.Shell.Builtin

/-- An absolute path without steps that lead back. Two slashes in front are kept. -/
def normalized (path : String) : String :=
  let front := if path.toList.take 2 = ['/', '/'] ∧ path.toList.take 3 ≠ ['/', '/', '/'] then "//"
    else "/"
  front ++ "/".intercalate (Ports.steps path)

def absolute (ports : Ports) (path : String) : String :=
  if path.toList.head? = some '/' then normalized path
  else normalized (ports.absoluteDirectory ++ "/" ++ path)

def physical (session : Session) (machine : Machine) (path : String) : String :=
  let path := session.ports.resolve path
  if path.toList.head? = some '/' then path
  else
    match machine.tree.locate true path with
    | .ok place => "/".intercalate (Ports.rootPath :: place)
    | .error _ => path

def isDirectory (session : Session) (machine : Machine) (path : String) : Bool :=
  (Entry.ofPath? session.ports machine (octetsOf path) true).any Entry.isDirectory

def goTo (path : String) : Act Unit := do
  let session ← Act.session
  let before := octetsOf session.ports.absoluteDirectory
  let place := (Ports.below? path).getD path
  Act.setPorts { session.ports with directory := if place = "." then "" else place }
  Act.assign "OLDPWD".toList before
  Act.assign "PWD".toList (octetsOf path)

def searchedDirectories (session : Session) (path : List Char) : List String :=
  let isRelative := path.head? ≠ some '/' && path.head? ≠ some '.'
  match session.value? "CDPATH".toList with
  | some text =>
    if isRelative && !text.isEmpty then (Text.splitAt ':' text).map nameOf ++ [""] else [""]
  | none => [""]

def cd (words : List (List Char)) : Act Nat := do
  let (chosen, operands) ← options "LP" "" words
  let session ← Act.session
  let isPhysical := (chosen.getLast?.map Prod.fst) = some 'P'
  let home := session.value? "HOME".toList
  let (path, isBack) ← match operands with
    | ['-'] :: _ => pure (((session.value? "OLDPWD".toList).getD []), true)
    | path :: _ => pure (path, false)
    | [] => pure (home.getD [], false)
  if path.isEmpty then return 0
  else
    let machine ← Act.machine
    let candidates := (searchedDirectories session path).map fun directory =>
      let full := if directory = "" then nameOf path else directory ++ "/" ++ nameOf path
      (directory, if isPhysical then
          physical session machine full
        else absolute session.ports full)
    match candidates.find? fun candidate => isDirectory session machine candidate.2 with
    | some (directory, found) =>
      goTo found
      if isBack || directory ≠ "" then Act.writeLine (octetsOf found)
      return 0
    | none => Act.fail ("can't cd to " ++ nameOf path)

def pwd (words : List (List Char)) : Act Nat := do
  let (chosen, _) ← options "LP" "" words
  let session ← Act.session
  let path := session.ports.absoluteDirectory
  let machine ← Act.machine
  let isPhysical := (chosen.getLast?.map Prod.fst) = some 'P'
  Act.writeLine (octetsOf (if isPhysical then physical session machine path else path))
  return 0

def octalMask (mask : Nat) : List Char :=
  let digits := Nat.toDigits 8 mask
  List.replicate (4 - digits.length) '0' ++ digits

def allowed (bits : Nat) : List Char :=
  (if bits / 4 % 2 = 0 then ['r'] else []) ++ (if bits / 2 % 2 = 0 then ['w'] else [])
    ++ if bits % 2 = 0 then ['x'] else []

def symbolicMask (mask : Nat) : List Char :=
  "u=".toList ++ allowed (mask / 64) ++ ",g=".toList ++ allowed (mask / 8) ++ ",o=".toList
    ++ allowed mask

def userBits (letters : List Char) : Nat :=
  if letters.isEmpty ∨ letters.contains 'a' then 0o777
  else (if letters.contains 'u' then 0o700 else 0) + (if letters.contains 'g' then 0o70 else 0)
    + if letters.contains 'o' then 0o7 else 0

def permissionBits (letters : List Char) : Nat :=
  (if letters.contains 'r' then 0o444 else 0) + (if letters.contains 'w' then 0o222 else 0)
    + if letters.contains 'x' then 0o111 else 0

def permitted? (bits : Nat) (clause : List Char) : Option Nat :=
  let users := clause.takeWhile fun c => c == 'u' || c == 'g' || c == 'o' || c == 'a'
  match clause.drop users.length with
  | operator :: letters =>
    if letters.all fun c => c == 'r' || c == 'w' || c == 'x' then
      let mine := userBits users
      let chosen := permissionBits letters &&& mine
      match operator with
      | '=' => some ((bits &&& (0o777 - mine)) ||| chosen)
      | '+' => some (bits ||| chosen)
      | '-' => some (bits &&& (0o777 - chosen))
      | _ => none
    else none
  | [] => none

def umask (words : List (List Char)) : Act Nat := do
  let (chosen, operands) ← options "S" "" words
  let session ← Act.session
  match operands with
  | [] =>
    Act.writeLine (if chosen.isEmpty then octalMask session.mask else symbolicMask session.mask)
    return 0
  | word :: _ =>
    if word.head?.any Text.isDigit then
      match Text.readDigits 8 Numeral.octalDigit? word 0 with
      | some mask =>
        if mask < 0o1000 then Act.changeSession fun session => { session with mask }
        else Act.fail ("Illegal number: " ++ nameOf word)
      | none => Act.fail ("Illegal number: " ++ nameOf word)
    else
      match (Text.splitAt ',' word).foldlM permitted? (0o777 - session.mask) with
      | some bits => Act.changeSession fun session => { session with mask := 0o777 - bits }
      | none => Act.fail ("Illegal mode: " ++ nameOf word)
    return 0

end SizeSurvey.Shell.Builtin
