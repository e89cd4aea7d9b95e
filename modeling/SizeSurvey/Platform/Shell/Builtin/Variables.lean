import SizeSurvey.Platform.Shell.Builtin.Options
import SizeSurvey.Platform.Shell.Expansion
/-!
# Commands about variables

Commands of the shell that set variables, arguments and settings, and that read texts into variables.
-/
namespace SizeSurvey.Shell.Builtin

def declared (word : List Char) : List Char × Option (List Char) :=
  let name := word.takeWhile (· ≠ '=')
  match word.drop name.length with
  | _ :: value => (name, some value)
  | [] => (name, none)

def checkName (name : List Char) : Act Unit := do
  if !Expansion.isName name then Act.fail (nameOf name ++ ": bad variable name")

def listing (front : String) (bindings : List (List Char × Variable)) : List Char :=
  let sorted := bindings.mergeSort fun a b => !List.lex b.1 a.1 fun c d => c < d
  sorted.flatMap fun (name, found) =>
    let front := front.toList ++ (if front.isEmpty then [] else [' '])
    match found.value with
    | some value => front ++ name ++ ['='] ++ quoted value ++ ['\n']
    | none => if front.isEmpty then [] else front ++ name ++ ['\n']

def declare (front : String) (isMarked : Variable → Bool) (mark : Variable → Variable)
    (words : List (List Char)) : Act Nat := do
  let (chosen, operands) ← options "p" "" words
  if operands.isEmpty ∨ !chosen.isEmpty then
    Act.write (listing front ((← Act.session).bindings.filter fun entry => isMarked entry.2))
    return 0
  else
    for word in operands do
      let (name, value) := declared word
      checkName name
      match value with
      | some value => Act.assign name value
      | none => pure ()
      Act.changeSession (·.change name mark)
    return 0

def export_ : List (List Char) → Act Nat :=
  declare "export" Variable.exported fun before => { before with exported := true }

def readonly_ : List (List Char) → Act Nat :=
  declare "readonly" Variable.readOnly fun before => { before with readOnly := true }

def local_ (words : List (List Char)) : Act Nat := do
  if (← Act.session).calls = 0 then Act.fail "not in a function"
  else
    for word in ← operands words do
      let (name, value) := declared word
      if word ≠ ['-'] then
        checkName name
        Act.changeSession (·.keep name)
        match value with
        | some value => Act.assign name value
        | none => pure ()
    return 0

def unset (words : List (List Char)) : Act Nat := do
  let (chosen, names) ← options "fv" "" words
  let isFunction := (chosen.getLast?.map Prod.fst) = some 'f'
  for name in names do
    if isFunction then
      Act.changeSession fun session =>
        { session with functions := session.functions.filter (·.name ≠ name) }
    else
      checkName name
      if (← Act.session).isReadOnly name then Act.fail (nameOf name ++ ": is read only")
      Act.changeSession (·.put name none)
  return 0

def settingsTable (session : Session) : List Char :=
  "Current option settings\n".toList ++ Session.allSettings.flatMap fun (name, _) =>
    (name ++ String.ofList (List.replicate (16 - name.length) ' ')
      ++ (if session.isSet name then "on" else "off") ++ "\n").toList

def settingsCommands (session : Session) : List Char :=
  Session.allSettings.flatMap fun (name, _) =>
    ("set " ++ (if session.isSet name then "-o " else "+o ") ++ name ++ "\n").toList

/-- Turns on or off the settings of some letters, one of which takes the next word as a name. -/
def setLetters (on : Bool) (rest : List (List Char)) : List Char → Act (List (List Char))
  | [] => return rest
  | 'o' :: letters => do
    match rest with
    | [] =>
      let session ← Act.session
      Act.write (if on then settingsTable session else settingsCommands session)
      setLetters on [] letters
    | name :: rest =>
      match Session.allSettings.find? fun setting => setting.1 = nameOf name with
      | some (setting, _) =>
        Act.changeSession (·.setTo setting on)
        setLetters on rest letters
      | none => Act.fail ("Illegal option -o " ++ nameOf name)
  | letter :: letters => do
    match Session.settingOf? letter with
    | some setting =>
      Act.changeSession (·.setTo setting on)
      setLetters on rest letters
    | none => Act.fail ("Illegal option -" ++ nameOf [letter])

def setWords : Nat → List (List Char) → Act Unit
  | 0, _ => pure ()
  | fuel + 1, words => do
    let replace (arguments : List (List Char)) : Act Unit :=
      Act.changeSession fun session =>
        { session with arguments, optionIndex := 1, optionPlace := none }
    match words with
    | [] => pure ()
    | ['-', '-'] :: rest => replace rest
    | ['-'] :: rest =>
      Act.changeSession fun session => (session.setTo "xtrace" false).setTo "verbose" false
      if !rest.isEmpty then replace rest
    | ('-' :: letters) :: rest => setWords fuel (← setLetters true rest letters)
    | ('+' :: letters) :: rest => setWords fuel (← setLetters false rest letters)
    | rest => replace rest

def set_ (words : List (List Char)) : Act Nat := do
  if words.isEmpty then Act.write (listing "" (← Act.session).bindings)
  else setWords (words.length + 1) words
  return 0

def shift (words : List (List Char)) : Act Nat := do
  let count ← match words with
    | [] => pure 1
    | word :: _ => number word
  let session ← Act.session
  if session.arguments.length < count then Act.fail "can't shift that many"
  else
    Act.changeSession fun session =>
      { session with
        arguments := session.arguments.drop count, optionIndex := 1, optionPlace := none }
    return 0

/-- What a look at the options of some words has found. -/
structure Found where
  letter : Char
  argument : Option (List Char)
  complaint : Option String := none
  index : Nat
  place : Option Nat
  isOver : Bool := false

/-- Whether a letter is among the options of a text, and whether it takes an argument. -/
def optionKind? (letter : Char) : List Char → Option Bool
  | [] => none
  | c :: ':' :: rest => if c = letter then some true else optionKind? letter rest
  | c :: rest => if c = letter then some false else optionKind? letter rest

/-- The next option among some words, of which `index` counts from one. `place` is how much of the
word before has been looked at. -/
def nextOption (known : List Char) (index : Nat) (place : Option Nat) (words : List (List Char)) :
    Found :=
  let isQuiet := known.head? = some ':'
  let inWord := match place, words[index - 2]? with
    | some place, some word => if 1 < index ∧ place < word.length then some (word.drop place, index)
      else none
    | _, _ => none
  let started : Option (List Char × Nat) ⊕ Nat := match inWord with
    | some found => .inl (some found)
    | none =>
      match words[index - 1]? with
      | some ['-', '-'] => .inr (index + 1)
      | some ('-' :: letter :: more) => .inl (some (letter :: more, index + 1))
      | _ => .inr index
  match started with
  | .inl (some (letter :: more, index)) =>
    let length := (words[index - 2]?.map List.length).getD 0
    let place := if more.isEmpty then none else some (length - more.length)
    match optionKind? letter (if isQuiet then known.tail else known) with
    | none =>
      if isQuiet then { letter := '?', argument := some [letter], index, place }
      else
        { letter := '?', argument := none, index, place
          complaint := some ("Illegal option -" ++ nameOf [letter]) }
    | some false => { letter, argument := some [], index, place }
    | some true =>
      if !more.isEmpty then { letter, argument := some more, index, place := none }
      else
        match words[index - 1]? with
        | some argument => { letter, argument := some argument, index := index + 1, place := none }
        | none =>
          if isQuiet then { letter := ':', argument := some [letter], index, place := none }
          else
            { letter := '?', argument := none, index, place := none
              complaint := some ("No arg for -" ++ nameOf [letter] ++ " option") }
  | .inr index => { letter := '?', argument := none, index, place := none, isOver := true }
  | _ => { letter := '?', argument := none, index, place := none, isOver := true }

def getopts (words : List (List Char)) : Act Nat := do
  match words with
  | known :: name :: rest =>
    let session ← Act.session
    let words := if rest.isEmpty then session.arguments else rest
    let found := nextOption known session.optionIndex session.optionPlace words
    match found.complaint with
    | some complaint => Act.say (octetsOf (complaint ++ "\n"))
    | none => pure ()
    if !found.isOver then
      match found.argument with
      | some argument => Act.assign "OPTARG".toList argument
      | none => Act.changeSession (·.put "OPTARG".toList none)
    Act.assign "OPTIND".toList (Nat.toDigits 10 found.index)
    checkName name
    Act.assign name [found.letter]
    Act.changeSession fun session =>
      { session with optionIndex := found.index, optionPlace := found.place }
    return if found.isOver then 1 else 0
  | _ => Act.fail "Usage: getopts optstring var [arg...]"

/-- A line that is read up to its end, with characters that a backward slash hides, and whether the
end was there. -/
structure ReadLine where
  chars : List (Char × Bool)
  used : Nat
  isEnded : Bool

/-- The line at the front of a text. Unless it is raw, a backward slash hides the next character and
joins lines. -/
def readLine (raw : Bool) : List Char → List (Char × Bool) → Nat → ReadLine
  | [], done, used => ⟨done.reverse, used, false⟩
  | '\n' :: _, done, used => ⟨done.reverse, used + 1, true⟩
  | '\x00' :: rest, done, used => readLine raw rest done (used + 1)
  | '\\' :: rest, done, used =>
    if raw then readLine raw rest (('\\', false) :: done) (used + 1)
    else
      match rest with
      | '\n' :: rest => readLine raw rest done (used + 2)
      | c :: rest => readLine raw rest ((c, true) :: done) (used + 2)
      | [] => ⟨done.reverse, used + 1, false⟩
  | c :: rest, done, used => readLine raw rest ((c, false) :: done) (used + 1)

/-- The last field of a line, after the other ones. It loses a separator at its end together with the
blanks around it, if there is but one. `blank` tells whether the separator before was blank, and
`kept` is how much is known to stay. -/
def lastField (isSeparator isBlank : Char → Bool) (done : List Char) (kept : Option Nat)
    (blank : Bool) : List (Char × Bool) → List Char
  | [] => (done.reverse).take (kept.getD done.length)
  | (c, hidden) :: rest =>
    let separates := !hidden && isSeparator c
    if separates && isBlank c then
      lastField isSeparator isBlank (c :: done) (some (kept.getD done.length)) blank rest
    else
      let kept := if separates && blank then kept else none
      lastField isSeparator isBlank (c :: done) kept false rest

/-- A last field up to the first separator, after which its end may be lost. -/
def lastFieldOf (isSeparator isBlank : Char → Bool) (chars : List (Char × Bool)) : List Char :=
  let plain := chars.takeWhile fun (c, hidden) => hidden || !isSeparator c
  match chars.drop plain.length with
  | [] => plain.map Prod.fst
  | (c, _) :: rest =>
    lastField isSeparator isBlank (c :: (plain.map Prod.fst).reverse) (some plain.length)
      (isBlank c) rest

def readFields (isSeparator isBlank : Char → Bool) : Nat → List (Char × Bool) → List (List Char)
  | 0, _ => []
  | count + 1, chars =>
    let separates (c : Char × Bool) : Bool := !c.2 && isSeparator c.1
    let blank (c : Char × Bool) : Bool := separates c && isBlank c.1
    let chars := chars.dropWhile blank
    if chars.isEmpty then []
    else if count = 0 then [lastFieldOf isSeparator isBlank chars]
    else
      let field := chars.takeWhile (!separates ·)
      let rest := chars.drop field.length
      let rest := match rest with
        | c :: rest =>
          if blank c then
            match rest.dropWhile blank with
            | d :: after => if separates d then after else d :: after
            | [] => []
          else rest
        | [] => []
      field.map Prod.fst :: readFields isSeparator isBlank count rest

def read_ (words : List (List Char)) : Act Nat := do
  let (chosen, names) ← options "r" "p" words
  if names.isEmpty then Act.fail "arg count"
  else
    let raw := chosen.any fun option => option.1 = 'r'
    let input := (← Act.ports).input
    match (← Act.machine).available input with
    | .error _ =>
      for name in names do
        checkName name
        Act.assign name []
      return 1
    | .ok (text, closes) =>
      let line := readLine raw text [] 0
      Act.changeMachine fun machine =>
        let machine := machine.consume input line.used
        if line.isEnded then machine else machine.waitUntil closes
      let separators := (← Act.session).fieldSeparators
      let fields := readFields separators.contains Fields.isBlank names.length line.chars
      for (name, index) in names.zipIdx do
        checkName name
        Act.assign name (fields[index]?.getD [])
      return if line.isEnded then 0 else 1

end SizeSurvey.Shell.Builtin
