import SizeSurvey.Platform.Shell.Token
/-!
# Reading scripts

Scripts are read by recursive descent, words and commands together, since a word can hold commands.
A text that a command announces with two signs starts on the next line, so the texts that are due
are remembered until the line ends.
-/
namespace SizeSurvey.Shell

namespace Read

/-- What a token is read for. -/
structure Looking where
  newLines : Bool := false
  keywords : Bool := false
  aliases : Bool := false
  mark : Bool := false

def Looking.atStart : Looking := { keywords := true, aliases := true }

def Looking.onward : Looking := { newLines := true, keywords := true, aliases := true }

inductive PlainEnd where
  | separator
  | mark
  | brace
deriving DecidableEq

inductive QuotedEnd where
  | quote
  | document
  | brace (inDocument : Bool)
deriving DecidableEq

/-- How much of a list is read. -/
inductive Extent where
  | line
  | block
  | open
deriving DecidableEq

def specialNames : List String :=
  [".", ":", "break", "continue", "eval", "exec", "exit", "export", "local", "readonly", "return",
    "set", "shift", "times", "trap", "unset"]

def singleQuoted : Read (List Char) := do
  let text ← rest
  let inner := text.takeWhile (· ≠ '\'')
  drop inner.length
  if inner.length = text.length then fail .unterminatedQuote
  else
    drop 1
    return inner

def upToBackQuote (quoted : Bool) : Nat → List Char → Read (List Char)
  | 0, _ => fail .missingBackQuote
  | fuel + 1, done => do
    match ← rest with
    | [] => fail .missingBackQuote
    | '\x60' :: _ =>
      drop 1
      return done.reverse
    | '\\' :: '\n' :: _ =>
      drop 2
      upToBackQuote quoted fuel done
    | '\\' :: c :: _ =>
      drop 2
      let hidden := c = '\\' ∨ c = '\x60' ∨ c = '$' ∨ (quoted ∧ c = '"')
      upToBackQuote quoted fuel (if hidden then c :: done else c :: '\\' :: done)
    | c :: _ =>
      drop 1
      upToBackQuote quoted fuel (c :: done)

/-- The signs of operators that follow a name in braces, with or without a colon. -/
def valueOperator? (c : Char) (emptyToo : Bool) : Option Operator :=
  match c with
  | '-' => some (.default emptyToo)
  | '=' => some (.assign emptyToo)
  | '?' => some (.demand emptyToo)
  | '+' => some (.alternative emptyToo)
  | _ => none

/-- The operator after a name in braces; `plain` is the closing brace itself. -/
def operator : Read Operator := do
  match ← peek with
  | none => return .unknown
  | some ':' =>
    take
    match ← peek with
    | none => return .unknown
    | some c =>
      take
      return (valueOperator? c true).getD .unknown
  | some '#' =>
    take
    return .withoutStart (← accept '#')
  | some '%' =>
    take
    return .withoutEnd (← accept '%')
  | some c =>
    take
    if c = '\x7d' then return .plain
    else return (valueOperator? c false).getD .unknown

def nameAndOperator : Read (List Char × Operator) := do
  let count := (← rest).length
  match ← peek with
  | none => return ([], .unknown)
  | some '\x7d' => return ([], .unknown)
  | some '#' =>
    take
    let before ← get
    match ← peek with
    | none => return (['#'], ← operator)
    | some c =>
      if isNameChar c then
        let name ← takeWhile (if isNameStart c then isNameChar else Text.isDigit) count []
        return (name, if (← peek) = some '\x7d' then .length else .unknown)
      else
        take
        if c ≠ '\x7d' ∧ (← peek) = some '\x7d' then
          return ([c], if isSpecial c then .length else .unknown)
        else
          set before
          return (['#'], ← operator)
  | some c =>
    if isNameStart c then return (← takeWhile isNameChar count [], ← operator)
    else if Text.isDigit c then return (← takeWhile Text.isDigit count [], ← operator)
    else
      take
      if isSpecial c then return ([c], ← operator) else return ([], .unknown)

mutual

/-- Pieces that are not quoted. Quotation marks leave an empty text behind, except around all
arguments, which may be none. -/
def plainPieces : Nat → PlainEnd → List Piece → Read (List Piece)
  | 0, _, _ => fail .tooDeep
  | fuel + 1, ends, done => do
    match ← peek with
    | none => if ends = .brace then fail .missingBrace else return done.reverse
    | some '\\' =>
      take
      match (← rest).head? with
      | none => plainPieces fuel ends (.text true ['\\'] :: done)
      | some c =>
        take
        plainPieces fuel ends (.text true [c] :: done)
    | some '\'' =>
      take
      let inner ← singleQuoted
      plainPieces fuel ends (.text true inner :: done)
    | some '"' =>
      take
      match ← quotedPieces fuel .quote false [] with
      | [.parameter true ['@'] .plain []] =>
        plainPieces fuel ends (.parameter true ['@'] .plain [] :: done)
      | inner => plainPieces fuel ends (inner.reverse ++ .text true [] :: done)
    | some c =>
      if ends = .brace && c = '\x7d' then
        take
        return done.reverse
      else if ends ≠ .brace && isSeparator c then return done.reverse
      else
        take
        let piece ←
          if c = '$' && ends ≠ .mark then dollar fuel false false
          else if c = '\x60' && ends ≠ .mark then backQuoted fuel false
          else pure (.text false [c])
        plainPieces fuel ends (piece :: done)

/-- Pieces that are quoted. Inside of braces `within` tells whether quotation marks are open. -/
def quotedPieces : Nat → QuotedEnd → Bool → List Piece → Read (List Piece)
  | 0, _, _, _ => fail .tooDeep
  | fuel + 1, ends, within, done => do
    let isBraced : Bool := match ends with
      | .brace _ => true
      | _ => false
    match ← peek with
    | none =>
      match ends with
      | .document => return done.reverse
      | .brace true => fail .missingBrace
      | _ => fail .unterminatedQuote
    | some '\\' =>
      take
      match (← rest).head? with
      | none => quotedPieces fuel ends within (.text true ['\\'] :: done)
      | some c =>
        take
        let hidden := c = '\\' ∨ c = '\x60' ∨ c = '$' ∨ (c = '"' ∧ ends ≠ .document)
          ∨ (c = '\x7d' ∧ isBraced)
        quotedPieces fuel ends within (.text true (if hidden then [c] else ['\\', c]) :: done)
    | some c =>
      take
      if c = '"' && ends = .quote then return done.reverse
      else if c = '"' && isBraced then quotedPieces fuel ends (!within) done
      else if c = '\x7d' && isBraced && !within then return done.reverse
      else
        let piece ←
          if c = '$' then dollar fuel true (ends = .document || ends = .brace true)
          else if c = '\x60' then backQuoted fuel true
          else pure (.text true [c])
        quotedPieces fuel ends within (piece :: done)

def expressionPieces : Nat → Nat → List Piece → Read (List Piece)
  | 0, _, _ => fail .tooDeep
  | fuel + 1, brackets, done => do
    match ← peek with
    | none => fail .missingArithmeticEnd
    | some '\\' =>
      take
      match (← rest).head? with
      | none => expressionPieces fuel brackets (.text true ['\\'] :: done)
      | some c =>
        take
        let hidden := c = '\\' ∨ c = '\x60' ∨ c = '$' ∨ c = '"'
        expressionPieces fuel brackets (.text true (if hidden then [c] else ['\\', c]) :: done)
    | some c =>
      take
      if c = ')' && brackets = 0 && (← peek) = some ')' then
        take
        return done.reverse
      else
        let brackets := if c = '(' then brackets + 1 else if c = ')' then brackets - 1 else brackets
        let piece ←
          if c = '$' then dollar fuel true false
          else if c = '\x60' then backQuoted fuel true
          else pure (.text true [c])
        expressionPieces fuel brackets (piece :: done)

def dollar : Nat → Bool → Bool → Read Piece
  | 0, _, _ => fail .tooDeep
  | fuel + 1, quoted, inDocument => do
    match ← peek with
    | some '(' =>
      take
      if ← accept '(' then
        return .arithmetic quoted (merged (← expressionPieces fuel 0 []))
      else
        let before := (← get).due
        modify fun state => { state with due := [] }
        let commands ← list fuel .open true []
        match ← token fuel {} with
        | .closeBracket =>
          modify fun state => { state with due := before ++ state.due }
          return .output quoted commands
        | found => unexpected found (some .closeBracket)
    | some '\x7b' =>
      take
      let (name, operator) ← nameAndOperator
      let operand ← match operator with
        | .plain => pure []
        | .withoutStart _ => plainPieces fuel .brace []
        | .withoutEnd _ => plainPieces fuel .brace []
        | _ =>
          if quoted then quotedPieces fuel (.brace inDocument) false []
          else plainPieces fuel .brace []
      return .parameter quoted name operator (merged operand)
    | some c =>
      if isNameStart c then
        return .parameter quoted (← takeWhile isNameChar ((← rest).length) []) .plain []
      else if Text.isDigit c || isSpecial c then
        take
        return .parameter quoted [c] .plain []
      else return .text quoted ['$']
    | none => return .text quoted ['$']

def backQuoted : Nat → Bool → Read Piece
  | 0, _ => fail .tooDeep
  | fuel + 1, quoted => do
    let inner ← upToBackQuote quoted ((← rest).length + 1) []
    let before ← get
    set { before with text := inner, due := [] }
    let commands ← list fuel .open true []
    modify fun state =>
      { state with text := before.text, line := before.line, pushed := none, due := before.due }
    return .output quoted commands

def dueDocuments : Nat → Read Unit
  | 0 => fail .tooDeep
  | fuel + 1 => do
    let state ← get
    match state.due with
    | [] => pure ()
    | due :: others =>
      let (text, after) := documentLines due false [] (state.text.length + 1) state.text
      let used := state.text.length - after.length
      let line := state.line + (state.text.take used).count '\n'
      let word : Word ←
        if due.verbatim then pure [.text true text]
        else do
          set { state with text, due := [] }
          pure (merged (← quotedPieces fuel .document false []))
      modify fun reading =>
        { reading with
          text := after
          line
          pushed := none
          due := others
          documents := (due.index, word) :: reading.documents }
      dueDocuments fuel

def token : Nat → Looking → Read Token
  | 0, _ => fail .tooDeep
  | fuel + 1, looking => do
    let state ← get
    let found ← match state.pushed with
      | some found =>
        set { state with pushed := none }
        pure found
      | none =>
        spaces
        match ← sign? with
        | some sign => pure sign
        | none =>
          let word := merged (← plainPieces fuel (if looking.mark then .mark else .separator) [])
          match ← redirection? word with
          | some found => pure found
          | none => pure (.word word)
    match found with
    | .newLine =>
      if looking.newLines then
        dueDocuments fuel
        token fuel looking
      else return found
    | .word word =>
      match word.plain? with
      | none => return found
      | some text =>
        match (if looking.keywords then Keyword.ofWord? text else none) with
        | some keyword => return .keyword keyword
        | none =>
          if looking.aliases || (← goesOn state.text.length) then
            match ← alias? text with
            | some value =>
              replace text value
              token fuel { looking with aliases := true }
            | none => return found
          else return found
    | found => return found

def list : Nat → Extent → Bool → List Command → Read (List Command)
  | 0, _, _, _ => fail .tooDeep
  | fuel + 1, extent, isFirst, done => do
    let looking := { Looking.atStart with newLines := extent ≠ .line }
    let next ← token fuel looking
    let push (found : Token) : Read Unit := modify fun state => { state with pushed := some found }
    match next with
    | .newLine =>
      dueDocuments fuel
      return done
    | .endOfFile =>
      dueDocuments fuel
      push .endOfFile
      return done
    | next =>
      push next
      if next.endsList && (extent = .open || (extent = .block && !isFirst)) then return done
      else
        let command ← linked fuel
        let after ← token fuel {}
        let command := match after with
          | .background => .background command
          | _ => command
        let done := done ++ [command]
        match after with
        | .endOfFile =>
          dueDocuments fuel
          push .endOfFile
          return done
        | .newLine =>
          push .newLine
          list fuel extent false done
        | .semicolon => list fuel extent false done
        | .background => list fuel extent false done
        | after =>
          if extent = .line then unexpected after
          else
            push after
            return done

def block : Nat → Read Command
  | 0 => fail .tooDeep
  | fuel + 1 => do
    match ← list fuel .block true [] with
    | [command] => return command
    | commands => return .sequence commands

def linked : Nat → Read Command
  | 0 => fail .tooDeep
  | fuel + 1 => do
    let first ← pipeline fuel {}
    links fuel first

def links : Nat → Command → Read Command
  | 0, _ => fail .tooDeep
  | fuel + 1, first => do
    match ← token fuel {} with
    | .both => links fuel (.linked first .both (← pipeline fuel .onward))
    | .either => links fuel (.linked first .either (← pipeline fuel .onward))
    | found =>
      modify fun state => { state with pushed := some found }
      return first

def pipeline : Nat → Looking → Read Command
  | 0, _ => fail .tooDeep
  | fuel + 1, looking => do
    match ← token fuel looking with
    | .keyword .negation =>
      let first ← command fuel Looking.atStart
      return .negated (← stages fuel first)
    | found =>
      modify fun state => { state with pushed := some found }
      let first ← command fuel {}
      stages fuel first

def stages : Nat → Command → Read Command
  | 0, _ => fail .tooDeep
  | fuel + 1, first => do
    match ← moreStages fuel with
    | [] => return first
    | others => return .pipeline (first :: others)

def moreStages : Nat → Read (List Command)
  | 0 => fail .tooDeep
  | fuel + 1 => do
    match ← token fuel {} with
    | .pipe =>
      let next ← command fuel .onward
      return next :: (← moreStages fuel)
    | found =>
      modify fun state => { state with pushed := some found }
      return []

def demand : Nat → Keyword → Looking → Read Unit
  | 0, _, _ => fail .tooDeep
  | fuel + 1, wanted, looking => do
    match ← token fuel looking with
    | .keyword found =>
      if found = wanted then pure () else unexpected (.keyword found) (some (.keyword wanted))
    | found => unexpected found (some (.keyword wanted))

def command : Nat → Looking → Read Command
  | 0, _ => fail .tooDeep
  | fuel + 1, looking => do
    let found ← token fuel looking
    let line := (← get).line
    match found with
    | .keyword .if =>
      let found ← choice fuel
      demand fuel .endIf {}
      withRedirections fuel line found
    | .keyword .while =>
      let condition ← block fuel
      demand fuel .do {}
      let body ← block fuel
      demand fuel .done {}
      withRedirections fuel line (.loop false condition body)
    | .keyword .until =>
      let condition ← block fuel
      demand fuel .do {}
      let body ← block fuel
      demand fuel .done {}
      withRedirections fuel line (.loop true condition body)
    | .keyword .for =>
      let name ← match ← token fuel {} with
        | .word word =>
          match word.plain? with
          | some name => if isName name then pure name else fail .badLoopName
          | none => fail .badLoopName
        | _ => fail .badLoopName
      let words ← match ← token fuel .onward with
        | .keyword .in => do pure (some (← wordList fuel []))
        | .semicolon => pure none
        | found =>
          modify fun state => { state with pushed := some found }
          pure none
      demand fuel .do .onward
      let body ← block fuel
      demand fuel .done {}
      withRedirections fuel line (.each line name words body)
    | .keyword .case =>
      match ← token fuel {} with
      | .word word =>
        demand fuel .in .onward
        withRedirections fuel line (.cases line word (← branches fuel))
      | found => unexpected found (some (.word []))
    | .openBracket =>
      let body ← block fuel
      match ← token fuel {} with
      | .closeBracket => return .subshell line body (← redirections fuel)
      | found => unexpected found (some .closeBracket)
    | .keyword .opening =>
      let body ← block fuel
      demand fuel .closing {}
      withRedirections fuel line body
    | .word _ =>
      modify fun state => { state with pushed := some found }
      simple fuel line [] [] []
    | .redirection _ _ =>
      modify fun state => { state with pushed := some found }
      simple fuel line [] [] []
    | found => unexpected found

/-- A choice after its first word and before its last one. -/
def choice : Nat → Read Command
  | 0 => fail .tooDeep
  | fuel + 1 => do
    let condition ← block fuel
    demand fuel .then {}
    let thenBranch ← block fuel
    match ← token fuel {} with
    | .keyword .elseIf => return .choice condition thenBranch (some (← choice fuel))
    | .keyword .else => return .choice condition thenBranch (some (← block fuel))
    | found =>
      modify fun state => { state with pushed := some found }
      return .choice condition thenBranch none

def wordList : Nat → List Word → Read (List Word)
  | 0, _ => fail .tooDeep
  | fuel + 1, done => do
    match ← token fuel {} with
    | .word word => wordList fuel (done ++ [word])
    | .newLine => return done
    | .semicolon => return done
    | found => unexpected found

def branches : Nat → Read (List (List Word × Command))
  | 0 => fail .tooDeep
  | fuel + 1 => do
    let looking : Looking := { newLines := true, keywords := true }
    match ← token fuel looking with
    | .keyword .endCase => return []
    | found =>
      let first ← match found with
        | .openBracket => token fuel {}
        | found => pure found
      let patterns ← patterns fuel first
      let commands ← list fuel .open true []
      let branch := (patterns, Command.sequence commands)
      match ← token fuel looking with
      | .keyword .endCase => return [branch]
      | .endBranch => return branch :: (← branches fuel)
      | found => unexpected found (some .endBranch)

/-- The patterns of a branch up to the closing bracket, the first of which has been read. -/
def patterns : Nat → Token → Read (List Word)
  | 0, _ => fail .tooDeep
  | fuel + 1, first => do
    let pattern : Word := match first with
      | .word word => word
      | .keyword keyword => [.text false keyword.word.toList]
      | _ => []
    match ← token fuel {} with
    | .pipe =>
      let next ← token fuel {}
      return pattern :: (← patterns fuel next)
    | .closeBracket => return [pattern]
    | found => unexpected found (some .closeBracket)

def redirection : Nat → Nat → Arrow → Read Redirection
  | 0, _, _ => fail .tooDeep
  | fuel + 1, stream, arrow => do
    let looking : Looking := match arrow with
      | .document _ => { mark := true }
      | _ => {}
    match ← token fuel looking with
    | .word word =>
      match arrow with
      | .read => return .mk stream (.readFrom word)
      | .write forced => return .mk stream (.writeTo word forced)
      | .append => return .mk stream (.appendTo word)
      | .readAndWrite => return .mk stream (.readAndWrite word)
      | .copy => return .mk stream (.copyOf word)
      | .document stripped =>
        let state ← get
        let due : Due := ⟨state.announced, word.literal, word.isQuoted, stripped⟩
        set { state with due := state.due ++ [due], announced := state.announced + 1 }
        return .mk stream (.document due.index)
    | found => unexpected found

def redirections : Nat → Read (List Redirection)
  | 0 => fail .tooDeep
  | fuel + 1 => do
    match ← token fuel Looking.atStart with
    | .redirection stream arrow =>
      let first ← redirection fuel stream arrow
      return first :: (← redirections fuel)
    | found =>
      modify fun state => { state with pushed := some found }
      return []

def withRedirections : Nat → Nat → Command → Read Command
  | 0, _, _ => fail .tooDeep
  | fuel + 1, line, command => do
    match ← redirections fuel with
    | [] => return command
    | found => return .redirected line command found

def simple : Nat → Nat → List (List Char × Word) → List Word → List Redirection → Read Command
  | 0, _, _, _, _ => fail .tooDeep
  | fuel + 1, line, assignments, words, found => do
    match ← token fuel { aliases := words.isEmpty } with
    | .word word =>
      match words, assignment? word with
      | [], some assignment => simple fuel line (assignments ++ [assignment]) words found
      | _, _ => simple fuel line assignments (words ++ [word]) found
    | .redirection stream arrow =>
      let redirection ← redirection fuel stream arrow
      simple fuel line assignments words (found ++ [redirection])
    | next =>
      match next, words with
      | .openBracket, [name] =>
        if assignments.isEmpty && found.isEmpty then
          match ← token fuel {} with
          | .closeBracket =>
            match name.plain? with
            | some name =>
              if isName name && !specialNames.contains (String.ofList name) then
                let line := (← get).line
                return .define line name (← command fuel .onward)
              else fail .badFunctionName
            | none => fail .badFunctionName
          | found => unexpected found (some .closeBracket)
        else
          modify fun state => { state with pushed := some next }
          return .simple line assignments words found
      | next, _ =>
        modify fun state => { state with pushed := some next }
        return .simple line assignments words found

end

end Read

def Reading.next (reading : Reading) : Except Mistake (Option (List Command) × Reading) :=
  let start := { reading with pushed := none, due := [] }
  match (Read.list (8 * reading.text.length + 64) .line true []).run start with
  | .error mistake => .error mistake
  | .ok (commands, after) =>
    match commands, after.pushed with
    | [], some .endOfFile => .ok (none, after)
    | commands, _ => .ok (some commands, after)

end SizeSurvey.Shell
