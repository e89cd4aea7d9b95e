import SizeSurvey.Decimal.Reading
import SizeSurvey.Decimal.Writing
import SizeSurvey.Platform.Shell.Machine
import SizeSurvey.Platform.Shell.Number
/-!
# Escapes and formats

How `echo` and `printf` read their arguments: escapes after a backward slash, and directives after a
percent sign, which take the arguments one after the other.
-/
namespace SizeSurvey

namespace Decimal

def roundingMargin : Nat := 400

/-- The number `num * 10 ^ exponent / den` as a quotient. -/
def scaledRatio (num den : Nat) (exponent : Int) : Nat × Nat :=
  match exponent with
  | .ofNat e => (num * Nat.pow 10 e, den)
  | .negSucc e => (num, den * Nat.pow 10 (e + 1))

def leadingExponent (num den : Nat) : Int :=
  ((Nat.toDigits 10 (num * Nat.pow 10 roundingMargin / den)).length : Int) - 1 - roundingMargin

/-- So many digits after the leading one, as one number, and the exponent of the leading one. -/
def rounded (places : Nat) (x : Dyadic) : Nat × Int :=
  let (num, den) := Dyadic.ratio x.significand x.exponent
  if num = 0 then (0, 0)
  else
    let leading := leadingExponent num den
    let (num, den) := scaledRatio num den (places - leading)
    let digits := roundRatio num den
    if Nat.pow 10 (places + 1) ≤ digits then (digits / 10, leading + 1) else (digits, leading)

end Decimal

namespace Shell.Format

def octal (count : Nat) (text : List Char) : Char × List Char :=
  let digits := Numeral.digits Numeral.octalDigit? (text.take count)
  let value := (Text.readDigits 8 Numeral.octalDigit? digits 0).getD 0
  (Char.ofNat (value % 256), text.drop digits.length)

def escape (text : List Char) : Char × List Char :=
  match text with
  | '\\' :: rest => ('\\', rest)
  | 'a' :: rest => ('\x07', rest)
  | 'b' :: rest => ('\x08', rest)
  | 'e' :: rest => ('\x1b', rest)
  | 'f' :: rest => ('\x0c', rest)
  | 'n' :: rest => ('\n', rest)
  | 'r' :: rest => ('\r', rest)
  | 't' :: rest => ('\t', rest)
  | 'v' :: rest => ('\x0b', rest)
  | c :: _ => if (Numeral.octalDigit? c).isSome then octal 3 text else ('\\', text)
  | [] => ('\\', [])

/-- A text with its escapes replaced, and whether one of them ends all output. -/
def unescape : Nat → List Char → List Char × Bool
  | 0, _ => ([], false)
  | fuel + 1, text =>
    match text with
    | [] => ([], false)
    | '\\' :: 'c' :: _ => ([], true)
    | '\\' :: rest =>
      let rest := match rest with
        | '0' :: c :: more => if (Numeral.octalDigit? c).isSome then c :: more else rest
        | _ => rest
      let (c, rest) := escape rest
      let (text, ended) := unescape fuel rest
      (c :: text, ended)
    | c :: rest =>
      let (text, ended) := unescape fuel rest
      (c :: text, ended)

def unescapeAll (text : List Char) : List Char × Bool :=
  unescape (text.length + 1) text

/-- What the echo of the shell writes: escapes count, and one option is known, for no line end. -/
def shellEcho (arguments : List (List Char)) : List Char :=
  let (ended, words) := match arguments with
    | ['-', 'n'] :: rest => (true, rest)
    | words => (false, words)
  let (text, stopped) := unescapeAll (List.intercalate [' '] words)
  if ended || stopped then text else text ++ ['\n']

def unescapeProgram : Nat → List Char → List Char × Bool
  | 0, _ => ([], false)
  | fuel + 1, text =>
    let join (c : Char) (rest : List Char) : List Char × Bool :=
      let (text, ended) := unescapeProgram fuel rest
      (c :: text, ended)
    match text with
    | [] => ([], false)
    | '\\' :: 'c' :: _ => ([], true)
    | '\\' :: 'x' :: rest =>
      let digits := Numeral.digits Text.hexDigit? (rest.take 2)
      if digits.isEmpty then join '\\' ('x' :: rest)
      else
        let value := (Text.readDigits 16 Text.hexDigit? digits 0).getD 0
        join (Char.ofNat value) (rest.drop digits.length)
    | '\\' :: '0' :: rest =>
      let (c, rest) := octal 3 rest
      join c rest
    | '\\' :: rest =>
      let (c, rest) := escape rest
      join c rest
    | c :: rest => join c rest

/-- Options of the echo program: whether the line ends, and whether escapes count. -/
def echoOptions (lineEnds escapes : Bool) : List (List Char) → Bool × Bool × List (List Char)
  | word@('-' :: letters) :: rest =>
    if !letters.isEmpty && letters.all fun c => c == 'n' || c == 'e' || c == 'E' then
      let escapes := letters.foldl (fun escapes c =>
        if c = 'e' then true else if c = 'E' then false else escapes) escapes
      echoOptions (lineEnds && !letters.contains 'n') escapes rest
    else (lineEnds, escapes, word :: rest)
  | words => (lineEnds, escapes, words)

def programEcho (arguments : List (List Char)) : List Char :=
  let (lineEnds, escapes, words) := echoOptions true false arguments
  let text := List.intercalate [' '] words
  let (text, stopped) := if escapes then unescapeProgram (text.length + 1) text else (text, false)
  if lineEnds && !stopped then text ++ ['\n'] else text

/-- A directive after its percent sign. -/
structure Directive where
  left : Bool := false
  zero : Bool := false
  plus : Bool := false
  space : Bool := false
  alternate : Bool := false
  width : Nat := 0
  precision : Option Nat := none
  letter : Char

namespace Directive

def padded (directive : Directive) (text : List Char) : List Char :=
  let fill := List.replicate (directive.width - text.length) ' '
  if directive.left then text ++ fill else fill ++ text

/-- A sign and digits, with zeros between them up to the width if they are asked for. -/
def filled (directive : Directive) (zeros : Bool) (sign digits : List Char) : List Char :=
  let count := if zeros && directive.zero && !directive.left then
      directive.width - sign.length - digits.length
    else 0
  directive.padded (sign ++ List.replicate count '0' ++ digits)

def whole (directive : Directive) (sign digits : List Char) : List Char :=
  match directive.precision with
  | some 0 => directive.padded (sign ++ if digits = ['0'] then [] else digits)
  | some precision =>
    directive.padded (sign ++ List.replicate (precision - digits.length) '0' ++ digits)
  | none => directive.filled true sign digits

def sign (directive : Directive) (negative : Bool) : List Char :=
  if negative then ['-'] else if directive.plus then ['+'] else if directive.space then [' ']
  else []

def exponential (directive : Directive) (places : Nat) (keepsZeros : Bool) (x : Dyadic) :
    List Char :=
  let (digits, exponent) := Decimal.rounded places x
  let digits := Nat.toDigits 10 digits
  let digits := digits ++ List.replicate (places + 1 - digits.length) '0'
  let fraction := digits.tail
  let fraction := if keepsZeros then fraction
    else (fraction.reverse.dropWhile (· = '0')).reverse
  let point := if fraction.isEmpty && !directive.alternate then [] else ['.']
  let size := Nat.toDigits 10 exponent.natAbs
  let size := List.replicate (2 - size.length) '0' ++ size
  digits.take 1 ++ point ++ fraction ++ 'e' :: (if exponent < 0 then '-' else '+') :: size

def positional (directive : Directive) (places : Nat) (keepsZeros : Bool) (x : Dyadic) :
    List Char :=
  let (num, den) := Dyadic.ratio x.significand x.exponent
  let scaled := Decimal.roundRatio (num * Nat.pow 10 places) den
  let fraction := Nat.toDigits 10 (scaled % Nat.pow 10 places)
  let fraction := if places = 0 then []
    else List.replicate (places - fraction.length) '0' ++ fraction
  let fraction := if keepsZeros then fraction
    else (fraction.reverse.dropWhile (· = '0')).reverse
  let point := if fraction.isEmpty && !directive.alternate then [] else ['.']
  Nat.toDigits 10 (scaled / Nat.pow 10 places) ++ point ++ fraction

def real (directive : Directive) (x : Float) : List Char :=
  let isUpper := directive.letter.isUpper
  let letter := directive.letter.toLower
  let raise (text : List Char) : List Char := if isUpper then text.map Char.toUpper else text
  match Dyadic.ofFloat? x with
  | none =>
    let negative := x < 0.0
    directive.filled false (directive.sign negative) (raise (if x.isNaN then ['n', 'a', 'n']
      else ['i', 'n', 'f']))
  | some value =>
    let places := directive.precision.getD 6
    let digits :=
      if letter = 'f' then directive.positional places true value
      else if letter = 'e' then directive.exponential places true value
      else
        let count := max places 1
        let (_, exponent) := Decimal.rounded (count - 1) value
        if exponent < -4 ∨ (count : Int) ≤ exponent then
          directive.exponential (count - 1) directive.alternate value
        else
          directive.positional ((count : Int) - 1 - exponent).toNat directive.alternate value
    directive.filled true (directive.sign value.negative) (raise digits)

end Directive

/-- What came of an argument: a value, what is said about it, and whether it was read in full. -/
structure Argument (α : Type) where
  value : α
  complaint : Option String := none

def leftOver (word rest : List Char) : Option String :=
  if rest.isEmpty then none
  else if rest.length = word.length then some (nameOf word ++ ": expected numeric value")
  else some (nameOf word ++ ": not completely converted")

def ofNumeral (word : List Char) (numeral : Numeral) : Argument Int :=
  let range := if numeral.cut then some (nameOf word ++ ": Numerical result out of range") else none
  ⟨numeral.value, (leftOver word numeral.rest).or range⟩

/-- The number that an argument stands for; a character after a quotation mark is a number. -/
def integer (isSigned : Bool) (word : List Char) : Argument Int :=
  match word with
  | '"' :: rest => ⟨(rest.headD '\x00').toNat, none⟩
  | '\'' :: rest => ⟨(rest.headD '\x00').toNat, none⟩
  | word =>
    ofNumeral word (if isSigned then Numeral.ofText true word else Numeral.unsignedOfText word)

def realPrefix? (text : List Char) : Option (Float × List Char) :=
  (List.range text.length).findSome? fun dropped =>
    let count := text.length - dropped
    (Decimal.read? (text.take count)).map fun x => (x, text.drop count)

def realNumber (word : List Char) : Argument Float :=
  match word with
  | '"' :: rest => ⟨(rest.headD '\x00').toNat.toFloat, none⟩
  | '\'' :: rest => ⟨(rest.headD '\x00').toNat.toFloat, none⟩
  | word =>
    match realPrefix? (word.dropWhile Numeral.isSpace) with
    | some (x, rest) => ⟨x, leftOver word rest⟩
    | none => ⟨0.0, leftOver word word⟩

/-- What a directive writes for an argument, whether it ends all output, and what is said. -/
def Directive.write (directive : Directive) (argument : Option (List Char)) :
    Option (List Char × Bool × Option String) :=
  let word := argument.getD []
  let cut (text : List Char) : List Char :=
    match directive.precision with
    | some precision => text.take precision
    | none => text
  let unsigned (digits : Nat → List Char) : List Char × Bool × Option String :=
    let found := integer false word
    (directive.whole [] (digits found.value.toNat), false, found.complaint)
  match directive.letter with
  | 's' => some (directive.padded (cut word), false, none)
  | 'b' =>
    let (text, stopped) := unescapeAll word
    some (directive.padded (cut text), stopped, none)
  | 'c' => some (directive.padded [word.headD '\x00'], false, none)
  | 'd' | 'i' =>
    let found := integer true word
    some (directive.whole (directive.sign (found.value < 0)) (Nat.toDigits 10 found.value.natAbs),
      false, found.complaint)
  | 'u' => some (unsigned (Nat.toDigits 10))
  | 'o' =>
    some (unsigned fun n =>
      (if directive.alternate && n ≠ 0 then ['0'] else []) ++ Nat.toDigits 8 n)
  | 'x' | 'X' =>
    let found := integer false word
    let isUpper := directive.letter = 'X'
    let digits := Nat.toDigits 16 found.value.toNat
    let digits := if isUpper then digits.map Char.toUpper else digits
    let front := if directive.alternate && found.value ≠ 0 then
        (if isUpper then ['0', 'X'] else ['0', 'x'])
      else []
    some (directive.whole front digits, false, found.complaint)
  | 'f' | 'F' | 'e' | 'E' | 'g' | 'G' =>
    let found := realNumber word
    some (directive.real found.value, false, found.complaint)
  | _ => none

def flagged (directive : Directive) (flag : Char) : Directive :=
  match flag with
  | '-' => { directive with left := true }
  | '0' => { directive with zero := true }
  | '+' => { directive with plus := true }
  | ' ' => { directive with space := true }
  | _ => { directive with alternate := true }

def isFlag (c : Char) : Bool :=
  c == '-' || c == '0' || c == '+' || c == ' ' || c == '#'

def count (text : List Char) (arguments : List (List Char)) :
    Option Int × List Char × List (List Char) :=
  match text with
  | '*' :: rest => (some (integer true (arguments.headD [])).value, rest, arguments.tail)
  | text =>
    let digits := text.takeWhile Text.isDigit
    ((Text.readDecimal? digits).map Int.ofNat, text.drop digits.length, arguments)

/-- A directive after its percent sign, what follows it, and the arguments after its counts. -/
def directive? (text : List Char) (arguments : List (List Char)) :
    Option (Directive × List Char × List (List Char)) :=
  let flags := text.takeWhile isFlag
  let (width, text, arguments) := count (text.drop flags.length) arguments
  let (precision, text, arguments) := match text with
    | '.' :: rest =>
      let (precision, text, arguments) := count rest arguments
      (some (precision.getD 0), text, arguments)
    | text => (none, text, arguments)
  match text with
  | letter :: rest =>
    let initial : Directive :=
      { width := (width.getD 0).natAbs
        left := (width.getD 0) < 0
        precision := precision.bind fun n => if n < 0 then none else some n.toNat
        letter }
    some (flags.foldl flagged initial, rest, arguments)
  | [] => none

/-- What `printf` writes and says. -/
structure Printed where
  text : List Char := []
  complaints : List String := []
  broken : Option String := none

def Printed.append (first second : Printed) : Printed :=
  ⟨first.text ++ second.text, first.complaints ++ second.complaints, second.broken⟩

/-- What one pass over a format writes, the arguments that are left, and whether output has
ended. -/
def pass : Nat → List Char → List (List Char) → Printed × List (List Char) × Bool
  | 0, _, arguments => ({}, arguments, false)
  | fuel + 1, format, arguments =>
    let character (c : Char) (rest : List Char) : Printed × List (List Char) × Bool :=
      let (printed, after) := pass fuel rest arguments
      (Printed.append { text := [c] } printed, after)
    match format with
    | [] => ({}, arguments, false)
    | '%' :: '%' :: rest => character '%' rest
    | '%' :: rest =>
      match directive? rest arguments with
      | none => ({ broken := some "missing format character" }, [], true)
      | some (directive, after, arguments) =>
        match directive.write arguments.head? with
        | none =>
          let shown := '%' :: rest.take (rest.length - after.length)
          ({ broken := some (nameOf shown ++ ": invalid directive") }, [], true)
        | some (text, stopped, complaint) =>
          let written : Printed := { text, complaints := complaint.toList }
          if stopped then (written, [], true)
          else
            let (printed, left, ended) := pass fuel after arguments.tail
            (written.append printed, left, ended)
    | '\\' :: rest =>
      let (c, rest) := escape rest
      character c rest
    | c :: rest => character c rest

def printfFrom : Nat → List Char → List (List Char) → Printed
  | 0, _, _ => {}
  | fuel + 1, format, arguments =>
    let (printed, left, ended) := pass (format.length + 1) format arguments
    if ended || left.isEmpty || left.length = arguments.length then printed
    else printed.append (printfFrom fuel format left)

def printf (arguments : List (List Char)) : Printed :=
  let arguments := if arguments.head? = some ['-', '-'] then arguments.tail else arguments
  match arguments with
  | [] => { broken := some "usage: printf format [arg ...]" }
  | format :: arguments => printfFrom (arguments.length + 1) format arguments

end Shell.Format

end SizeSurvey
