/-!
# UTF-8

Octets are read by a machine that holds at most one unfinished character. A run of octets that
could have begun a character and does not go on as one counts as a single fault, so reading gives a
sequence of characters and faults; the three readings below differ in what becomes of a fault.
-/
namespace SizeSurvey.Text.Utf8

/-- A character whose first octets have been read. -/
structure Begun where
  value : Nat
  missing : Nat
  low : UInt8
  high : UInt8

/-- Characters and faults, the last one first, and the character that is being read. -/
structure Machine where
  done : List (Option Char) := []
  begun : Option Begun := none

/-- An octet at which a character may start. -/
def Machine.start (done : List (Option Char)) (octet : UInt8) : Machine :=
  let n := octet.toNat
  let lead (value missing : Nat) (low high : UInt8) : Machine :=
    ⟨done, some ⟨value, missing, low, high⟩⟩
  if n < 0x80 then ⟨some (Char.ofNat n) :: done, none⟩
  else if n < 0xc2 then ⟨none :: done, none⟩
  else if n < 0xe0 then lead (n - 0xc0) 1 0x80 0xbf
  else if n = 0xe0 then lead 0 2 0xa0 0xbf
  else if n = 0xed then lead 13 2 0x80 0x9f
  else if n < 0xf0 then lead (n - 0xe0) 2 0x80 0xbf
  else if n = 0xf0 then lead 0 3 0x90 0xbf
  else if n < 0xf4 then lead (n - 0xf0) 3 0x80 0xbf
  else if n = 0xf4 then lead 4 3 0x80 0x8f
  else ⟨none :: done, none⟩

def Machine.step (machine : Machine) (octet : UInt8) : Machine :=
  match machine.begun with
  | none => Machine.start machine.done octet
  | some char =>
    if char.low ≤ octet ∧ octet ≤ char.high then
      let value := char.value * 64 + (octet.toNat - 0x80)
      if char.missing ≤ 1 then ⟨some (Char.ofNat value) :: machine.done, none⟩
      else ⟨machine.done, some ⟨value, char.missing - 1, 0x80, 0xbf⟩⟩
    else Machine.start (none :: machine.done) octet

/-- A character cut off by the end of the octets is a fault. -/
def Machine.finish (machine : Machine) : List (Option Char) :=
  (match machine.begun with
    | none => machine.done
    | some _ => none :: machine.done).reverse

/-- The characters of a sequence of octets, `none` for each fault. -/
def chars (octets : List UInt8) : List (Option Char) :=
  (octets.foldl Machine.step {}).finish

def decode? (octets : List UInt8) : Option (List Char) :=
  let read := chars octets
  if read.all Option.isSome then some (read.filterMap id) else none

/-- The text with U+FFFD in the place of each fault. -/
def decodeReplacing (octets : List UInt8) : List Char :=
  (chars octets).map fun c => c.getD (Char.ofNat 0xfffd)

def decodeSkipping (octets : List UInt8) : List Char :=
  (chars octets).filterMap id

def encode (text : List Char) : List UInt8 :=
  text.flatMap String.utf8EncodeChar

def decodeString? (octets : List UInt8) : Option String :=
  (decode? octets).map String.ofList

def encodeString (text : String) : List UInt8 :=
  encode text.toList

end SizeSurvey.Text.Utf8
