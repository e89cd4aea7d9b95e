/-!
# SHA-256

The message is padded to blocks of 64 octets, each block is expanded into 64 words, and the words
are mixed into the eight words of the state.
-/
namespace SizeSurvey.Sha256

def roundWords : List UInt32 :=
  [0x428a2f98, 0x71374491, 0xb5c0fbcf, 0xe9b5dba5, 0x3956c25b, 0x59f111f1, 0x923f82a4, 0xab1c5ed5,
    0xd807aa98, 0x12835b01, 0x243185be, 0x550c7dc3, 0x72be5d74, 0x80deb1fe, 0x9bdc06a7, 0xc19bf174,
    0xe49b69c1, 0xefbe4786, 0x0fc19dc6, 0x240ca1cc, 0x2de92c6f, 0x4a7484aa, 0x5cb0a9dc, 0x76f988da,
    0x983e5152, 0xa831c66d, 0xb00327c8, 0xbf597fc7, 0xc6e00bf3, 0xd5a79147, 0x06ca6351, 0x14292967,
    0x27b70a85, 0x2e1b2138, 0x4d2c6dfc, 0x53380d13, 0x650a7354, 0x766a0abb, 0x81c2c92e, 0x92722c85,
    0xa2bfe8a1, 0xa81a664b, 0xc24b8b70, 0xc76c51a3, 0xd192e819, 0xd6990624, 0xf40e3585, 0x106aa070,
    0x19a4c116, 0x1e376c08, 0x2748774c, 0x34b0bcb5, 0x391c0cb3, 0x4ed8aa4a, 0x5b9cca4f, 0x682e6ff3,
    0x748f82ee, 0x78a5636f, 0x84c87814, 0x8cc70208, 0x90befffa, 0xa4506ceb, 0xbef9a3f7, 0xc67178f2]

structure State where
  a : UInt32
  b : UInt32
  c : UInt32
  d : UInt32
  e : UInt32
  f : UInt32
  g : UInt32
  h : UInt32

namespace State

def initial : State :=
  ⟨0x6a09e667, 0xbb67ae85, 0x3c6ef372, 0xa54ff53a, 0x510e527f, 0x9b05688c, 0x1f83d9ab, 0x5be0cd19⟩

def add (s t : State) : State :=
  ⟨s.a + t.a, s.b + t.b, s.c + t.c, s.d + t.d, s.e + t.e, s.f + t.f, s.g + t.g, s.h + t.h⟩

def words (s : State) : List UInt32 :=
  [s.a, s.b, s.c, s.d, s.e, s.f, s.g, s.h]

end State

def rotate (x : UInt32) (n : UInt32) : UInt32 :=
  (x >>> n) ||| (x <<< (32 - n))

def round (s : State) (word : UInt32) : State :=
  let mixE := rotate s.e 6 ^^^ rotate s.e 11 ^^^ rotate s.e 25
  let choice := (s.e &&& s.f) ^^^ ((~~~ s.e) &&& s.g)
  let first := s.h + mixE + choice + word
  let mixA := rotate s.a 2 ^^^ rotate s.a 13 ^^^ rotate s.a 22
  let majority := (s.a &&& s.b) ^^^ (s.a &&& s.c) ^^^ (s.b &&& s.c)
  ⟨first + mixA + majority, s.a, s.b, s.c, s.d + first, s.e, s.f, s.g⟩

/-- The word after the last sixteen words of a schedule, which come last first. -/
def nextWord (recent : List UInt32) : UInt32 :=
  let back (n : Nat) : UInt32 := recent.getD (n - 1) 0
  let x := back 15
  let y := back 2
  let low := rotate x 7 ^^^ rotate x 18 ^^^ (x >>> 3)
  let high := rotate y 17 ^^^ rotate y 19 ^^^ (y >>> 10)
  back 16 + low + back 7 + high

/-- Adds words to a schedule, which comes last first. -/
def extend : Nat → List UInt32 → List UInt32
  | 0, recent => recent
  | n + 1, recent => extend n (nextWord recent :: recent)

def schedule (block : List UInt32) : List UInt32 :=
  (extend 48 block.reverse).reverse

def compress (s : State) (block : List UInt32) : State :=
  s.add ((List.zipWith (· + ·) roundWords (schedule block)).foldl round s)

/-- The lowest octets of a number, the high one first. -/
def bigEndian (count n : Nat) : List UInt8 :=
  ((List.range count).map fun i => UInt8.ofNat (n / Nat.pow 256 i)).reverse

/-- One octet after the message, zeros up to a whole block, and the length of the message in bits.
-/
def padding (length : Nat) : List UInt8 :=
  0x80 :: List.replicate ((119 - length % 64) % 64) 0 ++ bigEndian 8 (8 * length)

def word (octets : List UInt8) : UInt32 :=
  octets.foldl (fun high octet => high <<< 8 ||| octet.toUInt32) 0

/-- The octets hashed so far, and those of a block that is not complete, last first. -/
structure Progress where
  state : State := .initial
  pending : List UInt8 := []
  count : Nat := 0

def blockWords : Nat → List UInt8 → List UInt32
  | 0, _ => []
  | n + 1, octets => word (octets.take 4) :: blockWords n (octets.drop 4)

def Progress.push (progress : Progress) (octet : UInt8) : Progress :=
  if progress.count = 63 then
    { state := compress progress.state (blockWords 16 (octet :: progress.pending).reverse) }
  else { progress with pending := octet :: progress.pending, count := progress.count + 1 }

def digest (message : List UInt8) : List UInt8 :=
  let final := (message ++ padding message.length).foldl Progress.push {}
  final.state.words.flatMap fun w => bigEndian 4 w.toNat

end SizeSurvey.Sha256
