import SizeSurvey.Size
import SizeSurvey.Text.Split
import SizeSurvey.Text.Utf8
/-!
# Tables of device kernels

One section of a library holds a record of sixteen octets for each kernel, its offset and its size
with the low octet first. Another one holds the names, each ended by a zero octet. Records and names
belong together in order, once records of size zero and empty names have been dropped.
-/
namespace SizeSurvey

structure KernelRecord where
  offset : Size
  size : Size
deriving DecidableEq, Repr

namespace KernelRecord

def stride : Nat := 16

/-- The number written by octets, the low one first. -/
def littleEndian (octets : List UInt8) : Nat :=
  octets.foldr (fun octet high => octet.toNat + 256 * high) 0

def ofOctets (octets : List UInt8) : KernelRecord where
  offset := UInt64.ofNat (littleEndian (octets.take 8))
  size := UInt64.ofNat (littleEndian ((octets.drop 8).take 8))

/-- All complete records; octets that are left over at the end do not count. -/
def all (octets : List UInt8) : List KernelRecord :=
  if octets.length < stride then []
  else ofOctets octets :: all (octets.drop stride)
termination_by octets.length
decreasing_by
  rw [List.length_drop]
  simp only [stride] at *
  omega

def decode (octets : List UInt8) : List KernelRecord :=
  (all octets).filter fun record => record.size ≠ 0

end KernelRecord

/-- The names of a name table. Octets that are no UTF-8 are left out of a name. -/
def kernelNames (octets : List UInt8) : List String :=
  (((Text.splitAt 0 octets).map Text.Utf8.decodeSkipping).filter fun name =>
    !name.isEmpty).map String.ofList

/-- Whether records and names are equally many, and what is left over of either. -/
structure PairingReport where
  mismatch : Bool
  unpairedRecords : Nat
  unpairedNames : Nat
deriving DecidableEq, Repr

structure KernelPairing where
  pairs : List (KernelRecord × String)
  unpairedRecords : Nat
  unpairedNames : Nat
deriving DecidableEq, Repr

namespace KernelPairing

def of (records : List KernelRecord) (names : List String) : KernelPairing where
  pairs := records.zip names
  unpairedRecords := records.length - names.length
  unpairedNames := names.length - records.length

def isMismatched (pairing : KernelPairing) : Bool :=
  0 < pairing.unpairedRecords || 0 < pairing.unpairedNames

def report (pairing : KernelPairing) : PairingReport :=
  ⟨pairing.isMismatched, pairing.unpairedRecords, pairing.unpairedNames⟩

end KernelPairing

end SizeSurvey
