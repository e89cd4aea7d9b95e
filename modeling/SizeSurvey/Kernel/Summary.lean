import SizeSurvey.Demangle.Basic
import SizeSurvey.Distribution.Histogram
import SizeSurvey.Distribution.Percentile
import SizeSurvey.Kernel.Family
import SizeSurvey.Kernel.Table
import SizeSurvey.Ranking.Tally
import SizeSurvey.Settings
/-!
# Summary of a kernel table

The kernels of a library: how many, how large, of which families, and which are the largest.
-/
namespace SizeSurvey

structure Kernel where
  offset : Size
  size : Size
  mangled : String
  demangled : String
  family : String
deriving DecidableEq, Repr

structure SizeSpread where
  least : Size
  median : Size
  p90 : Size
  p99 : Size
  greatest : Size
deriving DecidableEq, Repr

/-- Percentiles are interpolated and cut down to whole bytes. -/
def SizeSpread.ofSorted? (sorted : List Size) : Option SizeSpread := do
  let percentile (p : Float) : Option Size := (Percentile.interpolated sorted p).map Float.toUInt64
  return {
    least := ← sorted.head?
    median := ← percentile 0.5
    p90 := ← percentile 0.9
    p99 := ← percentile 0.99
    greatest := ← sorted.getLast? }

structure FamilySum where
  bytes : Size := 0
  count : Nat := 0
deriving DecidableEq, Repr

structure FamilyShare where
  family : String
  bytes : Size
  count : Nat
deriving DecidableEq, Repr

structure KernelSummary where
  count : Nat
  totalBytes : Size
  averageBytes : Float
  /-- Records and names before they were paired. -/
  recordCount : Nat
  nameCount : Nat
  spread : SizeSpread
  histogram : List Bucket
  topFamilies : List FamilyShare
  topKernels : List Kernel
  demangling : DemangleStatus
  pairing : PairingReport

namespace Kernel

def ofPair (pair : KernelRecord × String) (demangled : String) : Kernel where
  offset := pair.1.offset
  size := pair.1.size
  mangled := pair.2
  demangled := demangled
  family := KernelFamily.ofName demangled

/-- A name cut to so many characters, which an ellipsis then shows. -/
def cutName (budget : Nat) (name : String) : String :=
  if budget < name.length then String.ofList (name.toList.take budget) ++ "…" else name

end Kernel

namespace KernelSummary

/-- The bounds of the size histogram, from half a kibibyte up. -/
def buckets : List (Size × String) :=
  [(512, "≤0.5 KiB"), (1024, "≤1 KiB"), (2048, "≤2 KiB"), (4096, "≤4 KiB"), (8192, "≤8 KiB"),
    (16384, "≤16 KiB"), (32768, "≤32 KiB"), (65536, "≤64 KiB"), (131072, "≤128 KiB"),
    (262144, "≤256 KiB"), (524288, "≤512 KiB")]

def overflowBucket : String := ">512 KiB"

def familyTally (kernels : List Kernel) : Tally FamilySum :=
  kernels.foldl (fun tally kernel =>
    tally.update kernel.family {} fun sum => ⟨sum.bytes.plus kernel.size, sum.count + 1⟩) {}

def families (settings : KernelSettings) (kernels : List Kernel) : List FamilyShare :=
  ((familyTally kernels).ranked (·.bytes.toNat)
    (min settings.topLimit settings.familyLimit).toNat).map fun (family, sum) =>
      ⟨family, sum.bytes, sum.count⟩

/-- The largest kernels, in the order of the table among equal sizes. -/
def largest (settings : KernelSettings) (kernels : List Kernel) : List Kernel :=
  ((kernels.mergeSort fun a b => b.size ≤ a.size).take settings.topLimit.toNat).map fun kernel =>
    { kernel with demangled := Kernel.cutName settings.nameBudget.toNat kernel.demangled }

def ofKernels (settings : KernelSettings) (kernels : List Kernel) (demangling : DemangleStatus)
    (recordCount nameCount : Nat) (pairing : PairingReport) : KernelSummary :=
  let sizes := kernels.map (·.size)
  let sorted := sizes.mergeSort fun a b => a ≤ b
  let total := Size.total sorted
  { count := kernels.length
    totalBytes := total
    averageBytes := total.toFloat / (UInt64.ofNat kernels.length).toFloat
    recordCount
    nameCount
    spread := (SizeSpread.ofSorted? sorted).getD ⟨0, 0, 0, 0, 0⟩
    histogram := Histogram.ofSizes buckets overflowBucket sizes
    topFamilies := families settings kernels
    topKernels := largest settings kernels
    demangling
    pairing }

/-- The summary of a kernel table, or nothing when no record pairs with a name. -/
def decode {m : Type → Type} [Monad m] (demangle : Demangler m) (settings : KernelSettings)
    (image symbols : List UInt8) : m (Except Fault (Option KernelSummary)) := do
  let records := KernelRecord.decode image
  let names := kernelNames symbols
  let pairing := KernelPairing.of records names
  if settings.strictPairing && pairing.isMismatched then
    return .error (.pairingMismatch records.length names.length)
  else if pairing.pairs.isEmpty then
    return .ok none
  else
    let batch ← demangle (pairing.pairs.map fun pair => KernelFamily.identifier pair.2)
    let kernels := pairing.pairs.zipWith Kernel.ofPair batch.names
    return .ok (some (ofKernels settings kernels batch.status records.length names.length
      pairing.report))

end KernelSummary

inductive KernelOutcome where
  | decoded (summary : KernelSummary)
  | unavailable (reason : String)
  | noData
  | failed (error : String)

namespace KernelOutcome

def ofFault (fault : Fault) : KernelOutcome :=
  if fault.isUnavailable then unavailable fault.message else failed fault.message

def summary? : KernelOutcome → Option KernelSummary
  | decoded summary => some summary
  | _ => none

/-- The outcome for the two sections as they were read; a fault of the image section comes first. -/
def ofSections {m : Type → Type} [Monad m] (demangle : Demangler m) (settings : KernelSettings)
    (image symbols : Except Fault (Option (List UInt8))) : m KernelOutcome :=
  match image, symbols with
  | .error fault, _ => pure (ofFault fault)
  | .ok _, .error fault => pure (ofFault fault)
  | .ok (some image), .ok (some symbols) => do
    match ← KernelSummary.decode demangle settings image symbols with
    | .ok (some summary) => return decoded summary
    | .ok none => return noData
    | .error fault => return ofFault fault
  | .ok _, .ok _ => pure noData

end KernelOutcome

end SizeSurvey
