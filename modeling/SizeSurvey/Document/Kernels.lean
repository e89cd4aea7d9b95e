import SizeSurvey.Document.Demangling
import SizeSurvey.Kernel.Summary
/-!
# Documents about kernels
-/
namespace SizeSurvey

open Json (Reader)

namespace Bucket

def toJson (bucket : Bucket) : Json :=
  .object [("bucket", .string bucket.label), ("count", .natural bucket.count)]

def reader : Reader Bucket :=
  .record ["bucket", "count"] fun fields => do
    return {
      label := ← fields.required .text "bucket"
      count := ← fields.required .count "count" }

end Bucket

namespace Kernel

def toJson (kernel : Kernel) : Json :=
  .object [("offset", .size kernel.offset), ("size", .size kernel.size),
    ("mangled", .string kernel.mangled), ("demangled", .string kernel.demangled),
    ("family", .string kernel.family)]

def reader : Reader Kernel :=
  .record ["offset", "size", "mangled", "demangled", "family"] fun fields => do
    return {
      offset := ← fields.required .size "offset"
      size := ← fields.required .size "size"
      mangled := ← fields.required .text "mangled"
      demangled := ← fields.required .text "demangled"
      family := ← fields.required .text "family" }

end Kernel

namespace SizeSpread

def toJson (spread : SizeSpread) : Json :=
  .object [("min", .size spread.least), ("median", .size spread.median), ("p90", .size spread.p90),
    ("p99", .size spread.p99), ("max", .size spread.greatest)]

def reader : Reader SizeSpread :=
  .record ["min", "median", "p90", "p99", "max"] fun fields => do
    return {
      least := ← fields.required .size "min"
      median := ← fields.required .size "median"
      p90 := ← fields.required .size "p90"
      p99 := ← fields.required .size "p99"
      greatest := ← fields.required .size "max" }

end SizeSpread

namespace FamilyShare

def toJson (share : FamilyShare) : Json :=
  .object [("family", .string share.family), ("bytes", .size share.bytes),
    ("count", .natural share.count)]

def reader : Reader FamilyShare :=
  .record ["family", "bytes", "count"] fun fields => do
    return {
      family := ← fields.required .text "family"
      bytes := ← fields.required .size "bytes"
      count := ← fields.required .count "count" }

end FamilyShare

namespace PairingReport

def toJson (report : PairingReport) : Json :=
  .object [("mismatch", .bool report.mismatch),
    ("unpaired_records", .natural report.unpairedRecords),
    ("unpaired_names", .natural report.unpairedNames)]

def reader : Reader PairingReport :=
  .record ["mismatch", "unpaired_records", "unpaired_names"] fun fields => do
    return {
      mismatch := ← fields.required .bool "mismatch"
      unpairedRecords := ← fields.required .count "unpaired_records"
      unpairedNames := ← fields.required .count "unpaired_names" }

end PairingReport

namespace KernelSummary

def members (summary : KernelSummary) : List (String × Json) :=
  [("entry_count", .natural summary.count), ("total_bytes", .size summary.totalBytes),
    ("average_bytes", .real summary.averageBytes),
    ("raw_entry_count", .natural summary.recordCount),
    ("raw_name_count", .natural summary.nameCount), ("size_stats", summary.spread.toJson),
    ("size_histogram", .list Bucket.toJson summary.histogram),
    ("top_families", .list FamilyShare.toJson summary.topFamilies),
    ("top_kernels", .list Kernel.toJson summary.topKernels),
    ("demangling", summary.demangling.toJson), ("pairing", summary.pairing.toJson)]

def toJson (summary : KernelSummary) : Json :=
  .object summary.members

def reader : Reader KernelSummary :=
  .record ["entry_count", "total_bytes", "average_bytes", "raw_entry_count", "raw_name_count",
      "size_stats", "size_histogram", "top_families", "top_kernels", "demangling", "pairing"]
    fun fields => do
      return {
        count := ← fields.required .count "entry_count"
        totalBytes := ← fields.required .size "total_bytes"
        averageBytes := ← fields.required .real "average_bytes"
        recordCount := ← fields.required .count "raw_entry_count"
        nameCount := ← fields.required .count "raw_name_count"
        spread := ← fields.required SizeSpread.reader "size_stats"
        histogram := ← fields.required (.list Bucket.reader) "size_histogram"
        topFamilies := ← fields.required (.list FamilyShare.reader) "top_families"
        topKernels := ← fields.required (.list Kernel.reader) "top_kernels"
        demangling := ← fields.required DemangleStatus.reader "demangling"
        pairing := ← fields.required PairingReport.reader "pairing" }

end KernelSummary

namespace KernelOutcome

def toJson : KernelOutcome → Json
  | decoded summary => .object (("status", .string "decoded") :: summary.members)
  | unavailable reason =>
    .object [("status", .string "unavailable"), ("reason", .string reason)]
  | noData => .object [("status", .string "no_data")]
  | failed error => .object [("status", .string "failed"), ("error", .string error)]

def reader : Reader KernelOutcome :=
  .tagged "status" ["decoded", "unavailable", "no_data", "failed"] fun variant =>
    match variant with
    | 0 => fun place value => (KernelSummary.reader place value).map decoded
    | 1 => .record ["reason"] fun fields => do
      return unavailable (← fields.required .text "reason")
    | 2 => .bare noData
    | _ => .record ["error"] fun fields => do return failed (← fields.required .text "error")

end KernelOutcome

end SizeSurvey
