import SizeSurvey.Json.Reader
import SizeSurvey.Overlap
/-!
# Documents about overlaps
-/
namespace SizeSurvey

open Json (Reader)

namespace SharedSymbol

def toJson (symbol : SharedSymbol) : Json :=
  .object [("name", .string symbol.name), ("size_a", .size symbol.sizeA),
    ("size_b", .size symbol.sizeB)]

def reader : Reader SharedSymbol :=
  .record ["name", "size_a", "size_b"] fun fields => do
    return {
      name := ← fields.required .text "name"
      sizeA := ← fields.required .size "size_a"
      sizeB := ← fields.required .size "size_b" }

end SharedSymbol

namespace SharedNamespace

def toJson (shared : SharedNamespace) : Json :=
  .object [("namespace", .string shared.namespace), ("count", .natural shared.count),
    ("size_a", .size shared.sizeA), ("size_b", .size shared.sizeB)]

def reader : Reader SharedNamespace :=
  .record ["namespace", "count", "size_a", "size_b"] fun fields => do
    return {
      «namespace» := ← fields.required .text "namespace"
      count := ← fields.required .count "count"
      sizeA := ← fields.required .size "size_a"
      sizeB := ← fields.required .size "size_b" }

end SharedNamespace

namespace PairOverlap

def toJson (pair : PairOverlap) : Json :=
  .object [("library_a", .string pair.libraryA), ("library_b", .string pair.libraryB),
    ("shared_count", .natural pair.sharedCount),
    ("top_symbols", .list SharedSymbol.toJson pair.topSymbols),
    ("top_namespaces", .list SharedNamespace.toJson pair.topNamespaces)]

def reader : Reader PairOverlap :=
  .record ["library_a", "library_b", "shared_count", "top_symbols", "top_namespaces"]
    fun fields => do
      return {
        libraryA := ← fields.required .text "library_a"
        libraryB := ← fields.required .text "library_b"
        sharedCount := ← fields.required .count "shared_count"
        topSymbols := ← fields.required (.list SharedSymbol.reader) "top_symbols"
        topNamespaces := ← fields.required (.list SharedNamespace.reader) "top_namespaces" }

end PairOverlap

namespace TripleOverlap

def toJson (triple : TripleOverlap) : Json :=
  .object [("shared_count", .natural triple.sharedCount),
    ("examples", .list .string triple.examples)]

def reader : Reader TripleOverlap :=
  .record ["shared_count", "examples"] fun fields => do
    return {
      sharedCount := ← fields.required .count "shared_count"
      examples := ← fields.required (.list .text) "examples" }

end TripleOverlap

namespace Overlap

def toJson (overlap : Overlap) : Json :=
  .object [("pairs", .list PairOverlap.toJson overlap.pairs),
    ("triple_overlap", .option TripleOverlap.toJson overlap.triple)]

def reader : Reader Overlap :=
  .record ["pairs", "triple_overlap"] fun fields => do
    return {
      pairs := ← fields.required (.list PairOverlap.reader) "pairs"
      triple := ← fields.optional TripleOverlap.reader "triple_overlap" }

end Overlap

end SizeSurvey
