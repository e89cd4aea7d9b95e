import SizeSurvey.Json.Reader
import SizeSurvey.Symbol.DynamicSummary
import SizeSurvey.Symbol.StaticSummary
/-!
# Documents about symbols
-/
namespace SizeSurvey

open Json (Reader)

/-- Sizes by name in the order of a ranking. -/
def Json.ranking (entries : List (String × Size)) : Json :=
  .list (fun (name, size) => .array [.string name, .size size]) entries

def Json.Reader.ranking : Reader (List (String × Size)) :=
  .list (.pair .text .size)

def Json.sizes (map : NameMap Size) : Json :=
  .object (map.entries.map fun (name, size) => (name, .size size))

def Binding.toJson (binding : Binding) : Json :=
  .string binding.name

def Binding.reader : Reader Binding :=
  .choice (Binding.all.map fun binding => (binding.name, binding))

def Entity.toJson (entity : Entity) : Json :=
  .string entity.name

def Entity.reader : Reader Entity :=
  .choice (Entity.all.map fun entity => (entity.name, entity))

def Region.toJson (region : Region) : Json :=
  .string region.name

def Region.reader : Reader Region :=
  .choice (Region.all.map fun region => (region.name, region))

namespace Symbol

def toJson (symbol : Symbol) : Json :=
  .object [("name", .string symbol.name), ("demangled", .string symbol.demangled),
    ("size", .size symbol.size), ("kind", .string (String.singleton symbol.kind)),
    ("bind", symbol.binding.toJson), ("type", symbol.entity.toJson),
    ("storage", symbol.region.toJson)]

def reader : Reader Symbol :=
  .record ["name", "demangled", "size", "kind", "bind", "type", "storage"] fun fields => do
    return {
      name := ← fields.required .text "name"
      demangled := ← fields.required .text "demangled"
      size := ← fields.required .size "size"
      kind := ← fields.required .char "kind"
      binding := ← fields.required Binding.reader "bind"
      entity := ← fields.required Entity.reader "type"
      region := ← fields.required Region.reader "storage" }

end Symbol

namespace RankedSymbol

def toJson (symbol : RankedSymbol) : Json :=
  .object [("name", .string symbol.name), ("size", .size symbol.size)]

def reader : Reader RankedSymbol :=
  .record ["name", "size"] fun fields => do
    return {
      name := ← fields.required .text "name"
      size := ← fields.required .size "size" }

end RankedSymbol

namespace LongName

def toJson (entry : LongName) : Json :=
  .object [("name", .string entry.name), ("length", .natural entry.length),
    ("bind", entry.binding.toJson), ("type", entry.entity.toJson), ("size", .size entry.size)]

def reader : Reader LongName :=
  .record ["name", "length", "bind", "type", "size"] fun fields => do
    return {
      name := ← fields.required .text "name"
      length := ← fields.required .count "length"
      binding := ← fields.required Binding.reader "bind"
      entity := ← fields.required Entity.reader "type"
      size := ← fields.required .size "size" }

end LongName

namespace NameLengths

def toJson (lengths : NameLengths) : Json :=
  .object [("count", .natural lengths.count), ("average", .real lengths.average),
    ("p50", .natural lengths.median), ("p90", .natural lengths.p90),
    ("p99", .natural lengths.p99), ("max", .natural lengths.longest)]

def reader : Reader NameLengths :=
  .record ["count", "average", "p50", "p90", "p99", "max"] fun fields => do
    return {
      count := ← fields.required .count "count"
      average := ← fields.required .real "average"
      median := ← fields.required .count "p50"
      p90 := ← fields.required .count "p90"
      p99 := ← fields.required .count "p99"
      longest := ← fields.required .count "max" }

end NameLengths

namespace StaticSummary

def members (summary : StaticSummary) : List (String × Json) :=
  [("total_symbols", .size summary.total), ("defined_symbols", .size summary.defined),
    ("counts_by_bind", .sizes summary.byBinding.counts),
    ("size_by_bind", .sizes summary.byBinding.sizes),
    ("counts_by_kind", .sizes summary.byKind.counts),
    ("size_by_kind", .sizes summary.byKind.sizes),
    ("counts_by_storage", .sizes summary.byRegion.counts),
    ("size_by_storage", .sizes summary.byRegion.sizes),
    ("counts_by_type", .sizes summary.byEntity.counts),
    ("size_by_type", .sizes summary.byEntity.sizes),
    ("namespace_level3_all", .ranking summary.namespaceAll),
    ("namespace_level3_local", .ranking summary.namespaceLocal),
    ("namespace_level3_global", .ranking summary.namespaceGlobal),
    ("namespace_rodata", .ranking summary.namespaceRodata),
    ("namespace_rwdata", .ranking summary.namespaceRwdata),
    ("namespace_bss", .ranking summary.namespaceBss),
    ("name_bytes_by_bind", .sizes summary.nameBytes),
    ("top_local_functions", .list RankedSymbol.toJson summary.localFunctions),
    ("top_global_functions", .list RankedSymbol.toJson summary.globalFunctions),
    ("top_local_objects", .list RankedSymbol.toJson summary.localObjects),
    ("top_global_objects", .list RankedSymbol.toJson summary.globalObjects),
    ("top_rodata_objects", .list RankedSymbol.toJson summary.rodataObjects),
    ("top_rw_objects", .list RankedSymbol.toJson summary.rwdataObjects),
    ("top_bss_objects", .list RankedSymbol.toJson summary.bssObjects),
    ("longest_names", .list LongName.toJson summary.longNames),
    ("name_length_stats", .option NameLengths.toJson summary.nameLengths)]

def toJson (summary : StaticSummary) : Json :=
  .object summary.members

def fieldNames : List String :=
  ["total_symbols", "defined_symbols", "counts_by_bind", "size_by_bind", "counts_by_kind",
    "size_by_kind", "counts_by_storage", "size_by_storage", "counts_by_type", "size_by_type",
    "namespace_level3_all", "namespace_level3_local", "namespace_level3_global",
    "namespace_rodata", "namespace_rwdata", "namespace_bss", "name_bytes_by_bind",
    "top_local_functions", "top_global_functions", "top_local_objects", "top_global_objects",
    "top_rodata_objects", "top_rw_objects", "top_bss_objects", "longest_names",
    "name_length_stats"]

/-- Number and bytes by key, from two fields. -/
def breakdown (fields : Json.Fields) (counts sizes : String) : Option Breakdown := do
  return {
    counts := ← fields.required (.map .size) counts
    sizes := ← fields.required (.map .size) sizes }

def reader : Reader StaticSummary :=
  .record fieldNames fun fields => do
    let ranked (name : String) : Option (List RankedSymbol) :=
      fields.required (.list RankedSymbol.reader) name
    return {
      total := ← fields.required .size "total_symbols"
      defined := ← fields.required .size "defined_symbols"
      byBinding := ← breakdown fields "counts_by_bind" "size_by_bind"
      byKind := ← breakdown fields "counts_by_kind" "size_by_kind"
      byRegion := ← breakdown fields "counts_by_storage" "size_by_storage"
      byEntity := ← breakdown fields "counts_by_type" "size_by_type"
      namespaceAll := ← fields.required .ranking "namespace_level3_all"
      namespaceLocal := ← fields.required .ranking "namespace_level3_local"
      namespaceGlobal := ← fields.required .ranking "namespace_level3_global"
      namespaceRodata := ← fields.required .ranking "namespace_rodata"
      namespaceRwdata := ← fields.required .ranking "namespace_rwdata"
      namespaceBss := ← fields.required .ranking "namespace_bss"
      nameBytes := ← fields.required (.map .size) "name_bytes_by_bind"
      localFunctions := ← ranked "top_local_functions"
      globalFunctions := ← ranked "top_global_functions"
      localObjects := ← ranked "top_local_objects"
      globalObjects := ← ranked "top_global_objects"
      rodataObjects := ← ranked "top_rodata_objects"
      rwdataObjects := ← ranked "top_rw_objects"
      bssObjects := ← ranked "top_bss_objects"
      longNames := ← fields.required (.list LongName.reader) "longest_names"
      nameLengths := ← fields.optional NameLengths.reader "name_length_stats" }

end StaticSummary

namespace DynamicSymbol

def toJson (symbol : DynamicSymbol) : Json :=
  .object [("name", .string symbol.name), ("demangled", .string symbol.demangled),
    ("size", .size symbol.size), ("bind", symbol.binding.toJson), ("type", symbol.entity.toJson)]

def reader : Reader DynamicSymbol :=
  .record ["name", "demangled", "size", "bind", "type"] fun fields => do
    return {
      name := ← fields.required .text "name"
      demangled := ← fields.required .text "demangled"
      size := ← fields.required .size "size"
      binding := ← fields.required Binding.reader "bind"
      entity := ← fields.required Entity.reader "type" }

end DynamicSymbol

namespace DynamicSummary

def members (summary : DynamicSummary) : List (String × Json) :=
  [("symbols", .list DynamicSymbol.toJson summary.symbols),
    ("namespace_level3", .ranking summary.shallow), ("namespace_level4", .ranking summary.deep)]

def toJson (summary : DynamicSummary) : Json :=
  .object summary.members

def reader : Reader DynamicSummary :=
  .record ["symbols", "namespace_level3", "namespace_level4"] fun fields => do
    return {
      symbols := ← fields.required (.list DynamicSymbol.reader) "symbols"
      shallow := ← fields.required .ranking "namespace_level3"
      deep := ← fields.required .ranking "namespace_level4" }

end DynamicSummary

end SizeSurvey
