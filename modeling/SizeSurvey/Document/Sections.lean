import SizeSurvey.Json.Reader
import SizeSurvey.Section.Summary
/-!
# Documents about sections
-/
namespace SizeSurvey

open Json (Reader)

namespace Section

def toJson (s : Section) : Json :=
  .object [("name", .string s.name), ("size", .size s.size), ("flags", .string s.flags)]

def reader : Reader Section :=
  .record ["name", "size", "flags"] fun fields => do
    return {
      name := ← fields.required .text "name"
      size := ← fields.required .size "size"
      flags := ← fields.required .text "flags" }

end Section

namespace SectionTotals

def toJson (totals : SectionTotals) : Json :=
  .object [("code_bytes", .size totals.code), ("rodata_bytes", .size totals.rodata),
    ("data_bytes", .size totals.data), ("bss_bytes", .size totals.bss)]

def reader : Reader SectionTotals :=
  .record ["code_bytes", "rodata_bytes", "data_bytes", "bss_bytes"] fun fields => do
    return {
      code := ← fields.required .size "code_bytes"
      rodata := ← fields.required .size "rodata_bytes"
      data := ← fields.required .size "data_bytes"
      bss := ← fields.required .size "bss_bytes" }

end SectionTotals

namespace DeviceCategory

def name : DeviceCategory → String
  | deviceImage => "device_image"
  | imageTable => "image_table"
  | kernelSymbolTable => "kernel_symbol_table"
  | deviceRelated => "device_related"

def all : List DeviceCategory := [deviceImage, imageTable, kernelSymbolTable, deviceRelated]

def toJson (category : DeviceCategory) : Json :=
  .string category.name

def reader : Reader DeviceCategory :=
  .choice (all.map fun category => (category.name, category))

end DeviceCategory

namespace DeviceSection

def toJson (s : DeviceSection) : Json :=
  .object [("name", .string s.name), ("size", .size s.size), ("category", s.category.toJson)]

def reader : Reader DeviceSection :=
  .record ["name", "size", "category"] fun fields => do
    return {
      name := ← fields.required .text "name"
      size := ← fields.required .size "size"
      category := ← fields.required DeviceCategory.reader "category" }

end DeviceSection

namespace DeviceTotals

def toJson (totals : DeviceTotals) : Json :=
  .object [("total_bytes", .size totals.total), ("image_bytes", .size totals.image),
    ("metadata_bytes", .size totals.metadata)]

def reader : Reader DeviceTotals :=
  .record ["total_bytes", "image_bytes", "metadata_bytes"] fun fields => do
    return {
      total := ← fields.required .size "total_bytes"
      image := ← fields.required .size "image_bytes"
      metadata := ← fields.required .size "metadata_bytes" }

end DeviceTotals

namespace SectionSummary

def members (summary : SectionSummary) : List (String × Json) :=
  [("sections", .list Section.toJson summary.sections), ("aggregates", summary.totals.toJson),
    ("device_sections", .list DeviceSection.toJson summary.deviceSections),
    ("device_overview", summary.deviceTotals.toJson)]

def toJson (summary : SectionSummary) : Json :=
  .object summary.members

def reader : Reader SectionSummary :=
  .record ["sections", "aggregates", "device_sections", "device_overview"] fun fields => do
    return {
      sections := ← fields.required (.list Section.reader) "sections"
      totals := ← fields.required SectionTotals.reader "aggregates"
      deviceSections := ← fields.required (.list DeviceSection.reader) "device_sections"
      deviceTotals := ← fields.required DeviceTotals.reader "device_overview" }

end SectionSummary

end SizeSurvey
