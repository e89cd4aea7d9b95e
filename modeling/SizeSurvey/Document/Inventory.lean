import SizeSurvey.Inventory
import SizeSurvey.Json.Reader
/-!
# Documents about the files of a package
-/
namespace SizeSurvey

open Json (Reader)

namespace FileCategory

def all : List FileCategory := [metadata, sharedLibrary, nativePayload, python, other]

def toJson (category : FileCategory) : Json :=
  .string category.name

def reader : Reader FileCategory :=
  .choice (all.map fun category => (category.name, category))

end FileCategory

namespace InventoryEntry

def toJson (entry : InventoryEntry) : Json :=
  .object [("path", .string entry.path), ("size", .size entry.size),
    ("sha256", .string entry.digest), ("category", entry.category.toJson)]

def reader : Reader InventoryEntry :=
  .record ["path", "size", "sha256", "category"] fun fields => do
    return {
      path := ← fields.required .text "path"
      size := ← fields.required .size "size"
      digest := ← fields.required .text "sha256"
      category := ← fields.required FileCategory.reader "category" }

end InventoryEntry

namespace Inventory

def toJson (inventory : Inventory) : Json :=
  .object [("archive_file", .option .string inventory.archiveFile),
    ("archive_size_bytes", .option .size inventory.archiveSize),
    ("total_uncompressed_bytes", .size inventory.totalBytes),
    ("files", .list InventoryEntry.toJson inventory.files),
    ("top_entries", .list InventoryEntry.toJson inventory.topEntries),
    ("bytes_by_category",
      .object (inventory.bytesByCategory.entries.map fun (name, size) => (name, .size size)))]

def reader : Reader Inventory :=
  .record ["archive_file", "archive_size_bytes", "total_uncompressed_bytes", "files",
      "top_entries", "bytes_by_category"] fun fields => do
    return {
      archiveFile := ← fields.optional .text "archive_file"
      archiveSize := ← fields.optional .size "archive_size_bytes"
      totalBytes := ← fields.required .size "total_uncompressed_bytes"
      files := ← fields.required (.list InventoryEntry.reader) "files"
      topEntries := ← fields.required (.list InventoryEntry.reader) "top_entries"
      bytesByCategory := ← fields.required (.map .size) "bytes_by_category" }

end Inventory

end SizeSurvey
