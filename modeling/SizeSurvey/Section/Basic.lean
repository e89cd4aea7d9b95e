import SizeSurvey.Size
import SizeSurvey.Text.Split
/-!
# Sections of a library

Each section belongs to at most one of four classes, chosen by its flags and its name. Apart from
that, some names mark sections that carry code for an accelerator device or the tables about it.
-/
namespace SizeSurvey

structure Section where
  name : String
  size : Size
  flags : String
deriving DecidableEq, Repr

inductive SectionClass where
  | code
  | bss
  | data
  | rodata
deriving DecidableEq, Repr

inductive DeviceCategory where
  | deviceImage
  | imageTable
  | kernelSymbolTable
  | deviceRelated
deriving DecidableEq, Repr

namespace Section

def hasFlag (s : Section) (flag : Char) : Bool :=
  s.flags.toList.contains flag

/-- Executable sections are code whatever else they are, and the section `.bss` is told from other
writable ones by its name. -/
def class? (s : Section) : Option SectionClass :=
  if s.hasFlag 'X' then some .code
  else if s.name = ".bss" then some .bss
  else if s.hasFlag 'W' then some .data
  else if s.hasFlag 'A' then some .rodata
  else none

end Section

namespace DeviceCategory

def imageStarts : List String :=
  ["__clang_offload_bundle__", ".sycl_offload", ".llvm_offloading"]

/-- The section with the offset and size of each kernel. -/
def imageTableName : String := ".tgtimg"

/-- The section with the names of the kernels. -/
def kernelSymbolName : String := ".tgtsym"

def ofName? (name : String) : Option DeviceCategory :=
  let lowered := name.toList.map Text.toAsciiLower
  if imageStarts.any fun start => (Text.afterStart? start.toList lowered).isSome then
    some deviceImage
  else if lowered = imageTableName.toList then some imageTable
  else if lowered = kernelSymbolName.toList then some kernelSymbolTable
  else if Text.contains "spir".toList lowered || Text.contains "sycl".toList lowered then
    some deviceRelated
  else none

def isMetadata : DeviceCategory → Bool
  | imageTable => true
  | kernelSymbolTable => true
  | _ => false

end DeviceCategory

end SizeSurvey
