/-!
# ELF files

A file of the ELF format for 64 bits has a header, which tells where a table of segments and a table
of sections lie. One of the sections holds the names of all. Offsets and sizes come from the file,
so every use of them is checked against its length.
-/
namespace SizeSurvey.Elf

inductive Defect where
  | unreadable (reason : String)
  | outOfRange

structure Image where
  octets : List UInt8
  bigEndian : Bool

namespace Image

/-- The octets of a range, if the whole of it lies in the file. -/
def range? (image : Image) (offset size : Nat) : Option (List UInt8) :=
  if offset + size ≤ image.octets.length then some ((image.octets.drop offset).take size) else none

def number (image : Image) (octets : List UInt8) : Nat :=
  (if image.bigEndian then octets.reverse else octets).foldr
    (fun octet high => octet.toNat + 256 * high) 0

def field (image : Image) (part : List UInt8) (offset size : Nat) : Nat :=
  image.number ((part.drop offset).take size)

end Image

structure Header where
  segmentOffset : Nat
  segmentSize : Nat
  segmentCount : Nat
  sectionOffset : Nat
  sectionSize : Nat
  sectionCount : Nat
  nameIndex : Nat

structure SectionEntry where
  name : Nat
  kind : Nat
  offset : Nat
  size : Nat
  link : Nat
  info : Nat

def segmentEntrySize : Nat := 56

def sectionEntrySize : Nat := 64

/-- What a count or an index of sixteen bits holds when it is too large for them. -/
def beyondField : Nat := 0xffff

/-- The kind of sections that take no place in the file. -/
def withoutBytes : Nat := 8

def SectionEntry.ofOctets (image : Image) (part : List UInt8) : SectionEntry where
  name := image.field part 0 4
  kind := image.field part 4 4
  offset := image.field part 24 8
  size := image.field part 32 8
  link := image.field part 40 4
  info := image.field part 44 4

def SectionEntry.bytes? (image : Image) (entry : SectionEntry) : Option (List UInt8) :=
  if entry.kind = withoutBytes then some [] else image.range? entry.offset entry.size

def magic : List UInt8 := [0x7f, 0x45, 0x4c, 0x46]

def image? (octets : List UInt8) : Except Defect Image :=
  if octets.length < 16 then .error (.unreadable "Could not read file magic")
  else if octets.take 5 ≠ magic ++ [2] then .error (.unreadable "Unknown file magic")
  else match octets.drop 5 with
    | order :: version :: _ =>
      if (order = 1 ∨ order = 2) ∧ version = 1 then .ok ⟨octets, order = 2⟩
      else .error (.unreadable "Unsupported ELF header")
    | _ => .error (.unreadable "Unsupported ELF header")

def header? (image : Image) : Except Defect Header :=
  match image.range? 0 64 with
  | none => .error (.unreadable "Invalid ELF header size or alignment")
  | some part => .ok {
      segmentOffset := image.field part 32 8
      segmentSize := image.field part 54 2
      segmentCount := image.field part 56 2
      sectionOffset := image.field part 40 8
      sectionSize := image.field part 58 2
      sectionCount := image.field part 60 2
      nameIndex := image.field part 62 2 }

/-- The first entry of the section table, which stands for no section and holds the numbers that
were too large for the header. A file without a section table has none. -/
def firstEntry? (image : Image) (header : Header) : Except Defect (Option SectionEntry) :=
  if header.sectionOffset = 0 then .ok none
  else if header.sectionSize ≠ sectionEntrySize then
    .error (.unreadable "Invalid ELF section header entry size")
  else match image.range? header.sectionOffset sectionEntrySize with
    | none => .error (.unreadable "Invalid ELF section header offset or size")
    | some part => .ok (some (.ofOctets image part))

def checkSegments (image : Image) (header : Header) : Except Defect Unit := do
  if header.segmentOffset ≠ 0 then
    let count ←
      if header.segmentCount < beyondField then pure header.segmentCount
      else match ← firstEntry? image header with
        | some first => pure first.info
        | none => throw (.unreadable "Missing ELF section headers for e_phnum overflow")
    if count ≠ 0 then
      if header.segmentSize ≠ segmentEntrySize then
        throw (.unreadable "Invalid ELF program header entry size")
      if (image.range? header.segmentOffset (segmentEntrySize * count)).isNone then
        throw (.unreadable "Invalid ELF program header size or alignment")

/-- The entries of the section table. A count of zero stands for the size of the first section. -/
def entries? (image : Image) (header : Header) : Except Defect (List SectionEntry) := do
  match ← firstEntry? image header with
  | none => return []
  | some first =>
    let count := if header.sectionCount = 0 then first.size else header.sectionCount
    if (image.range? header.sectionOffset (sectionEntrySize * count)).isNone then
      throw (.unreadable "Invalid ELF section header offset/size/alignment")
    return (List.range count).filterMap fun n =>
      (image.range? (header.sectionOffset + sectionEntrySize * n) sectionEntrySize).map
        (.ofOctets image)

end SizeSurvey.Elf
