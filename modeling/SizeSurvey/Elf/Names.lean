import SizeSurvey.Elf.Basic
/-!
# Names of sections

Names are kept in a table of octets, each with a zero after it, and are told by where they begin.
-/
namespace SizeSurvey.Elf

structure NameTable where
  first : Nat
  last : Nat

/-- What no offset and no size of a file reaches. -/
def offsetBound : Nat := UInt64.size

/-- The table that a section is, if its end can be told. -/
def NameTable.ofSection? (entry : SectionEntry) : Option NameTable :=
  if entry.offset + entry.size < offsetBound then some ⟨entry.offset, entry.offset + entry.size⟩
  else none

/-- The table with the names of the sections. Without sections, or when the table has no place in
the file, there are no names. -/
def names? (header : Header) (entries : List SectionEntry) :
    Except Defect (Option NameTable) :=
  match entries with
  | [] => .ok none
  | first :: _ =>
    let index := if header.nameIndex = beyondField then first.link else header.nameIndex
    if index = 0 then .error (.unreadable "Missing ELF e_shstrndx")
    else match entries[index]? with
      | none => .error (.unreadable "Invalid ELF e_shstrndx")
      | some entry =>
        if entry.kind = withoutBytes then .ok none
        else match NameTable.ofSection? entry with
          | some table => .ok (some table)
          | none => .error (.unreadable "Invalid ELF shstrtab size")

/-- The octets of a name up to the zero that ends it. A table that is not all in the file has no
names. -/
def NameTable.at? (image : Image) (table : NameTable) (offset : Nat) : Option (List UInt8) :=
  let start := table.first + offset
  if start ≤ table.last then
    (image.range? start (table.last - start)).bind fun rest =>
      if rest.contains 0 then some (rest.takeWhile (· ≠ 0)) else none
  else none

end SizeSurvey.Elf
