import SizeSurvey.Elf.Names
/-!
# Links between sections

A symbol table is linked to the table of its names, a table of large section numbers to the symbol
table that it belongs to, and relocations to a symbol table and to the section that they change. A
file in which such links lead nowhere cannot be read. The first section is no section at all, and a
link to it is no link.
-/
namespace SizeSurvey.Elf

def symbolTable : Nat := 2

def nameTable : Nat := 3

def dynamicSymbolTable : Nat := 11

/-- The kind of the tables of section numbers that are too large for a symbol table. -/
def largeNumbers : Nat := 18

/-- The kinds of relocations: with addends, without, and in a compact form. -/
def relocationKinds : List Nat := [4, 9, 0x40000014]

def symbolSize : Nat := 24

def largeNumberSize : Nat := 4

/-- The sections that count, with their numbers. -/
def numbered (entries : List SectionEntry) : List (Nat × SectionEntry) :=
  (entries.zipIdx.map Prod.swap).drop 1

def sectionAt? (entries : List SectionEntry) (index : Nat) : Except Defect SectionEntry :=
  match (numbered entries).lookup index with
  | some entry => .ok entry
  | none => .error (.unreadable "Invalid ELF section index")

/-- Checks that a section is in the file and holds nothing but items of a size. -/
def checkItems (image : Image) (size : Nat) (reason : String) (entry : SectionEntry) :
    Except Defect Unit :=
  match entry.bytes? image with
  | some bytes => if bytes.length % size = 0 then .ok () else .error (.unreadable reason)
  | none => .error (.unreadable reason)

def checkNames (entries : List SectionEntry) (index : Nat) : Except Defect Unit := do
  if index ≠ 0 then
    let entry ← sectionAt? entries index
    if entry.kind ≠ nameTable then throw (.unreadable "Invalid ELF string section type")
    if (NameTable.ofSection? entry).isNone then
      throw (.unreadable "Invalid ELF string section offset or size")

/-- The number of the first symbol table of a kind, after a check of it; zero if there is none. -/
def symbols? (image : Image) (entries : List SectionEntry) (kind : Nat) : Except Defect Nat := do
  match (numbered entries).find? fun (_, entry) => entry.kind = kind with
  | none => return 0
  | some (number, table) =>
    checkItems image symbolSize "Invalid ELF symbol table data" table
    for (_, entry) in numbered entries do
      if entry.kind = largeNumbers ∧ entry.link = number then
        checkItems image largeNumberSize "Invalid ELF symtab_shndx data" entry
    checkNames entries table.link
    return number

/-- Checks that the relocations with symbols of a table change sections that are there and hold no
relocations themselves. -/
def checkRelocations (entries : List SectionEntry) (symbols : Nat) : Except Defect Unit := do
  for (_, entry) in numbered entries do
    if relocationKinds.contains entry.kind ∧ entry.link = symbols ∧ entry.info ≠ 0 then
      let changed ← sectionAt? entries entry.info
      if relocationKinds.contains changed.kind then
        throw (.unreadable "Unsupported ELF relocations for relocation section")

def checkLinks (image : Image) (entries : List SectionEntry) : Except Defect Unit := do
  let symbols ← symbols? image entries symbolTable
  let _ ← symbols? image entries dynamicSymbolTable
  checkRelocations entries symbols

end SizeSurvey.Elf
