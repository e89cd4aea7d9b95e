import SizeSurvey.Elf.Links
import SizeSurvey.Text.Utf8
import SizeSurvey.Tree.Basic
/-!
# Sections of ELF files

The bytes of a section are found by its name. Debugging sections are also found under the names that
they have when they are packed.
-/
namespace SizeSurvey.Elf

/-- The name of a debugging section when it is packed. -/
def packedName? (name : List Char) : Option (List Char) :=
  (Text.afterStart? ".debug_".toList name).map (".zdebug_".toList ++ ·)

def named? (image : Image) (names : NameTable) (entries : List SectionEntry) (name : List Char) :
    Option SectionEntry :=
  let wanted := Text.Utf8.encodeString (String.ofList name)
  ((numbered entries).find? fun (_, entry) => names.at? image entry.name == some wanted).map
    Prod.snd

def sectionBytes (octets : List UInt8) (name : String) : Except Defect (Option (List UInt8)) := do
  let image ← image? octets
  let header ← header? image
  checkSegments image header
  let entries ← entries? image header
  let names ← names? header entries
  checkLinks image entries
  let search (name : List Char) := names.bind fun names => named? image names entries name
  let found := (search name.toList).orElse fun _ => (packedName? name.toList).bind search
  match found with
  | none => return none
  | some entry =>
    match entry.bytes? image with
    | none => throw .outOfRange
    | some [] => return none
    | some bytes => return some bytes

def Defect.fault (path name : String) : Defect → Fault
  | unreadable reason => .toolUnavailable ("object reader cannot open " ++ path ++ ": " ++ reason)
  | outOfRange => .toolFailed "object" (name ++ ": Invalid ELF section size or offset")

/-- The bytes of a section of a library in a file tree. An empty file has no sections. -/
def readSection (tree : Node) (path name : String) : Except Fault (Option (List UInt8)) :=
  match tree.find path with
  | .error trouble => .error trouble.fault
  | .ok (.file octets _) =>
    if octets.isEmpty then .ok none
    else (sectionBytes octets name).mapError (Defect.fault path name)
  | .ok _ => .error (.inputOutput "No such device (os error 19)")

end SizeSurvey.Elf
