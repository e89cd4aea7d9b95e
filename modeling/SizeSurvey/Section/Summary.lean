import SizeSurvey.Section.Basic
/-!
# Section summaries

The sections of a library by descending size, the bytes of each class, and the device sections with
the bytes they take. All sums stop at the largest size.
-/
namespace SizeSurvey

structure SectionTotals where
  code : Size := 0
  rodata : Size := 0
  data : Size := 0
  bss : Size := 0
deriving DecidableEq, Repr

namespace SectionTotals

def add (totals : SectionTotals) (s : Section) : SectionTotals :=
  match s.class? with
  | some .code => { totals with code := totals.code.plus s.size }
  | some .bss => { totals with bss := totals.bss.plus s.size }
  | some .data => { totals with data := totals.data.plus s.size }
  | some .rodata => { totals with rodata := totals.rodata.plus s.size }
  | none => totals

def ofSections (sections : List Section) : SectionTotals :=
  sections.foldl add {}

/-- The totals under the names that metrics have for them. -/
def entries (totals : SectionTotals) : List (String × Size) :=
  [("code_bytes", totals.code), ("rodata_bytes", totals.rodata), ("data_bytes", totals.data),
    ("bss_bytes", totals.bss)]

end SectionTotals

structure DeviceSection where
  name : String
  size : Size
  category : DeviceCategory
deriving DecidableEq, Repr

def DeviceSection.ofSection? (s : Section) : Option DeviceSection :=
  (DeviceCategory.ofName? s.name).map fun category => ⟨s.name, s.size, category⟩

structure DeviceTotals where
  total : Size := 0
  image : Size := 0
  metadata : Size := 0
deriving DecidableEq, Repr

namespace DeviceTotals

def add (totals : DeviceTotals) (s : DeviceSection) : DeviceTotals where
  total := totals.total.plus s.size
  image := if s.category = .deviceImage then totals.image.plus s.size else totals.image
  metadata := if s.category.isMetadata then totals.metadata.plus s.size else totals.metadata

def ofSections (sections : List DeviceSection) : DeviceTotals :=
  sections.foldl add {}

end DeviceTotals

structure SectionSummary where
  sections : List Section := []
  totals : SectionTotals := {}
  deviceSections : List DeviceSection := []
  deviceTotals : DeviceTotals := {}
deriving DecidableEq, Repr

namespace SectionSummary

def ofSections (sections : List Section) : SectionSummary :=
  let device := sections.filterMap DeviceSection.ofSection?
  { sections := sections.mergeSort fun a b => b.size ≤ a.size
    totals := .ofSections sections
    deviceSections := device.mergeSort fun a b => b.size ≤ a.size
    deviceTotals := .ofSections device }

def hasDeviceImages (summary : SectionSummary) : Bool :=
  0 < summary.deviceTotals.image

end SectionSummary

end SizeSurvey
