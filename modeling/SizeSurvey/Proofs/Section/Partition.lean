import SizeSurvey.Proofs.Ranking.Stability
import SizeSurvey.Proofs.Size
import SizeSurvey.Proofs.Text.Occurrence
import SizeSurvey.Section.Summary

/-! # What sections add up to

The class of a section is told from its flags and its name, its device category from its name alone.
Each total is the sum over the sections of its own class or category, so that it does not depend on
their order, and the totals of two lists of sections add up.
-/
namespace SizeSurvey

/-! ## Classes -/

/-- Of several marks the first one in this order decides. -/
def Section.BelongsTo (s : Section) : SectionClass → Prop
  | .code => 'X' ∈ s.flags.toList
  | .bss => 'X' ∉ s.flags.toList ∧ s.name = ".bss"
  | .data => 'X' ∉ s.flags.toList ∧ s.name ≠ ".bss" ∧ 'W' ∈ s.flags.toList
  | .rodata =>
    'X' ∉ s.flags.toList ∧ s.name ≠ ".bss" ∧ 'W' ∉ s.flags.toList ∧ 'A' ∈ s.flags.toList

theorem Section.class?_eq_some_iff {s : Section} {c : SectionClass} :
    s.class? = some c ↔ s.BelongsTo c := by
  simp only [class?,hasFlag,List.contains_iff_mem]
  cases c <;> simp only [BelongsTo] <;> grind

instance (s : Section) (c : SectionClass) : Decidable (s.BelongsTo c) :=
  decidable_of_iff _ Section.class?_eq_some_iff

theorem Section.eq_of_belongsTo {s : Section} {c d : SectionClass} (hc : s.BelongsTo c)
    (hd : s.BelongsTo d) : c = d := by
  rw [← class?_eq_some_iff] at hc hd
  exact Option.some.inj (hc.symm.trans hd)

namespace SectionTotals

/-- The total of a class. -/
def bytes (totals : SectionTotals) : SectionClass → Size
  | .code => totals.code
  | .bss => totals.bss
  | .data => totals.data
  | .rodata => totals.rodata

theorem ext_bytes {a b : SectionTotals} (h : ∀ c, a.bytes c = b.bytes c) : a = b :=
  (mk.injEq ..).mpr ⟨h .code,h .rodata,h .data,h .bss⟩

def plus (a b : SectionTotals) : SectionTotals :=
  ⟨a.code.plus b.code,a.rodata.plus b.rodata,a.data.plus b.data,a.bss.plus b.bss⟩

theorem bytes_plus (a b : SectionTotals) (c : SectionClass) :
    (a.plus b).bytes c = (a.bytes c).plus (b.bytes c) := by
  cases c <;> rfl

theorem bytes_add (totals : SectionTotals) (s : Section) (c : SectionClass) :
    (totals.add s).bytes c =
      if s.BelongsTo c then (totals.bytes c).plus s.size else totals.bytes c := by
  simp only [← Section.class?_eq_some_iff,add]
  cases s.class? with
  | none => simp
  | some d => cases c <;> cases d <;> simp [bytes]

theorem bytes_ofSections (sections : List Section) (c : SectionClass) :
    (ofSections sections).bytes c =
      Size.saturated ((sections.filter (·.BelongsTo c)).map (·.size)) := by
  have hpart := foldl_part add (bytes · c) (fun s => decide (s.BelongsTo c)) (·.size) Size.plus
    (fun totals s => by simp only [bytes_add,decide_eq_true_eq]) {} sections
  rw [ofSections,hpart,← Size.total_eq_saturated,Size.total]
  cases c <;> rfl

theorem ofSections_perm {sections others : List Section} (h : sections.Perm others) :
    ofSections sections = ofSections others := by
  apply ext_bytes
  intro c
  rw [bytes_ofSections,bytes_ofSections,Size.saturated_perm ((h.filter _).map _)]

theorem ofSections_append (sections others : List Section) :
    ofSections (sections ++ others) = (ofSections sections).plus (ofSections others) := by
  apply ext_bytes
  intro c
  simp only [bytes_plus,bytes_ofSections,List.filter_append,List.map_append,Size.saturated_append]

theorem sum_classes_le (sections : List Section) :
    (([.code,.rodata,.data,.bss] : List SectionClass).map fun c =>
      ((sections.filter (·.BelongsTo c)).map (·.size.toNat)).sum).sum ≤
        (sections.map (·.size.toNat)).sum := by
  induction sections with
  | nil => simp
  | cons s rest ih =>
    simp only [List.map_cons,List.map_nil,List.sum_cons,List.sum_nil,sum_filter_cons,
      ← Section.class?_eq_some_iff] at ih ⊢
    cases s.class? with
    | none => simp; omega
    | some c => cases c <;> simp <;> omega

end SectionTotals

/-! ## Device categories -/

namespace DeviceCategory

/-- The mark of a category in a name whose capitals have been made small letters. -/
def Marks (lowered : List Char) : DeviceCategory → Prop
  | deviceImage => ∃ start ∈ imageStarts, start.toList <+: lowered
  | imageTable => lowered = imageTableName.toList
  | kernelSymbolTable => lowered = kernelSymbolName.toList
  | deviceRelated => "spir".toList <:+: lowered ∨ "sycl".toList <:+: lowered

instance (lowered : List Char) : DecidablePred (Marks lowered)
  | deviceImage => inferInstanceAs (Decidable (∃ start ∈ imageStarts, start.toList <+: lowered))
  | imageTable => inferInstanceAs (Decidable (lowered = _))
  | kernelSymbolTable => inferInstanceAs (Decidable (lowered = _))
  | deviceRelated => inferInstanceAs (Decidable (_ <:+: lowered ∨ _ <:+: lowered))

/-- The categories in the order in which their marks are looked for. -/
def byPriority : List DeviceCategory := [deviceImage,imageTable,kernelSymbolTable,deviceRelated]

theorem ofName?_eq_find? (name : String) :
    ofName? name = byPriority.find? fun category =>
      Marks (name.toList.map Text.toAsciiLower) category := by
  have hstart : ∀ lowered, (imageStarts.any fun start =>
      (Text.afterStart? start.toList lowered).isSome) = true ↔
        ∃ start ∈ imageStarts, start.toList <+: lowered := by
    intro lowered
    rw [List.any_eq_true]
    refine exists_congr fun start => and_congr_right fun _ => ?_
    rw [Option.isSome_iff_exists]
    exact exists_congr fun rest => Text.afterStart?_eq_some_iff.trans eq_comm
  have hcons : ∀ lowered category rest, (category :: rest).find? (fun c => Marks lowered c) =
      if Marks lowered category then some category else rest.find? fun c => Marks lowered c := by
    intro lowered category rest
    by_cases h : Marks lowered category <;> simp [h]
  simp only [ofName?,hstart,Bool.or_eq_true,Text.contains_iff,byPriority,hcons,List.find?_nil]
  rfl

end DeviceCategory

/-- The bytes of the sections whose device category is one of some categories. -/
def Section.deviceBytes (sections : List Section) (among : DeviceCategory → Bool) : Size :=
  Size.saturated
    ((sections.filter fun s => (DeviceCategory.ofName? s.name).any among).map (·.size))

theorem DeviceSection.ofSection?_eq_some_iff {s : Section} {device : DeviceSection} :
    ofSection? s = some device ↔
      s.name = device.name ∧ s.size = device.size ∧
        DeviceCategory.ofName? s.name = some device.category := by
  obtain ⟨name,size,category⟩ := device
  simp only [ofSection?,Option.map_eq_some_iff,mk.injEq]
  grind

theorem DeviceSection.map_size_filter (sections : List Section) (among : DeviceCategory → Bool) :
    ((sections.filterMap ofSection?).filter fun device => among device.category).map (·.size) =
      (sections.filter fun s => (DeviceCategory.ofName? s.name).any among).map (·.size) := by
  induction sections with
  | nil => rfl
  | cons s rest ih =>
    rw [List.filterMap_cons,List.filter_cons,ofSection?]
    cases DeviceCategory.ofName? s.name with
    | none => exact ih
    | some category => cases h : among category <;> simp [h,ih]

namespace DeviceTotals

def plus (a b : DeviceTotals) : DeviceTotals :=
  ⟨a.total.plus b.total,a.image.plus b.image,a.metadata.plus b.metadata⟩

/-- A total of device sections that only takes those of some categories. -/
theorem part_ofSections (part : DeviceTotals → Size) (among : DeviceCategory → Bool)
    (hstart : part {} = 0)
    (h : ∀ totals device, part (add totals device) =
      if among device.category then (part totals).plus device.size else part totals)
    (sections : List Section) :
    part (ofSections (sections.filterMap DeviceSection.ofSection?)) =
      Section.deviceBytes sections among := by
  have hpart := foldl_part add part (fun device => among device.category) (·.size) Size.plus h {}
    (sections.filterMap DeviceSection.ofSection?)
  rw [ofSections,hpart,hstart,DeviceSection.map_size_filter,Section.deviceBytes,
    ← Size.total_eq_saturated,Size.total]

theorem ofSections_eq (sections : List Section) :
    ofSections (sections.filterMap DeviceSection.ofSection?) =
      { total := Section.deviceBytes sections fun _ => true
        image := Section.deviceBytes sections (· = .deviceImage)
        metadata := Section.deviceBytes sections DeviceCategory.isMetadata } := by
  refine (mk.injEq ..).mpr ⟨?total,?image,?metadata⟩
  case total => exact part_ofSections (·.total) _ rfl (fun _ _ => (if_pos rfl).symm) sections
  case image => exact part_ofSections (·.image) _ rfl (fun _ _ => by simp [add]) sections
  case metadata => exact part_ofSections (·.metadata) _ rfl (fun _ _ => rfl) sections

end DeviceTotals

theorem Section.deviceBytes_perm {sections others : List Section} (h : sections.Perm others)
    (among : DeviceCategory → Bool) : deviceBytes sections among = deviceBytes others among :=
  Size.saturated_perm ((h.filter _).map _)

theorem Section.deviceBytes_append (sections others : List Section)
    (among : DeviceCategory → Bool) :
    deviceBytes (sections ++ others) among =
      (deviceBytes sections among).plus (deviceBytes others among) := by
  simp only [deviceBytes,List.filter_append,List.map_append,Size.saturated_append]

namespace DeviceTotals

theorem ofSections_perm {sections others : List Section} (h : sections.Perm others) :
    ofSections (sections.filterMap DeviceSection.ofSection?) =
      ofSections (others.filterMap DeviceSection.ofSection?) := by
  simp only [ofSections_eq,Section.deviceBytes_perm h]

theorem ofSections_append (sections others : List Section) :
    ofSections ((sections ++ others).filterMap DeviceSection.ofSection?) =
      (ofSections (sections.filterMap DeviceSection.ofSection?)).plus
        (ofSections (others.filterMap DeviceSection.ofSection?)) := by
  simp only [ofSections_eq,Section.deviceBytes_append,plus]

theorem image_add_metadata_le (category? : Option DeviceCategory) (amount : Nat) :
    (if category?.any (· = .deviceImage) then amount else 0) +
        (if category?.any (·.isMetadata) then amount else 0) ≤
      if category?.any fun _ => true then amount else 0 := by
  cases category? with
  | none => simp
  | some category => cases category <;> simp [DeviceCategory.isMetadata]

theorem sum_image_metadata_le (sections : List Section) :
    ((sections.filter fun s => (DeviceCategory.ofName? s.name).any (· = .deviceImage)).map
        (·.size.toNat)).sum +
      ((sections.filter fun s => (DeviceCategory.ofName? s.name).any (·.isMetadata)).map
        (·.size.toNat)).sum ≤
    ((sections.filter fun s => (DeviceCategory.ofName? s.name).any fun _ => true).map
        (·.size.toNat)).sum := by
  induction sections with
  | nil => simp
  | cons s rest ih =>
    have hstep := image_add_metadata_le (DeviceCategory.ofName? s.name) s.size.toNat
    simp only [sum_filter_cons]
    omega

end DeviceTotals

/-! ## The whole summary -/

namespace SectionSummary

/-- What a summary says about its sections. -/
structure Partitions (sections : List Section) (summary : SectionSummary) : Prop where
  exclusive : ∀ s ∈ sections, ∀ c d, s.BelongsTo c → s.BelongsTo d → c = d
  totals : ∀ c, summary.totals.bytes c =
    Size.saturated ((sections.filter (·.BelongsTo c)).map (·.size))
  category : ∀ s ∈ sections, DeviceCategory.ofName? s.name =
    DeviceCategory.byPriority.find? fun category =>
      DeviceCategory.Marks (s.name.toList.map Text.toAsciiLower) category
  deviceTotal : summary.deviceTotals.total = Section.deviceBytes sections fun _ => true
  deviceImage : summary.deviceTotals.image = Section.deviceBytes sections (· = .deviceImage)
  deviceMetadata : summary.deviceTotals.metadata =
    Section.deviceBytes sections fun category =>
      category = .imageTable ∨ category = .kernelSymbolTable
  classes_le : (sections.map (·.size.toNat)).sum < UInt64.size →
    summary.totals.code.toNat + summary.totals.rodata.toNat + summary.totals.data.toNat +
      summary.totals.bss.toNat ≤ (sections.map (·.size.toNat)).sum
  device_le : (sections.map (·.size.toNat)).sum < UInt64.size →
    summary.deviceTotals.image.toNat + summary.deviceTotals.metadata.toNat ≤
      summary.deviceTotals.total.toNat
  sections_ranked : RanksStably (fun s : Section => s.size.toNat) sections summary.sections
  mem_deviceSections : ∀ device, device ∈ summary.deviceSections ↔ ∃ s ∈ sections,
    s.name = device.name ∧ s.size = device.size ∧
      DeviceCategory.ofName? s.name = some device.category
  deviceSections_ranked : RanksStably (fun device : DeviceSection => device.size.toNat)
    (sections.filterMap DeviceSection.ofSection?) summary.deviceSections

theorem partitions_ofSections (sections : List Section) :
    Partitions sections (ofSections sections) := by
  have htotals := SectionTotals.bytes_ofSections sections
  have hdevice := DeviceTotals.ofSections_eq sections
  have hranked := ranksStably_sizes DeviceSection.size
    (sections.filterMap DeviceSection.ofSection?)
  constructor
  case exclusive => exact fun s _ c d => Section.eq_of_belongsTo
  case totals => exact htotals
  case category => exact fun s _ => DeviceCategory.ofName?_eq_find? s.name
  case deviceTotal => exact congrArg (·.total) hdevice
  case deviceImage => exact congrArg (·.image) hdevice
  case deviceMetadata =>
    have hmetadata : DeviceCategory.isMetadata = fun category =>
        decide (category = .imageTable ∨ category = .kernelSymbolTable) := by
      funext category
      cases category <;> rfl
    rw [← hmetadata]
    exact congrArg (·.metadata) hdevice
  case classes_le =>
    intro hfits
    have hsum := SectionTotals.sum_classes_le sections
    simp only [List.map_cons,List.map_nil,List.sum_cons,List.sum_nil,
      ← Size.toNat_saturated_filter hfits,← htotals] at hsum
    simp only [SectionTotals.bytes] at hsum
    simp only [ofSections]
    omega
  case device_le =>
    intro hfits
    have hsum := DeviceTotals.sum_image_metadata_le sections
    simp only [← Size.toNat_saturated_filter hfits] at hsum
    simp only [ofSections,hdevice]
    exact hsum
  case sections_ranked => exact ranksStably_sizes Section.size sections
  case mem_deviceSections =>
    intro device
    refine hranked.perm.mem_iff.trans (List.mem_filterMap.trans ?_)
    simp only [DeviceSection.ofSection?_eq_some_iff]
  case deviceSections_ranked => exact hranked

/-- **The totals of a summary partition its sections**, do not depend on their order, and add up when
two lists of sections are put together. -/
theorem ofSections_partitions (sections : List Section) :
    Partitions sections (ofSections sections) ∧
      (∀ others, sections.Perm others →
        (ofSections others).totals = (ofSections sections).totals ∧
          (ofSections others).deviceTotals = (ofSections sections).deviceTotals) ∧
      ∀ others,
        (ofSections (sections ++ others)).totals =
            (ofSections sections).totals.plus (ofSections others).totals ∧
          (ofSections (sections ++ others)).deviceTotals =
            (ofSections sections).deviceTotals.plus (ofSections others).deviceTotals := by
  refine ⟨partitions_ofSections sections,fun others hperm => ⟨?_,?_⟩,fun others => ⟨?_,?_⟩⟩
  · exact SectionTotals.ofSections_perm hperm.symm
  · exact DeviceTotals.ofSections_perm hperm.symm
  · exact SectionTotals.ofSections_append sections others
  · exact DeviceTotals.ofSections_append sections others

/-- Sections that fit several of the rules. -/
theorem ofSections_partitions_several :
    let sections : List Section := [⟨".bss",20,"WAX"⟩,⟨".bss",7,"WA"⟩,
      ⟨"__CLANG_OFFLOAD_BUNDLE__sycl",5000,"A"⟩,⟨".TgtImg",16,"WA"⟩]
    (sections.Perm sections.reverse ∧ (sections.map (·.size.toNat)).sum < UInt64.size) ∧
      (ofSections sections).totals = ⟨20,5000,16,7⟩ ∧
      (ofSections sections.reverse).totals = (ofSections sections).totals ∧
      (ofSections sections).deviceTotals.image.toNat +
          (ofSections sections).deviceTotals.metadata.toNat ≤
        (ofSections sections).deviceTotals.total.toNat := by
  intro sections
  have hperm : sections.Perm sections.reverse := (List.reverse_perm sections).symm
  have hfits : (sections.map (·.size.toNat)).sum < UInt64.size := by decide
  obtain ⟨hparts,hsame,-⟩ := ofSections_partitions sections
  exact ⟨⟨hperm,hfits⟩,by decide,(hsame _ hperm).1,hparts.device_le hfits⟩

end SectionSummary

end SizeSurvey
