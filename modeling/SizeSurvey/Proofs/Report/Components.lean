import Mathlib.Data.List.Nodup
import SizeSurvey.Proofs.Distinct
import SizeSurvey.Proofs.NameMap
import SizeSurvey.Report.Basic

/-! # Components and their keys

What a size in the metrics is the size of can be told from its key, whatever the names of the
libraries are. So the metrics of libraries with distinct names have the size of each component that
is reported, and no other, and the order of the libraries plays no part.
-/
namespace SizeSurvey

namespace SectionClass

def totalName : SectionClass → String
  | code => "code_bytes"
  | bss => "bss_bytes"
  | data => "data_bytes"
  | rodata => "rodata_bytes"

/-- The name of a total with the line in front of it does not end like that of another. -/
theorem eq_of_isSuffix {kind kind' : SectionClass}
    (h : ("_" ++ kind.totalName).toList <:+ ("_" ++ kind'.totalName).toList) : kind = kind' := by
  have hdecide := List.isSuffixOf_iff_suffix.mpr h
  revert hdecide
  cases kind <;> cases kind' <;> decide

end SectionClass

/-- What a size in the metrics is the size of. -/
inductive Component where
  | compressed
  | uncompressed
  | library (name : String)
  | device (name : String)
  | total (name : String) (kind : SectionClass)
deriving DecidableEq

namespace Component

def key : Component → String
  | compressed => "wheel_compressed"
  | uncompressed => "wheel_uncompressed"
  | library name => "library_" ++ name
  | device name => "device_" ++ name
  | total name kind => "section_" ++ name ++ "_" ++ kind.totalName

def initial : Component → Char
  | compressed => 'w'
  | uncompressed => 'w'
  | library _ => 'l'
  | device _ => 'd'
  | total _ _ => 's'

theorem head?_key (component : Component) : component.key.toList.head? = some component.initial := by
  cases component <;> simp [key,initial,String.toList_append]

theorem append_left_injective (lead : String) : Function.Injective (lead ++ ·) := by
  intro a b h
  have hlist := congrArg String.toList h
  simp only [String.toList_append] at hlist
  exact String.toList_injective (List.append_cancel_left hlist)

theorem toList_total_key (name : String) (kind : SectionClass) :
    (total name kind).key.toList =
      "section_".toList ++ name.toList ++ ("_" ++ kind.totalName).toList := by
  rw [key,String.append_assoc,String.toList_append,String.toList_append]

theorem eq_of_total_key_eq {a b : String} {kind kind' : SectionClass}
    (h : (total a kind).key = (total b kind').key) : a = b ∧ kind = kind' := by
  have hlist := congrArg String.toList h
  rw [toList_total_key,toList_total_key] at hlist
  have hkind : kind = kind' := by
    have hsuffix : ("_" ++ kind.totalName).toList <:+
        "section_".toList ++ b.toList ++ ("_" ++ kind'.totalName).toList :=
      hlist ▸ List.suffix_append ..
    rcases List.suffix_or_suffix_of_suffix hsuffix (List.suffix_append ..) with hends | hends
    · exact SectionClass.eq_of_isSuffix hends
    · exact (SectionClass.eq_of_isSuffix hends).symm
  subst hkind
  exact ⟨String.toList_injective (List.append_cancel_left (List.append_cancel_right hlist)),rfl⟩

/-- **Different components have different keys.** -/
theorem key_injective : Function.Injective key := by
  intro a b h
  have hinitial : a.initial = b.initial := by
    rw [← Option.some_inj,← head?_key,← head?_key,h]
  -- The first character tells the kinds of components apart, but for the two of a whole package.
  cases a with
  | compressed =>
    cases b with
    | compressed => rfl
    | uncompressed => exact absurd h (by decide)
    | _ => simp [initial] at hinitial
  | uncompressed =>
    cases b with
    | uncompressed => rfl
    | compressed => exact absurd h (by decide)
    | _ => simp [initial] at hinitial
  | library name =>
    cases b with
    | library other => rw [append_left_injective "library_" h]
    | _ => simp [initial] at hinitial
  | device name =>
    cases b with
    | device other => rw [append_left_injective "device_" h]
    | _ => simp [initial] at hinitial
  | total name kind =>
    cases b with
    | total other kind' =>
      obtain ⟨rfl,rfl⟩ := eq_of_total_key_eq h
      rfl
    | _ => simp [initial] at hinitial

/-- The library that a component is a part of. -/
def owner? : Component → Option String
  | compressed => none
  | uncompressed => none
  | library name => some name
  | device name => some name
  | total name _ => some name

end Component

/-! ## The components of a report -/

namespace SectionTotals

def of (totals : SectionTotals) : SectionClass → Size
  | .code => totals.code
  | .bss => totals.bss
  | .data => totals.data
  | .rodata => totals.rodata

end SectionTotals

namespace Component

def keyed (part : Component × Size) : String × Size :=
  (part.1.key,part.2)

/-- A component that counts only if it has bytes. -/
def ifAny (component : Component) (size : Size) : List (Component × Size) :=
  if 0 < size then [(component,size)] else []

theorem map_keyed_ifAny (component : Component) (size : Size) :
    (component.ifAny size).map keyed = if 0 < size then [(component.key,size)] else [] := by
  unfold ifAny
  split_ifs <;> rfl

theorem mem_ifAny_iff {component : Component} {size : Size} {part : Component × Size} :
    part ∈ component.ifAny size ↔ size ≠ 0 ∧ part = (component,size) := by
  unfold ifAny
  rw [← UInt64.pos_iff_ne_zero]
  split_ifs with h <;> simp [h]

end Component

open Component

namespace LibraryReport

def parts (library : LibraryReport) : List (Component × Size) :=
  (Component.library library.name).ifAny library.size
    ++ (Component.device library.name).ifAny library.sections.deviceTotals.total
    ++ [SectionClass.code,.rodata,.data,.bss].map fun kind =>
      (.total library.name kind,library.sections.totals.of kind)

theorem components_eq (library : LibraryReport) :
    library.components = library.parts.map keyed := by
  rw [parts,List.map_append,List.map_append,map_keyed_ifAny,map_keyed_ifAny]
  rfl

theorem mem_parts_iff {library : LibraryReport} {part : Component × Size} :
    part ∈ library.parts ↔
      (library.size ≠ 0 ∧ part = (.library library.name,library.size)) ∨
      (library.sections.deviceTotals.total ≠ 0 ∧
        part = (.device library.name,library.sections.deviceTotals.total)) ∨
      ∃ kind, part = (.total library.name kind,library.sections.totals.of kind) := by
  rw [parts,List.mem_append,List.mem_append,mem_ifAny_iff,mem_ifAny_iff,or_assoc,List.mem_map]
  refine or_congr_right (or_congr_right (exists_congr fun kind => ?_))
  cases kind <;> simp [eq_comm]

theorem owner?_of_mem_parts {library : LibraryReport} {component : Component}
    (h : component ∈ library.parts.map Prod.fst) : component.owner? = some library.name := by
  obtain ⟨part,hpart,rfl⟩ := List.mem_map.mp h
  rcases mem_parts_iff.mp hpart with ⟨-,rfl⟩ | ⟨-,rfl⟩ | ⟨kind,rfl⟩ <;> rfl

theorem nodup_parts (library : LibraryReport) : (library.parts.map Prod.fst).Nodup := by
  have hany : ∀ (component : Component) (size : Size),
      ((component.ifAny size).map Prod.fst).Sublist [component] := by
    intro component size
    unfold ifAny
    split_ifs <;> simp
  have hall : [Component.library library.name,.device library.name,.total library.name .code,
      .total library.name .rodata,.total library.name .data,.total library.name .bss].Nodup := by simp
  refine hall.sublist ?_
  rw [parts,List.map_append,List.map_append]
  exact ((hany _ _).append (hany _ _)).append (List.Sublist.refl _)

end LibraryReport

namespace Inventory

def parts (inventory : Inventory) : List (Component × Size) :=
  (inventory.archiveSize.map fun size => (.compressed,size)).toList
    ++ [(.uncompressed,inventory.totalBytes)]

theorem components_eq (inventory : Inventory) :
    inventory.components = inventory.parts.map keyed := by
  unfold components parts
  cases inventory.archiveSize <;> rfl

end Inventory

namespace PackageReport

/-- A component that is reported, with its own size. -/
inductive HasSize (report : PackageReport) : Component → Size → Prop
  | compressed {inventory : Inventory} {size : Size} (h : report.inventory = some inventory)
      (hsize : inventory.archiveSize = some size) : HasSize report .compressed size
  | uncompressed {inventory : Inventory} (h : report.inventory = some inventory) :
    HasSize report .uncompressed inventory.totalBytes
  | library {library : LibraryReport} (h : library ∈ report.analyzed) (hpos : library.size ≠ 0) :
    HasSize report (.library library.name) library.size
  | device {library : LibraryReport} (h : library ∈ report.analyzed)
      (hpos : library.sections.deviceTotals.total ≠ 0) :
    HasSize report (.device library.name) library.sections.deviceTotals.total
  | total {library : LibraryReport} (h : library ∈ report.analyzed) (kind : SectionClass) :
    HasSize report (.total library.name kind) (library.sections.totals.of kind)

/-- The components of a package and of its libraries with their sizes. -/
def parts (report : PackageReport) : List (Component × Size) :=
  (report.inventory.map Inventory.parts).getD [] ++ report.analyzed.flatMap LibraryReport.parts

variable {report : PackageReport}

theorem metrics_eq (report : PackageReport) :
    report.metrics = NameMap.ofList (report.parts.map keyed) := by
  have hinventory : (report.inventory.map Inventory.components).getD [] =
      ((report.inventory.map Inventory.parts).getD []).map keyed := by
    cases report.inventory with
    | none => rfl
    | some inventory => exact inventory.components_eq
  have hlibraries : LibraryReport.components = fun library => library.parts.map keyed :=
    funext LibraryReport.components_eq
  rw [metrics,parts,List.map_append,List.map_flatMap,hinventory,hlibraries]

theorem mem_inventoryParts_iff {component : Component} {size : Size} :
    (component,size) ∈ (report.inventory.map Inventory.parts).getD [] ↔
      ∃ inventory, report.inventory = some inventory ∧
        ((component = .compressed ∧ inventory.archiveSize = some size) ∨
          (component = .uncompressed ∧ size = inventory.totalBytes)) := by
  cases report.inventory with
  | none => simp
  | some inventory =>
    have hcompressed : (component,size) ∈
        (inventory.archiveSize.map fun size => (Component.compressed,size)).toList ↔
          component = .compressed ∧ inventory.archiveSize = some size := by
      cases inventory.archiveSize <;> simp [eq_comm]
    simp [Inventory.parts,hcompressed]

theorem mem_parts_iff {component : Component} {size : Size} :
    (component,size) ∈ report.parts ↔ report.HasSize component size := by
  rw [parts,List.mem_append,mem_inventoryParts_iff,List.mem_flatMap]
  constructor
  · rintro (⟨inventory,hinventory,⟨rfl,hsize⟩ | ⟨rfl,rfl⟩⟩ | ⟨library,hlibrary,hpart⟩)
    · exact .compressed hinventory hsize
    · exact .uncompressed hinventory
    · rcases LibraryReport.mem_parts_iff.mp hpart with ⟨hpos,hpart⟩ | ⟨hpos,hpart⟩ | ⟨kind,hpart⟩
      all_goals obtain ⟨rfl,rfl⟩ := Prod.mk.inj hpart
      · exact .library hlibrary hpos
      · exact .device hlibrary hpos
      · exact .total hlibrary kind
  · intro h
    cases h with
    | compressed hinventory hsize => exact Or.inl ⟨_,hinventory,Or.inl ⟨rfl,hsize⟩⟩
    | uncompressed hinventory => exact Or.inl ⟨_,hinventory,Or.inr ⟨rfl,rfl⟩⟩
    | library hlibrary hpos =>
      exact Or.inr ⟨_,hlibrary,LibraryReport.mem_parts_iff.mpr (Or.inl ⟨hpos,rfl⟩)⟩
    | device hlibrary hpos =>
      exact Or.inr ⟨_,hlibrary,LibraryReport.mem_parts_iff.mpr (Or.inr (Or.inl ⟨hpos,rfl⟩))⟩
    | total hlibrary kind =>
      exact Or.inr ⟨_,hlibrary,LibraryReport.mem_parts_iff.mpr (Or.inr (Or.inr ⟨kind,rfl⟩))⟩

/-- No component is reported twice if no two libraries have the same name. -/
theorem nodup_parts (h : (report.analyzed.map (·.name)).Nodup) :
    (report.parts.map Prod.fst).Nodup := by
  have hinventory : (((report.inventory.map Inventory.parts).getD []).map Prod.fst).Nodup ∧
      ∀ component ∈ ((report.inventory.map Inventory.parts).getD []).map Prod.fst,
        component.owner? = none := by
    cases report.inventory with
    | none => simp
    | some inventory =>
      simp only [Option.map_some,Option.getD_some,Inventory.parts]
      cases inventory.archiveSize <;> simp [owner?]
  have hlibraries : ((report.analyzed.flatMap LibraryReport.parts).map Prod.fst).Nodup := by
    rw [List.map_flatMap,List.nodup_flatMap]
    refine ⟨fun library _ => library.nodup_parts,(List.pairwise_map.mp h).imp ?_⟩
    intro library other hne component hcomponent hother
    have howner := (LibraryReport.owner?_of_mem_parts hcomponent).symm.trans
      (LibraryReport.owner?_of_mem_parts hother)
    exact hne (Option.some_inj.mp howner)
  rw [parts,List.map_append]
  refine hinventory.1.append hlibraries fun component hcomponent hother => ?_
  rw [List.map_flatMap] at hother
  obtain ⟨library,_,hpart⟩ := List.mem_flatMap.mp hother
  have howner := LibraryReport.owner?_of_mem_parts hpart
  rw [hinventory.2 component hcomponent] at howner
  cases howner

/-! ## The metrics of a report -/

theorem nodup_keys (h : (report.analyzed.map (·.name)).Nodup) :
    ((report.parts.map keyed).map Prod.fst).Nodup := by
  have hkeys : (report.parts.map keyed).map Prod.fst = (report.parts.map Prod.fst).map key := by
    rw [List.map_map,List.map_map]
    rfl
  rw [hkeys]
  exact (nodup_parts h).map key_injective

/-- Metrics that have the size of each component that is reported, and nothing else. -/
structure Flattens (report : PackageReport) (metrics : Metrics) : Prop where
  get?_iff : ∀ component size,
    metrics.get? component.key = some size ↔ report.HasSize component size
  exists_component : ∀ name ∈ metrics.names, ∃ component : Component, component.key = name

theorem flattens_metrics (h : (report.analyzed.map (·.name)).Nodup) :
    report.Flattens report.metrics := by
  have hkeys := nodup_keys h
  constructor
  case get?_iff =>
    intro component size
    rw [metrics_eq,NameMap.get?_ofList_eq_some_iff hkeys,← mem_parts_iff]
    constructor
    · intro hmem
      obtain ⟨⟨other,size'⟩,hpart,heq⟩ := List.mem_map.mp hmem
      obtain ⟨hkey,rfl⟩ := Prod.mk.inj heq
      rwa [← key_injective hkey]
    · intro hpart
      exact List.mem_map_of_mem hpart
  case exists_component =>
    intro name hname
    obtain ⟨size,hsize⟩ := (NameMap.mem_names_iff _).mp hname
    rw [metrics_eq,NameMap.get?_ofList_eq_some_iff hkeys] at hsize
    obtain ⟨⟨component,size'⟩,_,heq⟩ := List.mem_map.mp hsize
    exact ⟨component,(Prod.mk.inj heq).1⟩

theorem metrics_perm (h : (report.analyzed.map (·.name)).Nodup) {libraries : List LibraryOutcome}
    (hperm : libraries.Perm report.libraries) :
    { report with libraries := libraries }.metrics = report.metrics := by
  have hanalyzed : report.analyzed.Perm { report with libraries := libraries }.analyzed :=
    (hperm.filterMap LibraryOutcome.report?).symm
  have hparts : report.parts.Perm { report with libraries := libraries }.parts :=
    (hanalyzed.flatMap_right LibraryReport.parts).append_left _
  rw [metrics_eq,metrics_eq]
  exact (NameMap.ofList_perm (nodup_keys h) (hparts.map keyed)).symm

theorem metrics_dropFailed (report : PackageReport) :
    { report with libraries := report.libraries.filter (·.report?.isSome) }.metrics =
      report.metrics := by
  have hanalyzed : { report with
      libraries := report.libraries.filter (·.report?.isSome) }.analyzed = report.analyzed := by
    rw [analyzed,List.filterMap_filter]
    refine List.filterMap_congr fun outcome _ => ?_
    cases outcome <;> rfl
  rw [metrics,metrics,hanalyzed]

end PackageReport

end SizeSurvey
