import Mathlib.Algebra.Ring.Nat
import SizeSurvey.Proofs.Distinct
import SizeSurvey.Proofs.NameMap
import SizeSurvey.Report.Basic

/-! # Sizes that stay in the metrics

A component that has the name of a later one is overwritten by it. The sizes of the libraries
therefore add up in the metrics exactly if no two libraries with bytes have the same name.
-/
namespace SizeSurvey

namespace NameMap

/-- The total of the sizes that are bound to the names of a kind. -/
def bytesOf (kind : String → Bool) (entries : List (String × Size)) : Nat :=
  ((entries.filter fun entry => kind entry.1).map fun entry => entry.2.toNat).sum

variable {kind : String → Bool}

theorem bytesOf_cons (entry : String × Size) (rest : List (String × Size)) :
    bytesOf kind (entry :: rest) =
      (if kind entry.1 then entry.2.toNat else 0) + bytesOf kind rest := by
  cases h : kind entry.1 <;> simp [bytesOf,h]

theorem lookup_eq_none_of_lt {α : Type} {name : String} {entries : List (String × α)}
    (h : ∀ entry ∈ entries, name < entry.1) : entries.lookup name = none := by
  induction entries with
  | nil => rfl
  | cons entry rest ih =>
    obtain ⟨hentry,hrest⟩ := List.forall_mem_cons.mp h
    have hne : name ≠ entry.1 := fun he => String.lt_irrefl _ (he ▸ hentry)
    rw [lookup_cons_eq_ite,if_neg hne,ih hrest]

/-- What a binding adds is its size less that of the binding in whose place it comes. -/
theorem bytesOf_insert (kind : String → Bool) (map : NameMap Size) (name : String) (size : Size) :
    bytesOf kind (map.insert name size).entries +
        (if kind name then ((map.get? name).getD 0).toNat else 0) =
      bytesOf kind map.entries + if kind name then size.toNat else 0 := by
  obtain ⟨entries,hsorted⟩ := map
  rw [insert,get?]
  induction entries with
  | nil => simp [insertEntry,bytesOf_cons,Nat.add_comm]
  | cons entry rest ih =>
    obtain ⟨hentry,hrest⟩ := List.pairwise_cons.mp hsorted
    simp only [insertEntry]
    split
    next hlt =>
      have hnone : (entry :: rest).lookup name = none :=
        lookup_eq_none_of_lt (List.forall_mem_cons.mpr
          ⟨hlt,fun other hother => String.lt_trans hlt (hentry other hother)⟩)
      rw [hnone,bytesOf_cons]
      simp
      omega
    split
    next heq =>
      rw [lookup_cons_eq_ite,if_pos heq,bytesOf_cons,bytesOf_cons,heq]
      simp
      omega
    next hne =>
      have hih := ih hrest
      simp only at hih
      rw [lookup_cons_eq_ite,if_neg hne,bytesOf_cons,bytesOf_cons]
      omega

/-- The names of a kind among entries. -/
def namesOf (kind : String → Bool) (entries : List (String × Size)) : List String :=
  (entries.filter fun entry => kind entry.1).map Prod.fst

theorem namesOf_cons (entry : String × Size) (rest : List (String × Size)) :
    namesOf kind (entry :: rest) =
      if kind entry.1 then entry.1 :: namesOf kind rest else namesOf kind rest := by
  cases h : kind entry.1 <;> simp [namesOf,h]

/-- Bindings that come one after the other never add up to more than their sizes, and to exactly
that if none comes in the place of another one. -/
theorem bytesOf_foldl_insert (map : NameMap Size) (entries : List (String × Size))
    (hmap : ∀ name size, kind name = true → map.get? name = some size → size ≠ 0)
    (hentries : ∀ entry ∈ entries, kind entry.1 = true → entry.2 ≠ 0) :
    let filled := entries.foldl (fun map entry => map.insert entry.1 entry.2) map
    bytesOf kind filled.entries ≤ bytesOf kind map.entries + bytesOf kind entries ∧
      (bytesOf kind filled.entries = bytesOf kind map.entries + bytesOf kind entries ↔
        (namesOf kind entries).Nodup ∧ ∀ name ∈ namesOf kind entries, map.get? name = none) := by
  induction entries generalizing map with
  | nil => simp [bytesOf,namesOf]
  | cons entry rest ih =>
    obtain ⟨hentry,hrest⟩ := List.forall_mem_cons.mp hentries
    have hinsert := bytesOf_insert kind map entry.1 entry.2
    have hnext : ∀ name size, kind name = true →
        (map.insert entry.1 entry.2).get? name = some size → size ≠ 0 := by
      intro name size hkind hsize
      rw [get?_insert] at hsize
      split at hsize
      next heq =>
        cases hsize
        exact hentry (heq ▸ hkind)
      next => exact hmap name size hkind hsize
    obtain ⟨hle,hiff⟩ := ih (map.insert entry.1 entry.2) hnext hrest
    rw [List.foldl_cons,bytesOf_cons,namesOf_cons]
    cases hkind : kind entry.1 with
    | false =>
      have hkept : ∀ name ∈ namesOf kind rest,
          (map.insert entry.1 entry.2).get? name = map.get? name := by
        intro name hname
        obtain ⟨other,hother,rfl⟩ := List.mem_map.mp hname
        have hne : other.1 ≠ entry.1 := by
          intro he
          have := (List.mem_filter.mp hother).2
          rw [he,hkind] at this
          cases this
        rw [get?_insert,if_neg hne]
      simp only [hkind,Bool.false_eq_true,if_false,Nat.add_zero,Nat.zero_add] at hinsert ⊢
      rw [← hinsert]
      refine ⟨hle,hiff.trans (and_congr_right fun _ => ?_)⟩
      exact forall₂_congr fun name hname => by rw [hkept name hname]
    | true =>
      have hold : ((map.get? entry.1).getD 0).toNat = 0 ↔ map.get? entry.1 = none := by
        cases hget : map.get? entry.1 with
        | none => exact ⟨fun _ => rfl,fun _ => rfl⟩
        | some size =>
          have hne := hmap entry.1 size hkind hget
          refine ⟨fun hzero => absurd (UInt64.toNat_inj.mp hzero) hne,fun h => nomatch h⟩
      have hfresh : (∀ name ∈ namesOf kind rest,
            (map.insert entry.1 entry.2).get? name = none) ↔
          entry.1 ∉ namesOf kind rest ∧ ∀ name ∈ namesOf kind rest, map.get? name = none := by
        constructor
        · intro hnone
          have hne : ∀ name ∈ namesOf kind rest, name ≠ entry.1 ∧ map.get? name = none := by
            intro name hname
            have hget := hnone name hname
            rw [get?_insert] at hget
            split at hget
            next => cases hget
            next hne => exact ⟨hne,hget⟩
          exact ⟨fun hmem => (hne _ hmem).1 rfl,fun name hname => (hne name hname).2⟩
        · rintro ⟨hmem,hnone⟩ name hname
          have hne : name ≠ entry.1 := fun he => hmem (he ▸ hname)
          rw [get?_insert,if_neg hne,hnone name hname]
      simp only [hkind,if_true] at hinsert ⊢
      rw [List.nodup_cons,List.forall_mem_cons,← hold]
      rw [hfresh] at hiff
      constructor
      · omega
      · constructor
        · intro heq
          obtain ⟨hnodup,hmem,hnone⟩ := hiff.mp (by omega)
          exact ⟨⟨hmem,hnodup⟩,by omega,hnone⟩
        · rintro ⟨⟨hmem,hnodup⟩,hzero,hnone⟩
          have heq := hiff.mpr ⟨hnodup,hmem,hnone⟩
          omega

/-- Sizes that are not zero add up in a map if and only if their names are distinct. -/
theorem bytesOf_ofList_eq_iff (entries : List (String × Size))
    (h : ∀ entry ∈ entries, kind entry.1 = true → entry.2 ≠ 0) :
    bytesOf kind (ofList entries).entries = bytesOf kind entries ↔ (namesOf kind entries).Nodup := by
  have hfilled := (bytesOf_foldl_insert empty entries (fun _ _ _ hsize => nomatch hsize) h).2
  rw [show bytesOf kind (empty : NameMap Size).entries = 0 from rfl,Nat.zero_add] at hfilled
  exact hfilled.trans (and_iff_left fun _ _ => rfl)

end NameMap

namespace PackageReport
open NameMap

/-- Whether a component is a library as a whole. -/
def isLibraryComponent (name : String) : Bool :=
  "library_".toList.isPrefixOf name.toList

/-- The bytes of all libraries as the metrics have them. -/
def libraryBytes (report : PackageReport) : Nat :=
  bytesOf isLibraryComponent report.metrics.entries

def nonEmptyNames (libraries : List LibraryReport) : List String :=
  (libraries.filter fun library => 0 < library.size).map (·.name)

@[simp] theorem isLibraryComponent_library (name : String) :
    isLibraryComponent ("library_" ++ name) = true := by
  simp [isLibraryComponent,String.toList_append,List.isPrefixOf]

@[simp] theorem isLibraryComponent_device (name : String) :
    isLibraryComponent ("device_" ++ name) = false := by
  simp [isLibraryComponent,String.toList_append,List.isPrefixOf]

@[simp] theorem isLibraryComponent_section (name total : String) :
    isLibraryComponent ("section_" ++ name ++ "_" ++ total) = false := by
  simp [isLibraryComponent,String.toList_append,List.isPrefixOf]

theorem filter_components (library : LibraryReport) :
    library.components.filter (fun entry => isLibraryComponent entry.1) =
      if 0 < library.size then [("library_" ++ library.name,library.size)] else [] := by
  rw [LibraryReport.components,List.filter_append,List.filter_append,List.filter_map]
  split <;> split <;> simp [Function.comp_def]

theorem filter_packageComponents (inventory : Inventory) :
    inventory.components.filter (fun entry => isLibraryComponent entry.1) = [] := by
  have hcompressed : isLibraryComponent "wheel_compressed" = false := by decide
  have huncompressed : isLibraryComponent "wheel_uncompressed" = false := by decide
  rw [Inventory.components]
  cases inventory.archiveSize <;> simp [hcompressed,huncompressed]

theorem filter_allComponents (report : PackageReport) :
    ((report.inventory.map Inventory.components).getD [] ++
        report.analyzed.flatMap LibraryReport.components).filter
      (fun entry => isLibraryComponent entry.1) =
      (report.analyzed.filter fun library => 0 < library.size).map fun library =>
        ("library_" ++ library.name,library.size) := by
  have hinventory : ((report.inventory.map Inventory.components).getD []).filter
      (fun entry => isLibraryComponent entry.1) = [] := by
    cases report.inventory with
    | none => rfl
    | some inventory => exact filter_packageComponents inventory
  rw [List.filter_append,hinventory,List.nil_append,List.filter_flatMap]
  induction report.analyzed with
  | nil => rfl
  | cons library rest ih =>
    rw [List.flatMap_cons,ih,filter_components,List.filter_cons]
    by_cases hsize : 0 < library.size <;> simp [hsize]

/-- Libraries without bytes do not count. -/
theorem sum_nonEmpty (libraries : List LibraryReport) :
    ((libraries.filter fun library => 0 < library.size).map fun library =>
        library.size.toNat).sum =
      (libraries.map fun library => library.size.toNat).sum := by
  induction libraries with
  | nil => rfl
  | cons library rest ih =>
    by_cases hsize : 0 < library.size
    · simp [hsize,ih]
    · have hzero : library.size = 0 := Classical.byContradiction fun hne =>
        hsize (UInt64.pos_iff_ne_zero.mpr hne)
      simp [hzero,ih]

/-- **The libraries keep their bytes in the metrics** if and only if those with bytes have distinct
names. -/
theorem libraryBytes_eq_iff (report : PackageReport) :
    report.libraryBytes = (report.analyzed.map fun library => library.size.toNat).sum ↔
      (nonEmptyNames report.analyzed).Nodup := by
  have hall := filter_allComponents report
  have htotal : bytesOf isLibraryComponent
      ((report.inventory.map Inventory.components).getD [] ++
        report.analyzed.flatMap LibraryReport.components) =
      (report.analyzed.map fun library => library.size.toNat).sum := by
    rw [bytesOf,hall,List.map_map]
    exact sum_nonEmpty report.analyzed
  have hnames : namesOf isLibraryComponent
      ((report.inventory.map Inventory.components).getD [] ++
        report.analyzed.flatMap LibraryReport.components) =
      (nonEmptyNames report.analyzed).map ("library_" ++ ·) := by
    rw [namesOf,hall,nonEmptyNames,List.map_map,List.map_map]
    rfl
  have hsizes : ∀ entry ∈ (report.inventory.map Inventory.components).getD [] ++
      report.analyzed.flatMap LibraryReport.components,
      isLibraryComponent entry.1 = true → entry.2 ≠ 0 := by
    intro entry hentry hkind
    have hmem := (List.mem_filter (p := fun entry => isLibraryComponent entry.1)).mpr ⟨hentry,hkind⟩
    rw [hall] at hmem
    obtain ⟨library,hlibrary,rfl⟩ := List.mem_map.mp hmem
    have hpos := of_decide_eq_true (List.mem_filter.mp hlibrary).2
    exact UInt64.pos_iff_ne_zero.mp hpos
  have hmetrics := bytesOf_ofList_eq_iff _ hsizes
  rw [htotal,hnames] at hmetrics
  exact hmetrics.trans (nodup_map_of_injective fun _ _ heq => by simpa using heq)

end PackageReport

end SizeSurvey
