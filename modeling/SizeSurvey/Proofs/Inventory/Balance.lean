import SizeSurvey.Inventory
import SizeSurvey.Proofs.Ranking.Stability
import SizeSurvey.Proofs.Ranking.Totals
import SizeSurvey.Proofs.Size
import SizeSurvey.Proofs.Tree.Listing

/-! # Inventories that balance

An inventory lists every file below its root once, in one fixed order, and the bytes of its
categories add up to those of all files, as long as these can be counted at all.
-/
namespace SizeSurvey

theorem FileCategory.name_inj {a b : FileCategory} : a.name = b.name ↔ a = b := by
  cases a <;> cases b <;> decide

namespace InventoryEntry

/-- An entry for a file with some octets below the root. -/
structure Describes (entry : InventoryEntry) (below : List String) (octets : List UInt8) : Prop where
  path : entry.path = "/".intercalate below
  size : entry.size.toNat = octets.length
  digest : entry.digest = digestText octets
  category : entry.category = .ofPath entry.path

theorem path_ofVisited (visited : Visited) :
    (ofVisited visited).path = "/".intercalate visited.relative := by
  rw [ofVisited,← String.toList_inj,String.toList_ofList,Text.join_eq_intercalate,
    String.toList_intercalate]
  rfl

theorem describes_ofVisited {visited : Visited} (h : visited.octets.length < UInt64.size) :
    (ofVisited visited).Describes visited.relative visited.octets :=
  ⟨path_ofVisited visited,UInt64.toNat_ofNat_of_lt' h,rfl,rfl⟩

theorem Describes.unique {entry other : InventoryEntry} {below : List String} {octets : List UInt8}
    (h : entry.Describes below octets) (h' : other.Describes below octets) : entry = other := by
  have hpath : entry.path = other.path := h.path.trans h'.path.symm
  have hsize : entry.size = other.size := UInt64.toNat_inj.mp (h.size.trans h'.size.symm)
  have hdigest : entry.digest = other.digest := h.digest.trans h'.digest.symm
  have hcategory : entry.category = other.category := by rw [h.category,h'.category,hpath]
  cases entry
  cases other
  simp_all

/-! ## The order of entries -/

/-- The order of an inventory: by descending size, then by path. -/
def Comes (entry other : InventoryEntry) : Prop :=
  other.size < entry.size ∨ entry.size = other.size ∧ entry.path < other.path

theorem Comes.asymm {entry other : InventoryEntry} (h : entry.Comes other) : ¬other.Comes entry := by
  rintro (hlt | ⟨heq,hlt⟩)
  · rcases h with h | ⟨heq,_⟩
    · exact UInt64.lt_asymm h hlt
    · exact UInt64.lt_irrefl _ (heq ▸ hlt)
  · rcases h with h | ⟨_,h⟩
    · exact UInt64.lt_irrefl _ (heq ▸ h)
    · exact String.lt_asymm h hlt

/-- Entries can be put in the order of an inventory in one way only. -/
theorem eq_of_comes {entries others : List InventoryEntry} (h : entries.Pairwise Comes)
    (h' : others.Pairwise Comes) (hperm : entries.Perm others) : entries = others :=
  hperm.eq_of_pairwise (fun _ _ _ _ hcomes hback => absurd hback hcomes.asymm) h h'

theorem notAfter_iff {entry other : InventoryEntry} : notAfter entry other = true ↔
    other.size < entry.size ∨ entry.size = other.size ∧ entry.path ≤ other.path := by
  simp [notAfter]

theorem notAfter_trans (a b c : InventoryEntry) (hab : notAfter a b = true)
    (hbc : notAfter b c = true) : notAfter a c = true := by
  rw [notAfter_iff] at *
  rcases hab with hab | ⟨hab,hpath⟩
  · refine Or.inl ?_
    rcases hbc with hbc | ⟨hbc,_⟩
    · exact UInt64.lt_trans hbc hab
    · exact hbc ▸ hab
  · rw [hab]
    exact hbc.imp_right fun hbc => ⟨hbc.1,String.le_trans hpath hbc.2⟩

theorem notAfter_total (a b : InventoryEntry) : (notAfter a b || notAfter b a) = true := by
  rw [Bool.or_eq_true,notAfter_iff,notAfter_iff]
  by_cases heq : a.size = b.size
  · exact (String.le_total a.path b.path).imp (fun h => Or.inr ⟨heq,h⟩)
      fun h => Or.inr ⟨heq.symm,h⟩
  · exact (UInt64.lt_or_lt_of_ne heq).symm.imp Or.inl Or.inl

section Order
variable {entries : List InventoryEntry} (hnodup : (entries.map (·.path)).Nodup)
include hnodup

theorem pairwise_comes : (entries.mergeSort notAfter).Pairwise Comes := by
  have hperm := List.mergeSort_perm entries notAfter
  have hne := List.pairwise_map.mp ((hperm.map (·.path)).nodup_iff.mpr hnodup)
  have hle : (entries.mergeSort notAfter).Pairwise fun a b => notAfter a b = true :=
    List.pairwise_mergeSort notAfter_trans notAfter_total entries
  refine (hle.and hne).imp fun {a b} h => (notAfter_iff.mp h.1).imp_right fun ⟨heq,hpath⟩ => ?_
  exact ⟨heq,Decidable.byContradiction fun hlt =>
    h.2 (String.le_antisymm hpath (String.not_lt.mp hlt))⟩

/-- **Two sorts make one order:** by path, then by size with entries of one size kept in place. -/
theorem pairwise_comes_two : ((entries.mergeSort fun a b => a.path ≤ b.path).mergeSort
    fun a b => b.size ≤ a.size).Pairwise Comes := by
  refine (pairwise_precedes_mergeSort (fun entry : InventoryEntry => entry.size.toNat) (fun a b => ?_)
    (NameMap.pairwise_lt_mergeSort (·.path) hnodup)).imp fun {a b} h => ?_
  · rw [decide_eq_true_eq,UInt64.le_iff_toNat_le]
  · exact h.imp UInt64.lt_iff_toNat_lt.mpr (And.imp_left UInt64.toNat_inj.mp)

end Order

end InventoryEntry

namespace Inventory
open InventoryEntry

/-! ## Totals -/

section Totals
variable {files : List InventoryEntry}

theorem categoryBytes_eq (files : List InventoryEntry) :
    categoryBytes files = .tabulate (files.map (·.category.name))
      (Tally.gathered (fun entry => entry.category.name) 0
        (fun entry bytes => bytes + entry.size) files) :=
  NameMap.foldl_update_eq_tabulate ..

variable (h : (files.map (·.size.toNat)).sum < UInt64.size)
include h

theorem toNat_foldl_size :
    ((files.map InventoryEntry.size).foldl (· + ·) 0).toNat = (files.map (·.size.toNat)).sum := by
  rw [Size.toNat_foldl_add] <;> rw [List.map_map]
  · exact Nat.zero_add _
  · exact (Nat.zero_add _).symm ▸ h

theorem toNat_gathered (name : String) :
    (Tally.gathered (fun entry : InventoryEntry => entry.category.name) 0
        (fun entry bytes => bytes + entry.size) files name).toNat =
      ((files.filter fun entry => entry.category.name = name).map (·.size.toNat)).sum := by
  rw [← toNat_foldl_size ((sum_filter_le ..).trans_lt h),Tally.gathered,List.foldl_map]

/-- **The categories balance:** their bytes are those of all files. -/
theorem sum_categoryBytes : (categoryBytes files).sum = (files.map (·.size.toNat)).sum := by
  rw [categoryBytes_eq]
  exact NameMap.sum_tabulate fun name _ => toNat_gathered h name

theorem toNat_of_get?_categoryBytes {category : FileCategory} {bytes : Size}
    (hbytes : (categoryBytes files).get? category.name = some bytes) :
    bytes.toNat = ((files.filter fun entry => entry.category = category).map (·.size.toNat)).sum := by
  rw [categoryBytes_eq,NameMap.get?_tabulate] at hbytes
  split at hbytes
  next =>
    cases hbytes
    simp only [toNat_gathered h,FileCategory.name_inj]
  next => cases hbytes

end Totals

theorem mem_names_categoryBytes_iff {files : List InventoryEntry} {name : String} :
    name ∈ (categoryBytes files).names ↔ ∃ entry ∈ files, entry.category.name = name := by
  simp [NameMap.mem_names_iff,categoryBytes_eq,NameMap.get?_tabulate]

/-! ## Complete inventories -/

/-- What an inventory says about the files below the directory where it starts. -/
structure IsComplete (start : Node) (inventory : Inventory) : Prop where
  /-- Every file has its entry and every entry is that of a file. -/
  listed : ∀ entry, entry ∈ inventory.files ↔
    ∃ below octets, start.HoldsFile below octets ∧ entry.Describes below octets
  once : (inventory.files.map (·.path)).Nodup
  /-- Different files have different paths. -/
  apart : ∀ below octets below' octets', start.HoldsFile below octets →
    start.HoldsFile below' octets' → "/".intercalate below = "/".intercalate below' → below = below'
  ordered : inventory.files.Pairwise Comes
  /-- It makes no difference in which order the files come before they are sorted by path and then
  by size. -/
  sorts : ∀ entries : List InventoryEntry, entries.Perm inventory.files →
    ((entries.mergeSort fun a b => a.path ≤ b.path).mergeSort fun a b => b.size ≤ a.size) =
      inventory.files
  top : inventory.topEntries = inventory.files.take (min 25 inventory.files.length)
  total : inventory.totalBytes.toNat = (inventory.files.map (·.size.toNat)).sum
  /-- No byte below the start is left out. -/
  bytes : inventory.totalBytes.toNat = start.bytes
  categories : ∀ name, name ∈ inventory.bytesByCategory.names ↔
    ∃ entry ∈ inventory.files, (FileCategory.ofPath entry.path).name = name
  shares : ∀ category bytes, inventory.bytesByCategory.get? category.name = some bytes →
    bytes.toNat = ((inventory.files.filter fun entry =>
      FileCategory.ofPath entry.path = category).map (·.size.toNat)).sum
  balance : inventory.bytesByCategory.sum = inventory.totalBytes.toNat

section Build
variable {entries : List (String × Node)}

/-- The entries of the files below a directory, in the order in which they are visited. -/
def listing (root : String) (entries : List (String × Node)) : List InventoryEntry :=
  (Node.files root [] (.directory entries)).map InventoryEntry.ofVisited

theorem sum_listing (root : String) (hbytes : (Node.directory entries).bytes < UInt64.size) :
    ((listing root entries).map (·.size.toNat)).sum = (Node.directory entries).bytes := by
  rw [listing,List.map_map,← Node.sum_lengths_files root []]
  refine congrArg List.sum (List.map_congr_left fun file hfile => ?_)
  exact (describes_ofVisited ((Node.length_le_bytes hfile).trans_lt hbytes)).size

variable (hsound : (Node.directory entries).IsSound)
include hsound

theorem nodup_paths_listing (root : String) : ((listing root entries).map (·.path)).Nodup := by
  rw [listing,List.map_map]
  refine List.pairwise_map.mpr ((Node.pairwise_files hsound root []).imp_of_mem ?_)
  intro a b ha hb hlt hpath
  obtain ⟨below,octets,hfile,rfl⟩ := (Node.mem_files_iff hsound root [] a).mp ha
  obtain ⟨below',octets',hfile',rfl⟩ := (Node.mem_files_iff hsound root [] b).mp hb
  simp only [Function.comp_apply,path_ofVisited,List.nil_append] at hpath hlt
  rw [hfile.ext hfile' hsound hpath] at hlt
  exact List.lt_irrefl _ hlt

variable (hbytes : (Node.directory entries).bytes < UInt64.size)
include hbytes

theorem mem_listing_iff (root : String) (entry : InventoryEntry) :
    entry ∈ listing root entries ↔
      ∃ below octets, (Node.directory entries).HoldsFile below octets ∧
        entry.Describes below octets := by
  have hdescribes : ∀ file ∈ Node.files root [] (.directory entries),
      (InventoryEntry.ofVisited file).Describes file.relative file.octets := fun file hfile =>
    describes_ofVisited ((Node.length_le_bytes hfile).trans_lt hbytes)
  rw [listing,List.mem_map]
  constructor
  · rintro ⟨file,hfile,rfl⟩
    obtain ⟨below,octets,hholds,rfl⟩ := (Node.mem_files_iff hsound root [] file).mp hfile
    exact ⟨below,octets,hholds,hdescribes _ hfile⟩
  · rintro ⟨below,octets,hholds,hentry⟩
    have hfile := (Node.mem_files_iff hsound root [] _).mpr ⟨below,octets,hholds,rfl⟩
    exact ⟨_,hfile,(hdescribes _ hfile).unique hentry⟩

theorem isComplete_ofVisited (root : String) (archive : Option (Option String × Size)) :
    (ofVisited (Node.files root [] (.directory entries)) archive).IsComplete
      (.directory entries) := by
  let inventory := ofVisited (Node.files root [] (.directory entries)) archive
  have hperm : inventory.files.Perm (listing root entries) := List.mergeSort_perm ..
  have hlisted : ∀ entry, entry ∈ inventory.files ↔ _ := fun entry =>
    hperm.mem_iff.trans (mem_listing_iff hsound hbytes root entry)
  have hpaths := nodup_paths_listing hsound root
  have hordered : inventory.files.Pairwise Comes := pairwise_comes hpaths
  have hamount : (inventory.files.map (·.size.toNat)).sum = (Node.directory entries).bytes :=
    ((hperm.map _).sum_nat).trans (sum_listing root hbytes)
  have hlimit := hamount ▸ hbytes
  have htotal : inventory.totalBytes.toNat = (inventory.files.map (·.size.toNat)).sum :=
    toNat_foldl_size hlimit
  have hcategory : ∀ entry ∈ inventory.files, entry.category = .ofPath entry.path := by
    intro entry hentry
    obtain ⟨_,_,_,hdescribed⟩ := (hlisted entry).mp hentry
    exact hdescribed.category
  constructor
  case listed => exact hlisted
  case once => exact (hperm.map _).nodup_iff.mpr hpaths
  case apart => exact fun _ _ _ _ hfile hfile' => hfile.ext hfile' hsound
  case ordered => exact hordered
  case sorts =>
    -- Both ways end in the one order that the entries have.
    intro others hothers
    have hnodup := ((hothers.trans hperm).map (·.path)).nodup_iff.mpr hpaths
    refine eq_of_comes (pairwise_comes_two hnodup) hordered ?_
    exact (List.mergeSort_perm ..).trans ((List.mergeSort_perm ..).trans hothers)
  case top => exact List.take_eq_take_min
  case total => exact htotal
  case bytes => exact htotal.trans hamount
  case categories =>
    intro name
    refine mem_names_categoryBytes_iff.trans (exists_congr fun entry => and_congr_right ?_)
    intro hentry
    rw [hcategory entry hentry]
  case shares =>
    intro category bytes hshare
    rw [toNat_of_get?_categoryBytes hlimit hshare]
    refine congrArg List.sum (congrArg (List.map _) (List.filter_congr fun entry hentry => ?_))
    rw [hcategory entry hentry]
  case balance => exact (sum_categoryBytes hlimit).trans htotal.symm

end Build

/-- **Every directory has a complete inventory:** files are listed once, in one order, and their bytes
balance. -/
theorem exists_complete_build {tree : Node} {root : String} {entries : List (String × Node)}
    {archive : Option String} (htree : tree.IsSound)
    (hroot : tree.find root = .ok (.directory entries))
    (hbytes : (Node.directory entries).bytes < UInt64.size)
    (harchive : ∀ path ∈ archive, ∃ size, tree.size path = .ok size) :
    ∃ inventory, build tree root archive = .ok inventory ∧
      inventory.IsComplete (.directory entries) := by
  obtain ⟨place,_,hplace⟩ := Node.find_eq_ok_iff.mp hroot
  have hcomplete := isComplete_ofVisited (htree.of_at? hplace) hbytes root
  have hwalk := Node.walk_eq_of_find hroot
  cases archive with
  | none => exact ⟨_,by rw [build,hwalk]; rfl,hcomplete none⟩
  | some path =>
    obtain ⟨size,hsize⟩ := harchive path rfl
    exact ⟨_,by rw [build,hwalk]; simp only [Except.mapError,bind,Except.bind,hsize]; rfl,
      hcomplete (some (Path.fileName? path,size))⟩

/-- An archive and a directory with two files and a link. -/
theorem exists_complete_build_two :
    let entries : List (String × Node) :=
      [("b.py",.file [1,2] false),("a",.directory [("x.so",.file [3] true)]),("l",.link "b.py")]
    let tree : Node := .directory [("p",.directory entries),("w.whl",.file [7] false)]
    tree.IsSound ∧ tree.find "p" = .ok (.directory entries) ∧
      (Node.directory entries).bytes < UInt64.size ∧
      (∀ path ∈ some "w.whl", ∃ size, tree.size path = .ok size) ∧
      ∃ inventory, build tree "p" (some "w.whl") = .ok inventory ∧
        inventory.IsComplete (.directory entries) := by
  intro entries tree
  have htree : tree.IsSound := by
    simp [tree,entries,Node.isSound_directory_iff,Node.isSound_file,Node.isSound_link]
    decide
  have hroot : tree.find "p" = .ok (.directory entries) :=
    Node.find_eq_ok_iff.mpr ⟨["p"],Node.locate_eq_ok_iff.mpr ⟨by decide,
      .enter (by decide) (by decide) rfl (.here _ _)⟩,rfl⟩
  have hbytes : (Node.directory entries).bytes < UInt64.size := by decide
  have harchive : ∀ path ∈ some "w.whl", ∃ size, tree.size path = .ok size := by
    rintro _ ⟨⟩
    have hfind : tree.find "w.whl" = .ok (.file [7] false) :=
      Node.find_eq_ok_iff.mpr ⟨["w.whl"],Node.locate_eq_ok_iff.mpr ⟨by decide,
        .file (by decide) (by decide) rfl⟩,rfl⟩
    exact ⟨1,by rw [Node.size,hfind]; rfl⟩
  exact ⟨htree,hroot,hbytes,harchive,exists_complete_build htree hroot hbytes harchive⟩

end Inventory

end SizeSurvey
