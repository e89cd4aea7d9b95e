import Mathlib.Algebra.Order.BigOperators.Group.List
import Mathlib.Algebra.Order.Ring.Nat
import SizeSurvey.Proofs.Text.Occurrence
import SizeSurvey.Proofs.Tree.Keeping
import SizeSurvey.Tree.Walk

/-! # What a walk lists

A walk from a directory visits every file below it once, and nothing else. It visits them in the
order of the names that lead to them, compared name by name.
-/
namespace SizeSurvey

theorem Path.pieces_intercalate {names : List String} (hne : names ≠ [])
    (hnames : ∀ name ∈ names, '/' ∉ name.toList) : pieces ("/".intercalate names) = names := by
  obtain ⟨first,rest,rfl⟩ := List.exists_cons_of_ne_nil hne
  obtain ⟨hfirst,hrest⟩ := List.forall_mem_cons.mp hnames
  have hjoined : ("/".intercalate (first :: rest)).toList =
      first.toList ++ (rest.map String.toList).flatMap ('/' :: ·) := by
    rw [String.toList_intercalate,← Text.join_eq_intercalate,List.map_cons,Text.join_cons]
    rfl
  have hslash : ∀ piece ∈ rest.map String.toList, '/' ∉ piece := List.forall_mem_map.mpr hrest
  have hsplit := Text.splitAt_pieces hfirst hslash
  rw [pieces,hjoined,hsplit,List.map_cons,List.map_map,String.ofList_toList]
  simp [Function.comp_def]

namespace Node
open NameMap
variable {root node : Node} {entries : List (String × Node)}

/-! ## Trees with proper names -/

/-- A tree whose directories hold entries with distinct names, each a step of its own. -/
def IsSound (node : Node) : Prop :=
  ∀ place entries, node.at? place = some (.directory entries) →
    (entries.map Prod.fst).Nodup ∧ ∀ entry ∈ entries, IsEntryName entry.1

/-- A file with some octets where the names below a node lead to. -/
def HoldsFile (node : Node) (below : List String) (octets : List UInt8) : Prop :=
  ∃ executable, node.at? below = some (.file octets executable)

theorem IsSound.of_at? (h : root.IsSound) {place : List String}
    (hplace : root.at? place = some node) : node.IsSound := by
  intro below entries hbelow
  refine h (place ++ below) entries ?_
  rw [at?_append,hplace,Option.bind_some,hbelow]

theorem IsSound.lookup (h : (directory entries).IsSound) {entry : String × Node}
    (hentry : entry ∈ entries) : entries.lookup entry.1 = some entry.2 :=
  lookup_of_mem (h [] entries rfl).1 hentry

theorem IsSound.entry (h : (directory entries).IsSound) {entry : String × Node}
    (hentry : entry ∈ entries) : entry.2.IsSound := by
  have hplace : (directory entries).at? [entry.1] = some entry.2 := by
    rw [at?_cons,child?,h.lookup hentry]
    rfl
  exact h.of_at? hplace

/-- The names that lead from a sound tree to anything in it are names of entries. -/
theorem IsSound.names (h : node.IsSound) {place : List String} {found : Node}
    (hfound : node.at? place = some found) : ∀ name ∈ place, IsEntryName name := by
  induction place generalizing node with
  | nil => simp
  | cons name rest ih =>
    cases node with
    | file _ _ => cases hfound
    | link _ => cases hfound
    | directory entries =>
      rw [at?_cons,child?] at hfound
      obtain ⟨child,hlookup,hchild⟩ := Option.bind_eq_some_iff.mp hfound
      have hentry := mem_of_lookup hlookup
      exact List.forall_mem_cons.mpr ⟨(h [] entries rfl).2 _ hentry,ih (h.entry hentry) hchild⟩

/-- The names that lead to a file in a directory are got back from its path. -/
theorem HoldsFile.pieces {below : List String} {octets : List UInt8}
    (hfile : (directory entries).HoldsFile below octets) (h : (directory entries).IsSound) :
    Path.pieces ("/".intercalate below) = below := by
  obtain ⟨executable,hfound⟩ := hfile
  refine Path.pieces_intercalate ?_ fun name hname => (h.names hfound name hname).no_slash
  rintro rfl
  cases hfound

/-- Files in a directory with the same path are the same file. -/
theorem HoldsFile.ext {below below' : List String} {octets octets' : List UInt8}
    (hfile : (directory entries).HoldsFile below octets)
    (hfile' : (directory entries).HoldsFile below' octets') (h : (directory entries).IsSound)
    (hpath : "/".intercalate below = "/".intercalate below') : below = below' := by
  rw [← hfile.pieces h,hpath,hfile'.pieces h]

/-- **A tree is sound** if it is so directory by directory. -/
theorem isSound_directory_iff : (directory entries).IsSound ↔
    (entries.map Prod.fst).Nodup ∧ (∀ entry ∈ entries, IsEntryName entry.1) ∧
      ∀ entry ∈ entries, entry.2.IsSound := by
  constructor
  · intro h
    obtain ⟨hnodup,hnames⟩ := h [] entries rfl
    exact ⟨hnodup,hnames,fun _ => h.entry⟩
  · rintro ⟨hnodup,hnames,hentries⟩ place held hplace
    cases place with
    | nil => cases hplace; exact ⟨hnodup,hnames⟩
    | cons name rest =>
      rw [at?_cons,child?] at hplace
      obtain ⟨child,hlookup,hchild⟩ := Option.bind_eq_some_iff.mp hplace
      exact hentries _ (mem_of_lookup hlookup) rest held hchild

theorem isSound_file (octets : List UInt8) (executable : Bool) : (file octets executable).IsSound := by
  intro place entries hplace
  cases place <;> cases hplace

theorem isSound_link (target : String) : (link target).IsSound := by
  intro place entries hplace
  cases place <;> cases hplace

/-- What a property of trees needs: that it holds of files and links, and of a directory if it holds
of all entries. -/
theorem forall_of_entries {property : Node → Prop}
    (hfile : ∀ octets executable, property (.file octets executable))
    (hlink : ∀ target, property (.link target))
    (hdirectory : ∀ entries : List (String × Node), (∀ entry ∈ entries, property entry.2) →
      property (.directory entries)) (node : Node) : property node := by
  refine Node.rec (motive_2 := fun entries => ∀ entry ∈ entries, property entry.2)
    (motive_3 := fun entry => property entry.2) hfile hdirectory hlink ?nil ?cons ?pair node
  case nil => simp
  case cons =>
    intro entry rest hentry hrest
    exact List.forall_mem_cons.mpr ⟨hentry,hrest⟩
  case pair => exact fun _ _ h => h

/-! ## The files of a directory -/

theorem filesOfEntries_eq_map (path : String) (relative : List String)
    (entries : List (String × Node)) :
    filesOfEntries path relative entries = entries.map fun entry =>
      (entry.1,files (Path.child path entry.1) (relative ++ [entry.1]) entry.2) := by
  induction entries with
  | nil => rw [filesOfEntries,List.map_nil]
  | cons entry rest ih => rw [filesOfEntries,ih,List.map_cons]

/-- Entries in the order of their names. -/
def ordered (entries : List (String × Node)) : List (String × Node) :=
  entries.mergeSort fun a b => a.1 ≤ b.1

theorem files_directory (path : String) (relative : List String) (entries : List (String × Node)) :
    files path relative (directory entries) = (ordered entries).flatMap fun entry =>
      files (Path.child path entry.1) (relative ++ [entry.1]) entry.2 := by
  let below (entry : String × Node) : String × List Visited :=
    (entry.1,files (Path.child path entry.1) (relative ++ [entry.1]) entry.2)
  have hsort : (ordered entries).map below = (entries.map below).mergeSort fun a b => a.1 ≤ b.1 :=
    List.map_mergeSort fun _ _ _ _ => rfl
  rw [files,filesOfEntries_eq_map,← hsort,List.flatMap_map]

theorem pairwise_ordered (hnodup : (entries.map Prod.fst).Nodup) :
    (ordered entries).Pairwise fun a b => a.1 < b.1 :=
  pairwise_lt_mergeSort Prod.fst hnodup

/-- **A walk visits exactly the files below its start.** -/
theorem mem_files_iff (h : node.IsSound) (path : String) (relative : List String)
    (visited : Visited) : visited ∈ files path relative node ↔
      ∃ below octets, node.HoldsFile below octets ∧
        visited = ⟨below.foldl Path.child path,relative ++ below,octets⟩ := by
  induction node using forall_of_entries generalizing path relative with
  | hfile octets executable =>
    rw [files,List.mem_singleton]
    constructor
    · rintro rfl
      exact ⟨[],octets,⟨executable,rfl⟩,by rw [List.append_nil]; rfl⟩
    · rintro ⟨below,held,⟨mode,hfound⟩,rfl⟩
      cases below with
      | nil => cases hfound; rw [List.append_nil]; rfl
      | cons name rest => cases hfound
  | hlink target =>
    rw [files]
    refine iff_of_false List.not_mem_nil ?_
    rintro ⟨below,held,⟨mode,hfound⟩,rfl⟩
    cases below <;> cases hfound
  | hdirectory entries ih =>
    -- The first name below a directory is that of the entry in which the walk goes on.
    rw [files_directory,List.mem_flatMap]
    constructor
    · rintro ⟨entry,hentry,hvisited⟩
      rw [ordered,List.mem_mergeSort] at hentry
      obtain ⟨below,octets,⟨executable,hfound⟩,rfl⟩ :=
        (ih entry hentry (h.entry hentry) _ _).mp hvisited
      refine ⟨entry.1 :: below,octets,⟨executable,?_⟩,by simp⟩
      rw [at?_cons,child?,h.lookup hentry]
      exact hfound
    · rintro ⟨below,octets,⟨executable,hfound⟩,rfl⟩
      cases below with
      | nil => cases hfound
      | cons name rest =>
        rw [at?_cons,child?] at hfound
        obtain ⟨child,hlookup,hchild⟩ := Option.bind_eq_some_iff.mp hfound
        have hentry : (name,child) ∈ entries := mem_of_lookup hlookup
        refine ⟨(name,child),List.mem_mergeSort.mpr hentry,?_⟩
        refine (ih _ hentry (h.entry hentry) _ _).mpr ⟨rest,octets,⟨executable,hchild⟩,?_⟩
        simp

/-- **A walk goes in the order of the names from its start,** compared name by name. -/
theorem pairwise_files (h : node.IsSound) (path : String) (relative : List String) :
    (files path relative node).Pairwise fun a b => a.relative < b.relative := by
  induction node using forall_of_entries generalizing path relative with
  | hfile octets executable =>
    rw [files]
    exact List.pairwise_singleton ..
  | hlink target =>
    rw [files]
    exact List.Pairwise.nil
  | hdirectory entries ih =>
    rw [files_directory]
    refine List.pairwise_flatMap.mpr ⟨fun entry hentry => ?_,?_⟩
    · rw [ordered,List.mem_mergeSort] at hentry
      exact ih entry hentry (h.entry hentry) _ _
    -- Files below different entries differ first in the names of the entries.
    · refine (pairwise_ordered (h [] entries rfl).1).imp_of_mem fun {a b} ha hb hab x hx y hy => ?_
      rw [ordered,List.mem_mergeSort] at ha hb
      obtain ⟨below,_,_,rfl⟩ := (mem_files_iff (h.entry ha) _ _ _).mp hx
      obtain ⟨below',_,_,rfl⟩ := (mem_files_iff (h.entry hb) _ _ _).mp hy
      simp only [List.append_assoc,List.singleton_append]
      exact List.append_left_lt (List.cons_lt_cons_iff.mpr (Or.inl hab))

/-! ## The octets of a tree -/

mutual

/-- How many octets the files at and below a node hold. -/
def bytes : Node → Nat
  | file octets _ => octets.length
  | directory entries => bytesOfEntries entries
  | link _ => 0

def bytesOfEntries : List (String × Node) → Nat
  | [] => 0
  | (_,node) :: rest => bytes node + bytesOfEntries rest

end

theorem bytes_directory (entries : List (String × Node)) :
    (directory entries).bytes = (entries.map fun entry => entry.2.bytes).sum := by
  rw [bytes]
  induction entries with
  | nil => rfl
  | cons entry rest ih => rw [bytesOfEntries,ih,List.map_cons,List.sum_cons]

theorem sum_lengths_files (path : String) (relative : List String) (node : Node) :
    ((files path relative node).map fun visited => visited.octets.length).sum = node.bytes := by
  induction node using forall_of_entries generalizing path relative with
  | hfile octets executable => rw [files]; rfl
  | hlink target => rw [files]; rfl
  | hdirectory entries ih =>
    have hperm : (ordered entries).Perm entries := List.mergeSort_perm ..
    rw [files_directory,bytes_directory,List.map_flatMap,List.flatMap,List.sum_flatten,List.map_map,
      ← (hperm.map _).sum_nat]
    refine congrArg List.sum (List.map_congr_left fun entry hentry => ?_)
    exact ih entry (hperm.mem_iff.mp hentry) _ _

theorem length_le_bytes {path : String} {relative : List String} {visited : Visited}
    (h : visited ∈ files path relative node) : visited.octets.length ≤ node.bytes := by
  rw [← sum_lengths_files path relative node]
  exact List.le_sum_of_mem (List.mem_map_of_mem h)

/-! ## The start of a walk -/

/-- Where a path leads if links are followed, it leads too if the last one is not, unless it then
leads to a link. -/
theorem Leads.unfollowed {links : Nat} {here pieces place : List String}
    (h : Leads root true links here pieces place) :
    Leads root false links here pieces place ∨
      ∃ last target, Leads root false links here pieces last ∧
        root.at? last = some (.link target) := by
  induction h with
  | here links place => exact Or.inl (Leads.here links place)
  | skip hskip _ ih =>
    exact ih.imp (Leads.skip hskip) fun ⟨last,target,hlast,hlink⟩ =>
      ⟨last,target,Leads.skip hskip hlast,hlink⟩
  | up _ ih =>
    exact ih.imp Leads.up fun ⟨last,target,hlast,hlink⟩ => ⟨last,target,Leads.up hlast,hlink⟩
  | enter hskip hup hfound _ ih =>
    exact ih.imp (Leads.enter hskip hup hfound) fun ⟨last,target,hlast,hlink⟩ =>
      ⟨last,target,Leads.enter hskip hup hfound hlast,hlink⟩
  | free hskip hup hfound => exact Or.inl (Leads.free hskip hup hfound)
  | file hskip hup hfound => exact Or.inl (Leads.file hskip hup hfound)
  | link _ _ _ hfollow => cases hfollow
  | @jump links here rest place name hskip hup target hfound _ _ ih =>
    cases hrest : rest with
    | nil => exact Or.inr ⟨_,target,Leads.link hskip hup hfound rfl,hfound⟩
    | cons piece more =>
      rw [hrest] at ih
      have hgoes : ¬((piece :: more).isEmpty && !false) = true := by simp
      exact ih.imp (Leads.jump hskip hup hfound hgoes) fun ⟨last,target,hlast,hlink⟩ =>
        ⟨last,target,Leads.jump hskip hup hfound hgoes hlast,hlink⟩

/-- A walk starts in the directory that its path leads to, also through a link. -/
theorem walk_eq_of_find {path : String} (h : root.find path = .ok (.directory entries)) :
    root.walk path = .ok (files path [] (.directory entries)) := by
  obtain ⟨place,hlocated,hplace⟩ := find_eq_ok_iff.mp h
  obtain ⟨hpath,hleads⟩ := locate_eq_ok_iff.mp hlocated
  rcases hleads.unfollowed with hsame | ⟨last,target,hlast,hlink⟩
  · have hfind : root.find path false = .ok (.directory entries) :=
      find_eq_ok_iff.mpr ⟨place,locate_eq_ok_iff.mpr ⟨hpath,hsame⟩,hplace⟩
    rw [walk,hfind]
    rfl
  · have hfind : root.find path false = .ok (.link target) :=
      find_eq_ok_iff.mpr ⟨last,locate_eq_ok_iff.mpr ⟨hpath,hlast⟩,hlink⟩
    simp only [walk,hfind,h,bind,Except.bind]
    rfl

end Node

end SizeSurvey
