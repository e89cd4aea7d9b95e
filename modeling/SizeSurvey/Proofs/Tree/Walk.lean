import SizeSurvey.Inventory
import SizeSurvey.Proofs.Tree.Path

/-! # Files of a walk

Every file of a walk but the start itself is reached by a name in a directory, and that name is the
last of the names that lead to it.
-/
namespace SizeSurvey

namespace Node

/-- How a path and the names from the start belong together. -/
def Reached (start path : String) (relative : List String) : Prop :=
  (path = start ∧ relative = []) ∨
    ∃ directory name, path = Path.child directory name ∧ relative.getLast? = some name

theorem reached_files (start path : String) (relative : List String) (node : Node)
    (h : Reached start path relative) :
    ∀ visited ∈ files path relative node, Reached start visited.path visited.relative := by
  refine files.induct (fun path relative node => Reached start path relative →
      ∀ visited ∈ files path relative node, Reached start visited.path visited.relative)
    (fun path relative entries => ∀ pair ∈ filesOfEntries path relative entries,
      ∀ visited ∈ pair.2, Reached start visited.path visited.relative)
    ?file ?directory ?link ?nil ?cons path relative node h
  case file =>
    intro path relative octets executable h visited hvisited
    rw [files] at hvisited
    rw [List.mem_singleton.mp hvisited]
    exact h
  case directory =>
    intro path relative entries ih _ visited hvisited
    rw [files] at hvisited
    obtain ⟨pair,hpair,hvisited⟩ := List.mem_flatMap.mp hvisited
    exact ih pair (List.mem_mergeSort.mp hpair) visited hvisited
  case link =>
    intro path relative target _ visited hvisited
    rw [files] at hvisited
    cases hvisited
  case nil =>
    intro path relative pair hpair
    rw [filesOfEntries] at hpair
    cases hpair
  case cons =>
    intro path relative name node rest ihnode ihrest pair hpair
    rw [filesOfEntries] at hpair
    rcases List.mem_cons.mp hpair with rfl | hpair
    · exact ihnode (Or.inr ⟨path,name,rfl,List.getLast?_concat⟩)
    · exact ihrest pair hpair

theorem walk_eq_files {root : Node} {path : String} {visited : List Visited}
    (h : root.walk path = .ok visited) : visited = [] ∨ ∃ node, visited = files path [] node := by
  unfold walk at h
  cases hstart : root.find path false with
  | error trouble => rw [hstart] at h; cases h
  | ok start =>
    rw [hstart] at h
    cases start with
    | file octets executable => exact Or.inr ⟨_,(Except.ok.inj h).symm⟩
    | directory entries => exact Or.inr ⟨_,(Except.ok.inj h).symm⟩
    | link target =>
      cases hend : root.find path with
      | error trouble => simp [bind,Except.bind,hend] at h
      | ok found =>
        simp only [bind,Except.bind,hend] at h
        cases found with
        | directory entries => exact Or.inr ⟨_,(Except.ok.inj h).symm⟩
        | file _ _ => exact Or.inl (Except.ok.inj h).symm
        | link _ => exact Or.inl (Except.ok.inj h).symm

end Node

/-- **Discovered libraries have names of shared objects.** -/
theorem isLibraryName_of_discover {tree : Node} {root : String} {libraries : List String}
    (h : discover tree root = .ok libraries) :
    ∀ path ∈ libraries, IsLibraryName (Path.fileName path) := by
  cases hwalk : tree.walk root with
  | error trouble => simp [discover,hwalk] at h
  | ok visited =>
    simp only [discover,hwalk] at h
    split at h
    · cases h
    cases h
    intro path hpath
    obtain ⟨file,hfile,rfl⟩ := List.mem_map.mp hpath
    obtain ⟨hmem,hsuffix⟩ := List.mem_filter.mp hfile
    have hend := endsLikeLibrary_of_suffix hsuffix
    have hreached : Node.Reached root file.path file.relative := by
      rcases Node.walk_eq_files hwalk with rfl | ⟨node,rfl⟩
      · cases hmem
      · exact Node.reached_files root root [] node (Or.inl ⟨rfl,rfl⟩) file hmem
    rcases hreached with ⟨hpath,hrelative⟩ | ⟨directory,name,hpath,hrelative⟩
    · rw [hpath]
      rw [hrelative] at hend
      exact isLibraryName_fileName hend
    · rw [hrelative,Option.getD_some] at hend
      obtain ⟨c,hlast,hc⟩ := hend
      obtain ⟨slash,hchild⟩ := Path.exists_toList_child directory name
      refine isLibraryName_of_path ⟨c,?_,hc⟩
      rw [hpath,hchild,List.getLast?_append,List.getLast?_append,hlast]
      rfl

end SizeSurvey
