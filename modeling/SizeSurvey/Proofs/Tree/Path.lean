import SizeSurvey.Inventory.Category
import SizeSurvey.Proofs.Text.Cutting

/-! # Names in paths

The pieces of a path that was put together from a directory and a name, and the name at the end of a
path that ends like a shared object.
-/
namespace SizeSurvey

namespace Path

/-- The last piece of a path is what stands behind its last slash. -/
theorem exists_last_piece (path : String) :
    ∃ front piece, pieces path = front ++ [piece] ∧ '/' ∉ piece.toList ∧
      (path.toList = piece.toList ∨ ∃ before, path.toList = before ++ '/' :: piece.toList) := by
  obtain ⟨front,piece,hsplit,hpiece,htext⟩ := Text.exists_last_piece '/' path.toList
  refine ⟨front.map String.ofList,String.ofList piece,?_,?_,?_⟩
  · rw [pieces,hsplit,List.map_append,List.map_singleton]
  · rwa [String.toList_ofList]
  · rwa [String.toList_ofList]

theorem not_mem_of_mem_pieces {path piece : String} (h : piece ∈ pieces path) :
    '/' ∉ piece.toList := by
  obtain ⟨text,htext,rfl⟩ := List.mem_map.mp h
  rw [String.toList_ofList]
  exact Text.not_mem_of_mem_splitAt text htext

/-- The pieces of a path of a name in a directory. The path of the directory may end with a slash,
which is then not doubled. -/
theorem pieces_child {directory name : String} (hdirectory : directory ≠ "")
    (hname : '/' ∉ name.toList) :
    ∃ front, pieces (child directory name) = front ++ [name] ∧
      (pieces directory = front ∨ pieces directory = front ++ [""]) := by
  unfold child
  split
  next h =>
    obtain ⟨front,hfront⟩ := List.getLast?_eq_some_iff.mp (h.resolve_left hdirectory)
    refine ⟨(Text.splitAt '/' front).map String.ofList,?_,Or.inr ?_⟩
    · rw [pieces,String.toList_append,hfront,List.append_assoc,List.singleton_append,
        Text.splitAt_append,Text.splitAt_of_not_mem hname,List.map_append,List.map_singleton,
        String.ofList_toList]
    · rw [pieces,hfront,Text.splitAt_append,List.map_append]
      rfl
  next =>
    refine ⟨pieces directory,?_,Or.inl rfl⟩
    have hslash : "/".toList ++ name.toList = '/' :: name.toList := rfl
    rw [pieces,String.toList_append,String.toList_append,List.append_assoc,hslash,
      Text.splitAt_append,Text.splitAt_of_not_mem hname,List.map_append,List.map_singleton,
      String.ofList_toList]
    rfl

theorem exists_pieces_child (directory : String) {name : String} (hname : '/' ∉ name.toList) :
    ∃ front, pieces (child directory name) = front ++ [name] := by
  by_cases hdirectory : directory = ""
  · refine ⟨[],?_⟩
    rw [child,if_pos (Or.inl hdirectory),hdirectory,String.empty_append,pieces,
      Text.splitAt_of_not_mem hname,List.map_singleton,String.ofList_toList]
    rfl
  · obtain ⟨front,hfront,_⟩ := pieces_child hdirectory hname
    exact ⟨front,hfront⟩

theorem exists_toList_child (directory name : String) :
    ∃ slash, (child directory name).toList = directory.toList ++ (slash ++ name.toList) := by
  unfold child
  split
  · exact ⟨[],String.toList_append⟩
  · exact ⟨['/'],by rw [String.toList_append,String.toList_append,List.append_assoc]; rfl⟩

theorem mem_pieces_of_mem_steps {path name : String} (h : Step.name name ∈ steps path) :
    name ∈ pieces path := by
  unfold steps at h
  rcases List.mem_append.mp h with h | h
  · split at h <;> simp at h
  · obtain ⟨piece,hpiece,hstep⟩ := List.mem_map.mp h
    rw [step] at hstep
    split at hstep
    · cases hstep
    · cases hstep
      exact (List.mem_filter.mp hpiece).1

theorem not_mem_of_fileName? {path name : String} (h : fileName? path = some name) :
    '/' ∉ name.toList := by
  unfold fileName? at h
  split at h
  next text hlast =>
    cases h
    exact not_mem_of_mem_pieces (mem_pieces_of_mem_steps (List.mem_of_getLast? hlast))
  next => cases h

/-- A path that ends neither with a slash nor with a point ends with a name. -/
theorem fileName?_of_getLast? {path : String} {c : Char} (h : path.toList.getLast? = some c)
    (hslash : c ≠ '/') (hpoint : c ≠ '.') :
    ∃ name, fileName? path = some name ∧ name.toList.getLast? = some c := by
  obtain ⟨front,piece,hpieces,_,htext⟩ := exists_last_piece path
  have hlast : piece.toList.getLast? = some c := by
    rcases htext with htext | ⟨before,htext⟩
    · rwa [htext] at h
    · rw [htext,List.getLast?_append,List.getLast?_cons] at h
      cases hpiece : piece.toList.getLast? with
      | none => simp [hpiece,Ne.symm hslash] at h
      | some d => simpa [hpiece] using h
  have hne : ∀ text : String, text.toList.getLast? ≠ some c → piece ≠ text := by
    rintro text htext rfl
    exact htext hlast
  have hstep : isStep piece = true := by
    simp [isStep,hne "" (by simp),hne "." (by simpa using Ne.symm hpoint)]
  have hname : step piece = .name piece := if_neg (hne ".." (by simpa using Ne.symm hpoint))
  refine ⟨piece,?_,hlast⟩
  rw [fileName?,steps,hpieces]
  simp [hstep,hname]

end Path

/-- A name that ends like a shared object or its version. -/
def EndsLikeLibrary (name : String) : Prop :=
  ∃ c, name.toList.getLast? = some c ∧ (c = 'o' ∨ Text.isDigit c = true)

theorem endsLikeLibrary_of_suffix {name : String} (h : hasSharedObjectSuffix name = true) :
    EndsLikeLibrary name := by
  obtain ⟨front,piece,hsplit,_,htext⟩ := Text.exists_last_piece '.' name.toList
  have hpiece : ∃ c, piece.getLast? = some c ∧ (c = 'o' ∨ Text.isDigit c = true) := by
    unfold hasSharedObjectSuffix at h
    split at h
    next => cases h
    next found versions hfound =>
      have hhead := List.head?_dropWhile_not (· ≠ ['s','o']) (Text.splitAt '.' name.toList).tail
      have hso : found = ['s','o'] := by
        rw [hfound] at hhead
        simpa using hhead
      obtain ⟨before,hbefore⟩ := (List.dropWhile_suffix (· ≠ ['s','o'])).trans
        (List.tail_suffix (Text.splitAt '.' name.toList))
      rw [hfound,hsplit] at hbefore
      have hlast := congrArg List.getLast? hbefore
      rw [List.getLast?_concat,List.getLast?_append,List.getLast?_cons,Option.some_or,
        Option.some_inj] at hlast
      cases hversions : versions.getLast? with
      | none =>
        rw [hversions,hso] at hlast
        exact ⟨'o',by rw [← hlast]; rfl,Or.inl rfl⟩
      | some version =>
        rw [hversions] at hlast
        have hversion := List.all_eq_true.mp h version (List.mem_of_getLast? hversions)
        obtain ⟨hne,hdigits⟩ := Bool.and_eq_true_iff.mp hversion
        have hne : version ≠ [] := by simpa using hne
        rw [← hlast]
        exact ⟨_,List.getLast?_eq_some_getLast hne,
          Or.inr (List.all_eq_true.mp hdigits _ (List.getLast_mem hne))⟩
  obtain ⟨c,hlast,hc⟩ := hpiece
  refine ⟨c,?_,hc⟩
  rcases htext with htext | ⟨before,htext⟩
  · rwa [htext]
  · rw [htext,List.getLast?_append,List.getLast?_cons,hlast]
    rfl

/-- A name at the end of a path to a library. -/
structure IsLibraryName (name : String) : Prop where
  no_slash : '/' ∉ name.toList
  ends_like_library : EndsLikeLibrary name

theorem isLibraryName_of_path {path : String} (h : EndsLikeLibrary path) :
    IsLibraryName (Path.fileName path) := by
  obtain ⟨c,hlast,hc⟩ := h
  have hslash : c ≠ '/' := by rintro rfl; rcases hc with hc | hc <;> cases hc
  have hpoint : c ≠ '.' := by rintro rfl; rcases hc with hc | hc <;> cases hc
  obtain ⟨name,hname,hend⟩ := Path.fileName?_of_getLast? hlast hslash hpoint
  rw [Path.fileName,hname,Option.getD_some]
  exact ⟨Path.not_mem_of_fileName? hname,c,hend,hc⟩

theorem isLibraryName_fileName {path : String} (h : EndsLikeLibrary (Path.fileName path)) :
    IsLibraryName (Path.fileName path) := by
  cases hname : Path.fileName? path with
  | none =>
    rw [Path.fileName,hname,Option.getD_none] at h
    exact isLibraryName_of_path h
  | some name =>
    rw [Path.fileName,hname,Option.getD_some] at h ⊢
    exact ⟨Path.not_mem_of_fileName? hname,h⟩

end SizeSurvey
