import Mathlib.Data.List.TakeWhile
import SizeSurvey.Inventory.Category
import SizeSurvey.Proofs.Text.Occurrence

/-! # Kinds of files

What sets the files of a kind apart by their paths. Every path tells one kind, and this is the kind that
its file is given.
-/
namespace SizeSurvey

/-- The extension of a name stands behind its last point, which does not begin the name. -/
theorem Path.extension?_eq_some_iff {name extension : String} :
    extension? name = some extension ↔
      ∃ stem, stem ≠ [] ∧ '.' ∉ extension.toList ∧ name.toList = stem ++ '.' :: extension.toList := by
  unfold extension?
  constructor
  · intro h
    have hcut := List.takeWhile_append_dropWhile (p := (· ≠ '.')) (l := name.toList.reverse)
    dsimp only at h
    split at h
    next c rest hrest =>
      cases h
      rw [hrest] at hcut
      refine ⟨(c :: rest).reverse,by simp,?_,?_⟩
      · intro hmem
        rw [String.toList_ofList,List.mem_reverse] at hmem
        have hother := List.mem_takeWhile_imp hmem
        cases hother
      · apply List.reverse_inj.mp
        refine hcut.symm.trans ?_
        simp
    next => cases h
  · rintro ⟨stem,hstem,hpoint,hname⟩
    have hreverse : name.toList.reverse = extension.toList.reverse ++ '.' :: stem.reverse := by
      simp [hname]
    have hrun : ∀ c ∈ extension.toList.reverse, decide (c ≠ '.') = true := by
      intro c hc
      exact decide_eq_true fun h => hpoint (h ▸ List.mem_reverse.mp hc)
    have hend : ∀ c ∈ ('.' :: stem.reverse).head?, decide (c ≠ '.') = false := by simp
    obtain ⟨c,rest,hrest⟩ := List.exists_cons_of_ne_nil (mt List.reverse_eq_nil_iff.mp hstem)
    dsimp only
    rw [hreverse,Text.dropWhile_run hrun hend,Text.takeWhile_run hrun hend,hrest]
    simp

namespace FileCategory

theorem endsWith_iff {finish text : String} :
    endsWith finish text = true ↔ finish.toList <:+ text.toList := by
  rw [endsWith,Option.isSome_iff_exists]
  constructor
  · rintro ⟨before,hbefore⟩
    exact ⟨before,(Text.beforeEnd?_eq_some_iff.mp hbefore).symm⟩
  · rintro ⟨before,hbefore⟩
    exact ⟨before,Text.beforeEnd?_eq_some_iff.mpr hbefore.symm⟩

/-- A file with a directory of metadata on its way, or one that is named like such a directory. -/
def LiesInMetadata (path : String) : Prop :=
  ∃ name ∈ Path.names path, ".dist-info".toList <:+ name.toList

/-- A file below the libraries that a package carries. -/
def LiesInPayload (path : String) : Prop :=
  (∃ name ∈ Path.names path, ".data".toList <:+ name.toList) ∧ "lib" ∈ Path.names path

def IsScript (path : String) : Prop :=
  ∃ name stem, Path.fileName? path = some name ∧ stem ≠ [] ∧ name.toList = stem ++ ".py".toList

/-- How the path of a file tells its kind. -/
inductive Tells (path : String) : FileCategory → Prop
  | metadata (hmetadata : LiesInMetadata path) : Tells path .metadata
  | sharedLibrary (hmetadata : ¬LiesInMetadata path) (hpayload : LiesInPayload path)
      (hname : hasSharedObjectSuffix ((Path.names path).getLast?.getD "") = true) :
    Tells path .sharedLibrary
  | nativePayload (hmetadata : ¬LiesInMetadata path) (hpayload : LiesInPayload path)
      (hname : ¬hasSharedObjectSuffix ((Path.names path).getLast?.getD "") = true) :
    Tells path .nativePayload
  | python (hmetadata : ¬LiesInMetadata path) (hpayload : ¬LiesInPayload path)
      (hscript : IsScript path) : Tells path .python
  | other (hmetadata : ¬LiesInMetadata path) (hpayload : ¬LiesInPayload path)
      (hscript : ¬IsScript path) : Tells path .other

variable {path : String} {category : FileCategory}

theorem any_endsWith_iff {finish : String} : (Path.names path).any (endsWith finish) = true ↔
    ∃ name ∈ Path.names path, finish.toList <:+ name.toList := by
  simp only [List.any_eq_true,endsWith_iff]

theorem isScript_iff : (Path.fileName? path).bind Path.extension? = some "py" ↔ IsScript path := by
  rw [Option.bind_eq_some_iff]
  refine exists_congr fun name => ?_
  rw [Path.extension?_eq_some_iff,← exists_and_left]
  refine exists_congr fun stem => and_congr_right fun _ => and_congr_right fun _ => ?_
  exact and_iff_right (by decide)

theorem tells_ofPath (path : String) : Tells path (ofPath path) := by
  have hmetadata : (Path.names path).any (endsWith ".dist-info") = true ↔ LiesInMetadata path :=
    any_endsWith_iff
  have hpayload : ((Path.names path).any (endsWith ".data") && (Path.names path).contains "lib") =
      true ↔ LiesInPayload path := by
    rw [Bool.and_eq_true,any_endsWith_iff,List.contains_iff_mem,LiesInPayload]
  unfold ofPath
  dsimp only
  split
  next h => exact Tells.metadata (hmetadata.mp h)
  next hnot =>
    rw [hmetadata] at hnot
    split
    next h =>
      rw [hpayload] at h
      split
      next hname => exact Tells.sharedLibrary hnot h hname
      next hname => exact Tells.nativePayload hnot h hname
    next hnone =>
      rw [hpayload] at hnone
      split
      next h => exact Tells.python hnot hnone (isScript_iff.mp h)
      next h => exact Tells.other hnot hnone (mt isScript_iff.mpr h)

theorem Tells.unique {category' : FileCategory} (h : Tells path category)
    (h' : Tells path category') : category = category' := by
  cases h <;> cases h' <;> first | rfl | contradiction

/-- **The kind of a file** is the one that its path tells. -/
theorem ofPath_eq_iff : ofPath path = category ↔ Tells path category := by
  constructor
  · rintro rfl
    exact tells_ofPath path
  · exact (tells_ofPath path).unique

end FileCategory

end SizeSurvey
