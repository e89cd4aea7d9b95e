import Mathlib.Data.List.TakeWhile
import SizeSurvey.Inventory.Category
import SizeSurvey.Proofs.Text.Occurrence

/-! # Names of shared objects

The name of a shared object has a stem, the suffix `.so` and any number of versions behind it. Only such
names are told to be those of shared objects, but not all of them: a stem that has a part `so` itself hides
the suffix at the end.
-/
namespace SizeSurvey

/-! ## Stems -/

/-- A name that is made of a stem, `.so` and versions with a point in front of each. -/
def HasStem (name : String) (stem : List Char) : Prop :=
  ∃ versions : List (List Char), (∀ version ∈ versions, isVersion version = true) ∧
    name.toList = stem ++ (".so".toList ++ versions.flatMap ('.' :: ·))

/-- Whether `so` is a part of a stem, which is not the case if it only stands in front of the first point. -/
def HasInnerSuffix (stem : List Char) : Prop :=
  ['s','o'] ∈ (Text.splitAt '.' stem).tail

instance (stem : List Char) : Decidable (HasInnerSuffix stem) :=
  inferInstanceAs (Decidable (_ ∈ _))

theorem not_mem_of_isVersion {version : List Char} (h : isVersion version = true) : '.' ∉ version := by
  intro hmem
  have hdigits := (Bool.and_eq_true_iff.mp h).2
  exact absurd (List.all_eq_true.mp hdigits '.' hmem) (by decide)

theorem pieces_of_hasStem {stem : List Char} {versions : List (List Char)}
    (h : ∀ version ∈ versions, isVersion version = true) :
    Text.splitAt '.' (stem ++ (".so".toList ++ versions.flatMap ('.' :: ·))) =
      Text.splitAt '.' stem ++ ['s','o'] :: versions := by
  have hsuffix : ".so".toList ++ versions.flatMap ('.' :: ·) =
      '.' :: (['s','o'] ++ versions.flatMap ('.' :: ·)) := rfl
  rw [hsuffix,Text.splitAt_append,
    Text.splitAt_pieces (by decide) fun version hversion => not_mem_of_isVersion (h version hversion)]

/-- What is looked at are the parts behind the first part `so`. -/
theorem hasSharedObjectSuffix_eq {name : String} {front versions : List (List Char)}
    (hparts : (Text.splitAt '.' name.toList).tail = front ++ ['s','o'] :: versions)
    (hfirst : ['s','o'] ∉ front) : hasSharedObjectSuffix name = versions.all isVersion := by
  have hfront : ∀ part ∈ front, decide (part ≠ ['s','o']) = true := fun part hpart =>
    decide_eq_true fun h => hfirst (h ▸ hpart)
  rw [hasSharedObjectSuffix,hparts,List.dropWhile_append_of_pos hfront]
  rfl

theorem hasSharedObjectSuffix_iff_of_hasStem {name : String} {stem : List Char} (h : HasStem name stem) :
    hasSharedObjectSuffix name = true ↔ ¬HasInnerSuffix stem := by
  obtain ⟨versions,hversions,hname⟩ := h
  have hparts : (Text.splitAt '.' name.toList).tail =
      (Text.splitAt '.' stem).tail ++ ['s','o'] :: versions := by
    rw [hname,pieces_of_hasStem hversions,List.tail_append_of_ne_nil (Text.splitAt_ne_nil '.' stem)]
  by_cases hinner : HasInnerSuffix stem
  · -- The part `so` of the end stands behind the one in the stem, and is no version.
    obtain ⟨front,back,hsplit,hfirst⟩ := List.eq_append_cons_of_mem hinner
    rw [hsplit,List.append_assoc,List.cons_append] at hparts
    have hnone : isVersion ['s','o'] = false := rfl
    rw [hasSharedObjectSuffix_eq hparts hfirst,List.all_append,List.all_cons,hnone,Bool.false_and,
      Bool.and_false]
    exact iff_of_false Bool.false_ne_true (not_not_intro hinner)
  · rw [hasSharedObjectSuffix_eq hparts hinner]
    simpa [hinner] using hversions

theorem exists_hasStem {name : String} (h : hasSharedObjectSuffix name = true) :
    ∃ stem, HasStem name stem := by
  obtain ⟨first,rest,hpieces,hname⟩ := Text.exists_pieces '.' name.toList
  have hmem : ['s','o'] ∈ rest := by
    by_contra hnone
    have hnothing : rest.dropWhile (· ≠ ['s','o']) = [] :=
      List.dropWhile_eq_nil_iff.mpr fun part hpart => decide_eq_true fun h => hnone (h ▸ hpart)
    rw [hasSharedObjectSuffix,hpieces,List.tail_cons,hnothing] at h
    cases h
  obtain ⟨front,versions,hsplit,hfirst⟩ := List.eq_append_cons_of_mem hmem
  have hparts : (Text.splitAt '.' name.toList).tail = front ++ ['s','o'] :: versions := by
    rw [hpieces,List.tail_cons,hsplit]
  rw [hasSharedObjectSuffix_eq hparts hfirst] at h
  refine ⟨first ++ front.flatMap ('.' :: ·),versions,List.all_eq_true.mp h,?_⟩
  rw [hname,hsplit,List.flatMap_append,List.flatMap_cons,List.append_assoc]
  rfl

/-- **Names of shared objects:** only a name with the suffix is told to be one of a shared object, and a name
with the suffix behind some stem is told so if and only if the stem has no part `so` of its own. -/
theorem hasSharedObjectSuffix_stem (name : String) :
    (hasSharedObjectSuffix name = true → ∃ stem, HasStem name stem) ∧
      ∀ stem, HasStem name stem → (hasSharedObjectSuffix name = true ↔ ¬HasInnerSuffix stem) :=
  ⟨exists_hasStem,fun _ h => hasSharedObjectSuffix_iff_of_hasStem h⟩

/-- A part `so` that is the whole of what stands in front of the first point is not in the way. -/
theorem hasSharedObjectSuffix_stem_versions : HasStem "so.core.so.2025.0" "so.core".toList ∧
    hasSharedObjectSuffix "so.core.so.2025.0" = true := by
  have hstem : HasStem "so.core.so.2025.0" "so.core".toList :=
    ⟨["2025".toList,"0".toList],by decide,by decide⟩
  exact ⟨hstem,((hasSharedObjectSuffix_stem _).2 _ hstem).mpr (by decide)⟩

/-- The debugging information of a library may be a shared object again. -/
theorem hasSharedObjectSuffix_hidden :
    HasStem "lib.so.debug.so" "lib.so.debug".toList ∧ hasSharedObjectSuffix "lib.so.debug.so" = false :=
  ⟨⟨[],by decide,by decide⟩,by decide⟩

end SizeSurvey
