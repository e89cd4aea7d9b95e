import Mathlib.Data.List.Forall2
import SizeSurvey.Proofs.Text.Occurrence

/-! # Wrapped texts

A text is wrapped by putting line feeds in the place of some of its spaces. What a wrapped text shows at
some place, the text shows there too, so a word without a line feed is found nowhere else in it.
-/
namespace SizeSurvey.Text

/-- A text in which some spaces have been replaced by line feeds. -/
def Wraps (text wrapped : List Char) : Prop :=
  List.Forall₂ (fun c d => d = c ∨ c = ' ' ∧ d = '\n') text wrapped

def breakSpaces (text : List Char) : List Char :=
  text.map fun c => if c = ' ' then '\n' else c

namespace Wraps
variable {text wrapped front back : List Char}

theorem refl (text : List Char) : Wraps text text :=
  List.forall₂_same.mpr fun _ _ => Or.inl rfl

theorem breakSpaces (text : List Char) : Wraps text (breakSpaces text) := by
  refine List.forall₂_map_right_iff.mpr (List.forall₂_same.mpr fun c _ => ?_)
  by_cases hc : c = ' '
  · exact Or.inr ⟨hc,if_pos hc⟩
  · exact Or.inl (if_neg hc)

theorem append {wrapped' text' : List Char} (h : Wraps text wrapped) (h' : Wraps text' wrapped') :
    Wraps (text ++ text') (wrapped ++ wrapped') :=
  List.rel_append h h'

theorem of_eq_append (h : text = front ++ ' ' :: back) : Wraps text (front ++ '\n' :: back) := by
  rw [h]
  exact (refl front).append (.cons (Or.inr ⟨rfl,rfl⟩) (refl back))

theorem exists_append (h : Wraps (front ++ back) wrapped) :
    ∃ front' back', wrapped = front' ++ back' ∧ Wraps front front' ∧ Wraps back back' := by
  refine ⟨wrapped.take front.length,wrapped.drop front.length,(List.take_append_drop ..).symm,?_,?_⟩
  · exact List.forall₂_take_append wrapped front back h.flip |>.flip
  · exact List.forall₂_drop_append wrapped front back h.flip |>.flip

theorem exists_of_append (h : Wraps text (front ++ back)) :
    ∃ front' back', text = front' ++ back' ∧ Wraps front' front ∧ Wraps back' back :=
  ⟨_,_,(List.take_append_drop front.length text).symm,List.forall₂_take_append text front back h,
    List.forall₂_drop_append text front back h⟩

/-- A text without spaces is not wrapped. -/
theorem eq_of_not_mem (h : Wraps text wrapped) (htext : ' ' ∉ text) : wrapped = text := by
  induction h with
  | nil => rfl
  | cons hchar _ ih =>
    obtain ⟨hc,hrest⟩ := not_or.mp fun hor => htext (List.mem_cons.mpr hor)
    rcases hchar with rfl | ⟨rfl,-⟩
    · rw [ih hrest]
    · exact absurd rfl hc

/-- What a wrapped text shows without a line feed, the text shows as well. -/
theorem eq_of_no_feed (h : Wraps text wrapped) (hwrapped : '\n' ∉ wrapped) : text = wrapped := by
  induction h with
  | nil => rfl
  | cons hchar _ ih =>
    obtain ⟨hd,hrest⟩ := not_or.mp fun hor => hwrapped (List.mem_cons.mpr hor)
    rcases hchar with rfl | ⟨-,rfl⟩
    · rw [ih hrest]
    · exact absurd rfl hd

theorem not_mem (h : Wraps text wrapped) {c : Char} (hfeed : c ≠ '\n') (htext : c ∉ text) :
    c ∉ wrapped := by
  induction h with
  | nil => exact List.not_mem_nil
  | cons hchar _ ih =>
    obtain ⟨hc,hrest⟩ := not_or.mp fun hor => htext (List.mem_cons.mpr hor)
    rw [List.mem_cons,not_or]
    rcases hchar with rfl | ⟨-,rfl⟩
    · exact ⟨hc,ih hrest⟩
    · exact ⟨hfeed,ih hrest⟩

theorem mem {c : Char} (h : Wraps text wrapped) (hspace : c ≠ ' ') (htext : c ∈ text) :
    c ∈ wrapped := by
  obtain ⟨front,back,rfl⟩ := List.append_of_mem htext
  obtain ⟨before,rest,rfl,-,hrest⟩ := h.exists_append
  obtain ⟨d,after,hchar,-,rfl⟩ := List.forall₂_cons_left_iff.mp hrest
  obtain rfl : d = c := hchar.resolve_right fun h => hspace h.1
  exact List.mem_append_right before List.mem_cons_self

/-- What stands before the last space stands there in the wrapped text too. -/
theorem exists_suffix {c : Char} (h : Wraps text wrapped) (hc : c ≠ ' ')
    (hsuffix : [c,' '] <:+ text) : ∃ gap, [c,gap] <:+ wrapped := by
  obtain ⟨front,rfl⟩ := hsuffix
  obtain ⟨before,rest,rfl,-,hrest⟩ := h.exists_append
  obtain ⟨c',others,hchar,hothers,rfl⟩ := List.forall₂_cons_left_iff.mp hrest
  obtain ⟨gap,after,-,hafter,rfl⟩ := List.forall₂_cons_left_iff.mp hothers
  obtain rfl : c' = c := hchar.resolve_right fun h => hc h.1
  cases hafter
  exact ⟨gap,List.suffix_append ..⟩

theorem exists_word (h : Wraps (front ++ back) wrapped) (hfront : ' ' ∉ front) :
    ∃ rest, wrapped = front ++ rest ∧ Wraps back rest := by
  obtain ⟨front',rest,rfl,hword,hrest⟩ := h.exists_append
  exact ⟨rest,by rw [hword.eq_of_not_mem hfront],hrest⟩

theorem exists_gap (h : Wraps (' ' :: text) wrapped) :
    ∃ gap rest, wrapped = gap :: rest ∧ IsGap [gap] ∧ Wraps text rest := by
  obtain ⟨gap,rest,hgap,hrest,rfl⟩ := List.forall₂_cons_left_iff.mp h
  refine ⟨gap,rest,rfl,⟨List.cons_ne_nil _ _,fun c hc => ?_⟩,hrest⟩
  rw [List.mem_singleton.mp hc]
  rcases hgap with rfl | ⟨-,rfl⟩ <;> rfl

/-- Pieces between other characters are wrapped one by one. -/
theorem pieces {separator : Char} (hspace : separator ≠ ' ') (hfeed : separator ≠ '\n')
    (h : Wraps text wrapped) :
    List.Forall₂ Wraps (splitAt separator text) (splitAt separator wrapped) := by
  induction h with
  | nil => exact .cons .nil .nil
  | @cons c d text wrapped hchar _ ih =>
    have hsame : c = separator ↔ d = separator := by
      rcases hchar with rfl | ⟨rfl,rfl⟩
      · exact Iff.rfl
      · exact iff_of_false (Ne.symm hspace) (Ne.symm hfeed)
    rw [splitAt_cons,splitAt_cons]
    by_cases hc : c = separator
    · rw [if_pos hc,if_pos (hsame.mp hc)]
      exact .cons .nil ih
    · rw [if_neg hc,if_neg (mt hsame.mpr hc)]
      revert ih
      generalize splitAt separator text = pieces,splitAt separator wrapped = wrappedPieces
      rintro (_ | ⟨hpiece,hrest⟩)
      · exact .cons (.cons hchar .nil) .nil
      · exact .cons (.cons hchar hpiece) hrest

theorem nil_mem_splitAt {before after : List Char}
    (h : ' ' :: text ++ [' '] = before ++ ' ' :: ' ' :: after) : [] ∈ splitAt ' ' text := by
  have hpieces := congrArg (splitAt ' ') h
  have hword : ' ' ∉ ([] : List Char) := List.not_mem_nil
  obtain ⟨piece,pieces,hbefore⟩ := List.exists_cons_of_ne_nil (splitAt_ne_nil ' ' before)
  rw [← List.nil_append (' ' :: after),splitAt_around hword,hbefore,List.cons_append,
    splitAt_cons,if_pos rfl,splitAt_append,splitAt_of_not_mem hword,List.cons_append,
    List.cons.injEq] at hpieces
  have hfront := congrArg List.dropLast hpieces.2
  rw [List.dropLast_concat,List.dropLast_append_of_ne_nil (List.cons_ne_nil _ _),
    List.dropLast_cons_of_ne_nil (splitAt_ne_nil ' ' after)] at hfront
  rw [hfront]
  simp

/-- Where no two spaces meet, wrapping makes no blank line. -/
theorem no_blank_line (h : Wraps (' ' :: text) wrapped) (hfeed : '\n' ∉ text)
    (hpieces : [] ∉ splitAt ' ' text) : ¬['\n','\n'] <:+: wrapped ++ ['\n'] := by
  rintro ⟨front,back,hfound⟩
  have hend : Wraps (' ' :: text ++ [' ']) (front ++ (['\n','\n'] ++ back)) := by
    rw [← List.append_assoc,hfound]
    exact h.append (.cons (Or.inr ⟨rfl,rfl⟩) .nil)
  obtain ⟨before,rest,hbefore,-,hrest⟩ := hend.exists_of_append
  obtain ⟨c,others,hc,hothers,rfl⟩ := List.forall₂_cons_right_iff.mp hrest
  obtain ⟨d,after,hd,-,rfl⟩ := List.forall₂_cons_right_iff.mp hothers
  have hfree : ∀ e ∈ before ++ c :: d :: after, e ≠ '\n' := by
    rw [← hbefore]
    rintro e he rfl
    simp [hfeed] at he
  obtain rfl : c = ' ' := by
    rcases hc with rfl | ⟨rfl,-⟩
    · exact absurd rfl (hfree '\n' (by simp))
    · rfl
  obtain rfl : d = ' ' := by
    rcases hd with rfl | ⟨rfl,-⟩
    · exact absurd rfl (hfree '\n' (by simp))
    · rfl
  exact hpieces (nil_mem_splitAt hbefore)

end Wraps

end SizeSurvey.Text
