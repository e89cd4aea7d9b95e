import Mathlib.Data.List.Basic
import SizeSurvey.Proofs.Text.Cutting

/-! # Occurrences of a word

A text is cut at the first occurrence of a word if it has one. A piece of a text between two separators
shows where a word with separators around it occurs.
-/
namespace SizeSurvey.Text

/-! ## The first occurrence -/

section First
variable {word text before after rest : List Char}

theorem afterStart?_eq_some_iff : afterStart? word text = some rest ↔ text = word ++ rest := by
  induction word generalizing text with
  | nil => exact Option.some_inj
  | cons s word ih =>
    cases text with
    | nil => simp [afterStart?]
    | cons c text =>
      rw [afterStart?,List.cons_append,List.cons.injEq]
      by_cases h : s = c
      · rw [if_pos h,ih]
        simp [h]
      · rw [if_neg h]
        simp [Ne.symm h]

theorem beforeEnd?_eq_some_iff {finish : List Char} :
    beforeEnd? finish text = some before ↔ text = before ++ finish := by
  rw [beforeEnd?,Option.map_eq_some_iff]
  constructor
  · rintro ⟨rest,hrest,rfl⟩
    rw [← List.reverse_inj,afterStart?_eq_some_iff.mp hrest,List.reverse_append,List.reverse_reverse]
  · rintro rfl
    exact ⟨before.reverse,afterStart?_eq_some_iff.mpr List.reverse_append,List.reverse_reverse before⟩

theorem beforeEnd?_append (finish text : List Char) : beforeEnd? finish (text ++ finish) = some text :=
  beforeEnd?_eq_some_iff.mpr rfl

theorem beforeEnd?_singleton (finish c : Char) (text : List Char) :
    beforeEnd? [finish] (text ++ [c]) = if finish = c then some text else none := by
  rw [beforeEnd?,List.reverse_append,List.reverse_singleton,List.reverse_singleton,
    List.singleton_append,afterStart?]
  split
  · rw [afterStart?,Option.map_some,List.reverse_reverse]
  · rfl

theorem append_of_cutAt? (h : cutAt? word text = some (before,after)) :
    text = before ++ (word ++ after) := by
  induction text generalizing before with
  | nil =>
    rw [cutAt?,Option.ite_none_right_eq_some] at h
    obtain ⟨hempty,h⟩ := h
    cases h
    rw [List.isEmpty_iff.mp hempty]
    rfl
  | cons c text ih =>
    rw [cutAt?] at h
    split at h
    next rest hstart =>
      obtain ⟨rfl,rfl⟩ := Prod.mk.inj (Option.some_inj.mp h)
      rw [List.nil_append]
      exact afterStart?_eq_some_iff.mp hstart
    next =>
      obtain ⟨⟨front,back⟩,hcut,hfound⟩ := Option.map_eq_some_iff.mp h
      cases hfound
      rw [ih hcut,List.cons_append]

theorem cutAt?_eq_none_iff : cutAt? word text = none ↔ ¬word <:+: text := by
  induction text with
  | nil => by_cases h : word = [] <;> simp [cutAt?,h]
  | cons c text ih =>
    rw [cutAt?,List.infix_cons_iff]
    cases hstart : afterStart? word (c :: text) with
    | some rest =>
      have hopens : word <+: c :: text := ⟨rest,(afterStart?_eq_some_iff.mp hstart).symm⟩
      simp [hopens]
    | none =>
      have hopens : ¬word <+: c :: text := by
        rintro ⟨rest,hrest⟩
        rw [afterStart?_eq_some_iff.mpr hrest.symm] at hstart
        cases hstart
      simp [hopens,ih]

theorem contains_iff : contains word text = true ↔ word <:+: text := by
  have hnone : cutAt? word text = none ↔ ¬word <:+: text := cutAt?_eq_none_iff
  rw [contains,Option.isSome_iff_ne_none,ne_eq,hnone,Decidable.not_not]

/-- A text is cut where a word occurs if the word does not occur before. -/
theorem cutAt?_append (hfirst : ¬word <:+: before ++ word.dropLast) (after : List Char) :
    cutAt? word (before ++ (word ++ after)) = some (before,after) := by
  have hword : word ≠ [] := by
    rintro rfl
    exact hfirst List.nil_infix
  induction before with
  | nil =>
    obtain ⟨s,tail,rfl⟩ := List.exists_cons_of_ne_nil hword
    have hstart : afterStart? (s :: tail) (s :: (tail ++ after)) = some after :=
      afterStart?_eq_some_iff.mpr rfl
    rw [List.nil_append,List.cons_append,cutAt?,hstart]
  | cons c before ih =>
    have hrest := ih fun h => hfirst (h.trans (List.suffix_cons c _).isInfix)
    have hstart : afterStart? word (c :: (before ++ (word ++ after))) = none := by
      refine Option.eq_none_iff_forall_ne_some.mpr fun rest heq => hfirst ?_
      have hopens : word <+: c :: (before ++ (word ++ after)) :=
        ⟨rest,(afterStart?_eq_some_iff.mp heq).symm⟩
      have hfront : c :: (before ++ word.dropLast) <+: c :: (before ++ (word ++ after)) := by
        obtain ⟨last,hlast⟩ := word.dropLast_prefix
        exact ⟨last ++ after,by rw [← List.append_assoc,List.cons_append,List.append_assoc,hlast]; simp⟩
      refine (List.prefix_of_prefix_length_le hopens hfront ?_).isInfix
      simp only [List.length_cons,List.length_append,List.length_dropLast]
      omega
    rw [List.cons_append,cutAt?,hstart,hrest]
    rfl

end First

/-! ## Pieces -/

section Pieces
variable {separator : Char} {before after first front back word : List Char}

theorem splitAt_inj (h : splitAt separator before = splitAt separator after) : before = after := by
  have hjoined := congrArg (List.flatMap (· ++ [separator])) h
  rw [flatMap_splitAt,flatMap_splitAt] at hjoined
  exact List.append_cancel_right hjoined

theorem splitAt_map {change : Char → Char} (h : ∀ c, change c = separator ↔ c = separator)
    (text : List Char) : splitAt separator (text.map change) = (splitAt separator text).map (·.map change) := by
  induction text with
  | nil => rfl
  | cons c text ih =>
    rw [List.map_cons,splitAt_cons,splitAt_cons,ih]
    by_cases hc : c = separator
    · rw [if_pos hc,if_pos ((h c).mpr hc)]
      rfl
    · obtain ⟨piece,rest,hpieces⟩ := List.exists_cons_of_ne_nil (splitAt_ne_nil separator text)
      rw [if_neg hc,if_neg (mt (h c).mp hc),hpieces]
      rfl

theorem not_mem_splitAt_append (hbefore : word ∉ splitAt separator before)
    (hafter : word ∉ splitAt separator after) :
    word ∉ splitAt separator (before ++ separator :: after) := by
  rw [splitAt_append,List.mem_append]
  exact not_or.mpr ⟨hbefore,hafter⟩

theorem not_mem_splitAt_of_ne (hseparator : separator ∉ before) (hne : word ≠ before) :
    word ∉ splitAt separator before := by
  rw [splitAt_of_not_mem hseparator,List.mem_singleton]
  exact hne

/-- Pieces are got back from a text in which each but the first has a separator in front of it. -/
theorem splitAt_pieces {first : List Char} {rest : List (List Char)} (hfirst : separator ∉ first)
    (hrest : ∀ piece ∈ rest, separator ∉ piece) :
    splitAt separator (first ++ rest.flatMap (separator :: ·)) = first :: rest := by
  induction rest generalizing first with
  | nil => rw [List.flatMap_nil,List.append_nil,splitAt_of_not_mem hfirst]
  | cons piece rest ih =>
    obtain ⟨hpiece,hrest⟩ := List.forall_mem_cons.mp hrest
    rw [List.flatMap_cons,List.cons_append,splitAt_append,splitAt_of_not_mem hfirst,ih hpiece hrest]
    rfl

theorem exists_pieces (separator : Char) (text : List Char) :
    ∃ first rest, splitAt separator text = first :: rest ∧
      text = first ++ rest.flatMap (separator :: ·) := by
  obtain ⟨first,rest,hpieces⟩ := List.exists_cons_of_ne_nil (splitAt_ne_nil separator text)
  have hnone : ∀ piece ∈ first :: rest, separator ∉ piece := hpieces ▸ not_mem_of_mem_splitAt
  obtain ⟨hfirst,hrest⟩ := List.forall_mem_cons.mp hnone
  exact ⟨first,rest,hpieces,splitAt_inj (hpieces.trans (splitAt_pieces hfirst hrest).symm)⟩

theorem splitAt_around (hword : separator ∉ word) (before after : List Char) :
    splitAt separator (before ++ separator :: (word ++ separator :: after)) =
      splitAt separator before ++ word :: splitAt separator after := by
  rw [splitAt_append,splitAt_append,splitAt_of_not_mem hword]
  rfl

/-- A word that is a piece only once, and not the first one, stands in one place. -/
theorem eq_of_around (hword : separator ∉ word) (hfirst : separator ∉ first)
    (hfront : word ∉ splitAt separator front) (hback : word ∉ splitAt separator back)
    (h : first ++ separator :: (front ++ separator :: (word ++ separator :: back)) =
      before ++ separator :: (word ++ separator :: after)) : after = back := by
  have hpieces := congrArg (splitAt separator) h
  obtain ⟨piece,pieces,hbefore⟩ := List.exists_cons_of_ne_nil (splitAt_ne_nil separator before)
  rw [splitAt_append,splitAt_around hword,splitAt_around hword,splitAt_of_not_mem hfirst,hbefore,
    List.singleton_append,List.cons_append,List.cons.injEq] at hpieces
  have hparts := (List.append_cons_inj_of_notMem hfront hback).mp hpieces.2
  exact (splitAt_inj hparts.2.2).symm

end Pieces

/-! ## Joined texts -/

theorem join_cons (separator text : List Char) (rest : List (List Char)) :
    join separator (text :: rest) = text ++ rest.flatMap (separator ++ ·) := by
  induction rest generalizing text with
  | nil => simp [join]
  | cons next rest ih => simp [join,ih]

theorem join_eq_intercalate (separator : List Char) (texts : List (List Char)) :
    join separator texts = separator.intercalate texts := by
  induction texts using join.induct with
  | case1 => rfl
  | case2 text => rw [join,List.intercalate_singleton]
  | case3 text rest hne ih =>
    obtain ⟨next,more,rfl⟩ := List.exists_cons_of_ne_nil hne
    rw [join,ih,List.intercalate_cons_cons]
    exact hne

theorem mem_of_mem_join {c : Char} {separator : List Char} {texts : List (List Char)}
    (hseparator : c ∉ separator) (h : c ∈ join separator texts) : ∃ text ∈ texts, c ∈ text := by
  cases texts with
  | nil => cases h
  | cons text rest =>
    rw [join_cons,List.mem_append,List.mem_flatMap] at h
    rcases h with h | ⟨next,hnext,h⟩
    · exact ⟨text,List.mem_cons_self,h⟩
    · exact ⟨next,List.mem_cons_of_mem text hnext,(List.mem_append.mp h).resolve_left hseparator⟩

end SizeSurvey.Text
