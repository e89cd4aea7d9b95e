import Mathlib.Data.List.Basic
import Mathlib.Data.List.TakeWhile
import SizeSurvey.Text.Blank
import SizeSurvey.Text.Split

/-! # Cutting what was joined

Lines, words and last fields come back from a text that was put together from them.
-/
namespace SizeSurvey.Text

/-! ## Runs -/

section Runs
variable {α : Type} {p : α → Bool} {run text : List α}

/-- What is taken off the front of a text ends no later than a character that is not taken. -/
theorem takeWhile_append (hend : ∀ c ∈ text.head?, p c = false) :
    (run ++ text).takeWhile p = run.takeWhile p := by
  have hnone : text.takeWhile p = [] := by
    cases text with
    | nil => rfl
    | cons c rest => simp [hend c rfl]
  induction run with
  | nil => exact hnone
  | cons c rest ih => cases h : p c <;> simp [h,ih]

theorem takeWhile_run (hrun : ∀ c ∈ run, p c = true) (hend : ∀ c ∈ text.head?, p c = false) :
    (run ++ text).takeWhile p = run := by
  rw [takeWhile_append hend,List.takeWhile_eq_self_iff.mpr hrun]

theorem dropWhile_run (hrun : ∀ c ∈ run, p c = true) (hend : ∀ c ∈ text.head?, p c = false) :
    (run ++ text).dropWhile p = text := by
  rw [List.dropWhile_append_of_pos hrun]
  cases text with
  | nil => rfl
  | cons c rest => simp [hend c rfl]

end Runs

/-! ## Lines -/

/-- A line that was ended by a line feed, without the carriage return that belongs to its end. -/
def dropReturn (line : List Char) : List Char :=
  (match line.reverse with
    | '\r' :: rest => rest
    | line => line).reverse

theorem dropReturn_eq_or (line : List Char) :
    dropReturn line = line ∨ line = dropReturn line ++ ['\r'] := by
  unfold dropReturn
  split
  next rest h => exact Or.inr (by rw [← List.reverse_reverse line,h,List.reverse_cons])
  next => exact Or.inl (List.reverse_reverse line)

theorem mem_of_mem_dropReturn {c : Char} {line : List Char} (h : c ∈ dropReturn line) : c ∈ line := by
  rcases dropReturn_eq_or line with heq | hreturn
  · rwa [heq] at h
  · rw [hreturn]
    exact List.mem_append_left _ h

theorem foldl_lineStep_done (text line : List Char) (done : List (List Char)) :
    text.foldl lineStep (line,done) =
      ((text.foldl lineStep (line,[])).1,(text.foldl lineStep (line,[])).2 ++ done) := by
  induction text generalizing line done with
  | nil => rfl
  | cons c rest ih =>
    rw [List.foldl_cons,List.foldl_cons,lineStep,lineStep]
    split
    · rw [ih [] (_ :: done),ih [] [_],List.append_assoc]
      rfl
    · exact ih (c :: line) done

theorem foldl_lineStep_of_not_mem {text : List Char} (h : '\n' ∉ text) (line : List Char)
    (done : List (List Char)) :
    text.foldl lineStep (line,done) = (text.reverse ++ line,done) := by
  induction text generalizing line with
  | nil => rfl
  | cons c rest ih =>
    obtain ⟨hc,hrest⟩ := not_or.mp fun hor => h (List.mem_cons.mpr hor)
    rw [List.foldl_cons,lineStep,if_neg (Ne.symm hc),ih hrest,List.reverse_cons,List.append_assoc]
    rfl

theorem lines_of_not_mem {line : List Char} (h : '\n' ∉ line) :
    lines line = if line = [] then [] else [line] := by
  rw [lines,foldl_lineStep_of_not_mem h]
  by_cases hnil : line = [] <;> simp [hnil]

theorem lines_append {line : List Char} (h : '\n' ∉ line) (rest : List Char) :
    lines (line ++ '\n' :: rest) = dropReturn line :: lines rest := by
  have hstep : lineStep (line.reverse,[]) '\n' = ([],[dropReturn line]) := if_pos rfl
  rw [lines,lines,List.foldl_append,foldl_lineStep_of_not_mem h,List.append_nil,List.foldl_cons,
    hstep,foldl_lineStep_done]
  cases h : (rest.foldl lineStep ([],[])).1.isEmpty <;> simp [h]

/-- A text that can stand as a line and is read back as it is. -/
def IsLine (text : List Char) : Prop :=
  '\n' ∉ text ∧ text.getLast? ≠ some '\r'

instance (text : List Char) : Decidable (IsLine text) :=
  inferInstanceAs (Decidable (_ ∧ _))

theorem dropReturn_of_isLine {line : List Char} (h : IsLine line) : dropReturn line = line := by
  rcases dropReturn_eq_or line with heq | hreturn
  · exact heq
  · refine absurd ?_ h.2
    rw [hreturn,List.getLast?_concat]

/-- Lines that are each ended by a line feed are read back without their carriage returns. -/
theorem lines_ended {ended : List (List Char)} (h : ∀ line ∈ ended, '\n' ∉ line) :
    lines (ended.flatMap (· ++ ['\n'])) = ended.map dropReturn := by
  induction ended with
  | nil => rfl
  | cons line rest ih =>
    obtain ⟨hline,hrest⟩ := List.forall_mem_cons.mp h
    rw [List.flatMap_cons,List.append_assoc,List.singleton_append,lines_append hline,ih hrest,
      List.map_cons]

/-- A reader that ignores empty lines and carriage returns at their ends reads the lines of a text as
they were joined. -/
theorem filterMap_lines_join {β : Type} {read : List Char → Option β} (hnil : read [] = none)
    {joined : List (List Char)} (hsingle : ∀ line ∈ joined, '\n' ∉ line)
    (hreturn : ∀ line ∈ joined, read (dropReturn line) = read line) :
    (lines (join ['\n'] joined)).filterMap read = joined.filterMap read := by
  induction joined using join.induct with
  | case1 => rfl
  | case2 line =>
    rw [join,lines_of_not_mem (hsingle line List.mem_cons_self)]
    split
    next hempty => simp [hempty,hnil]
    next => rfl
  | case3 line rest hne ih =>
    obtain ⟨hline,hrest⟩ := List.forall_mem_cons.mp hsingle
    obtain ⟨hend,hends⟩ := List.forall_mem_cons.mp hreturn
    rw [join,List.append_assoc,List.singleton_append,lines_append hline,List.filterMap_cons,
      List.filterMap_cons,hend,ih hrest hends]
    exact hne

/-! ## Trimming -/

theorem trim_of_blank {text : List Char} (h : ∀ c ∈ text, isBlank c = true) : trim text = [] := by
  have hnil : trimStart text = [] := by
    induction text with
    | nil => rfl
    | cons c rest ih =>
      obtain ⟨hc,hrest⟩ := List.forall_mem_cons.mp h
      exact (List.dropWhile_cons_of_pos hc).trans (ih hrest)
  rw [trim,hnil]
  rfl

theorem trim_pad {before text after : List Char} (hbefore : ∀ c ∈ before, isBlank c = true)
    (hafter : ∀ c ∈ after, isBlank c = true) (hfirst : ∀ c ∈ text.head?, isBlank c = false)
    (hlast : ∀ c ∈ text.getLast?, isBlank c = false) : trim (before ++ (text ++ after)) = text := by
  by_cases hnil : text = []
  · subst hnil
    refine trim_of_blank fun c hc => ?_
    rcases List.mem_append.mp hc with hc | hc
    · exact hbefore c hc
    · exact hafter c hc
  · have hhead : ∀ c ∈ (text ++ after).head?, isBlank c = false := by
      rwa [List.head?_append_of_ne_nil text hnil]
    have hafter' : ∀ c ∈ after.reverse, isBlank c = true :=
      fun c hc => hafter c (List.mem_reverse.mp hc)
    have hlast' : ∀ c ∈ text.reverse.head?, isBlank c = false := by rwa [List.head?_reverse]
    rw [trim,trimStart,dropWhile_run hbefore hhead,trimEnd,List.reverse_append,
      dropWhile_run hafter' hlast',List.reverse_reverse]

theorem trim_of_ends {text : List Char} (hfirst : ∀ c ∈ text.head?, isBlank c = false)
    (hlast : ∀ c ∈ text.getLast?, isBlank c = false) : trim text = text := by
  have hnone : ∀ c ∈ ([] : List Char), isBlank c = true := nofun
  have hpad := trim_pad hnone hnone hfirst hlast
  rwa [List.nil_append,List.append_nil] at hpad

/-! ## Words -/

theorem foldl_wordStep_word {word : List Char} (h : ∀ c ∈ word, isBlank c = false)
    (begun : List Char) (done : List (List Char)) :
    word.foldl wordStep (begun,done) = (word.reverse ++ begun,done) := by
  induction word generalizing begun with
  | nil => rfl
  | cons c rest ih =>
    obtain ⟨hc,hrest⟩ := List.forall_mem_cons.mp h
    rw [List.foldl_cons,wordStep,hc,if_neg Bool.false_ne_true,ih hrest,List.reverse_cons,
      List.append_assoc]
    rfl

theorem foldl_wordStep_blank {blanks : List Char} (h : ∀ c ∈ blanks, isBlank c = true)
    (done : List (List Char)) : blanks.foldl wordStep ([],done) = ([],done) := by
  induction blanks with
  | nil => rfl
  | cons c rest ih =>
    obtain ⟨hc,hrest⟩ := List.forall_mem_cons.mp h
    rw [List.foldl_cons,wordStep,hc]
    exact ih hrest

theorem foldl_wordStep_done (text begun : List Char) (done : List (List Char)) :
    text.foldl wordStep (begun,done) =
      ((text.foldl wordStep (begun,[])).1,(text.foldl wordStep (begun,[])).2 ++ done) := by
  induction text generalizing begun done with
  | nil => rfl
  | cons c rest ih =>
    rw [List.foldl_cons,List.foldl_cons,wordStep,wordStep]
    split
    · split
      · exact ih begun done
      · rw [ih [] (_ :: done),ih [] [_],List.append_assoc]
        rfl
    · exact ih (c :: begun) done

/-- A text that is not empty and has no white space. -/
def IsWord (text : List Char) : Prop :=
  text ≠ [] ∧ ∀ c ∈ text, isBlank c = false

/-- What stands between two words. -/
def IsGap (text : List Char) : Prop :=
  text ≠ [] ∧ ∀ c ∈ text, isBlank c = true

instance (text : List Char) : Decidable (IsWord text) :=
  decidable_of_iff (text ≠ [] ∧ text.all fun c => !isBlank c) (by simp [IsWord])

instance (text : List Char) : Decidable (IsGap text) :=
  decidable_of_iff (text ≠ [] ∧ text.all isBlank) (by simp [IsGap])

theorem IsWord.getLast? {word : List Char} (h : IsWord word) :
    ∃ c, word.getLast? = some c ∧ isBlank c = false := by
  have hlast := List.getLast?_eq_some_getLast h.1
  exact ⟨_,hlast,h.2 _ (List.getLast_mem h.1)⟩

theorem IsWord.trim {word : List Char} (h : IsWord word) : trim word = word :=
  trim_of_ends (fun c hc => h.2 c (List.mem_of_mem_head? hc)) fun c hc =>
    h.2 c (List.mem_of_mem_getLast? hc)

theorem IsWord.space_not_mem {word : List Char} (h : IsWord word) : ' ' ∉ word := by
  intro hmem
  cases h.2 ' ' hmem

theorem isWord_singleton {c : Char} (h : isBlank c = false) : IsWord [c] :=
  ⟨List.cons_ne_nil _ _,fun d hd => by rw [List.mem_singleton.mp hd]; exact h⟩

theorem words_of_isWord {word : List Char} (h : IsWord word) : words word = [word] := by
  rw [words,foldl_wordStep_word h.2]
  simp [h.1]

theorem words_append {word gap : List Char} (hword : IsWord word) (hgap : IsGap gap)
    (rest : List Char) : words (word ++ (gap ++ rest)) = word :: words rest := by
  obtain ⟨c,blanks,rfl⟩ := List.exists_cons_of_ne_nil hgap.1
  obtain ⟨hc,hblanks⟩ := List.forall_mem_cons.mp hgap.2
  have hend : wordStep (word.reverse,[]) c = ([],[word]) := by
    simp [wordStep,hc,hword.1]
  rw [words,words,List.foldl_append,foldl_wordStep_word hword.2,List.append_nil,List.cons_append,
    List.foldl_cons,hend,List.foldl_append,foldl_wordStep_blank hblanks,foldl_wordStep_done]
  cases h : (rest.foldl wordStep ([],[])).1.isEmpty <;> simp [h]

/-! ## Pieces -/

section Pieces
variable {α : Type} [DecidableEq α] {separator : α}

theorem splitAt_cons (c : α) (text : List α) :
    splitAt separator (c :: text) =
      if c = separator then [] :: splitAt separator text
      else match splitAt separator text with
        | [] => [[c]]
        | piece :: rest => (c :: piece) :: rest := rfl

theorem splitAt_ne_nil (separator : α) (text : List α) : splitAt separator text ≠ [] := by
  cases text with
  | nil => exact List.cons_ne_nil _ _
  | cons c text =>
    rw [splitAt_cons]
    split
    · exact List.cons_ne_nil _ _
    · split <;> exact List.cons_ne_nil _ _

theorem splitAt_append (before after : List α) :
    splitAt separator (before ++ separator :: after) =
      splitAt separator before ++ splitAt separator after := by
  induction before with
  | nil => rw [List.nil_append,splitAt_cons,if_pos rfl]; rfl
  | cons c before ih =>
    rw [List.cons_append,splitAt_cons,splitAt_cons,ih]
    split
    · rfl
    · obtain ⟨piece,rest,h⟩ := List.exists_cons_of_ne_nil (splitAt_ne_nil separator before)
      rw [h]
      rfl

theorem length_splitAt (text : List α) :
    (splitAt separator text).length = text.count separator + 1 := by
  induction text with
  | nil => rfl
  | cons c text ih =>
    rw [splitAt_cons]
    split
    next h => rw [List.length_cons,ih,h,List.count_cons_self]
    next h =>
      obtain ⟨piece,rest,hpieces⟩ := List.exists_cons_of_ne_nil (splitAt_ne_nil separator text)
      rw [List.count_cons_of_ne h,← ih,hpieces]
      rfl

/-- The pieces of a text, each with a separator behind it, give the text with a separator behind it. -/
theorem flatMap_splitAt (text : List α) :
    (splitAt separator text).flatMap (· ++ [separator]) = text ++ [separator] := by
  induction text with
  | nil => rfl
  | cons c text ih =>
    rw [splitAt_cons]
    split
    next h => rw [List.flatMap_cons,ih,h]; rfl
    next h =>
      obtain ⟨piece,rest,hpieces⟩ := List.exists_cons_of_ne_nil (splitAt_ne_nil separator text)
      rw [hpieces,List.flatMap_cons] at ih
      rw [hpieces,List.flatMap_cons,List.cons_append,List.cons_append,ih,List.cons_append]

theorem splitAt_of_not_mem {text : List α} (h : separator ∉ text) :
    splitAt separator text = [text] := by
  induction text with
  | nil => rfl
  | cons c text ih =>
    obtain ⟨hc,htext⟩ := not_or.mp fun hor => h (List.mem_cons.mpr hor)
    rw [splitAt_cons,if_neg (Ne.symm hc),ih htext]

theorem not_mem_of_mem_splitAt {text : List α} :
    ∀ piece ∈ splitAt separator text, separator ∉ piece := by
  induction text with
  | nil =>
    intro piece hpiece
    rw [List.mem_singleton.mp hpiece]
    exact List.not_mem_nil
  | cons c text ih =>
    rw [splitAt_cons]
    split
    next => exact List.forall_mem_cons.mpr ⟨List.not_mem_nil,ih⟩
    next hne =>
      split
      next => simpa using Ne.symm hne
      next first rest h =>
        rw [h] at ih
        obtain ⟨hfirst,hrest⟩ := List.forall_mem_cons.mp ih
        refine List.forall_mem_cons.mpr ⟨?_,hrest⟩
        simp [hfirst,Ne.symm hne]

/-- The last piece is what stands behind the last separator. -/
theorem exists_last_piece (separator : α) (text : List α) :
    ∃ front piece, splitAt separator text = front ++ [piece] ∧ separator ∉ piece ∧
      (text = piece ∨ ∃ before, text = before ++ separator :: piece) := by
  by_cases h : separator ∈ text
  · obtain ⟨after,before,hrev,hafter⟩ := List.eq_append_cons_of_mem (List.mem_reverse.mpr h)
    have htext : text = before.reverse ++ separator :: after.reverse := by
      rw [← List.reverse_reverse text,hrev,List.reverse_append,List.reverse_cons,List.append_assoc]
      rfl
    have hlast : separator ∉ after.reverse := mt List.mem_reverse.mp hafter
    refine ⟨splitAt separator before.reverse,after.reverse,?_,hlast,Or.inr ⟨_,htext⟩⟩
    rw [htext,splitAt_append,splitAt_of_not_mem hlast]
  · exact ⟨[],text,splitAt_of_not_mem h,h,Or.inl rfl⟩

end Pieces

/-! ## Last fields -/

theorem splitLast_append {separator : Char} {last : List Char} (h : separator ∉ last) (n : Nat)
    (text : List Char) :
    splitLast separator (n + 1) (text ++ separator :: last) = last :: splitLast separator n text := by
  have hrev : (text ++ separator :: last).reverse = last.reverse ++ separator :: text.reverse := by
    simp
  have hall : ∀ c ∈ last.reverse, decide (c ≠ separator) = true := by
    intro c hc
    exact decide_eq_true fun he => h (by rw [← he]; exact List.mem_reverse.mp hc)
  have hend : ∀ c ∈ (separator :: text.reverse).head?, decide (c ≠ separator) = false := by
    rintro c ⟨⟩
    simp
  rw [splitLast,hrev,takeWhile_run hall hend,dropWhile_run hall hend,List.reverse_reverse]
  simp only [List.reverse_reverse]

end SizeSurvey.Text
