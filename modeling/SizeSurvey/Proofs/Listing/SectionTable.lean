import Mathlib.Data.List.Forall2
import SizeSurvey.Listing.SectionTable
import SizeSurvey.Proofs.Listing.Numeral

/-! # Section tables that were written

A table is read back as its sections, whatever their names and types look like: the columns of a row
are told apart by white space alone, and the first bracket of a row is that of its index.
-/
namespace SizeSurvey.Listing
open Text

/-! ## Columns -/

/-- Columns with at least one space in front of each. -/
inductive Columns : List (List Char) → List Char → Prop
  | nil : Columns [] []
  | cons {columns : List (List Char)} {text : List Char} (spaces : Nat) (column : List Char)
      (hrest : Columns columns text) :
    Columns (column :: columns) (List.replicate (spaces + 1) ' ' ++ (column ++ text))

/-- A number of hexadecimal digits. -/
def IsHex (text : List Char) : Prop :=
  text ≠ [] ∧ ∀ c ∈ text, isHexDigit c

/-- A number of decimal digits. -/
def IsDecimal (text : List Char) : Prop :=
  text ≠ [] ∧ ∀ c ∈ text, isDigit c

instance (text : List Char) : Decidable (IsHex text) :=
  decidable_of_iff (text ≠ [] ∧ text.all isHexDigit) (by simp [IsHex])

instance (text : List Char) : Decidable (IsDecimal text) :=
  decidable_of_iff (text ≠ [] ∧ text.all isDigit) (by simp [IsDecimal])

theorem IsHex.isWord {text : List Char} (h : IsHex text) : IsWord text :=
  ⟨h.1,fun c hc => isBlank_of_hexDigit? (h.2 c hc)⟩

theorem IsDecimal.isHex {text : List Char} (h : IsDecimal text) : IsHex text :=
  ⟨h.1,fun c hc => hexDigit?_of_digit? (h.2 c hc)⟩

theorem toNat_of_isLetter {c : Char} (h : isLetter c = true) : 65 ≤ c.toNat ∧ c.toNat ≤ 122 := by
  rw [isLetter,Bool.or_eq_true,Bool.and_eq_true,Bool.and_eq_true] at h
  simp only [decide_eq_true_eq] at h
  rcases h with ⟨hlow,hhigh⟩ | ⟨hlow,hhigh⟩
  · exact ⟨Nat.le_trans (by decide) hlow,hhigh⟩
  · exact ⟨hlow,Nat.le_trans hhigh (by decide)⟩

theorem isLetter_of_isBlank {c : Char} (h : isBlank c = true) : isLetter c = false := by
  apply Bool.eq_false_iff.mpr
  intro hletter
  have hrange := toNat_of_isLetter hletter
  simp only [isBlank] at h
  simp at h
  omega

theorem isLetter_of_isDigit {c : Char} (h : isDigit c = true) : isLetter c = false := by
  apply Bool.eq_false_iff.mpr
  intro hletter
  have hrange := toNat_of_isLetter hletter
  simp only [isDigit,digit?] at h
  split at h
  next hc =>
    have hle : c.toNat ≤ 57 := hc.2
    omega
  next => cases h

theorem isWord_of_isLetter {text : List Char} (hnil : text ≠ [])
    (h : ∀ c ∈ text, isLetter c = true) : IsWord text := by
  refine ⟨hnil,fun c hc => Bool.eq_false_iff.mpr fun hblank => ?_⟩
  have hletter := h c hc
  rw [isLetter_of_isBlank hblank] at hletter
  cases hletter

theorem isScriptDigit_of_isDigit {c : Char} (h : isDigit c = true) : isScriptDigit c = true := by
  simp only [isDigit,digit?] at h
  split at h
  next hc =>
    have hascii : 0x30 ≤ c.toNat ∧ c.toNat ≤ 0x30 + 9 := hc
    exact List.any_eq_true.mpr ⟨0x30,by decide,by simpa using hascii⟩
  next => cases h

theorem isBlank_of_mem_replicate (spaces : Nat) :
    ∀ c ∈ List.replicate spaces ' ', isBlank c = true := by
  intro c hc
  rw [(List.mem_replicate.mp hc).2]
  decide

theorem trimStart_padded (spaces : Nat) {word : List Char} (h : IsWord word) (text : List Char) :
    trimStart (List.replicate spaces ' ' ++ (word ++ text)) = word ++ text := by
  refine dropWhile_run (isBlank_of_mem_replicate spaces) fun c hc => h.2 c ?_
  rw [List.head?_append_of_ne_nil word h.1] at hc
  exact List.mem_of_mem_head? hc

section Columns
variable {column : List Char} {columns : List (List Char)} {text : List Char}

/-- What stands behind a column begins with a space. -/
theorem Columns.head? (h : Columns columns text) : ∀ c ∈ text.head?, isBlank c = true := by
  cases h with
  | nil => exact nofun
  | cons spaces column hrest =>
    intro c hc
    rw [List.replicate_succ,List.cons_append,List.head?_cons,Option.mem_some_iff] at hc
    rw [← hc]
    decide

theorem Columns.afterBlanks? (h : Columns (column :: columns) text) (hcolumn : IsWord column) :
    ∃ rest, Columns columns rest ∧ Listing.afterBlanks? text = some (column ++ rest) := by
  cases h with
  | @cons _ rest spaces _ hrest =>
    refine ⟨rest,hrest,?_⟩
    rw [List.replicate_succ,List.cons_append,Listing.afterBlanks?,if_pos (by decide),
      trimStart_padded spaces hcolumn]

theorem Columns.column? (h : Columns (column :: columns) text) (hcolumn : IsWord column) :
    ∃ rest, Columns columns rest ∧ Listing.column? text = some (column,rest) := by
  obtain ⟨rest,hrest,hafter⟩ := h.afterBlanks? hcolumn
  have hword : ∀ c ∈ column, (!isBlank c) = true := fun c hc => by rw [hcolumn.2 c hc]; rfl
  have hend : ∀ c ∈ rest.head?, (!isBlank c) = false := fun c hc => by rw [hrest.head? c hc]; rfl
  refine ⟨rest,hrest,?_⟩
  rw [Listing.column?,hafter,Option.bind_eq_bind,Option.bind_some,takeWhile_run hword hend,
    dropWhile_run hword hend,if_neg (mt List.isEmpty_iff.mp hcolumn.1)]
  rfl

theorem Columns.hexColumn? (h : Columns (column :: columns) text) (hcolumn : IsHex column) :
    ∃ rest, Columns columns rest ∧ Listing.hexColumn? text = some (column,rest) := by
  obtain ⟨rest,hrest,hread⟩ := h.column? hcolumn.isWord
  refine ⟨rest,hrest,?_⟩
  simp only [Listing.hexColumn?,hread,Option.bind_eq_bind,Option.bind_some,
    if_pos (List.all_eq_true.mpr hcolumn.2)]
  rfl

theorem Columns.eq_space (h : Columns columns text) (hcolumns : ∀ column ∈ columns, IsWord column) :
    ∀ c ∈ text, isBlank c = true → c = ' ' := by
  induction h with
  | nil => exact nofun
  | cons spaces column _ ih =>
    obtain ⟨hcolumn,hrest⟩ := List.forall_mem_cons.mp hcolumns
    intro c hc hblank
    rcases List.mem_append.mp hc with hc | hc
    · exact (List.mem_replicate.mp hc).2
    rcases List.mem_append.mp hc with hc | hc
    · rw [hcolumn.2 c hc] at hblank
      cases hblank
    · exact ih hrest c hc hblank

theorem Columns.not_mem (h : Columns columns text) {c : Char} (hc : c ≠ ' ')
    (hcolumns : ∀ column ∈ columns, c ∉ column) : c ∉ text := by
  induction h with
  | nil => exact List.not_mem_nil
  | cons spaces column _ ih =>
    obtain ⟨hcolumn,hrest⟩ := List.forall_mem_cons.mp hcolumns
    simp [hc,hcolumn,ih hrest]

end Columns

/-! ## Rows -/

theorem afterIndex?_of_isDecimal {index : List Char} (h : IsDecimal index) (padding : Nat)
    (text : List Char) :
    afterIndex? (List.replicate padding ' ' ++ (index ++ ']' :: text)) = some text := by
  have hdigits : ∀ c ∈ index, isScriptDigit c = true :=
    fun c hc => isScriptDigit_of_isDigit (h.2 c hc)
  have hend : ∀ c ∈ (']' :: text).head?, isScriptDigit c = false := by
    rintro _ ⟨⟩
    decide
  simp only [afterIndex?,trimStart_padded padding h.isHex.isWord,takeWhile_run hdigits hend,dropWhile_run hdigits hend]
  obtain ⟨c,rest,rfl⟩ := List.exists_cons_of_ne_nil h.1
  rfl

section Rows
variable {name kind address offset size entry next : List Char} {columns : List (List Char)}
  {text : List Char}

theorem sectionRow?_of_columns {index : List Char} (hindex : IsDecimal index) (padding : Nat)
    (hname : IsWord name) (hkind : IsWord kind) (haddress : IsHex address) (hoffset : IsHex offset)
    (hsize : IsHex size) (hentry : IsWord entry) (hnext : IsWord next)
    (h : Columns (name :: kind :: address :: offset :: size :: entry :: next :: columns) text) :
    sectionRow? (List.replicate padding ' ' ++ (index ++ ']' :: text)) =
      some ⟨name,size,next.takeWhile isLetter⟩ := by
  obtain ⟨text₁,h₁,hread₁⟩ := h.column? hname
  obtain ⟨text₂,h₂,hread₂⟩ := h₁.column? hkind
  obtain ⟨text₃,h₃,hread₃⟩ := h₂.hexColumn? haddress
  obtain ⟨text₄,h₄,hread₄⟩ := h₃.hexColumn? hoffset
  obtain ⟨text₅,h₅,hread₅⟩ := h₄.hexColumn? hsize
  obtain ⟨text₆,h₆,hread₆⟩ := h₅.column? hentry
  obtain ⟨text₇,h₇,hread₇⟩ := h₆.afterBlanks? hnext
  have hflags : (next ++ text₇).takeWhile isLetter = next.takeWhile isLetter :=
    takeWhile_append fun c hc => isLetter_of_isBlank (h₇.head? c hc)
  simp only [sectionRow?,afterIndex?_of_isDecimal hindex,hread₁,hread₂,hread₃,hread₄,hread₅,hread₆,
    hread₇,Option.bind_eq_bind,Option.bind_some,hflags]
  rfl

end Rows

theorem firstSectionRow?_of_not_mem {line : List Char} (h : '[' ∉ line) :
    firstSectionRow? line = none := by
  induction line with
  | nil => rfl
  | cons c rest ih =>
    obtain ⟨hc,hrest⟩ := not_or.mp (mt List.mem_cons.mpr h)
    rw [firstSectionRow?,if_neg (Ne.symm hc),ih hrest]

theorem firstSectionRow?_indent (indent : Nat) (text : List Char) :
    firstSectionRow? (List.replicate indent ' ' ++ '[' :: text) =
      (sectionRow? text).or (firstSectionRow? text) := by
  induction indent with
  | zero => rfl
  | succ indent ih =>
    rw [List.replicate_succ,List.cons_append,firstSectionRow?,if_neg (by decide),ih]

/-- The hexadecimal digits of a size in either case, with any zeros in front. -/
inductive IsHexSize (size : Size) : List Char → Prop
  | digits (zeros : Nat) {digits : List Char}
      (hdigits : digits.map toAsciiLower = Nat.toDigits 16 size.toNat) :
    IsHexSize size (List.replicate zeros '0' ++ digits)

theorem IsHexSize.readHex? {size : Size} {text : List Char} (h : IsHexSize size text) :
    readHex? text = some size.toNat := by
  obtain ⟨zeros,hdigits⟩ := h
  exact readHex?_numeral zeros size.toNat hdigits

theorem IsHexSize.isHex {size : Size} {text : List Char} (h : IsHexSize size text) : IsHex text := by
  obtain ⟨zeros,hdigits⟩ := h
  refine ⟨?_,isSome_of_readDigits (readDigits_hex zeros size.toNat hdigits)⟩
  intro hnil
  rw [(List.append_eq_nil_iff.mp hnil).2] at hdigits
  exact Nat.toDigits_ne_nil hdigits.symm

/-- The column of the flags, which is left out where there are none. -/
def flagColumn (flags : List Char) : List (List Char) :=
  if flags = [] then [] else [flags]

/-- A line with an index in brackets. -/
def indexed (indent padding : Nat) (index text : List Char) : List Char :=
  List.replicate indent ' ' ++ '[' :: (List.replicate padding ' ' ++ (index ++ ']' :: text))

/-- The row of a section, with any type, place and links. -/
inductive IsRow (s : Section) : List Char → Prop
  | columns {index kind address offset size entry link info align text : List Char}
      (indent padding : Nat) (hindex : IsDecimal index) (hname : IsWord s.name.toList)
      (hkind : IsWord kind) (haddress : IsHex address) (hoffset : IsHex offset)
      (hsize : IsHexSize s.size size) (hentry : IsWord entry)
      (hflags : ∀ c ∈ s.flags.toList, isLetter c = true)
      (hlinks : ∀ column ∈ [link,info,align], IsDecimal column)
      (htext : Columns (s.name.toList :: kind :: address :: offset :: size :: entry ::
        (flagColumn s.flags.toList ++ [link,info,align])) text) :
    IsRow s (indexed indent padding index text)

/-- A number that is zero. -/
def IsZeros (text : List Char) : Prop :=
  text ≠ [] ∧ ∀ c ∈ text, c = '0'

instance (text : List Char) : Decidable (IsZeros text) :=
  decidable_of_iff (text ≠ [] ∧ text.all (· = '0')) (by simp [IsZeros])

/-- The row of the first section, which has neither a name nor flags. -/
inductive IsNullRow : List Char → Prop
  | columns {index address offset size entry link info align text : List Char}
      (indent padding : Nat) (hindex : IsDecimal index)
      (hzeros : ∀ column ∈ [address,offset,size,entry], IsZeros column)
      (hlinks : ∀ column ∈ [link,info,align], IsDecimal column)
      (htext : Columns ["NULL".toList,address,offset,size,entry,link,info,align] text) :
    IsNullRow (indexed indent padding index text)

/-- The titles of the columns. -/
inductive IsHeading : List Char → Prop
  | columns {columns : List (List Char)} {text : List Char} (indent : Nat)
      (hcolumns : ∀ column ∈ columns, IsWord column ∧ '[' ∉ column) (htext : Columns columns text) :
    IsHeading (indexed indent 0 ['N','r'] text)

theorem sectionOfLine?_indexed {indent padding : Nat} {index text : List Char} {row : SectionRow}
    {size : Size} (hrow : sectionRow? (List.replicate padding ' ' ++ (index ++ ']' :: text)) = some row)
    (hsize : readHex? row.size = some size.toNat) :
    sectionOfLine? (indexed indent padding index text) =
      some ⟨String.ofList row.name,size,String.ofList row.flags⟩ := by
  simp only [sectionOfLine?,indexed,firstSectionRow?_indent,hrow,Option.some_or,
    Option.bind_eq_bind,Option.bind_some,hsize,Size.ofNat?_toNat]
  rfl

theorem takeWhile_isLetter_of_isDecimal {text : List Char} (h : IsDecimal text) :
    text.takeWhile isLetter = [] := by
  obtain ⟨c,rest,rfl⟩ := List.exists_cons_of_ne_nil h.1
  simp [isLetter_of_isDigit (h.2 c List.mem_cons_self)]

theorem IsRow.sectionOfLine? {s : Section} {line : List Char} (h : IsRow s line) :
    sectionOfLine? line = some s := by
  obtain ⟨indent,padding,hindex,hname,hkind,haddress,hoffset,hsize,hentry,hflags,hlinks,htext⟩ := h
  rename_i index kind address offset size entry link info align text
  have hread : sectionRow? (List.replicate padding ' ' ++ (index ++ ']' :: text)) =
      some ⟨s.name.toList,size,s.flags.toList⟩ := by
    unfold flagColumn at htext
    split at htext
    -- Without flags a number stands in the place of their column, and it has no letters.
    next hnone =>
      have hlink : IsDecimal link := hlinks link List.mem_cons_self
      rw [sectionRow?_of_columns hindex padding hname hkind haddress hoffset hsize.isHex hentry
        hlink.isHex.isWord htext,takeWhile_isLetter_of_isDecimal hlink,hnone]
    next hsome =>
      rw [sectionRow?_of_columns hindex padding hname hkind haddress hoffset hsize.isHex hentry
        (isWord_of_isLetter hsome hflags) htext,List.takeWhile_eq_self_iff.mpr hflags]
  rw [sectionOfLine?_indexed hread hsize.readHex?,String.ofList_toList,String.ofList_toList]

theorem IsZeros.isHex {text : List Char} (h : IsZeros text) : IsHex text :=
  ⟨h.1,fun c hc => by rw [h.2 c hc]; rfl⟩

theorem IsZeros.readHex? {text : List Char} (h : IsZeros text) :
    readHex? text = some (0 : Size).toNat := by
  have hzeros : text = List.replicate text.length '0' := List.eq_replicate_iff.mpr ⟨rfl,h.2⟩
  refine readNumber?_eq (by decide) h.1 ?_
  rw [hzeros]
  exact readDigits_zeros (by decide) _

/-- Every column of the first row is read in the place of the one before it. -/
theorem IsNullRow.sectionOfLine? {line : List Char} (h : IsNullRow line) :
    sectionOfLine? line = some ⟨"NULL",0,""⟩ := by
  obtain ⟨indent,padding,hindex,hzeros,hlinks,htext⟩ := h
  rename_i index address offset size entry link info align text
  simp only [List.forall_mem_cons] at hzeros hlinks
  obtain ⟨haddress,hoffset,hsize,hentry,-⟩ := hzeros
  obtain ⟨hlink,hinfo,-⟩ := hlinks
  have hread := sectionRow?_of_columns hindex padding (by decide) haddress.isHex.isWord
    hoffset.isHex hsize.isHex hentry.isHex hlink.isHex.isWord hinfo.isHex.isWord htext
  rw [takeWhile_isLetter_of_isDecimal hinfo] at hread
  exact sectionOfLine?_indexed hread hentry.readHex?

theorem sectionOfLine?_of_not_mem {line : List Char} (h : '[' ∉ line) :
    sectionOfLine? line = none := by
  rw [sectionOfLine?,firstSectionRow?_of_not_mem h]
  rfl

theorem IsHeading.sectionOfLine? {line : List Char} (h : IsHeading line) :
    sectionOfLine? line = none := by
  obtain ⟨indent,hcolumns,htext⟩ := h
  rename_i columns text
  have hrest : '[' ∉ 'N' :: 'r' :: ']' :: text := by
    simp [htext.not_mem (by decide) fun column hcolumn => (hcolumns column hcolumn).2]
  have hnone : firstSectionRow? (indexed indent 0 ['N','r'] text) = none := by
    rw [indexed,firstSectionRow?_indent]
    exact firstSectionRow?_of_not_mem hrest
  rw [Listing.sectionOfLine?,hnone]
  rfl

/-! ## Lines of a table -/

theorem isLine_indexed {index text : List Char} (indent padding : Nat) (hindex : IsWord index)
    (htext : ∀ c ∈ text, isBlank c = true → c = ' ') :
    Text.IsLine (indexed indent padding index text) := by
  have hblank : ∀ c ∈ indexed indent padding index text, isBlank c = true → c = ' ' := by
    intro c hc hblank
    simp only [indexed,List.mem_append,List.mem_cons,List.mem_replicate] at hc
    rcases hc with hc | rfl | hc | hc | rfl | hc
    · exact hc.2
    · cases hblank
    · exact hc.2
    · rw [hindex.2 c hc] at hblank
      cases hblank
    · cases hblank
    · exact htext c hc hblank
  constructor
  · intro hfeed
    exact absurd (hblank _ hfeed (by decide)) (by decide)
  · intro hreturn
    exact absurd (hblank _ (List.mem_of_mem_getLast? hreturn) (by decide)) (by decide)

theorem IsRow.isLine {s : Section} {line : List Char} (h : IsRow s line) : Text.IsLine line := by
  obtain ⟨indent,padding,hindex,hname,hkind,haddress,hoffset,hsize,hentry,hflags,hlinks,htext⟩ := h
  refine isLine_indexed indent padding hindex.isHex.isWord (htext.eq_space ?_)
  have hflag : ∀ column ∈ flagColumn s.flags.toList, IsWord column := by
    unfold flagColumn
    split
    next => exact nofun
    next hsome => exact List.forall_mem_singleton.mpr (isWord_of_isLetter hsome hflags)
  have hlink := fun column hcolumn => (hlinks column hcolumn).isHex.isWord
  simp only [List.forall_mem_cons,List.forall_mem_append] at hlink ⊢
  exact ⟨hname,hkind,haddress.isWord,hoffset.isWord,hsize.isHex.isWord,hentry,hflag,hlink⟩

theorem IsNullRow.isLine {line : List Char} (h : IsNullRow line) : Text.IsLine line := by
  obtain ⟨indent,padding,hindex,hzeros,hlinks,htext⟩ := h
  refine isLine_indexed indent padding hindex.isHex.isWord (htext.eq_space ?_)
  have hzero := fun column hcolumn => (hzeros column hcolumn).isHex.isWord
  have hlink := fun column hcolumn => (hlinks column hcolumn).isHex.isWord
  simp only [List.forall_mem_cons] at hzero hlink ⊢
  exact ⟨by decide,hzero.1,hzero.2.1,hzero.2.2.1,hzero.2.2.2.1,hlink⟩

theorem IsHeading.isLine {line : List Char} (h : IsHeading line) : Text.IsLine line := by
  obtain ⟨indent,hcolumns,htext⟩ := h
  exact isLine_indexed indent 0 (by decide)
    (htext.eq_space fun column hcolumn => (hcolumns column hcolumn).1)

/-- A line without any brackets. -/
def IsPlain (line : List Char) : Prop :=
  '[' ∉ line ∧ '\n' ∉ line

instance (line : List Char) : Decidable (IsPlain line) :=
  inferInstanceAs (Decidable (_ ∧ _))

/-- The lines of a table: titles, the titles of the columns, the row of the first section, a row for
each other section, and the legend of the flags. -/
inductive TableLines (table : List Section) : List (List Char) → Prop
  | lines {title rows legend : List (List Char)} {heading null : List Char}
      (htitle : ∀ line ∈ title, IsPlain line) (hheading : IsHeading heading) (hnull : IsNullRow null)
      (hrows : List.Forall₂ IsRow table rows) (hlegend : ∀ line ∈ legend, IsPlain line) :
    TableLines table (title ++ (heading :: null :: (rows ++ legend)))

/-- A text of such lines. Its last line may be ended by a line feed, as an empty line follows then. -/
def IsSectionTable (table : List Section) (text : String) : Prop :=
  ∃ lines, TableLines table lines ∧ text.toList = join ['\n'] lines

/-- A line that is read in the same way with or without a carriage return at its end. -/
structure IsStable (line : List Char) : Prop where
  single : '\n' ∉ line
  dropReturn : sectionOfLine? (dropReturn line) = sectionOfLine? line

theorem isStable_of_isLine {line : List Char} (h : Text.IsLine line) : IsStable line :=
  ⟨h.1,by rw [dropReturn_of_isLine h]⟩

theorem IsPlain.isStable {line : List Char} (h : IsPlain line) : IsStable line := by
  refine ⟨h.2,?_⟩
  rw [sectionOfLine?_of_not_mem h.1,sectionOfLine?_of_not_mem (mt mem_of_mem_dropReturn h.1)]

section Table
variable {table : List Section} {rows : List (List Char)}

theorem isLine_of_rows (h : List.Forall₂ IsRow table rows) : ∀ line ∈ rows, Text.IsLine line := by
  induction h with
  | nil => exact nofun
  | cons hrow _ ih => exact List.forall_mem_cons.mpr ⟨hrow.isLine,ih⟩

theorem filterMap_of_rows (h : List.Forall₂ IsRow table rows) :
    rows.filterMap sectionOfLine? = table := by
  induction h with
  | nil => rfl
  | cons hrow _ ih => rw [List.filterMap_cons_some hrow.sectionOfLine?,ih]

theorem filterMap_of_plain {lines : List (List Char)} (h : ∀ line ∈ lines, IsPlain line) :
    lines.filterMap sectionOfLine? = [] :=
  List.filterMap_eq_nil_iff.mpr fun line hline => sectionOfLine?_of_not_mem (h line hline).1

theorem isStable_of_tableLines {lines : List (List Char)} (h : TableLines table lines) :
    ∀ line ∈ lines, IsStable line := by
  obtain ⟨htitle,hheading,hnull,hrows,hlegend⟩ := h
  simp only [List.forall_mem_append,List.forall_mem_cons]
  exact ⟨fun line hline => (htitle line hline).isStable,isStable_of_isLine hheading.isLine,
    isStable_of_isLine hnull.isLine,fun line hline => isStable_of_isLine (isLine_of_rows hrows line hline),
    fun line hline => (hlegend line hline).isStable⟩

/-- **A section table is read back:** its first row as a section without bytes, and every other row as
its section, in order. -/
theorem sections_of_isSectionTable {text : String} (h : IsSectionTable table text) :
    sections text = ⟨"NULL",0,""⟩ :: table := by
  obtain ⟨lines,hlines,htext⟩ := h
  have hstable := isStable_of_tableLines hlines
  rw [sections,htext,filterMap_lines_join (by rfl) (fun line hline => (hstable line hline).single)
    fun line hline => (hstable line hline).dropReturn]
  obtain ⟨htitle,hheading,hnull,hrows,hlegend⟩ := hlines
  rw [List.filterMap_append,filterMap_of_plain htitle,List.nil_append,
    List.filterMap_cons_none hheading.sectionOfLine?,List.filterMap_cons_some hnull.sectionOfLine?,
    List.filterMap_append,filterMap_of_rows hrows,filterMap_of_plain hlegend,List.append_nil]

end Table

/-- Columns with one space in front of each. -/
def spaced (columns : List (List Char)) : List Char :=
  columns.flatMap fun column => ' ' :: column

theorem columns_spaced (columns : List (List Char)) : Columns columns (spaced columns) := by
  induction columns with
  | nil => exact .nil
  | cons column columns ih => exact .cons 0 column ih

/-- A name that looks like an index, and a row of numbers without flags. -/
theorem sections_of_isSectionTable_numbers :
    sections "Table:\n [Nr] Name\n [ 0] NULL 0 0 0 0 0 0 0\n [1] [2] ff 0 0 0C 0 AX 0 0 1\n [2] 10 20 30 40 050 60 7 8 9\nKey:" =
      [⟨"NULL",0,""⟩,⟨"[2]",12,"AX"⟩,⟨"10",80,""⟩] := by
  have htitle : ∀ line ∈ ["Table:".toList], IsPlain line := by decide
  have hlegend : ∀ line ∈ ["Key:".toList], IsPlain line := by decide
  have hheading : IsHeading (indexed 1 0 ['N','r'] (spaced ["Name".toList])) :=
    .columns 1 (by decide) (columns_spaced _)
  have hnull : IsNullRow (indexed 1 1 ['0'] (spaced
      ["NULL".toList,['0'],['0'],['0'],['0'],['0'],['0'],['0']])) :=
    .columns 1 1 (by decide) (by decide) (by decide) (columns_spaced _)
  have hflagged : IsRow ⟨"[2]",12,"AX"⟩ (indexed 1 0 ['1'] (spaced
      ["[2]".toList,['f','f'],['0'],['0'],['0','C'],['0'],"AX".toList,['0'],['0'],['1']])) :=
    .columns 1 0 (by decide) (by decide) (by decide) (by decide) (by decide) (.digits 1 (by decide))
      (by decide) (List.all_eq_true.mp (by decide)) (by decide) (columns_spaced _)
  have hunflagged : IsRow ⟨"10",80,""⟩ (indexed 1 0 ['2'] (spaced
      ["10".toList,['2','0'],['3','0'],['4','0'],['0','5','0'],['6','0'],['7'],['8'],['9']])) :=
    .columns 1 0 (by decide) (by decide) (by decide) (by decide) (by decide) (.digits 1 (by decide))
      (by decide) (List.all_eq_true.mp (by decide)) (by decide) (columns_spaced _)
  exact sections_of_isSectionTable ⟨_,.lines htitle hheading hnull
    (.cons hflagged (.cons hunflagged .nil)) hlegend,by decide⟩

end SizeSurvey.Listing
