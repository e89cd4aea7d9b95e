import Mathlib.Data.List.Forall2
import SizeSurvey.Proofs.Listing.SymbolTable

/-! # Names that look like messages

The names of a demangled listing are free, but a line that begins like a message of the lister is skipped.
So the rows whose names begin in that way are lost from the listing, and no others.
-/
namespace SizeSurvey.Listing
open Text

/-- A row with any name of a single line that does not begin with white space. -/
structure NamedSymbol where
  name : String
  kind : Char
  value : String
  size : Size
  name_ne_nil : name.toList ≠ []
  name_first : ∀ c ∈ name.toList.head?, isBlank c = false
  name_single_line : '\n' ∉ name.toList
  kind_not_blank : isBlank kind = false
  value_isWord : IsWord value.toList

namespace NamedSymbol

def row (symbol : NamedSymbol) : SymbolRow where
  name := symbol.name
  kind := symbol.kind
  size := symbol.size

/-- The four fields with single spaces between them. -/
inductive IsLine (symbol : NamedSymbol) : List Char → Prop
  | fields {size : List Char} (hsize : IsNumeral symbol.size size) :
    IsLine symbol (symbol.name.toList ++ ' ' :: [symbol.kind] ++ ' ' :: symbol.value.toList ++ ' ' :: size)

/-- A text with one line for each row. Its last line may be ended by a line feed. -/
def IsTable (table : List NamedSymbol) (text : String) : Prop :=
  ∃ lines, List.Forall₂ IsLine table lines ∧
    (text.toList = join ['\n'] lines ∨ text.toList = join ['\n'] (lines ++ [[]]))

namespace IsLine
variable {symbol : NamedSymbol} {line : List Char}

theorem single_line (h : symbol.IsLine line) : '\n' ∉ line := by
  obtain ⟨hsize⟩ := h
  have hword : ∀ {word : List Char}, IsWord word → '\n' ∉ word := fun hword hmem =>
    absurd (hword.2 _ hmem) (by decide)
  have hkind : '\n' ≠ symbol.kind := fun h =>
    hword (isWord_singleton symbol.kind_not_blank) (List.mem_singleton.mpr h)
  simp [symbol.name_single_line,hkind,hword symbol.value_isWord,hword (isWord_of_isNumeral hsize)]

theorem trim_eq (h : symbol.IsLine line) : trim line = line := by
  obtain ⟨hsize⟩ := h
  exact trim_of_ends (first_demangled symbol.name_ne_nil symbol.name_first) (last_demangled hsize)

theorem isRead_eq (h : symbol.IsLine line) : isRead line = !isMessage symbol.name.toList := by
  obtain ⟨hsize⟩ := h
  rw [isRead,isMessage_demangled]
  simp

theorem symbolOfLine?_eq (h : symbol.IsLine line) : symbolOfLine? .demangled line = some symbol.row := by
  obtain ⟨hsize⟩ := h
  rw [symbolOfLine?_demangled symbol.kind_not_blank symbol.value_isWord hsize,String.ofList_toList]
  rfl

end IsLine

/-! ## Lines of a table -/

variable {table : List NamedSymbol} {lines : List (List Char)}

theorem single_line_of_lines (h : List.Forall₂ IsLine table lines) : ∀ line ∈ lines, '\n' ∉ line := by
  induction h with
  | nil => exact nofun
  | cons hline _ ih => exact List.forall_mem_cons.mpr ⟨hline.single_line,ih⟩

theorem filterMap_of_lines (h : List.Forall₂ IsLine table lines) :
    ((lines.map trim).filter isRead).filterMap (symbolOfLine? .demangled) =
      (table.filter fun symbol => !isMessage symbol.name.toList).map row := by
  induction h with
  | nil => rfl
  | @cons symbol line _ _ hline _ ih =>
    rw [List.map_cons,hline.trim_eq,List.filter_cons,List.filter_cons,hline.isRead_eq]
    cases isMessage symbol.name.toList with
    | true => exact ih
    | false => exact (List.filterMap_cons_some hline.symbolOfLine?_eq).trans (congrArg _ ih)

/-- A line feed behind the last line begins an empty line, which is not read. -/
theorem symbolLines_of_lines {text : String} (h : List.Forall₂ IsLine table lines)
    (htext : text.toList = join ['\n'] lines ∨ text.toList = join ['\n'] (lines ++ [[]])) :
    symbolLines text = (lines.map trim).filter isRead := by
  have hsingle := single_line_of_lines h
  rcases htext with htext | htext
  · exact symbolLines_join hsingle htext
  · have hended : ∀ line ∈ lines ++ [[]], '\n' ∉ line :=
      List.forall_mem_append.mpr ⟨hsingle,List.forall_mem_singleton.mpr List.not_mem_nil⟩
    rw [symbolLines_join hended htext,List.map_append,List.filter_append]
    exact List.append_nil _

/-- **Rows are lost by their names:** a table is read in its order without the rows whose names begin like a
message, so that it is read as it is if and only if it has no such row. -/
theorem symbols_of_isTable {text : String} (h : IsTable table text) :
    symbols .demangled text = (table.filter fun symbol => !isMessage symbol.name.toList).map row ∧
      (symbols .demangled text = table.map row ↔
        ∀ symbol ∈ table, isMessage symbol.name.toList = false) := by
  obtain ⟨lines,hlines,htext⟩ := h
  have hread : symbols .demangled text =
      (table.filter fun symbol => !isMessage symbol.name.toList).map row := by
    rw [symbols,symbolLines_of_lines hlines htext,filterMap_of_lines hlines]
  refine ⟨hread,?_⟩
  rw [hread]
  constructor
  · intro hall
    have hlength := congrArg List.length hall
    rw [List.length_map,List.length_map,List.length_filter_eq_length_iff] at hlength
    exact fun symbol hsymbol => (Bool.not_eq_true' _).mp (hlength symbol hsymbol)
  · intro hnone
    rw [List.filter_eq_self.mpr fun symbol hsymbol => by rw [hnone symbol hsymbol,Bool.not_false]]

/-- A member of a namespace that is called like the lister. -/
def poolAccess : NamedSymbol where
  name := "nm::pool::get()"
  kind := 't'
  value := "0040"
  size := 8
  name_ne_nil := by decide
  name_first := by rintro _ ⟨⟩; decide
  name_single_line := by decide
  kind_not_blank := by decide
  value_isWord := by decide

/-- Here the mark of a message stands within the name. -/
def poolAllocation : NamedSymbol where
  name := "operator new(nm::pool&)"
  kind := 'W'
  value := "00a0"
  size := 32
  name_ne_nil := by decide
  name_first := by rintro _ ⟨⟩; decide
  name_single_line := by decide
  kind_not_blank := by decide
  value_isWord := by decide

/-- One of two rows is lost. -/
theorem symbols_of_isTable_two :
    let text := "operator new(nm::pool&) W 00a0 032\nnm::pool::get() t 0040 8\n"
    IsTable [poolAllocation,poolAccess] text ∧ symbols .demangled text = [poolAllocation.row] := by
  intro text
  have hfirst : poolAllocation.IsLine "operator new(nm::pool&) W 00a0 032".toList := .fields (.decimal 1)
  have hsecond : poolAccess.IsLine "nm::pool::get() t 0040 8".toList := .fields (.decimal 0)
  have htable : IsTable [poolAllocation,poolAccess] text :=
    ⟨_,.cons hfirst (.cons hsecond .nil),Or.inr (by decide)⟩
  exact ⟨htable,(symbols_of_isTable htable).1⟩

/-- Nothing is read from a table of that row alone. -/
theorem symbols_poolAccess : IsTable [poolAccess] "nm::pool::get() t 0040 8" ∧
    symbols .demangled "nm::pool::get() t 0040 8" ≠ [poolAccess.row] := by
  have hline : poolAccess.IsLine "nm::pool::get() t 0040 8".toList := .fields (.decimal 0)
  exact ⟨⟨_,.cons hline .nil,Or.inl (by decide)⟩,by decide⟩

end NamedSymbol

end SizeSurvey.Listing
