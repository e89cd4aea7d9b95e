import SizeSurvey.Proofs.Listing.Numeral
import SizeSurvey.Symbol.Resolved

/-! # Two listings of one symbol table

The mangled and the demangled listing of a table are read as the rows of that table, whatever
messages and blank lines stand between them, so that each symbol gets its own name for readers.
-/
namespace SizeSurvey.Listing
open Text

/-- A row of a table, with what a lister promises of its fields. -/
structure ListedSymbol where
  mangled : String
  display : String
  kind : Char
  value : String
  size : Size
  mangled_isWord : IsWord mangled.toList
  mangled_not_message : isMessage mangled.toList = false
  display_ne_nil : display.toList ≠ []
  display_first : ∀ c ∈ display.toList.head?, isBlank c = false
  display_not_message : isMessage display.toList = false
  display_single_line : '\n' ∉ display.toList
  kind_not_blank : isBlank kind = false
  value_isWord : IsWord value.toList

def ListedSymbol.mangledRow (symbol : ListedSymbol) : SymbolRow where
  name := symbol.mangled
  kind := symbol.kind
  size := symbol.size

def ListedSymbol.demangledRow (symbol : ListedSymbol) : SymbolRow where
  name := symbol.display
  kind := symbol.kind
  size := symbol.size

/-- The four fields with any gaps between them. -/
inductive MangledLine (symbol : ListedSymbol) : List Char → Prop
  | fields {first second third size : List Char} (hfirst : IsGap first) (hsecond : IsGap second)
      (hthird : IsGap third) (hsize : IsNumeral symbol.size size) :
    MangledLine symbol (symbol.mangled.toList ++
      (first ++ ([symbol.kind] ++ (second ++ (symbol.value.toList ++ (third ++ size))))))

/-- The four fields with single spaces between them. -/
inductive DemangledLine (symbol : ListedSymbol) : List Char → Prop
  | fields {size : List Char} (hsize : IsNumeral symbol.size size) :
    DemangledLine symbol (symbol.display.toList ++ ' ' :: [symbol.kind] ++
      ' ' :: symbol.value.toList ++ ' ' :: size)

/-- Lines that show the rows of a table in their order. White space may stand around a row, and
blank lines and messages between the rows. -/
inductive Shows (isRow : ListedSymbol → List Char → Prop) :
    List ListedSymbol → List (List Char) → Prop
  | nil : Shows isRow [] []
  | blank {table : List ListedSymbol} {line : List Char} {lines : List (List Char)}
      (hline : ∀ c ∈ line, isBlank c = true) (hrest : Shows isRow table lines) :
    Shows isRow table (line :: lines)
  | message {table : List ListedSymbol} {line : List Char} {lines : List (List Char)}
      (hline : isMessage line = true) (hrest : Shows isRow table lines) :
    Shows isRow table (line :: lines)
  | row {table : List ListedSymbol} {symbol : ListedSymbol} {before core after : List Char}
      {lines : List (List Char)} (hbefore : ∀ c ∈ before, isBlank c = true)
      (hcore : isRow symbol core) (hafter : ∀ c ∈ after, isBlank c = true)
      (hrest : Shows isRow table lines) :
    Shows isRow (symbol :: table) ((before ++ (core ++ after)) :: lines)

/-- A text of such lines. Its last line may be ended by a line feed, as an empty line follows then. -/
def IsListing (isRow : ListedSymbol → List Char → Prop) (table : List ListedSymbol)
    (text : String) : Prop :=
  ∃ lines, Shows isRow table lines ∧ (∀ line ∈ lines, '\n' ∉ line) ∧
    text.toList = join ['\n'] lines

/-! ## Lines of a listing -/

theorem trim_append_blank {c : Char} (h : isBlank c = true) (text : List Char) :
    trim (text ++ [c]) = trim text := by
  unfold trim trimStart
  rw [List.dropWhile_append]
  split
  next hempty =>
    rw [List.isEmpty_iff.mp hempty,List.dropWhile_cons_of_pos h]
    rfl
  next =>
    rw [trimEnd,List.reverse_append]
    exact congrArg List.reverse (List.dropWhile_cons_of_pos h)

theorem trim_dropReturn (line : List Char) : trim (dropReturn line) = trim line := by
  rcases dropReturn_eq_or line with h | h
  · rw [h]
  · have hend := trim_append_blank (c := '\r') (by decide) (dropReturn line)
    rw [← h] at hend
    exact hend.symm

/-- Whether a trimmed line is looked at. -/
def isRead (line : List Char) : Bool := !line.isEmpty && !isMessage line

theorem symbolLines_join {text : String} {lines : List (List Char)}
    (h : ∀ line ∈ lines, '\n' ∉ line) (htext : text.toList = join ['\n'] lines) :
    symbolLines text = (lines.map trim).filter isRead := by
  have hread : ∀ lines : List (List Char), (lines.map trim).filter isRead =
      lines.filterMap (Option.guard isRead ∘ trim) := by
    intro lines
    rw [← List.filterMap_eq_filter,List.filterMap_map]
  rw [hread,← filterMap_lines_join (by rfl) h fun line _ => by
    rw [Function.comp_apply,Function.comp_apply,trim_dropReturn],← hread,← htext]
  rfl

theorem isMessage_append {c : Char} (hc : isBlank c = true) (text rest : List Char) :
    isMessage (text ++ c :: rest) = isMessage text := by
  have hn : 'n' ≠ c := by rintro rfl; cases hc
  have hm : 'm' ≠ c := by rintro rfl; cases hc
  have hcolon : ':' ≠ c := by rintro rfl; cases hc
  rcases text with _ | ⟨x,_ | ⟨y,_ | ⟨z,text⟩⟩⟩ <;>
    simp [isMessage,List.isPrefixOf,hn,hm,hcolon]

/-- What the lines of a listing must be for their rows to be read. -/
structure Readable (layout : NameLayout) (row : ListedSymbol → SymbolRow)
    (symbol : ListedSymbol) (core : List Char) : Prop where
  first : ∀ c ∈ core.head?, isBlank c = false
  last : ∀ c ∈ core.getLast?, isBlank c = false
  not_empty : core ≠ []
  not_message : isMessage core = false
  fields : symbolOfLine? layout core = some (row symbol)

theorem Readable.isRead {layout : NameLayout} {row : ListedSymbol → SymbolRow}
    {symbol : ListedSymbol} {core : List Char} (h : Readable layout row symbol core) :
    isRead core = true := by
  simp [Listing.isRead,h.not_empty,h.not_message]

theorem isRead_message {line : List Char} (h : isMessage line = true) : isRead (trim line) = false := by
  obtain ⟨rest,rfl⟩ := List.isPrefixOf_iff_prefix.mp h
  have hend : ∃ tail, (rest.reverse ++ [':','m','n']).dropWhile isBlank = tail ++ [':','m','n'] := by
    rw [List.dropWhile_append]
    split
    · exact ⟨[],rfl⟩
    · exact ⟨_,rfl⟩
  obtain ⟨tail,htail⟩ := hend
  have htrim : trim ("nm:".toList ++ rest) = 'n' :: 'm' :: ':' :: tail.reverse := by
    have hstart : trimStart ('n' :: 'm' :: ':' :: rest) = 'n' :: 'm' :: ':' :: rest :=
      List.dropWhile_cons_of_neg (by decide)
    rw [trim,show "nm:".toList ++ rest = 'n' :: 'm' :: ':' :: rest from rfl,hstart,trimEnd]
    simp only [List.reverse_cons,List.append_assoc,List.cons_append,List.nil_append]
    rw [htail,List.reverse_append]
    rfl
  rw [htrim]
  rfl

theorem filterMap_of_shows {layout : NameLayout} {row : ListedSymbol → SymbolRow}
    {isRow : ListedSymbol → List Char → Prop} {table : List ListedSymbol}
    {lines : List (List Char)}
    (hrow : ∀ symbol core, isRow symbol core → Readable layout row symbol core)
    (h : Shows isRow table lines) :
    ((lines.map trim).filter isRead).filterMap (symbolOfLine? layout) = table.map row := by
  induction h with
  | nil => rfl
  | blank hline _ ih => rw [List.map_cons,trim_of_blank hline]; exact ih
  | message hline _ ih =>
    rw [List.map_cons,List.filter_cons_of_neg (Bool.eq_false_iff.mp (isRead_message hline))]
    exact ih
  | row hbefore hcore hafter _ ih =>
    have hreadable := hrow _ _ hcore
    rw [List.map_cons,trim_pad hbefore hafter hreadable.first hreadable.last,
      List.filter_cons_of_pos hreadable.isRead,List.filterMap_cons_some hreadable.fields,ih,List.map_cons]

/-! ## Rows of the two layouts -/

theorem readable_mangledLine (symbol : ListedSymbol) (core : List Char)
    (h : MangledLine symbol core) : Readable .mangled ListedSymbol.mangledRow symbol core := by
  obtain ⟨hfirst,hsecond,hthird,hsize⟩ := h
  rename_i first second third size
  have hname := symbol.mangled_isWord
  have hword := isWord_of_isNumeral hsize
  constructor
  case first =>
    obtain ⟨c,rest,hc⟩ := List.exists_cons_of_ne_nil hname.1
    intro d hd
    rw [hc,List.cons_append,List.head?_cons,Option.mem_some_iff] at hd
    exact hname.2 d (by rw [hc,hd]; exact List.mem_cons_self)
  case last =>
    obtain ⟨c,hc,hblank⟩ := hword.getLast?
    intro d hd
    simp only [List.getLast?_append,hc,Option.some_or,Option.mem_some_iff] at hd
    rwa [← hd]
  case not_empty => simp [hname.1]
  case not_message =>
    obtain ⟨c,blanks,rfl⟩ := List.exists_cons_of_ne_nil hfirst.1
    rw [List.cons_append,isMessage_append (hfirst.2 c List.mem_cons_self)]
    exact symbol.mangled_not_message
  case fields =>
    rw [symbolOfLine?,symbolFields?,words_append hname hfirst,
      words_append (isWord_singleton symbol.kind_not_blank) hsecond,
      words_append symbol.value_isWord hthird,words_of_isWord hword]
    simp [size?_of_isNumeral hsize,ListedSymbol.mangledRow]

section Demangled
variable {name value field : List Char} {kind : Char} {size : Size}

theorem first_demangled (hname : name ≠ []) (hfirst : ∀ c ∈ name.head?, isBlank c = false) :
    ∀ c ∈ (name ++ ' ' :: [kind] ++ ' ' :: value ++ ' ' :: field).head?, isBlank c = false := by
  obtain ⟨c,rest,rfl⟩ := List.exists_cons_of_ne_nil hname
  exact hfirst

theorem last_demangled (hsize : IsNumeral size field) :
    ∀ c ∈ (name ++ ' ' :: [kind] ++ ' ' :: value ++ ' ' :: field).getLast?, isBlank c = false := by
  obtain ⟨c,hc,hblank⟩ := (isWord_of_isNumeral hsize).getLast?
  intro d hd
  simp only [List.getLast?_append,List.getLast?_cons,hc,Option.getD_some,Option.some_or,
    Option.mem_some_iff] at hd
  rwa [← hd]

theorem isMessage_demangled :
    isMessage (name ++ ' ' :: [kind] ++ ' ' :: value ++ ' ' :: field) = isMessage name := by
  simp only [List.append_assoc,List.cons_append]
  exact isMessage_append (by decide) _ _

theorem symbolOfLine?_demangled (hkind : isBlank kind = false) (hvalue : IsWord value)
    (hsize : IsNumeral size field) :
    symbolOfLine? .demangled (name ++ ' ' :: [kind] ++ ' ' :: value ++ ' ' :: field) =
      some ⟨String.ofList name,kind,size⟩ := by
  rw [symbolOfLine?,symbolFields?,splitLast_append (isWord_of_isNumeral hsize).space_not_mem,
    splitLast_append hvalue.space_not_mem,splitLast_append (isWord_singleton hkind).space_not_mem,
    splitLast]
  simp [size?_of_isNumeral hsize]

end Demangled

theorem readable_demangledLine (symbol : ListedSymbol) (core : List Char)
    (h : DemangledLine symbol core) :
    Readable .demangled ListedSymbol.demangledRow symbol core := by
  obtain ⟨hsize⟩ := h
  constructor
  case first => exact first_demangled symbol.display_ne_nil symbol.display_first
  case last => exact last_demangled hsize
  case not_empty => simp
  case not_message => rw [isMessage_demangled,symbol.display_not_message]
  case fields =>
    rw [symbolOfLine?_demangled symbol.kind_not_blank symbol.value_isWord hsize,String.ofList_toList]
    rfl

theorem symbols_of_isListing {layout : NameLayout} {row : ListedSymbol → SymbolRow}
    {isRow : ListedSymbol → List Char → Prop} {table : List ListedSymbol} {text : String}
    (hrow : ∀ symbol core, isRow symbol core → Readable layout row symbol core)
    (h : IsListing isRow table text) : symbols layout text = table.map row := by
  obtain ⟨lines,hshows,hsingle,htext⟩ := h
  rw [symbols,symbolLines_join hsingle htext,filterMap_of_shows hrow hshows]

end SizeSurvey.Listing

namespace SizeSurvey.ResolvedSymbols
open Listing Text

/-- A symbol of a table under both of its names. -/
def ofListed (symbol : ListedSymbol) : Symbol :=
  .ofKind symbol.mangled symbol.display symbol.kind symbol.size

theorem listedNames?_of_length_eq (rows listed : List SymbolRow) (hne : listed ≠ [])
    (h : listed.length = rows.length) :
    listedNames? rows (some listed) = some (listed.map (·.name)) := by
  simp [listedNames?,hne,h]

/-- **Listings of one table stay aligned.** Each of them is read as the rows of the table in their
order, and the symbols have their names from the same row of both, without a demangler. -/
theorem resolve_listings {m : Type → Type} [Monad m] (demangle : Demangler m)
    {table : List ListedSymbol} (hne : table ≠ []) {mangled demangled : String}
    (hmangled : IsListing MangledLine table mangled)
    (hdemangled : IsListing DemangledLine table demangled) :
    Listing.symbols .mangled mangled = table.map ListedSymbol.mangledRow ∧
      Listing.symbols .demangled demangled = table.map ListedSymbol.demangledRow ∧
      resolve demangle (Listing.symbols .mangled mangled)
          (some (Listing.symbols .demangled demangled)) =
        pure { symbols := table.map ofListed, demangling := .demangled } := by
  have hrows := symbols_of_isListing readable_mangledLine hmangled
  have hlisted := symbols_of_isListing readable_demangledLine hdemangled
  have hnames := listedNames?_of_length_eq (table.map ListedSymbol.mangledRow)
    (table.map ListedSymbol.demangledRow) (by simp [hne]) (by simp)
  refine ⟨hrows,hlisted,?_⟩
  have hzip : ofNames (table.map ListedSymbol.mangledRow)
      (.complete ((table.map ListedSymbol.demangledRow).map (·.name))) =
      { symbols := table.map ofListed, demangling := .demangled } := by
    simp only [ofNames,DemangledBatch.complete,List.map_map,List.zipWith_map,List.zipWith_self]
    rfl
  rw [hrows,hlisted,resolve,hnames]
  exact congrArg pure hzip

/-- A function whose name for readers ends like a row. -/
def allocation : ListedSymbol where
  mangled := "_Znwm"
  display := "operator new(unsigned long) T 0 8"
  kind := 'T'
  value := "0010"
  size := 50
  mangled_isWord := by decide
  mangled_not_message := by decide
  display_ne_nil := by decide
  display_first := by rintro _ ⟨⟩; decide
  display_not_message := by decide
  display_single_line := by decide
  kind_not_blank := by decide
  value_isWord := by decide

def counter : ListedSymbol where
  mangled := "v"
  display := "v"
  kind := 'b'
  value := "0"
  size := 255
  mangled_isWord := by decide
  mangled_not_message := by decide
  display_ne_nil := by decide
  display_first := by rintro _ ⟨⟩; decide
  display_not_message := by decide
  display_single_line := by decide
  kind_not_blank := by decide
  value_isWord := by decide

/-- Messages and blank lines stand at different places of the two listings. -/
theorem resolve_listings_two :
    let table := [allocation,counter]
    let mangled := "nm: warning\n_Znwm T\t0010 0050\r\n\n  v b 0 0xFf\n"
    let demangled := "operator new(unsigned long) T 0 8 T 0010 50\nnm: done\nv b 0 255"
    (table ≠ [] ∧ IsListing MangledLine table mangled ∧ IsListing DemangledLine table demangled) ∧
      resolve (m := Option) (fun _ => none) (Listing.symbols .mangled mangled)
          (some (Listing.symbols .demangled demangled)) =
        some { symbols := table.map ofListed, demangling := .demangled } := by
  intro table mangled demangled
  have hspace : IsGap [' '] := by decide
  have htab : IsGap ['\t'] := by decide
  have hnone : ∀ c ∈ [], isBlank c = true := nofun
  have hne : table ≠ [] := by decide
  have hmangled : IsListing MangledLine table mangled := by
    have hfirst : MangledLine allocation "_Znwm T\t0010 0050".toList :=
      .fields hspace htab hspace (.decimal 2)
    have hsecond : MangledLine counter "v b 0 0xFf".toList :=
      .fields hspace hspace hspace (.hex (.inl rfl) 0 (show ['F','f'].map _ = _ by decide))
    have hreturn : ∀ c ∈ ['\r'], isBlank c = true := List.all_eq_true.mp (by decide)
    have hindent : ∀ c ∈ [' ',' '], isBlank c = true := List.all_eq_true.mp (by decide)
    refine ⟨["nm: warning".toList,"_Znwm T\t0010 0050\r".toList,[],"  v b 0 0xFf".toList,[]],?_,
      by decide,by decide⟩
    exact .message (by decide) (.row hnone hfirst hreturn (.blank hnone
      (.row hindent hsecond hnone (.blank hnone .nil))))
  have hdemangled : IsListing DemangledLine table demangled := by
    have hfirst : DemangledLine allocation "operator new(unsigned long) T 0 8 T 0010 50".toList :=
      .fields (.decimal 0)
    have hsecond : DemangledLine counter "v b 0 255".toList := .fields (.decimal 0)
    refine ⟨["operator new(unsigned long) T 0 8 T 0010 50".toList,"nm: done".toList,
      "v b 0 255".toList],?_,by decide,by decide⟩
    exact .row hnone hfirst hnone (.message (by decide) (.row hnone hsecond hnone .nil))
  exact ⟨⟨hne,hmangled,hdemangled⟩,(resolve_listings (fun _ => none) hne hmangled hdemangled).2.2⟩

end SizeSurvey.ResolvedSymbols
