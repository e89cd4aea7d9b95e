import Mathlib.Order.Bounds.Defs
import SizeSurvey.Proofs.NameMap
import SizeSurvey.Proofs.Ranking.Stability
import SizeSurvey.Proofs.Ranking.Totals
import SizeSurvey.Proofs.Size
import SizeSurvey.Symbol.DynamicSummary

/-! # What a dynamic summary lists

The defined symbols by size, the bytes of their namespaces, and the least size of each name. The least
size is nowhere looked for: the symbols stand by descending size, and of several bindings of a name
the last one counts.
-/
namespace SizeSurvey

/-! ## The last binding of a name -/

namespace NameMap

theorem lookup_of_ascending {entries : List (String × Size)}
    (h : entries.Pairwise fun a b => a.2 ≤ b.2) {name : String} {size : Size} :
    entries.lookup name = some size ↔
      (name,size) ∈ entries ∧ ∀ other, (name,other) ∈ entries → size ≤ other := by
  induction entries with
  | nil => simp
  | cons entry rest ih =>
    obtain ⟨hfirst,hrest⟩ := List.pairwise_cons.mp h
    rw [lookup_cons_eq_ite]
    by_cases hname : name = entry.1
    · subst hname
      rw [if_pos rfl,Option.some_inj]
      constructor
      · rintro rfl
        refine ⟨List.mem_cons_self,fun other hother => ?_⟩
        rcases List.mem_cons.mp hother with heq | hother
        · rw [← heq]
          exact UInt64.le_refl other
        · exact hfirst _ hother
      · rintro ⟨hmem,hleast⟩
        have hle : size ≤ entry.2 := hleast entry.2 List.mem_cons_self
        rcases List.mem_cons.mp hmem with heq | hmem
        · rw [← heq]
        · exact UInt64.le_antisymm (hfirst _ hmem) hle
    · have hne : ∀ value, (name,value) ≠ entry := fun value he => hname (he ▸ rfl)
      rw [if_neg hname,ih hrest]
      simp [hne]

/-- Of bindings by descending size the last one of a name has its least size. -/
theorem get?_ofList_of_descending {entries : List (String × Size)}
    (h : entries.Pairwise fun a b => b.2 ≤ a.2) {name : String} {size : Size} :
    (ofList entries).get? name = some size ↔
      (name,size) ∈ entries ∧ ∀ other, (name,other) ∈ entries → size ≤ other := by
  rw [get?_ofList,lookup_of_ascending (List.pairwise_reverse.mpr h)]
  simp only [List.mem_reverse]

theorem mem_names_ofList {α : Type} {entries : List (String × α)} {name : String} :
    name ∈ (ofList entries).names ↔ name ∈ entries.map Prod.fst := by
  rw [← contains_iff,contains,get?_ofList,List.lookup_isSome_iff]
  simp only [List.mem_reverse,beq_iff_eq,List.mem_map]
  exact exists_congr fun entry => and_congr_right fun _ => eq_comm

end NameMap

/-! ## Namespaces at two depths -/

namespace Symbol

/-- Three tokens, else the first one. -/
def shallowKey? (symbol : Symbol) : Option String :=
  match Namespace.tokens symbol.demangled with
  | [] => none
  | first :: second :: third :: _ => some (Namespace.joined [first,second,third])
  | first :: _ => some (String.ofList first)

/-- Four tokens, else two. -/
def deepKey? (symbol : Symbol) : Option String :=
  match Namespace.tokens symbol.demangled with
  | [] => none
  | [_] => none
  | first :: second :: third :: fourth :: _ =>
    some (Namespace.joined [first,second,third,fourth])
  | first :: second :: _ => some (Namespace.joined [first,second])

theorem leading?_shallow (symbol : Symbol) :
    Namespace.leading? [3,1] (Namespace.tokens symbol.demangled) = symbol.shallowKey? := by
  unfold shallowKey?
  rcases Namespace.tokens symbol.demangled with _ | ⟨first,_ | ⟨second,_ | ⟨third,rest⟩⟩⟩ <;>
    simp [Namespace.leading?,Namespace.joined,Text.join]

theorem leading?_deep (symbol : Symbol) :
    Namespace.leading? [4,2] (Namespace.tokens symbol.demangled) = symbol.deepKey? := by
  unfold deepKey?
  rcases Namespace.tokens symbol.demangled with
    _ | ⟨first,_ | ⟨second,_ | ⟨third,_ | ⟨fourth,rest⟩⟩⟩⟩ <;>
    simp [Namespace.leading?]

end Symbol

/-- The keys of symbols in the order in which they first appear, each with the bytes of its symbols.
Symbols without a key take no part. -/
def namespaceTotals (key? : Symbol → Option String) (symbols : List Symbol) : List (String × Size) :=
  (symbols.filterMap key?).eraseDups.map fun key =>
    (key,Size.saturated ((symbols.filter fun symbol => key? symbol = some key).map (·.size)))

theorem amountsOf_filterMap (key? : Symbol → Option String) (symbols : List Symbol) (key : String) :
    amountsOf (symbols.filterMap fun symbol => (key? symbol).map (·,symbol.size)) key =
      (symbols.filter fun symbol => key? symbol = some key).map (·.size) := by
  induction symbols with
  | nil => rfl
  | cons symbol rest ih =>
    rw [List.filterMap_cons,List.filter_cons]
    cases hkey : key? symbol with
    | none => exact ih
    | some own =>
      rw [Option.map_some,amountsOf_cons,ih]
      by_cases h : key = own
      · simp [h]
      · simp [h,Ne.symm h]

theorem entries_ofList_filterMap (key? : Symbol → Option String) (symbols : List Symbol) :
    (Tally.ofList (symbols.filterMap fun symbol => (key? symbol).map (·,symbol.size))).entries =
      namespaceTotals key? symbols := by
  have hkeys : (symbols.filterMap fun symbol => (key? symbol).map (·,symbol.size)).map Prod.fst =
      symbols.filterMap key? := by
    rw [List.map_filterMap]
    simp [Function.comp_def]
  simp only [Tally.ofList_eq_sums,Tally.entries_sums,hkeys,amountsOf_filterMap,Size.total_eq_saturated]
  rfl

/-- A ranking of keys by their bytes, which a limit may cut. -/
structure RanksNamespaces (key? : Symbol → Option String) (symbols : List Symbol) (limit : Nat)
    (ranking : List (String × Size)) : Prop where
  leading : ∃ all, RanksStably (fun entry : String × Size => entry.2.toNat)
    (namespaceTotals key? symbols) all ∧ ranking = all.take limit
  complete : (namespaceTotals key? symbols).length ≤ limit →
    RanksStably (fun entry : String × Size => entry.2.toNat) (namespaceTotals key? symbols) ranking

theorem ranksNamespaces_mostCommon {key? : Symbol → Option String} {tally : Tally Size}
    {symbols : List Symbol} (h : tally.entries = namespaceTotals key? symbols) (limit : Nat) :
    RanksNamespaces key? symbols limit (tally.mostCommon limit) := by
  have hranked := ranksStably_mergeSort (fun entry : String × Size => entry.2.toNat)
    (fun _ _ => decide_eq_true_iff) (namespaceTotals key? symbols)
  rw [Tally.mostCommon,Tally.ranked,h]
  refine ⟨⟨_,hranked,rfl⟩,fun hroom => ?_⟩
  rw [List.take_of_length_le (Nat.le_trans (Nat.le_of_eq hranked.perm.length_eq) hroom)]
  exact hranked

namespace DynamicSummary
variable (limit : Nat) (symbols : List Symbol)

theorem namespaceTally_shallow :
    (namespaceTally [3,1] symbols).entries = namespaceTotals Symbol.shallowKey? symbols := by
  simp only [namespaceTally,Symbol.leading?_shallow]
  exact entries_ofList_filterMap Symbol.shallowKey? symbols

theorem namespaceTally_deep :
    (namespaceTally [4,2] symbols).entries = namespaceTotals Symbol.deepKey? symbols := by
  simp only [namespaceTally,Symbol.leading?_deep]
  exact entries_ofList_filterMap Symbol.deepKey? symbols

theorem ranksStably_symbols :
    RanksStably (fun symbol : DynamicSymbol => symbol.size.toNat)
      ((symbols.filter Symbol.isDefined).map DynamicSymbol.ofSymbol)
      (ofSymbols limit symbols).symbols :=
  ranksStably_sizes DynamicSymbol.size _

/-! ## Sizes by name -/

/-- The bindings of a map of sizes in the order in which they are made. -/
def bindings (summary : DynamicSummary) : List (String × Size) :=
  (summary.symbols.filter fun symbol => !symbol.demangled.isEmpty).map fun symbol =>
    (symbol.demangled,symbol.size)

theorem mem_bindings_iff {name : String} {size : Size} :
    (name,size) ∈ (ofSymbols limit symbols).bindings ↔
      name ≠ "" ∧ ∃ symbol ∈ symbols, symbol.isDefined ∧ symbol.demangled = name ∧
        symbol.size = size := by
  simp only [bindings,List.mem_map,List.mem_filter,(ranksStably_symbols limit symbols).perm.mem_iff,
    Prod.mk.injEq,Bool.not_eq_true',String.isEmpty_eq_false_iff]
  constructor
  · rintro ⟨_,⟨⟨symbol,⟨hmem,hdefined⟩,rfl⟩,hname⟩,rfl,rfl⟩
    exact ⟨hname,symbol,hmem,hdefined,rfl,rfl⟩
  · rintro ⟨hname,symbol,hmem,hdefined,rfl,rfl⟩
    exact ⟨_,⟨⟨symbol,⟨hmem,hdefined⟩,rfl⟩,hname⟩,rfl,rfl⟩

theorem descending_bindings :
    (ofSymbols limit symbols).bindings.Pairwise fun a b => b.2 ≤ a.2 := by
  have hdescending := (ranksStably_symbols limit symbols).descending.filter
    fun symbol => !symbol.demangled.isEmpty
  exact List.pairwise_map.mpr (hdescending.imp UInt64.le_iff_toNat_le.mpr)

theorem get?_sizes {name : String} {size : Size} :
    (ofSymbols limit symbols).sizes.get? name = some size ↔
      name ≠ "" ∧ IsLeast {bytes | ∃ symbol ∈ symbols, symbol.isDefined ∧ symbol.demangled = name ∧
        symbol.size = bytes} size := by
  rw [sizes,← bindings,NameMap.get?_ofList_of_descending (descending_bindings limit symbols)]
  simp only [mem_bindings_iff]
  constructor
  · rintro ⟨⟨hname,hmem⟩,hleast⟩
    exact ⟨hname,hmem,fun other hother => hleast other ⟨hname,hother⟩⟩
  · rintro ⟨hname,hmem,hleast⟩
    exact ⟨⟨hname,hmem⟩,fun other hother => hleast hother.2⟩

theorem mem_names_sizes {name : String} :
    name ∈ (ofSymbols limit symbols).sizes.names ↔
      name ≠ "" ∧ ∃ symbol ∈ symbols, symbol.isDefined ∧ symbol.demangled = name := by
  rw [sizes,← bindings,NameMap.mem_names_ofList,List.mem_map]
  constructor
  · rintro ⟨⟨_,size⟩,hmem,rfl⟩
    obtain ⟨hname,symbol,hsymbol,hdefined,hdemangled,-⟩ := (mem_bindings_iff limit symbols).mp hmem
    exact ⟨hname,symbol,hsymbol,hdefined,hdemangled⟩
  · rintro ⟨hname,symbol,hsymbol,hdefined,hdemangled⟩
    exact ⟨(name,symbol.size),
      (mem_bindings_iff limit symbols).mpr ⟨hname,symbol,hsymbol,hdefined,hdemangled,rfl⟩,rfl⟩

theorem sizes_perm (limit' : Nat) {symbols others : List Symbol} (h : symbols.Perm others) :
    (ofSymbols limit' others).sizes = (ofSymbols limit symbols).sizes := by
  refine NameMap.ext_get? fun name => Option.ext fun size => ?_
  rw [get?_sizes,get?_sizes]
  simp only [h.mem_iff]

/-- What a summary says about the symbols of a library. -/
structure Lists (limit : Nat) (symbols : List Symbol) (summary : DynamicSummary) : Prop where
  symbols_ranked : RanksStably (fun symbol : DynamicSymbol => symbol.size.toNat)
    ((symbols.filter Symbol.isDefined).map DynamicSymbol.ofSymbol) summary.symbols
  shallow : RanksNamespaces Symbol.shallowKey? (symbols.filter Symbol.isDefined) limit summary.shallow
  deep : RanksNamespaces Symbol.deepKey? (symbols.filter Symbol.isDefined) limit summary.deep
  names : ∀ name, name ∈ summary.sizes.names ↔
    name ≠ "" ∧ ∃ symbol ∈ symbols, symbol.isDefined ∧ symbol.demangled = name
  sizes : ∀ name size, summary.sizes.get? name = some size ↔
    name ≠ "" ∧ IsLeast {bytes | ∃ symbol ∈ symbols, symbol.isDefined ∧ symbol.demangled = name ∧
      symbol.size = bytes} size

/-- **A dynamic summary is exact**, and the sizes by name do not depend on the order of the symbols. -/
theorem ofSymbols_lists :
    Lists limit symbols (ofSymbols limit symbols) ∧
      ∀ others limit', symbols.Perm others →
        (ofSymbols limit' others).sizes = (ofSymbols limit symbols).sizes := by
  refine ⟨?_,fun others limit' => sizes_perm limit limit'⟩
  constructor
  case symbols_ranked => exact ranksStably_symbols limit symbols
  case shallow =>
    exact ranksNamespaces_mostCommon (namespaceTally_shallow (symbols.filter Symbol.isDefined)) limit
  case deep =>
    exact ranksNamespaces_mostCommon (namespaceTally_deep (symbols.filter Symbol.isDefined)) limit
  case names => exact fun name => mem_names_sizes limit symbols
  case sizes => exact fun name size => get?_sizes limit symbols

/-- Symbols of one name and of one size, one without a name for readers, and one that is not defined. -/
theorem ofSymbols_lists_five :
    let symbols : List Symbol := [.ofKind "_Z1f" "a::b::f" 'T' 8,.ofKind "_Z2f" "a::b::f" 'W' 3,
      .ofKind "x" "" 'D' 3,.ofKind "_Z1g" "g" 'T' 3,.ofKind "_Z1h" "a::b::f" 'U' 1]
    ((namespaceTotals Symbol.shallowKey? (symbols.filter Symbol.isDefined)).length ≤ 2 ∧
        symbols.Perm symbols.reverse) ∧
      RanksStably (fun entry : String × Size => entry.2.toNat)
        [("a::b::f",11),("g",3)] (ofSymbols 2 symbols).shallow ∧
      (ofSymbols 2 symbols).sizes.get? "a::b::f" = some 3 ∧
      (ofSymbols 0 symbols.reverse).sizes = (ofSymbols 2 symbols).sizes := by
  intro symbols
  have htotals : namespaceTotals Symbol.shallowKey? (symbols.filter Symbol.isDefined) =
      [("a::b::f",11),("g",3)] := by decide
  have hperm : symbols.Perm symbols.reverse := (List.reverse_perm symbols).symm
  obtain ⟨hlists,hsame⟩ := ofSymbols_lists 2 symbols
  have hshallow := hlists.shallow.complete (by decide)
  rw [htotals] at hshallow
  refine ⟨⟨by decide,hperm⟩,hshallow,?_,hsame _ 0 hperm⟩
  refine (hlists.sizes "a::b::f" 3).mpr ⟨by decide,?_,?_⟩
  · exact ⟨_,List.mem_cons_of_mem _ List.mem_cons_self,by decide⟩
  · rintro bytes ⟨symbol,hsymbol,hdefined,hname,rfl⟩
    revert hname hdefined
    revert symbol
    decide

end DynamicSummary

end SizeSurvey
