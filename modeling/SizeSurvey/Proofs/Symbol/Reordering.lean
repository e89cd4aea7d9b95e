import SizeSurvey.Proofs.Ranking.Reordering
import SizeSurvey.Proofs.Symbol.Agreement
import SizeSurvey.Symbol.Resolved

/-! # Symbols in another order

Symbols that are not defined are only counted, and the order of a symbol table only decides which
of several names of one metric a ranking keeps. All numbers of a summary are those of the symbols
as a collection.
-/
namespace SizeSurvey

/-! ## Parts of a summary -/

section Parts
variable {symbols others : List Symbol}

theorem totalsBy_perm (h : symbols.Perm others) (key : Symbol → String) (amount : Symbol → Size) :
    totalsBy key amount symbols = totalsBy key amount others := by
  refine NameMap.ext_get? fun name => ?_
  rw [get?_totalsBy,get?_totalsBy,h.any_eq,Size.total_eq_saturated,Size.total_eq_saturated,
    Size.saturated_perm ((h.filter _).map amount)]

theorem countsBy_perm (h : symbols.Perm others) (key : Symbol → String) :
    countsBy key symbols = countsBy key others := by
  refine NameMap.ext_get? fun name => ?_
  rw [get?_countsBy,get?_countsBy,h.any_eq,h.countP_eq]

theorem Breakdown.ofPass_perm (h : symbols.Perm others) (key : Symbol → String) :
    ofPass key symbols = ofPass key others := by
  rw [ofPass,ofPass,countsBy_perm h,totalsBy_perm h]

theorem totals_namespaceRanking_perm (limit : Nat) (h : symbols.Perm others) :
    (namespaceRanking limit symbols).map Prod.snd = (namespaceRanking limit others).map Prod.snd :=
  Tally.totals_mostCommon_perm limit (h.map _)

theorem sizes_sizeRanking_perm (limit : Nat) (h : symbols.Perm others) :
    (sizeRanking limit symbols).map RankedSymbol.size =
      (sizeRanking limit others).map RankedSymbol.size := by
  have hmetrics := Leaders.metrics_toList_perm limit
    (h.map fun symbol => (symbol.size,symbol.displayName))
  rw [sizeRanking,sizeRanking,StaticSummary.ranking,StaticSummary.ranking,List.map_map,List.map_map]
  exact hmetrics

/-- The number that long names are ranked by. -/
def LongName.metric (entry : LongName) : UInt64 := UInt64.ofNat entry.length

theorem metrics_lengthRanking (limit : Nat) (symbols : List Symbol) :
    (lengthRanking limit symbols).map LongName.metric =
      (Leaders.ofList limit
        (symbols.map fun symbol => (UInt64.ofNat symbol.nameLength,symbol.longName))).toList.map
        Prod.fst := by
  rw [lengthRanking,List.map_map]
  refine List.map_congr_left fun entry hentry => ?_
  obtain ⟨symbol,_,rfl⟩ := List.mem_map.mp (Leaders.mem_of_mem_toList hentry)
  rfl

theorem metrics_lengthRanking_perm (limit : Nat) (h : symbols.Perm others) :
    (lengthRanking limit symbols).map LongName.metric =
      (lengthRanking limit others).map LongName.metric := by
  rw [metrics_lengthRanking,metrics_lengthRanking,Leaders.metrics_toList_perm limit (h.map _)]

end Parts

namespace StaticSummary

def namespaceLists (summary : StaticSummary) : List (List (String × Size)) :=
  [summary.namespaceAll,summary.namespaceLocal,summary.namespaceGlobal,summary.namespaceRodata,
    summary.namespaceRwdata,summary.namespaceBss]

def sizeRankings (summary : StaticSummary) : List (List RankedSymbol) :=
  [summary.localFunctions,summary.globalFunctions,summary.localObjects,summary.globalObjects,
    summary.rodataObjects,summary.rwdataObjects,summary.bssObjects]

/-- Summaries that differ at most in which names stand beside a number of a ranking. -/
structure SameNumbers (a b : StaticSummary) : Prop where
  total : a.total = b.total
  defined : a.defined = b.defined
  breakdowns : a.breakdowns = b.breakdowns
  nameBytes : a.nameBytes = b.nameBytes
  nameLengths : a.nameLengths = b.nameLengths
  namespaceTotals : a.namespaceLists.map (·.map Prod.snd) = b.namespaceLists.map (·.map Prod.snd)
  sizes : a.sizeRankings.map (·.map RankedSymbol.size) =
    b.sizeRankings.map (·.map RankedSymbol.size)
  lengths : a.longNames.map LongName.metric = b.longNames.map LongName.metric

theorem sameNumbers_ofPasses (limit : Nat) {symbols others : List Symbol} (h : symbols.Perm others) :
    (ofPasses limit symbols).SameNumbers (ofPasses limit others) := by
  -- Every part of a summary looks at the symbols of one condition, or of two.
  have hpart := fun concerned : Symbol → Bool => h.filter concerned
  have hparts := fun concerned further : Symbol → Bool => (hpart concerned).filter further
  constructor
  case total => exact congrArg UInt64.ofNat h.length_eq
  case defined => exact congrArg UInt64.ofNat (hpart _).length_eq
  case breakdowns => simp only [breakdowns,ofPasses,Breakdown.ofPass_perm (hpart Symbol.isDefined)]
  case nameBytes => exact totalsBy_perm (hpart _) ..
  case nameLengths => exact NameLengths.ofLengths?_perm ((hpart _).map _)
  case namespaceTotals =>
    simp only [namespaceLists,ofPasses,List.map_cons,List.map_nil,
      totals_namespaceRanking_perm limit (hpart _),totals_namespaceRanking_perm limit (hparts _ _)]
  case sizes =>
    simp only [sizeRankings,ofPasses,List.map_cons,List.map_nil,
      sizes_sizeRanking_perm limit (hpart _),sizes_sizeRanking_perm limit (hparts _ _)]
  case lengths => exact metrics_lengthRanking_perm limit (hpart _)

theorem sameNumbers_of_perm (limit : Nat) {symbols others : List Symbol}
    (hlen : symbols.length < UInt64.size) (h : symbols.Perm others) :
    (ofSymbols limit symbols).SameNumbers (ofSymbols limit others) := by
  rw [ofSymbols_eq limit hlen,ofSymbols_eq limit (h.length_eq ▸ hlen)]
  exact sameNumbers_ofPasses limit h

def NeedsDefined (concerned : Symbol → Bool) : Prop :=
  ∀ symbol, concerned symbol = true → symbol.isDefined = true

theorem NeedsDefined.and {concerned : Symbol → Bool} (h : NeedsDefined concerned)
    (further : Symbol → Bool) : NeedsDefined fun symbol => concerned symbol && further symbol :=
  fun symbol hboth => h symbol (Bool.and_eq_true_iff.mp hboth).1

theorem filter_filter_isDefined (symbols : List Symbol) {concerned : Symbol → Bool}
    (h : NeedsDefined concerned) :
    (symbols.filter Symbol.isDefined).filter concerned = symbols.filter concerned := by
  rw [List.filter_filter]
  refine List.filter_congr fun symbol _ => ?_
  rw [Bool.and_eq_left_iff_imp]
  exact h symbol

/-- Symbols that are not defined take no part but in the number of all symbols. -/
theorem ofSymbols_filter_isDefined (limit : Nat) {symbols : List Symbol}
    (h : symbols.length < UInt64.size) :
    ofSymbols limit (symbols.filter Symbol.isDefined) =
      { ofSymbols limit symbols with total := (ofSymbols limit symbols).defined } := by
  have hdefined : NeedsDefined Symbol.isDefined := fun _ h => h
  have hnamed : NeedsDefined Symbol.isNamed := hdefined.and _
  have hsized : NeedsDefined Symbol.isSized := hdefined.and _
  have htokened : NeedsDefined Symbol.isTokened := hsized.and _
  have hfunction : NeedsDefined Symbol.isFunction := hsized.and _
  have hobject : NeedsDefined Symbol.isObject := hsized.and _
  have hobjectIn : ∀ regions, NeedsDefined (Symbol.isObjectIn regions) := fun _ => hobject.and _
  have hfewer : (symbols.filter Symbol.isDefined).length < UInt64.size :=
    Nat.lt_of_le_of_lt (List.length_filter_le ..) h
  rw [ofSymbols_eq limit h,ofSymbols_eq limit hfewer]
  simp only [ofPasses,filter_filter_isDefined symbols hdefined,
    filter_filter_isDefined symbols hnamed,filter_filter_isDefined symbols htokened,
    filter_filter_isDefined symbols hfunction,filter_filter_isDefined symbols hobject,
    filter_filter_isDefined symbols (hobjectIn _)]

end StaticSummary

namespace ResolvedSymbols

theorem length_ofNames_le (rows : List Listing.SymbolRow) (batch : DemangledBatch) :
    (ofNames rows batch).symbols.length ≤ rows.length := by
  rw [ofNames,List.length_zipWith]
  exact Nat.min_le_left ..

theorem isClassified_ofNames {rows : List Listing.SymbolRow} {batch : DemangledBatch}
    {symbol : Symbol} (h : symbol ∈ (ofNames rows batch).symbols) : symbol.IsClassified := by
  rw [ofNames,← List.map_uncurry_zip_eq_zipWith] at h
  obtain ⟨pair,_,rfl⟩ := List.mem_map.mp h
  exact Symbol.isClassified_ofKind ..

section Resolve
variable {σ : Type}

theorem exists_ofNames_of_resolve (demangle : Demangler (StateM σ)) (rows : List Listing.SymbolRow)
    (demangled : Option (List Listing.SymbolRow)) (world : σ) :
    ∃ batch, ((resolve demangle rows demangled).run world).1 = ofNames rows batch := by
  cases hlisted : listedNames? rows demangled with
  | some names => exact ⟨.complete names,by rw [resolve,hlisted]; rfl⟩
  | none => exact ⟨(demangle (rows.map (·.name)) world).1,by rw [resolve,hlisted]; rfl⟩

/-- **The breakdowns of one symbol table agree**, where the sizes of its defined symbols add up to a
size: each counts every defined symbol once and has the same bytes, and every sort of entity has
what its regions have together. Symbols that are not defined change nothing but the number of all
symbols, and another order of the symbols changes no number of the summary. -/
theorem breakdowns_agree (demangle : Demangler (StateM σ)) {rows : List Listing.SymbolRow}
    (hrows : rows.length < UInt64.size) (demangled : Option (List Listing.SymbolRow)) (world : σ)
    (limit : Nat) :
    let symbols := ((resolve demangle rows demangled).run world).1.symbols
    let summary := StaticSummary.ofSymbols limit symbols
    let bytes := ((symbols.filter Symbol.isDefined).map fun symbol => symbol.size.toNat).sum
    bytes < UInt64.size →
      summary.Agrees bytes ∧
      StaticSummary.ofSymbols limit (symbols.filter Symbol.isDefined) =
        { summary with total := summary.defined } ∧
      ∀ others, others.Perm symbols →
        (StaticSummary.ofSymbols limit others).SameNumbers summary := by
  intro symbols summary bytes hbytes
  obtain ⟨batch,hbatch⟩ := exists_ofNames_of_resolve demangle rows demangled world
  have hsymbols : symbols = (ofNames rows batch).symbols := congrArg ResolvedSymbols.symbols hbatch
  have hlen : symbols.length < UInt64.size :=
    Nat.lt_of_le_of_lt (hsymbols ▸ length_ofNames_le rows batch) hrows
  have hclassified : ∀ symbol ∈ symbols, symbol.IsClassified := fun symbol h =>
    isClassified_ofNames (hsymbols ▸ h)
  refine ⟨?agree,?deleted,?reordered⟩
  case agree => exact StaticSummary.agrees_ofSymbols limit hlen hclassified hbytes
  case deleted => exact StaticSummary.ofSymbols_filter_isDefined limit hlen
  case reordered =>
    intro others h
    exact StaticSummary.sameNumbers_of_perm limit (h.length_eq ▸ hlen) h

end Resolve

/-- Of two functions with equal sizes the first one is kept. -/
theorem breakdowns_agree_tie :
    let rows : List Listing.SymbolRow := [⟨"f",'T',4⟩,⟨"u",'U',0⟩,⟨"g",'T',4⟩,⟨"d",'v',8⟩]
    let resolved := ((resolve (fun names => pure (.complete names)) rows none : StateM Unit _).run ()).1
    let table := resolved.symbols
    let summary := StaticSummary.ofSymbols 1 table
    rows.length < UInt64.size ∧ summary.Agrees 16 ∧
      (StaticSummary.ofSymbols 1 (table.filter Symbol.isDefined)).total = 3 ∧
      (StaticSummary.ofSymbols 1 table.reverse).SameNumbers summary ∧
      (StaticSummary.ofSymbols 1 table.reverse).globalFunctions ≠ summary.globalFunctions := by
  intro rows resolved table summary
  have hrows : rows.length < UInt64.size := by decide
  obtain ⟨hagree,hdeleted,hreordered⟩ := breakdowns_agree (fun names => pure (.complete names)) hrows
    none () 1 (by decide)
  refine ⟨hrows,hagree,?_,hreordered _ (List.reverse_perm _),?_⟩
  · rw [hdeleted]
    decide
  · decide

end ResolvedSymbols

end SizeSurvey
