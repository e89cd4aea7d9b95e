import SizeSurvey.Proofs.Ranking.Totals
import SizeSurvey.Proofs.Size
import SizeSurvey.Proofs.Symbol.StaticStep

/-! # One pass for every part of a summary

The summary of a static symbol table is the one that a separate look at the whole table gives for
each of its parts: maps that bind each key to a number or to a total, rankings of totals by
namespace, and leaders of the symbols that a ranking is about.
-/
namespace SizeSurvey

namespace NameMap

/-- The total amount of each key of a stream. -/
def sums (pairs : List (String × Size)) : NameMap Size :=
  tabulate (pairs.map Prod.fst) fun key => Size.total (amountsOf pairs key)

/-- Amounts that are added one after the other make up the totals of their keys. -/
theorem foldl_bump_eq_sums (pairs : List (String × Size)) :
    pairs.foldl (fun map pair => map.bump pair.1 pair.2) ∅ = sums pairs := by
  have hfill := foldl_update_eq_tabulate Prod.fst 0
    (fun (pair : String × Size) total => Size.plus total pair.2) pairs
  refine hfill.trans (congrArg (tabulate _) (funext fun key => ?_))
  rw [Tally.gathered,Size.total,amountsOf,List.foldl_map]

end NameMap

/-- The total of an amount over the symbols with each key. -/
def totalsBy (key : Symbol → String) (amount : Symbol → Size) (symbols : List Symbol) :
    NameMap Size :=
  .tabulate (symbols.map key) fun name =>
    Size.total ((symbols.filter fun symbol => key symbol = name).map amount)

/-- The number of symbols with each key. -/
def countsBy (key : Symbol → String) (symbols : List Symbol) : NameMap UInt64 :=
  .tabulate (symbols.map key) fun name =>
    UInt64.ofNat (symbols.countP fun symbol => key symbol = name)

def Breakdown.ofPass (key : Symbol → String) (symbols : List Symbol) : Breakdown where
  counts := countsBy key symbols
  sizes := totalsBy key Symbol.size symbols

theorem amountsOf_map (key : Symbol → String) (amount : Symbol → Size) (symbols : List Symbol)
    (name : String) :
    amountsOf (symbols.map fun symbol => (key symbol,amount symbol)) name =
      (symbols.filter fun symbol => key symbol = name).map amount := by
  rw [amountsOf,List.filter_map,List.map_map]
  rfl

theorem sums_map (key : Symbol → String) (amount : Symbol → Size) (symbols : List Symbol) :
    NameMap.sums (symbols.map fun symbol => (key symbol,amount symbol)) =
      totalsBy key amount symbols := by
  simp only [NameMap.sums,totalsBy,amountsOf_map,List.map_map]
  rfl

theorem get?_totalsBy (key : Symbol → String) (amount : Symbol → Size) (symbols : List Symbol)
    (name : String) :
    (totalsBy key amount symbols).get? name =
      if symbols.any (key · = name) then
        some (Size.total ((symbols.filter fun symbol => key symbol = name).map amount))
      else none := by
  rw [totalsBy,NameMap.get?_tabulate]
  simp

theorem get?_countsBy (key : Symbol → String) (symbols : List Symbol) (name : String) :
    (countsBy key symbols).get? name =
      if symbols.any (key · = name) then
        some (UInt64.ofNat (symbols.countP fun symbol => key symbol = name))
      else none := by
  rw [countsBy,NameMap.get?_tabulate]
  simp

theorem total_ones {n : Nat} (h : n < UInt64.size) : Size.total (List.replicate n 1) = UInt64.ofNat n := by
  have hnat := Size.toNat_total (List.replicate n 1)
  rw [List.map_replicate,List.sum_replicate_nat] at hnat
  refine UInt64.toNat_inj.mp (hnat.trans ?_)
  rw [UInt64.toNat_ofNat_of_lt' h,show (1 : Size).toNat = 1 from rfl]
  omega

theorem totalsBy_one {symbols : List Symbol} (h : symbols.length < UInt64.size) (key : Symbol → String) :
    totalsBy key (fun _ => 1) symbols = countsBy key symbols := by
  have hcount : ∀ name, Size.total ((symbols.filter fun symbol => key symbol = name).map fun _ => 1) =
      UInt64.ofNat (symbols.countP fun symbol => key symbol = name) := by
    intro name
    rw [List.map_const',List.countP_eq_length_filter]
    exact total_ones (Nat.lt_of_le_of_lt (List.length_filter_le ..) h)
  simp only [totalsBy,countsBy,hcount]

/-- The namespaces of symbols with their bytes, the largest first. -/
def namespaceRanking (limit : Nat) (symbols : List Symbol) : List (String × Size) :=
  (Tally.sums (symbols.map fun symbol => (symbol.namespaceKey,symbol.size))).mostCommon limit

/-- The leaders by size of symbols that come in a stream. -/
def sizeRanking (limit : Nat) (symbols : List Symbol) : List RankedSymbol :=
  StaticSummary.ranking
    (.ofList limit (symbols.map fun symbol => (symbol.size,symbol.displayName)))

/-- The leaders by length of name of symbols that come in a stream. -/
def lengthRanking (limit : Nat) (symbols : List Symbol) : List LongName :=
  (Leaders.ofList limit
    (symbols.map fun symbol => (UInt64.ofNat symbol.nameLength,symbol.longName))).toList.map Prod.snd

namespace StaticSummary

/-- The summary whose parts look at the table one after the other. -/
def ofPasses (limit : Nat) (symbols : List Symbol) : StaticSummary :=
  let defined := symbols.filter Symbol.isDefined
  let named := symbols.filter Symbol.isNamed
  let tokened := symbols.filter Symbol.isTokened
  let functions := symbols.filter Symbol.isFunction
  let objects := symbols.filter Symbol.isObject
  let objectsIn (regions : List Region) := symbols.filter (Symbol.isObjectIn regions)
  { total := UInt64.ofNat symbols.length
    defined := UInt64.ofNat defined.length
    byBinding := .ofPass (·.binding.name) defined
    byKind := .ofPass Symbol.kindName defined
    byRegion := .ofPass (·.region.name) defined
    byEntity := .ofPass (·.entity.name) defined
    namespaceAll := namespaceRanking limit tokened
    namespaceLocal := namespaceRanking limit (tokened.filter Symbol.isLocal)
    namespaceGlobal := namespaceRanking limit (tokened.filter (!·.isLocal))
    namespaceRodata := namespaceRanking limit (objectsIn [.rodata])
    namespaceRwdata := namespaceRanking limit (objectsIn [.rwdata,.common])
    namespaceBss := namespaceRanking limit (objectsIn [.bss])
    nameBytes := totalsBy (·.binding.name) Symbol.nameBytes named
    localFunctions := sizeRanking limit (functions.filter Symbol.isLocal)
    globalFunctions := sizeRanking limit (functions.filter (!·.isLocal))
    localObjects := sizeRanking limit (objects.filter Symbol.isLocal)
    globalObjects := sizeRanking limit (objects.filter (!·.isLocal))
    rodataObjects := sizeRanking limit (objectsIn [.rodata])
    rwdataObjects := sizeRanking limit (objectsIn [.rwdata,.common])
    bssObjects := sizeRanking limit (objectsIn [.bss])
    longNames := lengthRanking limit named
    nameLengths := NameLengths.ofLengths? (named.map Symbol.nameLength) }

end StaticSummary

namespace StaticSurvey

/-! ## The parts of a run -/

variable (limit : Nat) (symbols : List Symbol)

theorem bump_part (part : StaticSurvey → NameMap Size) (concerned : Symbol → Bool)
    (key : Symbol → String) (amount : Symbol → Size) (hstart : part (start limit) = ∅)
    (h : ∀ survey symbol, part (survey.add symbol) =
      feed (concerned symbol) (·.bump (key symbol) (amount symbol)) (part survey)) :
    part (ofSymbols limit symbols) = totalsBy key amount (symbols.filter concerned) := by
  have hrun := foldl_add_part part concerned (fun symbol => (key symbol,amount symbol))
    (fun map pair => map.bump pair.1 pair.2) h (start limit) symbols
  rw [ofSymbols,hrun,hstart,NameMap.foldl_bump_eq_sums,sums_map]

theorem breakdown_part {symbols : List Symbol} (hlen : symbols.length < UInt64.size)
    (part : StaticSurvey → Breakdown) (key : Symbol → String) (hstart : part (start limit) = {})
    (h : ∀ survey symbol, part (survey.add symbol) =
      feed symbol.isDefined (·.add (key symbol) symbol.size) (part survey)) :
    part (ofSymbols limit symbols) = .ofPass key (symbols.filter Symbol.isDefined) := by
  have hcounts := bump_part limit symbols (fun survey => (part survey).counts) Symbol.isDefined key
    (fun _ => 1) (by rw [hstart]) fun survey symbol => by
      rw [h]
      cases symbol.isDefined <;> rfl
  have hsizes := bump_part limit symbols (fun survey => (part survey).sizes) Symbol.isDefined key
    Symbol.size (by rw [hstart]) fun survey symbol => by
      rw [h]
      cases symbol.isDefined <;> rfl
  rw [totalsBy_one (Nat.lt_of_le_of_lt (List.length_filter_le ..) hlen)] at hcounts
  rw [Breakdown.ofPass,← hcounts,← hsizes]

theorem tally_part (part : StaticSurvey → Tally Size) (concerned : Symbol → Bool)
    (hstart : part (start limit) = {})
    (h : ∀ survey symbol, part (survey.add symbol) =
      feed (concerned symbol) (Tally.add · symbol.namespaceKey symbol.size) (part survey)) :
    (part (ofSymbols limit symbols)).mostCommon limit =
      namespaceRanking limit (symbols.filter concerned) := by
  have hrun := foldl_add_part part concerned (fun symbol => (symbol.namespaceKey,symbol.size))
    (fun tally pair => tally.add pair.1 pair.2) h (start limit) symbols
  rw [ofSymbols,hrun,hstart,namespaceRanking,← Tally.ofList_eq_sums]
  rfl

theorem leaders_part (part : StaticSurvey → Leaders String) (concerned : Symbol → Bool)
    (hstart : part (start limit) = { capacity := limit })
    (h : ∀ survey symbol, part (survey.add symbol) =
      feed (concerned symbol) (Leaders.push · symbol.size symbol.displayName) (part survey)) :
    StaticSummary.ranking (part (ofSymbols limit symbols)) =
      sizeRanking limit (symbols.filter concerned) := by
  have hrun := foldl_add_part part concerned (fun symbol => (symbol.size,symbol.displayName))
    (fun leaders entry => leaders.push entry.1 entry.2) h (start limit) symbols
  rw [ofSymbols,hrun,hstart]
  rfl

theorem foldl_succ_eq_ofNat {γ : Type} (entries : List γ) (n : UInt64) :
    entries.foldl (fun n _ => n + 1) n = n + UInt64.ofNat entries.length := by
  induction entries generalizing n with
  | nil => simp
  | cons entry rest ih =>
    rw [List.foldl_cons,ih,List.length_cons,UInt64.ofNat_add,UInt64.add_assoc,
      UInt64.add_comm (UInt64.ofNat rest.length)]
    rfl

theorem count_part (part : StaticSurvey → UInt64) (concerned : Symbol → Bool)
    (hstart : part (start limit) = 0)
    (h : ∀ survey symbol, part (survey.add symbol) = feed (concerned symbol) (· + 1) (part survey)) :
    part (ofSymbols limit symbols) = UInt64.ofNat (symbols.filter concerned).length := by
  have hrun := foldl_add_part part concerned id (fun n _ => n + 1) h (start limit) symbols
  rw [ofSymbols,hrun,hstart,foldl_succ_eq_ofNat,List.length_map,UInt64.zero_add]

/-- The lengths of names are taken down with the last one in front. -/
theorem nameLengths_ofSymbols :
    (ofSymbols limit symbols).nameLengths =
      ((symbols.filter Symbol.isNamed).map Symbol.nameLength).reverse := by
  have hrun := foldl_add_part nameLengths Symbol.isNamed Symbol.nameLength
    (fun lengths length => length :: lengths)
    (fun survey symbol => by rw [add_eq]) (start limit) symbols
  rw [ofSymbols,hrun]
  exact List.foldl_flip_cons_eq_append'.trans (List.append_nil _)

theorem longNames_ofSymbols :
    (ofSymbols limit symbols).longNames =
      .ofList limit ((symbols.filter Symbol.isNamed).map fun symbol =>
        (UInt64.ofNat symbol.nameLength,symbol.longName)) :=
  foldl_add_part longNames Symbol.isNamed
    (fun symbol => (UInt64.ofNat symbol.nameLength,symbol.longName))
    (fun leaders entry => leaders.push entry.1 entry.2)
    (fun survey symbol => by rw [add_eq]) (start limit) symbols

end StaticSurvey

/-- The statistics of lengths do not depend on the order in which these were taken down. -/
theorem NameLengths.ofLengths?_perm {xs ys : List Nat} (h : xs.Perm ys) :
    NameLengths.ofLengths? xs = NameLengths.ofLengths? ys := by
  have hsorted : ∀ zs : List Nat, zs.mergeSort.Pairwise (· ≤ ·) := by
    intro zs
    have hle : zs.mergeSort.Pairwise fun a b => decide (a ≤ b) = true :=
      List.pairwise_mergeSort (fun a b c hab hbc => by simp at *; omega)
        (fun a b => by simp; omega) zs
    exact hle.imp of_decide_eq_true
  have hperm : xs.mergeSort.Perm ys.mergeSort :=
    ((List.mergeSort_perm ..).trans h).trans (List.mergeSort_perm ..).symm
  have hsame : xs.mergeSort = ys.mergeSort :=
    hperm.eq_of_pairwise (fun a b _ _ hab hba => Nat.le_antisymm hab hba) (hsorted xs) (hsorted ys)
  have htotal : xs.foldl (· + ·) 0 = ys.foldl (· + ·) 0 :=
    h.foldl_eq' (fun _ _ _ _ _ => Nat.add_right_comm ..) 0
  rw [ofLengths?,ofLengths?,hsame,h.length_eq,htotal]

theorem filter_and {α : Type} (p q : α → Bool) (xs : List α) :
    xs.filter (fun x => p x && q x) = (xs.filter p).filter q := by
  rw [List.filter_filter]
  exact congrArg xs.filter (funext fun x => Bool.and_comm ..)

namespace StaticSummary
open StaticSurvey

/-- One pass and many passes give the same summary. -/
theorem ofSymbols_eq (limit : Nat) {symbols : List Symbol} (h : symbols.length < UInt64.size) :
    ofSymbols limit symbols = ofPasses limit symbols := by
  have hall : ∀ xs : List Symbol, xs.filter (fun _ => true) = xs := fun xs => by simp
  have count := count_part limit symbols
  have breakdown := breakdown_part limit h
  have tally := tally_part limit symbols
  have leaders := leaders_part limit symbols
  refine (mk.injEq ..).mpr ⟨?total,?defined,?byBinding,?byKind,?byRegion,?byEntity,?namespaceAll,
    ?namespaceLocal,?namespaceGlobal,?namespaceRodata,?namespaceRwdata,?namespaceBss,?nameBytes,
    ?localFunctions,?globalFunctions,?localObjects,?globalObjects,?rodataObjects,?rwdataObjects,
    ?bssObjects,?longNames,?nameLengths⟩
  case total =>
    exact (count (·.total) (fun _ => true) rfl fun _ _ => by rw [add_eq]; rfl).trans (by rw [hall])
  case defined => exact count (·.defined) Symbol.isDefined rfl fun _ _ => by rw [add_eq]
  case byBinding => exact breakdown (·.byBinding) _ rfl fun _ _ => by rw [add_eq]
  case byKind => exact breakdown (·.byKind) _ rfl fun _ _ => by rw [add_eq]
  case byRegion => exact breakdown (·.byRegion) _ rfl fun _ _ => by rw [add_eq]
  case byEntity => exact breakdown (·.byEntity) _ rfl fun _ _ => by rw [add_eq]
  case namespaceAll => exact tally (·.namespaces.all) _ rfl fun _ _ => by rw [add_eq]
  case namespaceLocal =>
    rw [← filter_and]
    exact tally (·.namespaces.locals) _ rfl fun _ _ => by rw [add_eq]
  case namespaceGlobal =>
    rw [← filter_and]
    exact tally (·.namespaces.globals) _ rfl fun _ _ => by rw [add_eq]
  case namespaceRodata => exact tally (·.namespaces.rodata) _ rfl fun _ _ => by rw [add_eq]
  case namespaceRwdata => exact tally (·.namespaces.rwdata) _ rfl fun _ _ => by rw [add_eq]
  case namespaceBss => exact tally (·.namespaces.bss) _ rfl fun _ _ => by rw [add_eq]
  case nameBytes => exact bump_part limit symbols (·.nameBytes) _ _ _ rfl fun _ _ => by rw [add_eq]
  case localFunctions =>
    rw [← filter_and]
    exact leaders (·.leaders.localFunctions) _ rfl fun _ _ => by rw [add_eq]
  case globalFunctions =>
    rw [← filter_and]
    exact leaders (·.leaders.globalFunctions) _ rfl fun _ _ => by rw [add_eq]
  case localObjects =>
    rw [← filter_and]
    exact leaders (·.leaders.localObjects) _ rfl fun _ _ => by rw [add_eq]
  case globalObjects =>
    rw [← filter_and]
    exact leaders (·.leaders.globalObjects) _ rfl fun _ _ => by rw [add_eq]
  case rodataObjects => exact leaders (·.leaders.rodataObjects) _ rfl fun _ _ => by rw [add_eq]
  case rwdataObjects => exact leaders (·.leaders.rwdataObjects) _ rfl fun _ _ => by rw [add_eq]
  case bssObjects => exact leaders (·.leaders.bssObjects) _ rfl fun _ _ => by rw [add_eq]
  case longNames => rw [longNames_ofSymbols,lengthRanking]
  case nameLengths =>
    rw [nameLengths_ofSymbols]
    exact NameLengths.ofLengths?_perm (List.reverse_perm _)

end StaticSummary

end SizeSurvey
