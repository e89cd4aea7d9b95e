import SizeSurvey.Overlap
import SizeSurvey.Proofs.NameMap
import SizeSurvey.Proofs.Ranking.Totals
import SizeSurvey.Proofs.Size

/-! # What two libraries share

The symbols of two libraries that both have, in the order of their names, and the sums of their
namespaces. Both are the same from either side, with the sizes of the sides exchanged.
-/
namespace SizeSurvey

/-! ## Shared symbols -/

namespace PairOverlap
variable (a b : SymbolSizes)

theorem mem_shared_iff {symbol : SharedSymbol} :
    symbol ∈ shared a b ↔
      a.get? symbol.name = some symbol.sizeA ∧ b.get? symbol.name = some symbol.sizeB := by
  rcases symbol with ⟨name,sizeA,sizeB⟩
  simp only [shared,List.mem_filterMap,Option.map_eq_some_iff,SharedSymbol.mk.injEq,Prod.exists,
    NameMap.mem_entries_iff]
  constructor
  · rintro ⟨_,_,ha,_,hb,rfl,rfl,rfl⟩
    exact ⟨ha,hb⟩
  · rintro ⟨ha,hb⟩
    exact ⟨name,sizeA,ha,sizeB,hb,rfl,rfl,rfl⟩

theorem pairwise_shared : (shared a b).Pairwise fun x y => x.name < y.name := by
  refine a.sorted.filterMap _ fun x y hlt first hfirst second hsecond => ?_
  obtain ⟨_,-,rfl⟩ := Option.map_eq_some_iff.mp hfirst
  obtain ⟨_,-,rfl⟩ := Option.map_eq_some_iff.mp hsecond
  exact hlt

theorem pairwise_names_shared : ((shared a b).map (·.name)).Pairwise (· < ·) :=
  List.pairwise_map.mpr (pairwise_shared a b)

theorem mem_names_shared_iff {name : String} :
    name ∈ (shared a b).map (·.name) ↔ name ∈ a.names ∧ name ∈ b.names := by
  simp only [List.mem_map,mem_shared_iff,NameMap.mem_names_iff]
  constructor
  · rintro ⟨symbol,⟨ha,hb⟩,rfl⟩
    exact ⟨⟨_,ha⟩,_,hb⟩
  · rintro ⟨⟨sizeA,ha⟩,sizeB,hb⟩
    exact ⟨⟨name,sizeA,sizeB⟩,⟨ha,hb⟩,rfl⟩

end PairOverlap

/-! ## The other side -/

def SharedSymbol.exchanged (symbol : SharedSymbol) : SharedSymbol :=
  ⟨symbol.name,symbol.sizeB,symbol.sizeA⟩

/-- The size that decides the place of a symbol. -/
def SharedSymbol.largerSize (symbol : SharedSymbol) : Nat :=
  max symbol.sizeA.toNat symbol.sizeB.toNat

theorem SharedSymbol.largerSize_exchanged (symbol : SharedSymbol) :
    symbol.exchanged.largerSize = symbol.largerSize :=
  Nat.max_comm ..

theorem PairOverlap.byLargerSize_iff (x y : SharedSymbol) :
    byLargerSize x y = true ↔ y.largerSize ≤ x.largerSize := by
  rw [byLargerSize,decide_eq_true_eq,UInt64.le_iff_toNat_le,Size.toNat_max,Size.toNat_max]
  rfl

def SharedNamespace.exchanged (space : SharedNamespace) : SharedNamespace :=
  ⟨space.namespace,space.count,space.sizeB,space.sizeA⟩

/-- A comparison with its two sides exchanged; all lists keep their order. -/
def PairOverlap.exchanged (pair : PairOverlap) : PairOverlap where
  libraryA := pair.libraryB
  libraryB := pair.libraryA
  sharedCount := pair.sharedCount
  topSymbols := pair.topSymbols.map SharedSymbol.exchanged
  topNamespaces := pair.topNamespaces.map SharedNamespace.exchanged

theorem PairOverlap.shared_exchange (a b : SymbolSizes) :
    shared b a = (shared a b).map SharedSymbol.exchanged := by
  refine NameMap.eq_of_sorted (·.name) (pairwise_shared b a) ?_ fun symbol => ?_
  · exact List.pairwise_map.mpr (pairwise_shared a b)
  · simp only [List.mem_map,mem_shared_iff]
    constructor
    · rintro ⟨hb,ha⟩
      exact ⟨symbol.exchanged,⟨ha,hb⟩,rfl⟩
    · rintro ⟨other,⟨ha,hb⟩,rfl⟩
      exact ⟨hb,ha⟩

/-! ## Namespaces -/

namespace SharedNamespace

/-- The bytes of both sides together, which may be more than a size can be. -/
def bytes (space : SharedNamespace) : Nat :=
  space.sizeA.toNat + space.sizeB.toNat

def of (symbols : List SharedSymbol) (name : String) : SharedNamespace :=
  let members := symbols.filter fun symbol => PairOverlap.namespaceOf symbol.name = name
  ⟨name,members.length,Size.saturated (members.map (·.sizeA)),
    Size.saturated (members.map (·.sizeB))⟩

/-- The namespaces of symbols in the order in which they first appear. -/
def all (symbols : List SharedSymbol) : List SharedNamespace :=
  (symbols.map fun symbol => PairOverlap.namespaceOf symbol.name).eraseDups.map (of symbols)

theorem bytes_exchanged (space : SharedNamespace) : space.exchanged.bytes = space.bytes :=
  Nat.add_comm ..

theorem of_exchanged (symbols : List SharedSymbol) (name : String) :
    of (symbols.map SharedSymbol.exchanged) name = (of symbols name).exchanged := by
  simp only [of,exchanged,List.filter_map,List.length_map,List.map_map]
  rfl

theorem all_exchanged (symbols : List SharedSymbol) :
    all (symbols.map SharedSymbol.exchanged) = (all symbols).map exchanged := by
  rw [all,all,List.map_map,List.map_map]
  exact List.map_congr_left fun name _ => of_exchanged symbols name

theorem sum_count_all (symbols : List SharedSymbol) :
    ((all symbols).map (·.count)).sum = symbols.length := by
  have hcount : ∀ name, (of symbols name).count =
      (symbols.map fun symbol => PairOverlap.namespaceOf symbol.name).count name := by
    intro name
    rw [List.count,List.countP_map,List.countP_eq_length_filter]
    rfl
  have hsum := sum_count_eraseDups (symbols.map fun symbol => PairOverlap.namespaceOf symbol.name)
  rw [← List.map_congr_left fun name _ => hcount name,List.length_map] at hsum
  rw [all,List.map_map]
  exact hsum

end SharedNamespace

namespace PairOverlap

theorem foldl_namespaceSum (symbols : List SharedSymbol) (start : NamespaceSum) :
    symbols.foldl NamespaceSum.add start =
      ⟨start.count + symbols.length,(symbols.map (·.sizeA)).foldl Size.plus start.sizeA,
        (symbols.map (·.sizeB)).foldl Size.plus start.sizeB⟩ := by
  induction symbols generalizing start with
  | nil => rfl
  | cons symbol rest ih =>
    rw [List.foldl_cons,ih,NamespaceSum.add,List.length_cons,Nat.add_assoc,Nat.add_comm 1]
    rfl

theorem namespaceTally_eq (symbols : List SharedSymbol) :
    (namespaceTally symbols).entries.map
        (fun entry => ⟨entry.1,entry.2.count,entry.2.sizeA,entry.2.sizeB⟩) =
      SharedNamespace.all symbols := by
  have hgather := Tally.foldl_update_eq_gather (fun symbol => namespaceOf symbol.name) {}
    (fun symbol sum => NamespaceSum.add sum symbol) symbols
  rw [namespaceTally,hgather,Tally.entries_gather,List.map_map,SharedNamespace.all]
  refine List.map_congr_left fun name _ => ?_
  simp only [Function.comp_apply,Tally.gathered,foldl_namespaceSum,SharedNamespace.of,Nat.zero_add]
  rw [← Size.total_eq_saturated,← Size.total_eq_saturated]
  rfl

theorem topNamespaces_ofShared (settings : OverlapSettings) (libraryA libraryB : String)
    (symbols : List SharedSymbol) :
    (ofShared settings libraryA libraryB symbols).topNamespaces =
      ((SharedNamespace.all symbols).mergeSort fun x y => y.bytes ≤ x.bytes).take
        settings.topNamespaces.toNat := by
  have hmap : ((namespaceTally symbols).entries.mergeSort fun x y => y.2.bytes ≤ x.2.bytes).map
        (fun entry => ⟨entry.1,entry.2.count,entry.2.sizeA,entry.2.sizeB⟩) =
      ((namespaceTally symbols).entries.map fun entry =>
        (⟨entry.1,entry.2.count,entry.2.sizeA,entry.2.sizeB⟩ : SharedNamespace)).mergeSort
          fun x y => y.bytes ≤ x.bytes :=
    List.map_mergeSort fun x _ y _ => rfl
  rw [← namespaceTally_eq,← hmap,← List.map_take]
  rfl

theorem byLargerSize_exchanged (x y : SharedSymbol) :
    byLargerSize x y = byLargerSize x.exchanged y.exchanged := by
  rw [Bool.eq_iff_iff,byLargerSize_iff,byLargerSize_iff,SharedSymbol.largerSize_exchanged,
    SharedSymbol.largerSize_exchanged]

theorem ofShared_exchanged (settings : OverlapSettings) (libraryA libraryB : String)
    (symbols : List SharedSymbol) :
    ofShared settings libraryB libraryA (symbols.map SharedSymbol.exchanged) =
      (ofShared settings libraryA libraryB symbols).exchanged := by
  have hsymbols : (symbols.mergeSort byLargerSize).map SharedSymbol.exchanged =
      (symbols.map SharedSymbol.exchanged).mergeSort byLargerSize :=
    List.map_mergeSort fun x _ y _ => byLargerSize_exchanged x y
  have hspaces : ((SharedNamespace.all symbols).mergeSort fun x y => y.bytes ≤ x.bytes).map
        SharedNamespace.exchanged =
      ((SharedNamespace.all symbols).map SharedNamespace.exchanged).mergeSort
        fun x y => y.bytes ≤ x.bytes :=
    List.map_mergeSort fun x _ y _ => by
      rw [SharedNamespace.bytes_exchanged,SharedNamespace.bytes_exchanged]
  have hnamespaces := topNamespaces_ofShared settings libraryB libraryA
    (symbols.map SharedSymbol.exchanged)
  rw [SharedNamespace.all_exchanged,← hspaces,← List.map_take,
    ← topNamespaces_ofShared settings libraryA libraryB] at hnamespaces
  refine (PairOverlap.mk.injEq ..).mpr ⟨rfl,rfl,List.length_map _,?_,hnamespaces⟩
  exact (congrArg (List.take _) hsymbols.symm).trans List.map_take.symm

/-- **A comparison from the other side** is the same comparison with its sides exchanged. -/
theorem of_exchange (settings : OverlapSettings) (a b : String × SymbolSizes) :
    of settings b a = (of settings a b).exchanged := by
  rw [of,of,shared_exchange a.2 b.2,ofShared_exchanged]

end PairOverlap

end SizeSurvey
