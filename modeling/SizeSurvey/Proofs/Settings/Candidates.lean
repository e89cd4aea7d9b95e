import SizeSurvey.Document.Settings
import SizeSurvey.Proofs.Kernel.Outcome
import SizeSurvey.Proofs.Overlap.Positions
import SizeSurvey.Proofs.Symbol.DynamicSummary
import SizeSurvey.Proofs.Symbol.StaticPasses

/-! # Lists that show their candidates

Settings are turned away when one of their limits is zero, so that no ranking is cut down to nothing.
Two limits are not looked at: the one for the namespaces of a dynamic table and the one for the names
that three libraries share.
-/
namespace SizeSurvey

/-- A list is empty only if it has no candidate. -/
def ShowsAny {α β : Type} (listed : List α) (candidate : β → Prop) : Prop :=
  listed ≠ [] ↔ ∃ x, candidate x

theorem take_ne_nil_iff {α : Type} {limit : Nat} {xs : List α} :
    xs.take limit ≠ [] ↔ 0 < limit ∧ xs ≠ [] := by
  rw [ne_eq,List.take_eq_nil_iff,not_or,Nat.pos_iff_ne_zero]

theorem filter_ne_nil_iff {α : Type} {p : α → Bool} {xs : List α} :
    xs.filter p ≠ [] ↔ ∃ x, x ∈ xs ∧ p x = true := by
  rw [ne_eq,List.filter_eq_nil_iff]
  simp only [not_forall,not_not,exists_prop]

theorem mergeSort_ne_nil_iff {α : Type} {le : α → α → Bool} {xs : List α} :
    xs.mergeSort le ≠ [] ↔ xs ≠ [] := by
  rw [← List.length_pos_iff,← List.length_pos_iff,List.length_mergeSort]

theorem eraseDups_ne_nil_iff {names : List String} : names.eraseDups ≠ [] ↔ names ≠ [] := by
  simp only [ne_eq,List.eq_nil_iff_forall_not_mem,List.mem_eraseDups]

/-! ## Rankings -/

section Rankings
variable {α β : Type} {limit : Nat}

theorem Tally.ranked_ne_nil_iff {tally : Tally α} {rank : α → Nat} :
    tally.ranked rank limit ≠ [] ↔ 0 < limit ∧ tally.entries ≠ [] := by
  rw [ranked,take_ne_nil_iff,mergeSort_ne_nil_iff]

theorem Tally.mostCommon_ne_nil_iff {tally : Tally Size} :
    tally.mostCommon limit ≠ [] ↔ 0 < limit ∧ tally.entries ≠ [] :=
  ranked_ne_nil_iff

theorem Tally.entries_gather_ne_nil_iff {key : β → String} {initial : α} {change : β → α → α}
    {xs : List β} : (gather key initial change xs).entries ≠ [] ↔ xs ≠ [] := by
  rw [entries_gather,ne_eq,List.map_eq_nil_iff,← ne_eq,eraseDups_ne_nil_iff,ne_eq,List.map_eq_nil_iff]

theorem namespaceRanking_ne_nil_iff {symbols : List Symbol} :
    namespaceRanking limit symbols ≠ [] ↔ 0 < limit ∧ symbols ≠ [] := by
  rw [namespaceRanking,Tally.mostCommon_ne_nil_iff,Tally.entries_sums,ne_eq (List.map ..),List.map_eq_nil_iff,
    ← ne_eq,eraseDups_ne_nil_iff,ne_eq (List.map ..),List.map_eq_nil_iff,
    List.map_eq_nil_iff]

theorem Leaders.toList_ofList_ne_nil_iff [Ord α] {entries : List (Size × α)} :
    (ofList limit entries).toList ≠ [] ↔ 0 < limit ∧ entries ≠ [] := by
  have hlength : (ofList limit entries).toList.length = min limit entries.length :=
    (List.length_reverse ..).trans (length_ofList limit entries)
  rw [← List.length_pos_iff,hlength,← List.length_pos_iff,Nat.lt_min]

theorem sizeRanking_ne_nil_iff {symbols : List Symbol} :
    sizeRanking limit symbols ≠ [] ↔ 0 < limit ∧ symbols ≠ [] := by
  rw [sizeRanking,StaticSummary.ranking,ne_eq,List.map_eq_nil_iff,← ne_eq,
    Leaders.toList_ofList_ne_nil_iff,ne_eq (List.map ..),List.map_eq_nil_iff]

theorem lengthRanking_ne_nil_iff {symbols : List Symbol} :
    lengthRanking limit symbols ≠ [] ↔ 0 < limit ∧ symbols ≠ [] := by
  rw [lengthRanking,ne_eq,List.map_eq_nil_iff,← ne_eq,Leaders.toList_ofList_ne_nil_iff,
    ne_eq (List.map ..),List.map_eq_nil_iff]

end Rankings

/-! ## Static tables -/

/-- The lists of a static table, each with the symbols that it could show. -/
structure StaticSummary.ShowsCandidates (symbols : List Symbol) (summary : StaticSummary) : Prop where
  namespaceAll : ShowsAny summary.namespaceAll fun symbol => symbol ∈ symbols ∧ symbol.isTokened
  namespaceLocal : ShowsAny summary.namespaceLocal fun symbol =>
    symbol ∈ symbols ∧ (symbol.isTokened && symbol.isLocal)
  namespaceGlobal : ShowsAny summary.namespaceGlobal fun symbol =>
    symbol ∈ symbols ∧ (symbol.isTokened && !symbol.isLocal)
  namespaceRodata : ShowsAny summary.namespaceRodata fun symbol =>
    symbol ∈ symbols ∧ symbol.isObjectIn [.rodata]
  namespaceRwdata : ShowsAny summary.namespaceRwdata fun symbol =>
    symbol ∈ symbols ∧ symbol.isObjectIn [.rwdata,.common]
  namespaceBss : ShowsAny summary.namespaceBss fun symbol =>
    symbol ∈ symbols ∧ symbol.isObjectIn [.bss]
  localFunctions : ShowsAny summary.localFunctions fun symbol =>
    symbol ∈ symbols ∧ (symbol.isFunction && symbol.isLocal)
  globalFunctions : ShowsAny summary.globalFunctions fun symbol =>
    symbol ∈ symbols ∧ (symbol.isFunction && !symbol.isLocal)
  localObjects : ShowsAny summary.localObjects fun symbol =>
    symbol ∈ symbols ∧ (symbol.isObject && symbol.isLocal)
  globalObjects : ShowsAny summary.globalObjects fun symbol =>
    symbol ∈ symbols ∧ (symbol.isObject && !symbol.isLocal)
  rodataObjects : ShowsAny summary.rodataObjects fun symbol =>
    symbol ∈ symbols ∧ symbol.isObjectIn [.rodata]
  rwdataObjects : ShowsAny summary.rwdataObjects fun symbol =>
    symbol ∈ symbols ∧ symbol.isObjectIn [.rwdata,.common]
  bssObjects : ShowsAny summary.bssObjects fun symbol => symbol ∈ symbols ∧ symbol.isObjectIn [.bss]
  longNames : ShowsAny summary.longNames fun symbol => symbol ∈ symbols ∧ symbol.isNamed

section Static
variable {limit : Nat} {symbols : List Symbol} (hlimit : 0 < limit)
include hlimit

theorem showsAny_namespaces (concerned : Symbol → Bool) {ranking : List (String × Size)}
    (h : ranking = namespaceRanking limit (symbols.filter concerned)) :
    ShowsAny ranking fun symbol => symbol ∈ symbols ∧ concerned symbol := by
  rw [ShowsAny,h,namespaceRanking_ne_nil_iff,filter_ne_nil_iff]
  exact and_iff_right hlimit

theorem showsAny_sizes (concerned : Symbol → Bool) {ranking : List RankedSymbol}
    (h : ranking = sizeRanking limit (symbols.filter concerned)) :
    ShowsAny ranking fun symbol => symbol ∈ symbols ∧ concerned symbol := by
  rw [ShowsAny,h,sizeRanking_ne_nil_iff,filter_ne_nil_iff]
  exact and_iff_right hlimit

open StaticSurvey in
theorem StaticSummary.showsCandidates_ofSymbols : ShowsCandidates symbols (ofSymbols limit symbols) := by
  have tally := tally_part limit symbols
  have leaders := leaders_part limit symbols
  constructor
  case namespaceAll =>
    exact showsAny_namespaces hlimit _ (tally (·.namespaces.all) _ rfl fun _ _ => by rw [add_eq])
  case namespaceLocal =>
    exact showsAny_namespaces hlimit _ (tally (·.namespaces.locals) _ rfl fun _ _ => by rw [add_eq])
  case namespaceGlobal =>
    exact showsAny_namespaces hlimit _ (tally (·.namespaces.globals) _ rfl fun _ _ => by rw [add_eq])
  case namespaceRodata =>
    exact showsAny_namespaces hlimit _ (tally (·.namespaces.rodata) _ rfl fun _ _ => by rw [add_eq])
  case namespaceRwdata =>
    exact showsAny_namespaces hlimit _ (tally (·.namespaces.rwdata) _ rfl fun _ _ => by rw [add_eq])
  case namespaceBss =>
    exact showsAny_namespaces hlimit _ (tally (·.namespaces.bss) _ rfl fun _ _ => by rw [add_eq])
  case localFunctions =>
    exact showsAny_sizes hlimit _
      (leaders (·.leaders.localFunctions) _ rfl fun _ _ => by rw [add_eq])
  case globalFunctions =>
    exact showsAny_sizes hlimit _
      (leaders (·.leaders.globalFunctions) _ rfl fun _ _ => by rw [add_eq])
  case localObjects =>
    exact showsAny_sizes hlimit _ (leaders (·.leaders.localObjects) _ rfl fun _ _ => by rw [add_eq])
  case globalObjects =>
    exact showsAny_sizes hlimit _ (leaders (·.leaders.globalObjects) _ rfl fun _ _ => by rw [add_eq])
  case rodataObjects =>
    exact showsAny_sizes hlimit _ (leaders (·.leaders.rodataObjects) _ rfl fun _ _ => by rw [add_eq])
  case rwdataObjects =>
    exact showsAny_sizes hlimit _ (leaders (·.leaders.rwdataObjects) _ rfl fun _ _ => by rw [add_eq])
  case bssObjects =>
    exact showsAny_sizes hlimit _ (leaders (·.leaders.bssObjects) _ rfl fun _ _ => by rw [add_eq])
  case longNames =>
    have hranking : (ofSymbols limit symbols).longNames =
        lengthRanking limit (symbols.filter Symbol.isNamed) := by
      rw [lengthRanking,← longNames_ofSymbols]
      rfl
    rw [ShowsAny,hranking,lengthRanking_ne_nil_iff,filter_ne_nil_iff]
    exact and_iff_right hlimit

end Static

/-! ## Dynamic tables -/

namespace DynamicSummary

/-- The lists of a dynamic table, each with the symbols that it could show. Nothing is shown when the
limit is zero. -/
structure ShowsCandidates (limit : Nat) (symbols : List Symbol) (summary : DynamicSummary) : Prop where
  shallow : summary.shallow ≠ [] ↔ 0 < limit ∧ ∃ symbol, symbol ∈ symbols ∧ symbol.isDefined = true ∧
    Namespace.tokens symbol.demangled ≠ []
  deep : summary.deep ≠ [] ↔ 0 < limit ∧ ∃ symbol, symbol ∈ symbols ∧ symbol.isDefined = true ∧
    2 ≤ (Namespace.tokens symbol.demangled).length

theorem namespaceTotals_ne_nil_iff {key? : Symbol → Option String} {symbols : List Symbol} :
    namespaceTotals key? symbols ≠ [] ↔ ∃ symbol, symbol ∈ symbols ∧ (key? symbol).isSome = true := by
  rw [namespaceTotals,ne_eq,List.map_eq_nil_iff,← ne_eq,eraseDups_ne_nil_iff,ne_eq,
    List.filterMap_eq_nil_iff]
  simp only [not_forall,← ne_eq,Option.ne_none_iff_isSome,exists_prop]

theorem isSome_shallowKey?_iff (symbol : Symbol) :
    symbol.shallowKey?.isSome = true ↔ Namespace.tokens symbol.demangled ≠ [] := by
  unfold Symbol.shallowKey?
  rcases Namespace.tokens symbol.demangled with _ | ⟨first,_ | ⟨second,_ | ⟨third,rest⟩⟩⟩ <;> simp

theorem isSome_deepKey?_iff (symbol : Symbol) :
    symbol.deepKey?.isSome = true ↔ 2 ≤ (Namespace.tokens symbol.demangled).length := by
  unfold Symbol.deepKey?
  rcases Namespace.tokens symbol.demangled with
    _ | ⟨first,_ | ⟨second,_ | ⟨third,_ | ⟨fourth,rest⟩⟩⟩⟩ <;> simp

theorem showsCandidates_ofSymbols (limit : Nat) (symbols : List Symbol) :
    ShowsCandidates limit symbols (ofSymbols limit symbols) where
  shallow := by
    refine Tally.mostCommon_ne_nil_iff.trans ?_
    rw [namespaceTally_shallow,namespaceTotals_ne_nil_iff]
    simp only [List.mem_filter,isSome_shallowKey?_iff,and_assoc]
  deep := by
    refine Tally.mostCommon_ne_nil_iff.trans ?_
    rw [namespaceTally_deep,namespaceTotals_ne_nil_iff]
    simp only [List.mem_filter,isSome_deepKey?_iff,and_assoc]

end DynamicSummary

/-! ## Overlaps -/

namespace PairOverlap
variable (settings : OverlapSettings) (a b : String × SymbolSizes)

theorem shared_ne_nil_iff (a b : SymbolSizes) :
    shared a b ≠ [] ↔ ∃ name, name ∈ a.names ∧ name ∈ b.names := by
  have hnames : shared a b ≠ [] ↔ (shared a b).map (·.name) ≠ [] := List.map_eq_nil_iff.not.symm
  rw [hnames]
  simp only [ne_eq,List.eq_nil_iff_forall_not_mem,not_forall,not_not,mem_names_shared_iff]

theorem topSymbols_ne_nil_iff : (of settings a b).topSymbols ≠ [] ↔
    0 < settings.topSymbols.toNat ∧ ∃ name, name ∈ a.2.names ∧ name ∈ b.2.names := by
  rw [of,ofShared,take_ne_nil_iff,mergeSort_ne_nil_iff,shared_ne_nil_iff]

theorem topNamespaces_ne_nil_iff : (of settings a b).topNamespaces ≠ [] ↔
    0 < settings.topNamespaces.toNat ∧ ∃ name, name ∈ a.2.names ∧ name ∈ b.2.names := by
  rw [of,ofShared,ne_eq,List.map_eq_nil_iff,← ne_eq,Tally.ranked_ne_nil_iff,namespaceTally,
    Tally.foldl_update_eq_gather,Tally.entries_gather_ne_nil_iff,shared_ne_nil_iff]

end PairOverlap

namespace Overlap

theorem exists_of_mem_pairsOf {settings : OverlapSettings} {libraries : List (String × SymbolSizes)}
    {pair : PairOverlap} (h : pair ∈ pairsOf settings libraries) :
    ∃ a ∈ libraries, ∃ b ∈ libraries, pair = PairOverlap.of settings a b := by
  induction libraries with
  | nil => exact absurd h List.not_mem_nil
  | cons library rest ih =>
    rcases List.mem_append.mp h with hfirst | hrest
    · obtain ⟨b,hb,rfl⟩ := List.mem_map.mp hfirst
      exact ⟨library,List.mem_cons_self,b,List.mem_cons_of_mem _ hb,rfl⟩
    · obtain ⟨a,ha,b,hb,rfl⟩ := ih hrest
      exact ⟨a,List.mem_cons_of_mem _ ha,b,List.mem_cons_of_mem _ hb,rfl⟩

theorem examples_ne_nil_iff (settings : OverlapSettings) (a b c : SymbolSizes) :
    (tripleOf settings (tripleNames a b c)).examples ≠ [] ↔
      0 < settings.tripleExamples.toNat ∧ ∃ name, name ∈ a.names ∧ name ∈ b.names ∧ name ∈ c.names := by
  rw [tripleOf,take_ne_nil_iff]
  simp only [ne_eq,List.eq_nil_iff_forall_not_mem,not_forall,not_not,mem_tripleNames_iff]

end Overlap

/-! ## Kernels -/

namespace KernelSummary

theorem families_ne_nil_iff {settings : KernelSettings} {kernels : List Kernel} :
    families settings kernels ≠ [] ↔
      (0 < settings.topLimit.toNat ∧ 0 < settings.familyLimit.toNat) ∧ kernels ≠ [] := by
  have hmin : 0 < (min settings.topLimit settings.familyLimit).toNat ↔
      0 < settings.topLimit.toNat ∧ 0 < settings.familyLimit.toNat := by
    rw [Size.toNat_min,Nat.lt_min]
  rw [families,ne_eq,List.map_eq_nil_iff,← ne_eq,Tally.ranked_ne_nil_iff,familyTally,
    Tally.foldl_update_eq_gather,Tally.entries_gather_ne_nil_iff,hmin]

theorem largest_ne_nil_iff {settings : KernelSettings} {kernels : List Kernel} :
    largest settings kernels ≠ [] ↔ 0 < settings.topLimit.toNat ∧ kernels ≠ [] := by
  rw [largest,ne_eq,List.map_eq_nil_iff,← ne_eq,take_ne_nil_iff,mergeSort_ne_nil_iff]

end KernelSummary

/-! ## Valid settings -/

namespace Settings

theorem validate_eq_ok_iff {settings : Settings} : settings.validate = .ok () ↔
    (∀ entry ∈ settings.positives, 0 < entry.2.toNat) ∧
      ∃ threshold, Threshold.parse settings.gate.maxGrowth = .ok threshold := by
  have hpositive : (∀ entry ∈ settings.positives, 0 < entry.2.toNat) ↔
      settings.positives.find? (fun entry => entry.2 = 0) = none := by
    rw [List.find?_eq_none]
    refine forall₂_congr fun entry _ => ?_
    rw [Nat.pos_iff_ne_zero,decide_eq_true_eq,ne_eq,← UInt64.toNat_inj]
    rfl
  rw [hpositive,validate]
  cases settings.positives.find? (fun entry => entry.2 = 0) with
  | some entry => exact iff_of_false nofun fun h => nomatch h.1
  | none =>
    cases Threshold.parse settings.gate.maxGrowth with
    | error fault => exact iff_of_false nofun fun h => nomatch h.2
    | ok threshold => exact iff_of_true rfl ⟨rfl,threshold,rfl⟩

/-- The lists that a limit of the settings bounds, with the candidates for each of them. -/
structure ShowsCandidates (settings : Settings) : Prop where
  kernels : ∀ {σ : Type} (demangle : Demangler (StateM σ)) (image symbols : List UInt8) (world : σ)
      (summary : KernelSummary),
    ((KernelSummary.decode demangle settings.kernels image symbols).run world).1 =
      .ok (some summary) →
    (summary.topFamilies ≠ [] ↔ 0 < summary.count) ∧ (summary.topKernels ≠ [] ↔ 0 < summary.count) ∧
      ((∀ names world, ((demangle names).run world).1.names.length = names.length) →
        0 < summary.count)
  static : ∀ symbols, StaticSummary.ShowsCandidates symbols
    (.ofSymbols settings.symbols.topLimit.toNat symbols)
  /-- These limits may be zero. -/
  dynamic : ∀ symbols,
    DynamicSummary.ShowsCandidates settings.symbols.dynamicNamespaceLimit.toNat symbols
      (.ofSymbols settings.symbols.dynamicNamespaceLimit.toNat symbols)
  pairs : ∀ libraries, ∀ pair ∈ (Overlap.of settings.overlap libraries).pairs,
    ∃ a ∈ libraries, ∃ b ∈ libraries, pair = PairOverlap.of settings.overlap a b ∧
      (ShowsAny pair.topSymbols fun name => name ∈ a.2.names ∧ name ∈ b.2.names) ∧
      (ShowsAny pair.topNamespaces fun name => name ∈ a.2.names ∧ name ∈ b.2.names)
  triple : ∀ a b c, ∃ triple, (Overlap.of settings.overlap [a,b,c]).triple = some triple ∧
    (triple.examples ≠ [] ↔ 0 < settings.overlap.tripleExamples.toNat ∧
      ∃ name, name ∈ a.2.names ∧ name ∈ b.2.names ∧ name ∈ c.2.names)

/-- **Valid settings empty no list that has a candidate**, if they do not turn off the two lists of
which the limits are not looked at. -/
theorem showsCandidates_of_validate {settings : Settings} (h : settings.validate = .ok ()) :
    ShowsCandidates settings := by
  obtain ⟨hpositive,-⟩ := validate_eq_ok_iff.mp h
  simp only [positives,List.forall_mem_cons] at hpositive
  obtain ⟨htop,hfamilies,-,hsymbols,hshared,hspaces,-,-⟩ := hpositive
  constructor
  case kernels =>
    intro σ demangle image symbols world summary hdecode
    have hcount := fun hone => KernelSummary.one_le_count_of_decode hone hdecode
    obtain ⟨-,rfl⟩ := KernelSummary.eq_ofKernels_of_decode hdecode
    refine ⟨?_,?_,hcount⟩
    · exact KernelSummary.families_ne_nil_iff.trans
        ((and_iff_right ⟨htop,hfamilies⟩).trans List.length_pos_iff.symm)
    · exact KernelSummary.largest_ne_nil_iff.trans
        ((and_iff_right htop).trans List.length_pos_iff.symm)
  case static => exact fun symbols => StaticSummary.showsCandidates_ofSymbols hsymbols
  case dynamic => exact fun symbols => DynamicSummary.showsCandidates_ofSymbols _ symbols
  case pairs =>
    intro libraries pair hpair
    obtain ⟨a,ha,b,hb,rfl⟩ := Overlap.exists_of_mem_pairsOf hpair
    refine ⟨a,ha,b,hb,rfl,?_,?_⟩
    · exact (PairOverlap.topSymbols_ne_nil_iff ..).trans (and_iff_right hshared)
    · exact (PairOverlap.topNamespaces_ne_nil_iff ..).trans (and_iff_right hspaces)
  case triple => exact fun a b c => ⟨_,rfl,Overlap.examples_ne_nil_iff ..⟩

/-- Limits of one leave a function of one token in its rankings. -/
theorem showsCandidates_of_validate_one :
    let settings : Settings := { symbols := ⟨1,1⟩, overlap := ⟨1,1,1⟩ }
    let symbols : List Symbol := [.ofKind "f" "f" 'T' 8]
    settings.validate = .ok () ∧ ShowsCandidates settings ∧
      (StaticSummary.ofSymbols 1 symbols).globalFunctions ≠ [] ∧
      (DynamicSummary.ofSymbols 1 symbols).shallow ≠ [] := by
  have hvalid : Settings.validate { symbols := ⟨1,1⟩, overlap := ⟨1,1,1⟩ } = .ok () := rfl
  intro settings symbols
  have hshows := showsCandidates_of_validate hvalid
  refine ⟨hvalid,hshows,?_,?_⟩
  · exact (hshows.static symbols).globalFunctions.mpr ⟨_,List.mem_cons_self,by decide⟩
  · exact (hshows.dynamic symbols).shallow.mpr ⟨by decide,_,List.mem_cons_self,by decide⟩

/-- **Valid settings can turn off the namespaces of every dynamic table** and the names that three
libraries share. -/
theorem validate_turns_off :
    let settings : Settings := { symbols := ⟨50,0⟩, overlap := ⟨25,15,0⟩ }
    let symbols : List Symbol := [.ofKind "f" "a::b" 'T' 8]
    let library : String × SymbolSizes := ("one",.ofList [("f",1)])
    settings.validate = .ok () ∧
      (∃ symbol ∈ symbols, symbol.isDefined = true ∧
        2 ≤ (Namespace.tokens symbol.demangled).length) ∧
      (DynamicSummary.ofSymbols settings.symbols.dynamicNamespaceLimit.toNat symbols).shallow = [] ∧
      (DynamicSummary.ofSymbols settings.symbols.dynamicNamespaceLimit.toNat symbols).deep = [] ∧
      (Overlap.of settings.overlap [library,library,library]).triple = some ⟨1,[]⟩ := by
  have hvalid : Settings.validate { symbols := ⟨50,0⟩, overlap := ⟨25,15,0⟩ } = .ok () := rfl
  intro settings symbols library
  have hshows := DynamicSummary.showsCandidates_ofSymbols 0 symbols
  refine ⟨hvalid,⟨_,List.mem_cons_self,by decide,by decide⟩,?_,?_,by decide⟩
  · exact not_not.mp (mt hshows.shallow.mp fun h => Nat.lt_irrefl 0 h.1)
  · exact not_not.mp (mt hshows.deep.mp fun h => Nat.lt_irrefl 0 h.1)

end Settings

end SizeSurvey
