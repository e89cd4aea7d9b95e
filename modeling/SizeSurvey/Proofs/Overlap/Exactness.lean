import Mathlib.Algebra.BigOperators.Group.Finset.Basic
import SizeSurvey.Proofs.Overlap.Positions
import SizeSurvey.Proofs.Ranking.Stability

/-! # Exact comparisons

What an overlap says about two and about three libraries, told by the sets of their names: which
names are common, which namespace each common name belongs to, and which of both come first. The
order in which the names of a library are run through plays no part.
-/
namespace SizeSurvey

namespace PairOverlap

/-! ## The namespace of a name -/

/-- The first four tokens of a name, all of them if there are fewer, and the name itself if there
are none. -/
def groupName (name : String) : String :=
  if Namespace.tokens name = [] then name
  else Namespace.joined ((Namespace.tokens name).take 4)

theorem namespaceOf_eq_groupName (name : String) : namespaceOf name = groupName name := by
  unfold namespaceOf groupName
  generalize Namespace.tokens name = tokens
  match tokens with
  | [] => rfl
  | [_] => rfl
  | [_,_] => rfl
  | [_,_,_] => rfl
  | _ :: _ :: _ :: _ :: rest => simp [Namespace.leading?]

/-! ## Sets of names -/

section Sets
variable (a b : SymbolSizes)

def commonNames : Finset String :=
  a.names.toFinset ∩ b.names.toFinset

def members (space : String) : Finset String :=
  (commonNames a b).filter fun name => groupName name = space

/-- The bytes that a library has under a name. -/
def bytesOf (sizes : SymbolSizes) (name : String) : Nat :=
  ((sizes.get? name).getD 0).toNat

/-- A namespace with the number of its common names and with the bytes of both sides, which stop at
the largest size. -/
structure IsNamespace (space : SharedNamespace) : Prop where
  nonempty : (members a b space.namespace).Nonempty
  count : space.count = (members a b space.namespace).card
  sizeA : space.sizeA.toNat =
    min (∑ name ∈ members a b space.namespace, bytesOf a name) (UInt64.size - 1)
  sizeB : space.sizeB.toNat =
    min (∑ name ∈ members a b space.namespace, bytesOf b name) (UInt64.size - 1)

/-- The least name of the first namespace comes before every name of the second one. -/
def LeadsByName (x y : SharedNamespace) : Prop :=
  ∃ first ∈ members a b x.namespace,
    (∀ name ∈ members a b x.namespace, first ≤ name) ∧
    ∀ name ∈ members a b y.namespace, first < name

end Sets

/-! ## Sorted names -/

theorem nodup_of_ascending {names : List String} (h : names.Pairwise (· < ·)) : names.Nodup := by
  refine h.imp fun {x y} hlt heq => ?_
  rw [heq] at hlt
  exact String.lt_irrefl _ hlt

theorem card_of_ascending {set : Finset String} {names : List String}
    (hnames : names.Pairwise (· < ·)) (h : ∀ name, name ∈ set ↔ name ∈ names) :
    set.card = names.length := by
  have hset : set = names.toFinset := Finset.ext fun name => (h name).trans List.mem_toFinset.symm
  rw [hset,List.toFinset_card_of_nodup (nodup_of_ascending hnames)]

/-! ## Any order -/

/-- The shared symbols, collected from the names of the first library as they come, then sorted. -/
def collected (order : List String) (a b : SymbolSizes) : List SharedSymbol :=
  ((order.filter b.contains).mergeSort fun x y => x ≤ y).map fun name =>
    ⟨name,(a.get? name).getD 0,(b.get? name).getD 0⟩

theorem mergeSort_filter_names {order : List String} {a : SymbolSizes} (h : order.Perm a.names)
    (keep : String → Bool) :
    (order.filter keep).mergeSort (fun x y => x ≤ y) = a.names.filter keep := by
  have hperm : ((order.filter keep).mergeSort fun x y => x ≤ y).Perm (a.names.filter keep) :=
    (List.mergeSort_perm ..).trans (h.filter keep)
  have hsorted : ((order.filter keep).mergeSort fun x y => x ≤ y).Pairwise (· ≤ ·) :=
    NameMap.pairwise_le_mergeSort id _
  have hnames : (a.names.filter keep).Pairwise (· ≤ ·) :=
    (a.sorted_names.filter keep).imp fun hlt => String.not_lt.mp (String.lt_asymm hlt)
  exact hperm.eq_of_pairwise (fun x y _ _ => String.le_antisymm) hsorted hnames

theorem collected_eq_shared {order : List String} {a : SymbolSizes} (h : order.Perm a.names)
    (b : SymbolSizes) : collected order a b = shared a b := by
  have hcommon : (shared a b).map (·.name) = a.names.filter b.contains := by
    refine NameMap.eq_of_sorted id (pairwise_names_shared a b) (a.sorted_names.filter _)
      fun name => ?_
    rw [mem_names_shared_iff,List.mem_filter,NameMap.contains_iff]
  rw [collected,mergeSort_filter_names h,← hcommon,List.map_map]
  refine (List.map_congr_left fun symbol hsymbol => ?_).trans (List.map_id _)
  obtain ⟨ha,hb⟩ := (mem_shared_iff a b).mp hsymbol
  simp only [Function.comp_apply,ha,hb,Option.getD_some]
  rfl

/-! ## Sums of namespaces -/

section Namespaces
variable (a b : SymbolSizes)

theorem mem_commonNames_iff {name : String} :
    name ∈ commonNames a b ↔ name ∈ (shared a b).map (·.name) := by
  rw [commonNames,Finset.mem_inter,List.mem_toFinset,List.mem_toFinset,mem_names_shared_iff]

theorem card_commonNames : (commonNames a b).card = (shared a b).length := by
  have hcard := card_of_ascending (pairwise_names_shared a b) fun name => mem_commonNames_iff a b
  rwa [List.length_map] at hcard

theorem members_eq (space : String) :
    members a b space = (((shared a b).filter fun symbol =>
      namespaceOf symbol.name = space).map (·.name)).toFinset := by
  ext name
  simp only [members,Finset.mem_filter,mem_commonNames_iff,List.mem_toFinset,List.mem_map,
    List.mem_filter,decide_eq_true_eq,namespaceOf_eq_groupName]
  constructor
  · rintro ⟨⟨symbol,hsymbol,rfl⟩,hspace⟩
    exact ⟨symbol,⟨hsymbol,hspace⟩,rfl⟩
  · rintro ⟨symbol,⟨hsymbol,hspace⟩,rfl⟩
    exact ⟨⟨symbol,hsymbol,rfl⟩,hspace⟩

theorem nodup_filter_names (keep : SharedSymbol → Bool) :
    (((shared a b).filter keep).map (·.name)).Nodup :=
  (nodup_of_ascending (pairwise_names_shared a b)).sublist (List.filter_sublist.map _)

theorem sum_bytesOf {sizes : SymbolSizes} {side : SharedSymbol → Size}
    (h : ∀ symbol ∈ shared a b, sizes.get? symbol.name = some (side symbol)) (space : String) :
    ∑ name ∈ members a b space, bytesOf sizes name =
      ((((shared a b).filter fun symbol => namespaceOf symbol.name = space).map side).map
        UInt64.toNat).sum := by
  rw [members_eq,List.sum_toFinset _ (nodup_filter_names a b _),List.map_map,List.map_map]
  refine congrArg List.sum (List.map_congr_left fun symbol hsymbol => ?_)
  rw [Function.comp_apply,Function.comp_apply,bytesOf,h symbol (List.mem_of_mem_filter hsymbol),
    Option.getD_some]

theorem IsNamespace.ext {x y : SharedNamespace} (hx : IsNamespace a b x) (hy : IsNamespace a b y)
    (h : x.namespace = y.namespace) : x = y := by
  refine (SharedNamespace.mk.injEq ..).mpr ⟨h,?_,?_,?_⟩
  · rw [hx.count,hy.count,h]
  · rw [← UInt64.toNat_inj,hx.sizeA,hy.sizeA,h]
  · rw [← UInt64.toNat_inj,hx.sizeB,hy.sizeB,h]

theorem isNamespace_of {name : String} (h : name ∈ commonNames a b) :
    IsNamespace a b (SharedNamespace.of (shared a b) (groupName name)) where
  nonempty := ⟨name,Finset.mem_filter.mpr ⟨h,rfl⟩⟩
  count := by
    rw [SharedNamespace.of,members_eq,List.toFinset_card_of_nodup (nodup_filter_names a b _),
      List.length_map]
  sizeA := by
    have hsum := sum_bytesOf a b (fun symbol hsymbol => ((mem_shared_iff a b).mp hsymbol).1)
      (groupName name)
    exact (Size.toNat_saturated _).trans (congrArg (min · _) hsum.symm)
  sizeB := by
    have hsum := sum_bytesOf a b (fun symbol hsymbol => ((mem_shared_iff a b).mp hsymbol).2)
      (groupName name)
    exact (Size.toNat_saturated _).trans (congrArg (min · _) hsum.symm)

theorem mem_all_iff {space : SharedNamespace} :
    space ∈ SharedNamespace.all (shared a b) ↔ IsNamespace a b space := by
  have hgroups : ∀ group, group ∈ (shared a b).map (fun symbol => namespaceOf symbol.name) ↔
      ∃ name ∈ commonNames a b, groupName name = group := by
    intro group
    simp only [mem_commonNames_iff,List.mem_map,namespaceOf_eq_groupName,exists_exists_and_eq_and]
  simp only [SharedNamespace.all,List.mem_map,List.mem_eraseDups,hgroups]
  constructor
  · rintro ⟨_,⟨name,hname,rfl⟩,rfl⟩
    exact isNamespace_of a b hname
  · intro hspace
    obtain ⟨name,hmember⟩ := hspace.nonempty
    obtain ⟨hname,hgroup⟩ := Finset.mem_filter.mp hmember
    refine ⟨space.namespace,⟨name,hname,hgroup⟩,?_⟩
    rw [← hgroup]
    exact IsNamespace.ext a b (isNamespace_of a b hname) hspace hgroup

theorem map_namespaceOf_shared : (shared a b).map (fun symbol => namespaceOf symbol.name) =
    ((shared a b).map (·.name)).map groupName := by
  rw [List.map_map]
  exact List.map_congr_left fun symbol _ => namespaceOf_eq_groupName symbol.name

theorem pairwise_leadsByName : (SharedNamespace.all (shared a b)).Pairwise (LeadsByName a b) := by
  have hnames := pairwise_names_shared a b
  rw [SharedNamespace.all,map_namespaceOf_shared]
  refine List.pairwise_map.mpr ((pairwise_idxOf_eraseDups _).imp_of_mem fun {x y} hx _ hlt => ?_)
  obtain ⟨first,hfirst,hgroup,hleads⟩ :=
    exists_first_of_group hnames groupName (List.mem_eraseDups.mp hx)
  refine ⟨first,?_,fun name hname => ?_,fun name hname => ?_⟩
  · exact Finset.mem_filter.mpr ⟨(mem_commonNames_iff a b).mpr hfirst,hgroup⟩
  · obtain ⟨hname,hsame⟩ := Finset.mem_filter.mp hname
    exact (hleads name ((mem_commonNames_iff a b).mp hname)).1 hsame
  · obtain ⟨hname,hother⟩ := Finset.mem_filter.mp hname
    refine (hleads name ((mem_commonNames_iff a b).mp hname)).2 ?_
    rw [hother]
    exact hlt

theorem length_all : (SharedNamespace.all (shared a b)).length =
    ((commonNames a b).image groupName).card := by
  have hset : (commonNames a b).image groupName =
      (((shared a b).map (·.name)).map groupName).eraseDups.toFinset := by
    ext space
    simp only [Finset.mem_image,mem_commonNames_iff,List.mem_toFinset,List.mem_eraseDups,
      List.mem_map (f := groupName)]
  rw [hset,List.toFinset_card_of_nodup (nodup_eraseDups _),SharedNamespace.all,List.length_map,
    map_namespaceOf_shared]

end Namespaces

/-- A comparison that tells exactly what two libraries have in common. -/
structure IsExact (settings : OverlapSettings) (a b : String × SymbolSizes) (pair : PairOverlap) :
    Prop where
  libraryA : pair.libraryA = a.1
  libraryB : pair.libraryB = b.1
  sharedCount : pair.sharedCount = (commonNames a.2 b.2).card
  /-- The symbols with the sizes of their own sides, by the larger size and then by name. -/
  topSymbols : ∃ ranking : List SharedSymbol,
    (∀ symbol, symbol ∈ ranking ↔ a.2.get? symbol.name = some symbol.sizeA ∧
      b.2.get? symbol.name = some symbol.sizeB) ∧
    ranking.Pairwise (Precedes SharedSymbol.largerSize fun x y => x.name < y.name) ∧
    pair.topSymbols = ranking.take settings.topSymbols.toNat
  /-- The namespaces by the bytes of both sides and then by their least names. -/
  topNamespaces : ∃ ranking : List SharedNamespace,
    (∀ space, space ∈ ranking ↔ IsNamespace a.2 b.2 space) ∧
    (∀ name ∈ commonNames a.2 b.2, ∃! space, space ∈ ranking ∧ space.namespace = groupName name) ∧
    ranking.Pairwise (Precedes SharedNamespace.bytes (LeadsByName a.2 b.2)) ∧
    pair.topNamespaces = ranking.take settings.topNamespaces.toNat
  counts : ((commonNames a.2 b.2).image groupName).card ≤ settings.topNamespaces.toNat →
    (pair.topNamespaces.map (·.count)).sum = pair.sharedCount
  /-- Nothing depends on the order in which the names of the first library come. -/
  anyOrder : ∀ order, order.Perm a.2.names →
    pair = ofShared settings a.1 b.1 (collected order a.2 b.2)

/-- **A comparison is exact.** -/
theorem isExact_of (settings : OverlapSettings) (a b : String × SymbolSizes) :
    (of settings a b).IsExact settings a b := by
  have hspaces := topNamespaces_ofShared settings a.1 b.1 (shared a.2 b.2)
  have hperm := List.mergeSort_perm (SharedNamespace.all (shared a.2 b.2))
    fun x y => y.bytes ≤ x.bytes
  constructor
  case libraryA => rfl
  case libraryB => rfl
  case sharedCount => exact (card_commonNames a.2 b.2).symm
  case topSymbols =>
    refine ⟨(shared a.2 b.2).mergeSort byLargerSize,fun symbol => ?_,?_,rfl⟩
    · rw [List.mem_mergeSort,mem_shared_iff]
    · exact pairwise_precedes_mergeSort _ byLargerSize_iff (pairwise_shared a.2 b.2)
  case topNamespaces =>
    refine ⟨_,fun space => ?_,fun name hname => ?_,?_,hspaces⟩
    · rw [hperm.mem_iff,mem_all_iff]
    · refine ⟨_,⟨hperm.mem_iff.mpr ((mem_all_iff ..).mpr (isNamespace_of a.2 b.2 hname)),rfl⟩,?_⟩
      rintro other ⟨hother,hsame⟩
      rw [hperm.mem_iff,mem_all_iff] at hother
      exact hother.ext a.2 b.2 (isNamespace_of a.2 b.2 hname) hsame
    · exact pairwise_precedes_mergeSort _ (fun x y => decide_eq_true_iff)
        (pairwise_leadsByName a.2 b.2)
  case counts =>
    intro hlimit
    rw [← length_all,← hperm.length_eq] at hlimit
    refine (congrArg (fun spaces => (spaces.map SharedNamespace.count).sum) hspaces).trans ?_
    rw [List.take_of_length_le hlimit,(hperm.map _).sum_nat]
    exact SharedNamespace.sum_count_all (shared a.2 b.2)
  case anyOrder =>
    intro order horder
    rw [collected_eq_shared horder]
    rfl

end PairOverlap

/-! ## All three -/

namespace TripleOverlap

def commonNames (a b c : SymbolSizes) : Finset String :=
  a.names.toFinset ∩ b.names.toFinset ∩ c.names.toFinset

/-- A comparison that tells exactly what three libraries have in common. -/
structure IsExact (settings : OverlapSettings) (a b c : SymbolSizes) (triple : TripleOverlap) :
    Prop where
  sharedCount : triple.sharedCount = (commonNames a b c).card
  contained : commonNames a b c ⊆ PairOverlap.commonNames a b ∧
    commonNames a b c ⊆ PairOverlap.commonNames a c ∧
    commonNames a b c ⊆ PairOverlap.commonNames b c
  examples : ∃ names : List String, names.Pairwise (· < ·) ∧
    (∀ name, name ∈ names ↔ name ∈ commonNames a b c) ∧
    triple.examples = names.take settings.tripleExamples.toNat
  /-- Nothing depends on the order in which the names of the first library come. -/
  anyOrder : ∀ order : List String, order.Perm a.names →
    triple = Overlap.tripleOf settings
      ((order.filter fun name => b.contains name && c.contains name).mergeSort fun x y => x ≤ y)

theorem mem_commonNames_iff (a b c : SymbolSizes) {name : String} :
    name ∈ commonNames a b c ↔ name ∈ Overlap.tripleNames a b c := by
  simp only [commonNames,Finset.mem_inter,List.mem_toFinset,Overlap.mem_tripleNames_iff,and_assoc]

theorem card_commonNames (a b c : SymbolSizes) :
    (commonNames a b c).card = (Overlap.tripleNames a b c).length :=
  PairOverlap.card_of_ascending (Overlap.pairwise_tripleNames a b c) fun _ =>
    mem_commonNames_iff a b c

theorem isExact_tripleOf (settings : OverlapSettings) (a b c : SymbolSizes) :
    (Overlap.tripleOf settings (Overlap.tripleNames a b c)).IsExact settings a b c where
  sharedCount := (card_commonNames a b c).symm
  contained := by
    refine ⟨fun name hname => ?_,fun name hname => ?_,fun name hname => ?_⟩ <;>
      simp only [commonNames,PairOverlap.commonNames,Finset.mem_inter] at hname ⊢
    · exact hname.1
    · exact ⟨hname.1.1,hname.2⟩
    · exact ⟨hname.1.2,hname.2⟩
  examples :=
    ⟨_,Overlap.pairwise_tripleNames a b c,fun _ => (mem_commonNames_iff a b c).symm,rfl⟩
  anyOrder := by
    intro order horder
    rw [PairOverlap.mergeSort_filter_names horder]
    rfl

end TripleOverlap

namespace Overlap

/-- **An overlap is exact** about each two of its libraries, and about all of them when there are
three. -/
theorem of_isExact (settings : OverlapSettings) (libraries : List (String × SymbolSizes)) :
    List.Forall₂ (fun position pair => ∃ a b, libraries[position.1]? = some a ∧
        libraries[position.2]? = some b ∧ PairOverlap.IsExact settings a b pair)
      (positions libraries.length) (of settings libraries).pairs ∧
    ∀ a b c, libraries = [a,b,c] → ∃ triple, (of settings libraries).triple = some triple ∧
      triple.IsExact settings a.2 b.2 c.2 ∧
      ∀ pair ∈ (of settings libraries).pairs, triple.sharedCount ≤ pair.sharedCount := by
  constructor
  · have hlisted : List.Forall₂ Eq
        ((positions libraries.length).map (comparison? settings libraries))
        ((of settings libraries).pairs.map some) :=
      List.forall₂_eq_eq_eq ▸ (map_some_pairsOf settings libraries).symm
    rw [List.forall₂_map_left_iff,List.forall₂_map_right_iff] at hlisted
    refine hlisted.imp fun position pair hpair => ?_
    obtain ⟨a,ha,hmap⟩ := Option.bind_eq_some_iff.mp hpair
    obtain ⟨b,hb,rfl⟩ := Option.map_eq_some_iff.mp hmap
    exact ⟨a,b,ha,hb,PairOverlap.isExact_of settings a b⟩
  · rintro a b c rfl
    have hexact := TripleOverlap.isExact_tripleOf settings a.2 b.2 c.2
    refine ⟨_,rfl,hexact,fun pair hpair => ?_⟩
    have hpairs : (of settings [a,b,c]).pairs =
        [PairOverlap.of settings a b,PairOverlap.of settings a c,PairOverlap.of settings b c] := rfl
    obtain ⟨hab,hac,hbc⟩ := hexact.contained
    rw [hexact.sharedCount]
    simp only [hpairs,List.mem_cons,List.not_mem_nil,or_false] at hpair
    rcases hpair with rfl | rfl | rfl
    · exact (Finset.card_le_card hab).trans (PairOverlap.isExact_of settings a b).sharedCount.ge
    · exact (Finset.card_le_card hac).trans (PairOverlap.isExact_of settings a c).sharedCount.ge
    · exact (Finset.card_le_card hbc).trans (PairOverlap.isExact_of settings b c).sharedCount.ge

/-- Three libraries that have one symbol in common. -/
theorem of_isExact_three : ∃ triple : TripleOverlap,
    (of {} (twoLibraries ++ [("three",.ofList [("f",3)])])).triple = some triple ∧
      triple.sharedCount = 1 ∧ triple.examples = ["f"] ∧
      ∀ pair ∈ (of {} (twoLibraries ++ [("three",.ofList [("f",3)])])).pairs,
        1 ≤ pair.sharedCount := by
  obtain ⟨triple,htriple,-,hpairs⟩ :=
    (of_isExact {} (twoLibraries ++ [("three",.ofList [("f",3)])])).2 _ _ _ rfl
  have hnames : tripleOf {} (tripleNames (.ofList [("f",1)]) (.ofList [("f",2),("g",1)])
      (.ofList [("f",3)])) = ⟨1,["f"]⟩ := by decide
  obtain rfl := (Option.some.inj htriple).symm.trans hnames
  exact ⟨_,htriple,rfl,rfl,hpairs⟩

end Overlap

end SizeSurvey
