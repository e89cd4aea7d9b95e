import Mathlib.Data.List.FinRange
import SizeSurvey.Proofs.Overlap.Shared

/-! # Each two libraries

An overlap lists each two libraries once, in the order of their positions. Libraries in another
order give the same comparisons, seen from the other side where two libraries have changed places.
-/
namespace SizeSurvey.Overlap

/-! ## Positions -/

/-- The positions of each two of so many libraries, the earlier one first. -/
def positions : Nat → List (Nat × Nat)
  | 0 => []
  | n + 1 => (List.range n).map (fun j => (0,j + 1)) ++ (positions n).map fun p => (p.1 + 1,p.2 + 1)

/-- The first position decides, then the second one. -/
def ComesBefore (p q : Nat × Nat) : Prop :=
  p.1 < q.1 ∨ (p.1 = q.1 ∧ p.2 < q.2)

theorem mem_positions_iff (n i j : Nat) : (i,j) ∈ positions n ↔ i < j ∧ j < n := by
  induction n generalizing i j with
  | zero => simp [positions]
  | succ n ih =>
    simp only [positions,List.mem_append,List.mem_map,List.mem_range,Prod.mk.injEq,Prod.exists,ih]
    constructor
    · rintro (⟨k,hk,rfl,rfl⟩ | ⟨k,l,⟨hkl,hl⟩,rfl,rfl⟩) <;> omega
    · rintro ⟨hij,hj⟩
      rcases Nat.eq_zero_or_pos i with rfl | hi
      · exact Or.inl ⟨j - 1,by omega,rfl,by omega⟩
      · exact Or.inr ⟨i - 1,j - 1,by omega,by omega,by omega⟩

theorem pairwise_positions (n : Nat) : (positions n).Pairwise ComesBefore := by
  induction n with
  | zero => exact List.Pairwise.nil
  | succ n ih =>
    refine List.pairwise_append.mpr ⟨?_,?_,?_⟩
    · refine List.pairwise_map.mpr (List.pairwise_lt_range.imp fun hlt => Or.inr ⟨rfl,?_⟩)
      exact Nat.succ_lt_succ hlt
    · refine List.pairwise_map.mpr (ih.imp fun {p q} hbefore => ?_)
      unfold ComesBefore at hbefore ⊢
      omega
    · intro p hp q hq
      obtain ⟨j,-,rfl⟩ := List.mem_map.mp hp
      obtain ⟨r,-,rfl⟩ := List.mem_map.mp hq
      exact Or.inl (Nat.succ_pos _)

theorem length_positions (n : Nat) : (positions n).length = n * (n - 1) / 2 := by
  induction n with
  | zero => rfl
  | succ n ih =>
    have hstep : (n + 1) * n = n * (n - 1) + n * 2 := by
      cases n with
      | zero => rfl
      | succ n =>
        rw [Nat.add_sub_cancel,← Nat.mul_add,Nat.mul_comm]
    rw [positions,List.length_append,List.length_map,List.length_map,List.length_range,ih,
      Nat.add_sub_cancel,hstep,Nat.add_mul_div_right _ _ (by omega),Nat.add_comm]

/-! ## Pairs -/

def comparison? (settings : OverlapSettings) (libraries : List (String × SymbolSizes))
    (position : Nat × Nat) : Option PairOverlap :=
  libraries[position.1]?.bind fun a => libraries[position.2]?.map (PairOverlap.of settings a)

theorem map_some_eq_map_range {α β : Type} (f : α → β) (xs : List α) :
    (xs.map f).map some = (List.range xs.length).map fun i => xs[i]?.map f := by
  refine List.ext_getElem? fun i => ?_
  by_cases h : i < xs.length
  · simp [h]
  · simp [h]

theorem map_some_pairsOf (settings : OverlapSettings) (libraries : List (String × SymbolSizes)) :
    (pairsOf settings libraries).map some =
      (positions libraries.length).map (comparison? settings libraries) := by
  induction libraries with
  | nil => rfl
  | cons library rest ih =>
    rw [pairsOf,List.length_cons,positions,List.map_append,List.map_append,ih,
      map_some_eq_map_range,List.map_map,List.map_map]
    rfl

/-- What is listed for the libraries at two positions among so many. -/
def pairAt? (overlap : Overlap) (count i j : Nat) : Option PairOverlap :=
  overlap.pairs[(positions count).idxOf (i,j)]?

theorem pairAt?_of (settings : OverlapSettings) {libraries : List (String × SymbolSizes)}
    {count i j : Nat} (hcount : libraries.length = count) {a b : String × SymbolSizes}
    (hij : i < j) (ha : libraries[i]? = some a) (hb : libraries[j]? = some b) :
    (of settings libraries).pairAt? count i j = some (PairOverlap.of settings a b) := by
  obtain ⟨hj,-⟩ := List.getElem?_eq_some_iff.mp hb
  have hmem : (i,j) ∈ positions count := (mem_positions_iff ..).mpr ⟨hij,hcount ▸ hj⟩
  have hlisted := congrArg (·[(positions count).idxOf (i,j)]?) (map_some_pairsOf settings libraries)
  rw [hcount] at hlisted
  simp only [List.getElem?_map,List.getElem?_idxOf hmem,Option.map_some,comparison?,ha,hb,
    Option.bind_some] at hlisted
  obtain ⟨pair,hpair,hsome⟩ := Option.map_eq_some_iff.mp hlisted
  rw [Option.some.inj hsome] at hpair
  exact hpair

/-! ## All three -/

theorem mem_tripleNames_iff (a b c : SymbolSizes) {name : String} :
    name ∈ tripleNames a b c ↔ name ∈ a.names ∧ name ∈ b.names ∧ name ∈ c.names := by
  simp only [tripleNames,List.mem_filter,Bool.and_eq_true,NameMap.contains_iff]

theorem pairwise_tripleNames (a b c : SymbolSizes) : (tripleNames a b c).Pairwise (· < ·) :=
  a.sorted_names.filter _

theorem triple_eq_none (settings : OverlapSettings) {libraries : List (String × SymbolSizes)}
    (h : libraries.length ≠ 3) : (of settings libraries).triple = none := by
  unfold of
  split
  next => exact absurd rfl h
  next => rfl

theorem triple_of_perm (settings : OverlapSettings) {libraries others : List (String × SymbolSizes)}
    (h : libraries.Perm others) : (of settings libraries).triple = (of settings others).triple := by
  by_cases hthree : libraries.length = 3
  · obtain ⟨x,y,z,rfl⟩ := List.length_eq_three.mp hthree
    obtain ⟨a,b,c,rfl⟩ := List.length_eq_three.mp (h.length_eq ▸ hthree)
    have hmem : ∀ name, name ∈ tripleNames x.2 y.2 z.2 ↔ name ∈ tripleNames a.2 b.2 c.2 := by
      intro name
      have hall : (∀ library ∈ [x,y,z], name ∈ library.2.names) ↔
          ∀ library ∈ [a,b,c], name ∈ library.2.names := by
        simp only [h.mem_iff]
      simpa [mem_tripleNames_iff] using hall
    have hnames : tripleNames x.2 y.2 z.2 = tripleNames a.2 b.2 c.2 :=
      NameMap.eq_of_sorted id (pairwise_tripleNames ..) (pairwise_tripleNames ..) hmem
    exact congrArg (fun names => some (tripleOf settings names)) hnames
  · rw [triple_eq_none settings hthree,triple_eq_none settings (h.length_eq ▸ hthree)]

theorem isSome_triple_iff (settings : OverlapSettings) (libraries : List (String × SymbolSizes)) :
    (of settings libraries).triple.isSome = true ↔ libraries.length = 3 := by
  by_cases h : libraries.length = 3
  · obtain ⟨a,b,c,rfl⟩ := List.length_eq_three.mp h
    exact iff_of_true rfl rfl
  · rw [triple_eq_none settings h]
    exact iff_of_false Bool.false_ne_true h

/-! ## Another order -/

/-- An overlap that lists each two of some libraries once, in the order of their positions, and all
three only when there are three. -/
structure ListsEachTwo (settings : OverlapSettings) (libraries : List (String × SymbolSizes))
    (overlap : Overlap) : Prop where
  length_pairs : overlap.pairs.length = libraries.length * (libraries.length - 1) / 2
  ordered : (positions libraries.length).Pairwise ComesBefore
  complete : ∀ i j, (i,j) ∈ positions libraries.length ↔ i < j ∧ j < libraries.length
  pairs : overlap.pairs.map some = (positions libraries.length).map (comparison? settings libraries)
  triple : overlap.triple.isSome = true ↔ libraries.length = 3

theorem listsEachTwo_of (settings : OverlapSettings) (libraries : List (String × SymbolSizes)) :
    ListsEachTwo settings libraries (of settings libraries) where
  length_pairs := by
    have hpairs := congrArg List.length (map_some_pairsOf settings libraries)
    rwa [List.length_map,List.length_map,length_positions] at hpairs
  ordered := pairwise_positions libraries.length
  complete := mem_positions_iff libraries.length
  pairs := map_some_pairsOf settings libraries
  triple := isSome_triple_iff settings libraries

/-- The libraries in another order; `order` tells where each one stood before. -/
def rearranged (libraries : List (String × SymbolSizes))
    (order : Equiv.Perm (Fin libraries.length)) : List (String × SymbolSizes) :=
  List.ofFn fun i => libraries[order i]

theorem length_rearranged (libraries : List (String × SymbolSizes))
    (order : Equiv.Perm (Fin libraries.length)) :
    (rearranged libraries order).length = libraries.length :=
  List.length_ofFn

theorem getElem?_rearranged (libraries : List (String × SymbolSizes))
    (order : Equiv.Perm (Fin libraries.length)) (i : Fin libraries.length) :
    (rearranged libraries order)[i.1]? = some libraries[order i] := by
  simp [rearranged]

theorem rearranged_perm (libraries : List (String × SymbolSizes))
    (order : Equiv.Perm (Fin libraries.length)) : (rearranged libraries order).Perm libraries := by
  have h := order.ofFn_comp_perm libraries.get
  rwa [List.ofFn_get] at h

/-- **The order of the libraries** only decides which comparison stands where and from which side it
is seen. -/
theorem of_rearranged (settings : OverlapSettings) (libraries : List (String × SymbolSizes))
    (order : Equiv.Perm (Fin libraries.length)) :
    ListsEachTwo settings libraries (of settings libraries) ∧
      ListsEachTwo settings (rearranged libraries order)
        (of settings (rearranged libraries order)) ∧
      (∀ i j : Fin libraries.length, i < j →
        (order i < order j → ∃ pair,
          (of settings libraries).pairAt? libraries.length (order i) (order j) = some pair ∧
          (of settings (rearranged libraries order)).pairAt? libraries.length i j = some pair) ∧
        (order j < order i → ∃ pair,
          (of settings libraries).pairAt? libraries.length (order j) (order i) = some pair ∧
          (of settings (rearranged libraries order)).pairAt? libraries.length i j =
            some pair.exchanged)) ∧
      (of settings (rearranged libraries order)).triple = (of settings libraries).triple := by
  refine ⟨listsEachTwo_of ..,listsEachTwo_of ..,fun i j hij => ?_,
    triple_of_perm settings (rearranged_perm libraries order)⟩
  have hold : ∀ k : Fin libraries.length, libraries[k.1]? = some libraries[k] := fun k =>
    List.getElem?_eq_getElem k.2
  have hnew := pairAt?_of settings (length_rearranged libraries order) hij
    (getElem?_rearranged libraries order i) (getElem?_rearranged libraries order j)
  constructor
  · intro hkept
    exact ⟨_,pairAt?_of settings rfl hkept (hold _) (hold _),hnew⟩
  · intro hturned
    refine ⟨_,pairAt?_of settings rfl hturned (hold _) (hold _),?_⟩
    rw [hnew,PairOverlap.of_exchange]

/-- Two libraries that have one symbol in common. -/
def twoLibraries : List (String × SymbolSizes) :=
  [("one",.ofList [("f",1)]),("two",.ofList [("f",2),("g",1)])]

/-- When they change places, their comparison is seen from the other side. -/
theorem of_rearranged_two : ∃ pair : PairOverlap,
    pair.libraryA = "one" ∧ pair.libraryB = "two" ∧ pair.sharedCount = 1 ∧
      (of {} twoLibraries).pairAt? 2 0 1 = some pair ∧
      (of {} (rearranged twoLibraries Fin.revPerm)).pairAt? 2 0 1 = some pair.exchanged := by
  obtain ⟨pair,hold,hnew⟩ := ((of_rearranged {} twoLibraries Fin.revPerm).2.2.1
    ⟨0,by decide⟩ ⟨1,by decide⟩ (by decide)).2 (by decide)
  have hpair := pairAt?_of {} (rfl : twoLibraries.length = 2) Nat.zero_lt_one rfl rfl
  obtain rfl := Option.some.inj (hold.symm.trans hpair)
  exact ⟨_,rfl,rfl,by decide,hpair,hnew⟩

end SizeSurvey.Overlap
