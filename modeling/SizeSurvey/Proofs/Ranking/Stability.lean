import SizeSurvey.Size

/-! # Sorting that keeps the order of equals

A stable sort puts elements in order, and those that are equal in that order stay as they stood. For
a descending sort by rank this leaves one order only.
-/
namespace SizeSurvey
variable {α : Type}

theorem pairwise_mergeSort_of_pairwise {le : α → α → Bool}
    (htrans : ∀ a b c, le a b = true → le b c = true → le a c = true)
    (htotal : ∀ a b, (le a b || le b a) = true) {before : α → α → Prop} {xs : List α}
    (h : xs.Pairwise before) :
    (xs.mergeSort le).Pairwise fun a b => le a b = true ∧ (le b a = true → before a b) := by
  induction xs with
  | nil => simp
  | cons x xs ih =>
    obtain ⟨hx,hxs⟩ := List.pairwise_cons.mp h
    obtain ⟨front,back,hcons,htail,hfront⟩ := List.mergeSort_cons htrans htotal x xs
    have hsorted := List.pairwise_mergeSort htrans htotal (x :: xs)
    have hrest := ih hxs
    -- The first element is put behind `front`, whose elements all come strictly before it.
    rw [hcons] at hsorted ⊢
    rw [htail,List.pairwise_append] at hrest
    obtain ⟨hleft,hright,hcross⟩ := hrest
    rw [List.pairwise_append,List.pairwise_cons] at hsorted
    obtain ⟨_,⟨hback,_⟩,hover⟩ := hsorted
    refine List.pairwise_append.mpr ⟨hleft,List.pairwise_cons.mpr ⟨fun b hb => ?_,hright⟩,?_⟩
    · have hmem : b ∈ xs.mergeSort le := by
        rw [htail]
        exact List.mem_append_right front hb
      exact ⟨hback b hb,fun _ => hx b (List.mem_mergeSort.mp hmem)⟩
    · intro a ha b hb
      rcases List.mem_cons.mp hb with rfl | hb
      · have hlt := hfront a ha
        refine ⟨hover a ha b List.mem_cons_self,fun hle => ?_⟩
        rw [hle] at hlt
        cases hlt
      · exact hcross a ha b hb

/-- The order by descending rank, and by what stood before among equal ranks. -/
def Precedes (rank : α → Nat) (before : α → α → Prop) (a b : α) : Prop :=
  rank b < rank a ∨ (rank a = rank b ∧ before a b)

/-- **A descending sort** leaves its elements in this order. -/
theorem pairwise_precedes_mergeSort {le : α → α → Bool} (rank : α → Nat)
    (hle : ∀ a b, le a b = true ↔ rank b ≤ rank a) {before : α → α → Prop} {xs : List α}
    (h : xs.Pairwise before) : (xs.mergeSort le).Pairwise (Precedes rank before) := by
  have hsorted : (xs.mergeSort le).Pairwise
      fun a b => le a b = true ∧ (le b a = true → before a b) := pairwise_mergeSort_of_pairwise
    (fun a b c hab hbc => by rw [hle] at *; exact Nat.le_trans hbc hab)
    (fun a b => by rw [Bool.or_eq_true,hle,hle]; exact Nat.le_total _ _) h
  refine hsorted.imp fun {a b} hab => ?_
  rw [hle,hle] at hab
  rcases Nat.lt_or_eq_of_le hab.1 with hlt | heq
  · exact Or.inl hlt
  · exact Or.inr ⟨heq.symm,hab.2 (Nat.le_of_eq heq.symm)⟩

/-- All elements in that order. -/
structure Ranks (rank : α → Nat) (before : α → α → Prop) (xs ranking : List α) : Prop where
  perm : ranking.Perm xs
  ordered : ranking.Pairwise (Precedes rank before)

/-! ## Places in a list -/

/-- All elements of a list by descending rank, and in the order of the list among equal ranks. -/
def RanksStably (rank : α → Nat) (xs ranking : List α) : Prop :=
  ∃ placed, Ranks (fun entry : α × Nat => rank entry.1) (fun a b => a.2 < b.2) xs.zipIdx placed ∧
    ranking = placed.map Prod.fst

theorem pairwise_zipIdx (xs : List α) : xs.zipIdx.Pairwise fun a b => a.2 < b.2 := by
  have hrange := List.pairwise_lt_range' (s := 0) (n := xs.length)
  rw [← List.zipIdx_map_snd] at hrange
  exact List.pairwise_map.mp hrange

theorem ranksStably_mergeSort {le : α → α → Bool} (rank : α → Nat)
    (hle : ∀ a b, le a b = true ↔ rank b ≤ rank a) (xs : List α) :
    RanksStably rank xs (xs.mergeSort le) := by
  have hplaced := pairwise_precedes_mergeSort (fun entry : α × Nat => rank entry.1)
    (fun a b => hle a.1 b.1) (pairwise_zipIdx xs)
  refine ⟨_,⟨List.mergeSort_perm ..,hplaced⟩,?_⟩
  have hmap : (xs.zipIdx.mergeSort fun a b => le a.1 b.1).map Prod.fst =
      (xs.zipIdx.map Prod.fst).mergeSort le := List.map_mergeSort fun a _ b _ => rfl
  rw [hmap,List.zipIdx_map_fst]

theorem ranksStably_sizes (size : α → Size) (xs : List α) :
    RanksStably (fun x => (size x).toNat) xs (xs.mergeSort fun a b => size b ≤ size a) :=
  ranksStably_mergeSort (fun x => (size x).toNat)
    (fun _ _ => decide_eq_true_iff.trans UInt64.le_iff_toNat_le) xs

theorem RanksStably.perm {rank : α → Nat} {xs ranking : List α} (h : RanksStably rank xs ranking) :
    ranking.Perm xs := by
  obtain ⟨placed,hranks,rfl⟩ := h
  have hmap := hranks.perm.map Prod.fst
  rwa [List.zipIdx_map_fst] at hmap

theorem RanksStably.descending {rank : α → Nat} {xs ranking : List α}
    (h : RanksStably rank xs ranking) : ranking.Pairwise fun a b => rank b ≤ rank a := by
  obtain ⟨placed,hranks,rfl⟩ := h
  refine List.pairwise_map.mpr (hranks.ordered.imp fun {a b} hab => ?_)
  rcases hab with hlt | ⟨heq,-⟩
  · exact Nat.le_of_lt hlt
  · exact Nat.le_of_eq heq.symm

end SizeSurvey
