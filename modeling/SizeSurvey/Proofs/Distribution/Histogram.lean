import Mathlib.Algebra.Ring.Nat
import SizeSurvey.Distribution.Histogram

/-! # Counts of a histogram

Every size is counted in one bucket, so the counts that are shown add up to the number of sizes.

Ascending bounds divide the sizes into ranges: above the bound before and up to the own one, and at last
what is above all bounds. A histogram shows the ranges that hold a size, each with the number of sizes
in it, so that only the sizes count and not their order.
-/
namespace SizeSurvey.Histogram

theorem position_le (bounds : List (Size × String)) (size : Size) :
    position bounds size ≤ bounds.length :=
  List.findIdx_le_length

section Places
variable {α : Type} (f : α → Nat) (xs : List α)

/-- A counter that is raised at the places of elements has gained as many as have its own place. -/
theorem getElem?_foldl_modify (counts : List Nat) (i : Nat) :
    (xs.foldl (fun counts x => counts.modify (f x) (· + 1)) counts)[i]? =
      counts[i]?.map (· + xs.countP fun x => f x == i) := by
  induction xs generalizing counts with
  | nil => simp
  | cons x xs ih =>
    rw [List.foldl_cons,ih,List.getElem?_modify,List.countP_cons]
    by_cases h : f x = i
    · simp [h,Function.comp_def,Nat.add_assoc,Nat.add_comm 1]
    · simp [h]

theorem countP_lt_succ (n : Nat) :
    (xs.countP fun x => f x < n + 1) = (xs.countP fun x => f x < n) + xs.countP fun x => f x == n := by
  induction xs with
  | nil => rfl
  | cons x xs ih =>
    simp only [List.countP_cons,decide_eq_true_eq,beq_iff_eq,ih]
    split <;> split <;> split <;> omega

theorem sum_countP (n : Nat) :
    ((List.range n).map fun i => xs.countP fun x => f x == i).sum = xs.countP fun x => f x < n := by
  induction n with
  | zero => simp
  | succ n ih =>
    rw [List.range_succ,List.map_append,List.sum_append,ih,List.map_singleton,List.sum_singleton,
      countP_lt_succ]

end Places

def count (bounds : List (Size × String)) (sizes : List Size) (index : Nat) : Nat :=
  sizes.countP fun size => position bounds size == index

/-- **The counters hold the numbers of sizes of their buckets.** -/
theorem counts_eq (bounds : List (Size × String)) (sizes : List Size) :
    counts bounds sizes = (List.range (bounds.length + 1)).map (count bounds sizes) := by
  apply List.ext_getElem?
  intro i
  rw [counts,getElem?_foldl_modify,List.getElem?_map,List.getElem?_replicate]
  by_cases h : i < bounds.length + 1
  · rw [if_pos h,List.getElem?_range h,Option.map_some,Option.map_some,Nat.zero_add,count]
  · rw [if_neg h,List.getElem?_eq_none (by simpa using h),Option.map_none,Option.map_none]

theorem ofSizes_eq_zipIdx (bounds : List (Size × String)) (overflow : String) (sizes : List Size) :
    ofSizes bounds overflow sizes =
      ((labels bounds overflow).zipIdx.map fun entry =>
        (⟨entry.1,count bounds sizes entry.2⟩ : Bucket)).filter fun bucket => 0 < bucket.count := by
  have hlength : (labels bounds overflow).length = bounds.length + 1 := by simp [labels]
  rw [ofSizes,counts_eq,List.zip_map_right,List.map_map,← hlength,List.range_eq_range',
    ← List.zipIdx_eq_zip_range']
  rfl

theorem sum_filter_pos (buckets : List Bucket) :
    ((buckets.filter fun bucket => 0 < bucket.count).map (·.count)).sum =
      (buckets.map (·.count)).sum := by
  induction buckets with
  | nil => rfl
  | cons bucket rest ih =>
    by_cases h : 0 < bucket.count
    · simp [h,ih]
    · simp [ih,Nat.eq_zero_of_not_pos h]

/-- **No size is lost or counted twice.** -/
theorem sum_counts_ofSizes (bounds : List (Size × String)) (overflow : String) (sizes : List Size) :
    ((ofSizes bounds overflow sizes).map (·.count)).sum = sizes.length := by
  have hlength : (labels bounds overflow).length = bounds.length + 1 := by simp [labels]
  have hcounts : ((labels bounds overflow).zipIdx.map fun entry =>
      (⟨entry.1,count bounds sizes entry.2⟩ : Bucket)).map (·.count) =
      (List.range (bounds.length + 1)).map (count bounds sizes) := by
    rw [List.map_map,← hlength,List.range_eq_range',← List.zipIdx_map_snd 0,List.map_map]
    rfl
  have hall : ∀ size ∈ sizes, decide (position bounds size < bounds.length + 1) = true :=
    fun size _ => decide_eq_true (Nat.lt_succ_of_le (position_le bounds size))
  rw [ofSizes_eq_zipIdx,sum_filter_pos]
  calc
    _ = ((List.range (bounds.length + 1)).map (count bounds sizes)).sum :=
      congrArg List.sum hcounts
    _ = _ := (sum_countP (position bounds) sizes _).trans (List.countP_eq_length.mpr hall)

/-! ## Ranges -/

/-- The sizes of one bucket. A bound that is missing leaves that side open. -/
structure Range where
  label : String
  above : Option Size
  upTo : Option Size

namespace Range

def Holds (range : Range) (size : Size) : Prop :=
  (∀ bound ∈ range.above, bound < size) ∧ ∀ bound ∈ range.upTo, size ≤ bound

instance (range : Range) : DecidablePred range.Holds := fun _ =>
  @instDecidableAnd _ _ (Option.decidableForallMem _) (Option.decidableForallMem _)

def bucket (range : Range) (sizes : List Size) : Bucket :=
  ⟨range.label,sizes.countP fun size => range.Holds size⟩

theorem bucket_append (range : Range) (sizes others : List Size) :
    (range.bucket (sizes ++ others)).count = (range.bucket sizes).count + (range.bucket others).count :=
  List.countP_append

end Range

/-- The ranges above a bound, one up to each further bound and one above all of them. -/
def rangesAbove (overflow : String) : Option Size → List (Size × String) → List Range
  | above, [] => [⟨overflow,above,none⟩]
  | above, (bound,label) :: rest => ⟨label,above,some bound⟩ :: rangesAbove overflow (some bound) rest

def ranges (bounds : List (Size × String)) (overflow : String) : List Range :=
  rangesAbove overflow none bounds

variable {overflow : String} {above : Option Size} {bounds : List (Size × String)} {size : Size}

theorem map_label_rangesAbove (above : Option Size) :
    (rangesAbove overflow above bounds).map (·.label) = labels bounds overflow := by
  induction bounds generalizing above with
  | nil => rfl
  | cons bound rest ih =>
    rw [rangesAbove,List.map_cons,ih]
    rfl

theorem position_cons (bound : Size × String) (rest : List (Size × String)) :
    position (bound :: rest) size = if size ≤ bound.1 then 0 else position rest size + 1 := by
  by_cases h : size ≤ bound.1 <;> simp [position,List.findIdx_cons,h]

theorem not_holds_of_le {bound : Size} (h : (bound :: bounds.map Prod.fst).Pairwise (· < ·))
    (hle : size ≤ bound) : ∀ range ∈ rangesAbove overflow (some bound) bounds, ¬range.Holds size := by
  induction bounds generalizing bound with
  | nil =>
    intro range hrange hholds
    rw [List.mem_singleton.mp hrange] at hholds
    exact UInt64.not_lt.mpr hle (hholds.1 bound rfl)
  | cons next rest ih =>
    obtain ⟨hnext,hrest⟩ := List.pairwise_cons.mp h
    intro range hrange hholds
    rcases List.mem_cons.mp hrange with rfl | hrange
    · exact UInt64.not_lt.mpr hle (hholds.1 bound rfl)
    · have hlt : bound < next.1 := hnext next.1 List.mem_cons_self
      exact ih hrest (UInt64.le_of_lt (UInt64.lt_of_le_of_lt hle hlt)) range hrange hholds

theorem holds_iff_position (h : (bounds.map Prod.fst).Pairwise (· < ·))
    (habove : ∀ bound ∈ above, bound < size) {i : Nat} {range : Range}
    (hrange : (rangesAbove overflow above bounds)[i]? = some range) :
    range.Holds size ↔ position bounds size = i := by
  induction bounds generalizing above i with
  | nil =>
    cases i with
    | zero =>
      obtain rfl := Option.some_inj.mp hrange
      exact iff_of_true ⟨habove,nofun⟩ rfl
    | succ i => cases hrange
  | cons bound rest ih =>
    rw [position_cons]
    cases i with
    | zero =>
      obtain rfl := Option.some_inj.mp hrange
      have hholds : Range.Holds ⟨bound.2,above,some bound.1⟩ size ↔ size ≤ bound.1 :=
        ⟨fun hholds => hholds.2 bound.1 rfl,fun hle => ⟨habove,by rintro _ ⟨⟩; exact hle⟩⟩
      rw [hholds]
      split <;> simp [*]
    | succ i =>
      rw [rangesAbove,List.getElem?_cons_succ] at hrange
      split
      next hle =>
        have hnone := not_holds_of_le h hle range (List.mem_of_getElem? hrange)
        exact iff_of_false hnone (Nat.succ_ne_zero i).symm
      next hgt =>
        have hcut : ∀ b ∈ some bound.1, b < size := by
          rintro _ ⟨⟩
          exact UInt64.not_le.mp hgt
        rw [ih (List.pairwise_cons.mp h).2 hcut hrange,Nat.add_right_cancel_iff]

theorem map_bucket_ranges (h : (bounds.map Prod.fst).Pairwise (· < ·)) (sizes : List Size) :
    (labels bounds overflow).zipIdx.map (fun entry => (⟨entry.1,count bounds sizes entry.2⟩ : Bucket)) =
      (ranges bounds overflow).map (·.bucket sizes) := by
  apply List.ext_getElem?
  intro i
  rw [List.getElem?_map,List.getElem?_zipIdx,← map_label_rangesAbove none,List.getElem?_map,
    List.getElem?_map,ranges]
  cases hrange : (rangesAbove overflow none bounds)[i]? with
  | none => rfl
  | some range =>
    have hopen : ∀ size bound : Size, bound ∈ (none : Option Size) → bound < size := by simp
    have hcount : count bounds sizes i = sizes.countP fun size => range.Holds size := by
      refine List.countP_congr fun size _ => ?_
      rw [beq_iff_eq,decide_eq_true_iff,holds_iff_position h (hopen size) hrange]
    simp [Range.bucket,hcount]

theorem ofSizes_eq (h : (bounds.map Prod.fst).Pairwise (· < ·)) (sizes : List Size) :
    ofSizes bounds overflow sizes =
      ((ranges bounds overflow).map (·.bucket sizes)).filter fun bucket => 0 < bucket.count := by
  rw [← map_bucket_ranges h,ofSizes_eq_zipIdx]

theorem ofSizes_perm {sizes others : List Size} (h : sizes.Perm others)
    (bounds : List (Size × String)) (overflow : String) :
    ofSizes bounds overflow others = ofSizes bounds overflow sizes := by
  have hcount : count bounds others = count bounds sizes := by
    funext i
    exact h.symm.countP_eq _
  rw [ofSizes_eq_zipIdx,ofSizes_eq_zipIdx,hcount]

/-! ## Counts by label -/

/-- The number of sizes that a histogram shows under a label. -/
def shown (buckets : List Bucket) (label : String) : Nat :=
  ((buckets.filter fun bucket => bucket.label = label).map (·.count)).sum

theorem shown_filter_pos (buckets : List Bucket) (label : String) :
    shown (buckets.filter fun bucket => 0 < bucket.count) label = shown buckets label := by
  have hcomm : (buckets.filter fun bucket => 0 < bucket.count).filter (fun bucket => bucket.label = label) =
      (buckets.filter fun bucket => bucket.label = label).filter fun bucket => 0 < bucket.count := by
    simp only [List.filter_filter,Bool.and_comm]
  rw [shown,hcomm,sum_filter_pos,shown]

theorem shown_append (bounds : List (Size × String)) (overflow : String) (sizes others : List Size)
    (label : String) : shown (ofSizes bounds overflow (sizes ++ others)) label =
      shown (ofSizes bounds overflow sizes) label + shown (ofSizes bounds overflow others) label := by
  simp only [ofSizes_eq_zipIdx,shown_filter_pos]
  induction (labels bounds overflow).zipIdx with
  | nil => rfl
  | cons entry rest ih =>
    have hcount : count bounds (sizes ++ others) entry.2 =
        count bounds sizes entry.2 + count bounds others entry.2 := List.countP_append
    simp only [shown,List.map_cons] at ih ⊢
    by_cases hlabel : entry.1 = label
    · simp only [hlabel,decide_true,List.filter_cons_of_pos,List.map_cons,List.sum_cons,hcount,ih]
      omega
    · simpa [hlabel] using ih

/-- **A histogram counts exactly**, and no size is lost. -/
theorem ofSizes_exact (h : (bounds.map Prod.fst).Pairwise (· < ·)) (overflow : String)
    (sizes : List Size) :
    ofSizes bounds overflow sizes =
        ((ranges bounds overflow).map (·.bucket sizes)).filter (fun bucket => 0 < bucket.count) ∧
      ((ofSizes bounds overflow sizes).map (·.count)).sum = sizes.length ∧
      (∀ others, sizes.Perm others →
        ofSizes bounds overflow others = ofSizes bounds overflow sizes) ∧
      ∀ others, (∀ range ∈ ranges bounds overflow, (range.bucket (sizes ++ others)).count =
          (range.bucket sizes).count + (range.bucket others).count) ∧
        ∀ label, shown (ofSizes bounds overflow (sizes ++ others)) label =
          shown (ofSizes bounds overflow sizes) label + shown (ofSizes bounds overflow others) label := by
  refine ⟨ofSizes_eq h sizes,sum_counts_ofSizes bounds overflow sizes,?_,?_⟩
  · intro others hperm
    exact ofSizes_perm hperm bounds overflow
  · intro others
    exact ⟨fun range _ => range.bucket_append sizes others,
      shown_append bounds overflow sizes others⟩

/-- Sizes on both sides of a bound, one above all bounds, and a bucket that stays empty. -/
theorem ofSizes_exact_two :
    let bounds : List (Size × String) := [(10,"small"),(100,"middle"),(200,"large")]
    let sizes : List Size := [1,10,11,500]
    (bounds.map Prod.fst).Pairwise (· < ·) ∧ sizes.Perm sizes.reverse ∧
      ofSizes bounds "huge" sizes.reverse = [⟨"small",2⟩,⟨"middle",1⟩,⟨"huge",1⟩] ∧
      (ranges bounds "huge").map (fun range => (range.above,range.upTo)) =
        [(none,some 10),(some 10,some 100),(some 100,some 200),(some 200,none)] ∧
      shown (ofSizes bounds "huge" (sizes ++ [100])) "middle" = 2 := by
  intro bounds sizes
  have hbounds : (bounds.map Prod.fst).Pairwise (· < ·) := by decide
  have hperm : sizes.Perm sizes.reverse := (List.reverse_perm sizes).symm
  obtain ⟨heq,-,hsame,happend⟩ := ofSizes_exact hbounds "huge" sizes
  refine ⟨hbounds,hperm,?_,by decide,?_⟩
  · rw [hsame _ hperm,heq]
    decide
  · rw [(happend [100]).2]
    decide

end SizeSurvey.Histogram
