import Mathlib.Data.Finset.Card
import SizeSurvey.Proofs.Ranking.Stability
import SizeSurvey.Proofs.Ranking.Totals
import SizeSurvey.Proofs.Size

/-! # Rankings of keys in the order in which they were first seen

After any run a tally holds each key that came once, where it was first seen. A ranking lists the
leading ones of these entries by descending rank, and among equal ranks the key comes first that was
seen first.
-/
namespace SizeSurvey.Tally

section Order
variable {α κ : Type} [LE κ]

/-- Whether an entry stands before another one in a ranking of keys that came in this order. -/
def Leads (keys : List String) (rank : α → κ) (a b : String × α) : Prop :=
  rank b.2 ≤ rank a.2 ∧ (rank a.2 ≤ rank b.2 → keys.idxOf a.1 < keys.idxOf b.1)

/-- The leading entries of a tally whose keys came in this order. -/
structure IsRanking (keys : List String) (tally : Tally α) (rank : α → κ) (limit : Nat)
    (ranking : List (String × α)) : Prop where
  length_eq : ranking.length = min limit keys.toFinset.card
  nodup_keys : (ranking.map Prod.fst).Nodup
  held : ∀ entry ∈ ranking, tally.get? entry.1 = some entry.2
  ordered : ranking.Pairwise (Leads keys rank)
  leading : ∀ entry ∈ ranking, ∀ key value, tally.get? key = some value →
    (key,value) ∉ ranking → Leads keys rank entry (key,value)

end Order

theorem length_eraseDups_eq_card (names : List String) :
    names.eraseDups.length = names.toFinset.card := by
  have hsame : names.eraseDups.toFinset = names.toFinset := by
    ext name
    rw [List.mem_toFinset,List.mem_toFinset,List.mem_eraseDups]
  rw [← hsame,List.toFinset_card_of_nodup (nodup_eraseDups names)]

section Gather
variable {α β κ : Type} (key : β → String) (initial : α) (change : β → α → α) (xs : List β)

theorem get?_gather (name : String) : (gather key initial change xs).get? name =
    if name ∈ xs.map key then some (gathered key initial change xs name) else none := by
  rw [(inStep_gather ..).get?_eq_lookup,entries_gather,NameMap.lookup_map]
  simp only [List.mem_eraseDups]

theorem size_gather : (gather key initial change xs).size = (xs.map key).toFinset.card := by
  rw [size,entries_gather,List.length_map,length_eraseDups_eq_card]

theorem mem_entries_gather {name : String} {value : α}
    (h : (gather key initial change xs).get? name = some value) :
    (name,value) ∈ (gather key initial change xs).entries := by
  rw [(inStep_gather ..).get?_eq_lookup] at h
  exact NameMap.mem_of_lookup h

theorem get?_of_mem_gather {entry : String × α} (h : entry ∈ (gather key initial change xs).entries) :
    (gather key initial change xs).get? entry.1 = some entry.2 := by
  obtain ⟨name,hname,rfl⟩ := List.mem_map.mp h
  rw [get?_gather,if_pos (List.mem_eraseDups.mp hname)]

/-- The entries stand in the order in which their keys were first seen. -/
theorem pairwise_idxOf_gather : (gather key initial change xs).entries.Pairwise fun a b =>
    (xs.map key).idxOf a.1 < (xs.map key).idxOf b.1 :=
  List.pairwise_map.mpr (pairwise_idxOf_eraseDups (xs.map key))

variable [LE κ] [DecidableLE κ] [Std.IsLinearPreorder κ] (rank : α → κ)

theorem pairwise_leads_mergeSort :
    ((gather key initial change xs).entries.mergeSort fun a b => rank b.2 ≤ rank a.2).Pairwise
      (Leads (xs.map key) rank) := by
  have htrans : ∀ a b c : String × α, decide (rank b.2 ≤ rank a.2) = true →
      decide (rank c.2 ≤ rank b.2) = true → decide (rank c.2 ≤ rank a.2) = true := by
    intro a b c hab hbc
    exact decide_eq_true (Std.le_trans (of_decide_eq_true hbc) (of_decide_eq_true hab))
  have htotal : ∀ a b : String × α,
      (decide (rank b.2 ≤ rank a.2) || decide (rank a.2 ≤ rank b.2)) = true := by
    intro a b
    rw [Bool.or_eq_true,decide_eq_true_iff,decide_eq_true_iff]
    exact Std.le_total
  have hsorted := pairwise_mergeSort_of_pairwise htrans htotal (pairwise_idxOf_gather key initial change xs)
  refine hsorted.imp fun {a b} hab => ?_
  rwa [decide_eq_true_iff,decide_eq_true_iff] at hab

/-- **A ranking of a tally** lists its leading entries. -/
theorem isRanking_ranked_gather (limit : Nat) :
    IsRanking (xs.map key) (gather key initial change xs) rank limit
      ((gather key initial change xs).ranked rank limit) := by
  have hall := pairwise_leads_mergeSort key initial change xs rank
  have hperm := List.mergeSort_perm (gather key initial change xs).entries
    fun a b => rank b.2 ≤ rank a.2
  rw [ranked]
  generalize (gather key initial change xs).entries.mergeSort
    (fun a b => rank b.2 ≤ rank a.2) = all at hall hperm
  have hkeys : (all.map Prod.fst).Perm (xs.map key).eraseDups := by
    rw [← keys_gatheredEntries key initial change xs]
    exact hperm.map Prod.fst
  constructor
  case length_eq =>
    rw [List.length_take,hperm.length_eq,← size_gather key initial change xs,size]
  case nodup_keys =>
    rw [List.map_take]
    exact (hkeys.nodup_iff.mpr (nodup_eraseDups _)).sublist (List.take_sublist ..)
  case held =>
    intro entry hentry
    exact get?_of_mem_gather key initial change xs (hperm.mem_iff.mp (List.mem_of_mem_take hentry))
  case ordered => exact hall.sublist (List.take_sublist ..)
  case leading =>
    intro entry hentry name value hvalue hleft
    have hmem := hperm.mem_iff.mpr (mem_entries_gather key initial change xs hvalue)
    rw [← List.take_append_drop limit all] at hmem hall
    exact (List.pairwise_append.mp hall).2.2 entry hentry _ ((List.mem_append.mp hmem).resolve_left hleft)

end Gather

/-! ## Runs of additions -/

variable (amounts : List (String × Size))

theorem toNat_get?_ofList (key : String) : ((ofList amounts).get? key).map UInt64.toNat =
    if key ∈ amounts.map Prod.fst then
      some (min ((amountsOf amounts key).map UInt64.toNat).sum (UInt64.size - 1))
    else none := by
  rw [ofList_eq_gather,get?_gather]
  split
  · rw [Option.map_some,gathered_eq_total,Size.toNat_total]
  · rfl

theorem get?_ofList_perm {amounts others : List (String × Size)} (h : amounts.Perm others)
    (key : String) : (ofList others).get? key = (ofList amounts).get? key := by
  refine Option.map_injective (fun _ _ => UInt64.toNat_inj.mp) ?_
  have hsum := (((h.filter fun pair => pair.1 = key).map Prod.snd).map UInt64.toNat).sum_nat
  simp only [toNat_get?_ofList,(h.map Prod.fst).mem_iff,amountsOf,hsum]

/-- **A tally over a whole run.** Its index and its entries are in step, whatever was updated in it. It
holds the saturated sum of each key that was added, in whatever order the additions came, and its
rankings list the leading keys. The rankings of all other tallies are made in the same way. -/
theorem ofList_ranks :
    (ofList amounts).InStep ∧
    (∀ key, ((ofList amounts).get? key).map UInt64.toNat =
      if key ∈ amounts.map Prod.fst then
        some (min ((amountsOf amounts key).map UInt64.toNat).sum (UInt64.size - 1))
      else none) ∧
    (∀ others, amounts.Perm others → ∀ key, (ofList others).get? key = (ofList amounts).get? key) ∧
    (ofList amounts).size = (amounts.map Prod.fst).toFinset.card ∧
    (∀ limit, IsRanking (amounts.map Prod.fst) (ofList amounts) UInt64.toNat limit
      ((ofList amounts).mostCommon limit)) ∧
    ∀ {α β κ : Type} [LE κ] [DecidableLE κ] [Std.IsLinearPreorder κ] (key : β → String) (initial : α)
      (change : β → α → α) (visits : List β) (rank : α → κ) (limit : Nat),
      let tally := visits.foldl (fun tally visit => tally.update (key visit) initial (change visit)) {}
      tally.InStep ∧ IsRanking (visits.map key) tally rank limit (tally.ranked rank limit) := by
  rw [ofList_eq_gather]
  refine ⟨inStep_gather ..,?_,?_,size_gather ..,?_,?_⟩
  · rw [← ofList_eq_gather]
    exact toNat_get?_ofList amounts
  · rw [← ofList_eq_gather]
    exact fun others => get?_ofList_perm
  · intro limit
    exact isRanking_ranked_gather Prod.fst 0 _ amounts UInt64.toNat limit
  · intro α β κ _ _ _ key initial change visits rank limit
    dsimp only
    rw [foldl_update_eq_gather]
    exact ⟨inStep_gather ..,isRanking_ranked_gather key initial change visits rank limit⟩

/-- A key that overflows, one that comes in between, and a tally that is ranked by the least count. -/
theorem ofList_ranks_five :
    let amounts : List (String × Size) :=
      [("z",3),("y",5),("z",2),("x",18446744073709551615),("x",7)]
    let counts : Tally Int := ["b","a","b"].foldl (fun tally name => tally.update name 0 (· + 1)) {}
    (amounts.Perm amounts.reverse ∧ Std.IsLinearPreorder Int) ∧
      ((ofList amounts).InStep ∧ (ofList amounts).slots.get? "y" = some 1) ∧
      ((ofList amounts).get? "x").map UInt64.toNat = some 18446744073709551615 ∧
      (ofList amounts.reverse).get? "z" = (ofList amounts).get? "z" ∧ (ofList amounts).size = 3 ∧
      IsRanking ["z","y","z","x","x"] (ofList amounts) UInt64.toNat 2 ((ofList amounts).mostCommon 2) ∧
      counts.InStep ∧
      IsRanking ["b","a","b"] counts (fun count => -count) 1 (counts.ranked (fun count => -count) 1) := by
  intro amounts counts
  have hperm : amounts.Perm amounts.reverse := (List.reverse_perm amounts).symm
  obtain ⟨hstep,hget,hsame,hsize,hranking,hvisits⟩ := ofList_ranks amounts
  refine ⟨⟨hperm,inferInstance⟩,⟨hstep,?_⟩,?_,hsame _ hperm "z",?_,hranking 2,?_⟩
  · rw [hstep.slot_iff]
    decide
  · rw [hget]
    decide
  · rw [hsize]
    decide
  · exact hvisits id 0 (fun _ count => count + 1) ["b","a","b"] (fun count : Int => -count) 1

end SizeSurvey.Tally
