import SizeSurvey.Proofs.Ranking.Survivors
import SizeSurvey.Proofs.Ranking.Totals
import SizeSurvey.Proofs.Size

/-! # Streams in another order

Which of several entries of one metric are kept depends on the order in which they come. The
metrics that are kept do not, and the totals of a tally do not either.
-/
namespace SizeSurvey

namespace Leaders
variable {α : Type}

theorem metricsDescending_perm {entries others : List (Size × α)} (h : entries.Perm others) :
    metricsDescending entries = metricsDescending others :=
  metricsDescending_eq ((List.mergeSort_perm ..).trans (h.symm.map _))
    (metricsDescending_pairwise others)

variable [Ord α]

theorem metrics_toList_perm (capacity : Nat) {entries others : List (Size × α)}
    (h : entries.Perm others) :
    (ofList capacity entries).toList.map Prod.fst = (ofList capacity others).toList.map Prod.fst := by
  rw [metrics_toList,metrics_toList,metricsDescending_perm h]

theorem mem_of_mem_push {leaders : Leaders α} {metric : Size} {item : α} {entry : Size × α}
    (h : entry ∈ (leaders.push metric item).ascending) :
    entry = (metric,item) ∨ entry ∈ leaders.ascending := by
  rcases leaders.push_cases metric item with ⟨_,_,he⟩ | ⟨least,rest,htable,_,_,_,he⟩ | ⟨_,_,_,he⟩
  · rw [he] at h
    exact mem_place.mp h
  · rw [he] at h
    rw [htable]
    exact (mem_place.mp h).imp_right (List.mem_cons_of_mem least)
  · rw [he] at h
    exact Or.inr h

theorem mem_of_mem_pushAll {leaders : Leaders α} {entries : List (Size × α)} {entry : Size × α}
    (h : entry ∈ (leaders.pushAll entries).ascending) :
    entry ∈ entries ∨ entry ∈ leaders.ascending := by
  induction entries generalizing leaders with
  | nil => exact Or.inr h
  | cons first rest ih =>
    rcases ih h with hrest | hpush
    · exact Or.inl (List.mem_cons_of_mem first hrest)
    · rcases mem_of_mem_push hpush with rfl | hold
      · exact Or.inl List.mem_cons_self
      · exact Or.inr hold

theorem mem_of_mem_toList {capacity : Nat} {entries : List (Size × α)} {entry : Size × α}
    (h : entry ∈ (ofList capacity entries).toList) : entry ∈ entries :=
  (mem_of_mem_pushAll (List.mem_reverse.mp h)).resolve_right List.not_mem_nil

end Leaders

namespace Tally

theorem entries_sums_perm {pairs others : List (String × Size)} (h : pairs.Perm others) :
    (sums pairs).entries.Perm (sums others).entries := by
  have hkeys : (pairs.map Prod.fst).eraseDups.Perm (others.map Prod.fst).eraseDups := by
    refine (List.perm_ext_iff_of_nodup (nodup_eraseDups _) (nodup_eraseDups _)).mpr fun key => ?_
    rw [List.mem_eraseDups,List.mem_eraseDups,(h.map Prod.fst).mem_iff]
  have htotal : ∀ key, Size.total (amountsOf pairs key) = Size.total (amountsOf others key) := by
    intro key
    rw [Size.total_eq_saturated,Size.total_eq_saturated]
    exact Size.saturated_perm ((h.filter _).map _)
  simp only [entries_sums,htotal]
  exact hkeys.map _

theorem totals_mostCommon (tally : Tally Size) (limit : Nat) :
    (tally.mostCommon limit).map Prod.snd =
      (Leaders.metricsDescending (tally.entries.map Prod.swap)).take limit := by
  have hrank : ∀ a ∈ tally.entries, ∀ b ∈ tally.entries,
      decide (b.2.toNat ≤ a.2.toNat) = decide (b.2 ≤ a.2) := fun _ _ _ _ =>
    decide_eq_decide.mpr UInt64.le_iff_toNat_le.symm
  rw [mostCommon,ranked,List.map_take,List.map_mergeSort (s := fun a b => decide (b ≤ a)) hrank,
    Leaders.metricsDescending,List.map_map]
  rfl

theorem totals_mostCommon_perm (limit : Nat) {pairs others : List (String × Size)}
    (h : pairs.Perm others) :
    ((sums pairs).mostCommon limit).map Prod.snd = ((sums others).mostCommon limit).map Prod.snd := by
  rw [totals_mostCommon,totals_mostCommon,
    Leaders.metricsDescending_perm ((entries_sums_perm h).map Prod.swap)]

end Tally

end SizeSurvey
