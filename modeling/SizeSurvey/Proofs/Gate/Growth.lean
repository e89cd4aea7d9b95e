import SizeSurvey.Proofs.Gate.Verdict
import SizeSurvey.Proofs.Rounding.Magnitude

/-! # Larger sizes and stricter limits

A component that fails goes on failing when it has grown further, and when the limit is lowered. So
the verdict on larger sizes is never the milder one, although growth is compared with the limit in
rounded numbers, and with nothing at all where a component starts from nothing.
-/
namespace SizeSurvey

/-! ## Thresholds -/

namespace Threshold

/-- A threshold of the same kind whose limit is not above the limit of the other. -/
inductive IsStricter : Threshold → Threshold → Prop where
  | share {limit limit' : Float} (h : limit ≤ limit') : IsStricter (share limit) (share limit')
  | bytes {limit limit' : Float} (h : limit ≤ limit') : IsStricter (bytes limit) (bytes limit')

variable {threshold stricter : Threshold} {baseline growth growth' : Size}

theorem toNat_pos_iff {size : Size} : 0 < size.toNat ↔ size ≠ 0 := by
  rw [Nat.pos_iff_ne_zero,ne_eq,ne_eq,← UInt64.toNat_inj]
  rfl

theorem isExceeded_share_iff {limit : Float} :
    (share limit).isExceeded baseline growth = true ↔
      growth ≠ 0 ∧ (baseline = 0 ∨ limit < growth.toFloat / baseline.toFloat) := by
  unfold isExceeded
  by_cases hgrowth : growth = 0 <;> simp [hgrowth]

theorem isExceeded_bytes_iff {limit : Float} :
    (bytes limit).isExceeded baseline growth = true ↔ growth ≠ 0 ∧ limit < growth.toFloat := by
  unfold isExceeded
  by_cases hgrowth : growth = 0 <;> simp [hgrowth]

/-- What exceeds a threshold does so all the more when it is larger. -/
theorem isExceeded_of_growth_le (hle : growth ≤ growth')
    (h : threshold.isExceeded baseline growth = true) :
    threshold.isExceeded baseline growth' = true := by
  have hsizes : growth.toNat ≤ growth'.toNat := UInt64.le_iff_toNat_le.mp hle
  cases threshold with
  | share limit =>
    obtain ⟨hgrowth,hlimit⟩ := isExceeded_share_iff.mp h
    have hpos : 0 < growth.toNat := toNat_pos_iff.mpr hgrowth
    refine isExceeded_share_iff.mpr ⟨toNat_pos_iff.mp (hpos.trans_le hsizes),?_⟩
    by_cases hzero : baseline = 0
    · exact Or.inl hzero
    · have hquotient := Rounding.div_le_div hpos hsizes (toNat_pos_iff.mpr hzero)
      exact Or.inr (Rounding.lt_of_lt_of_le (hlimit.resolve_left hzero) hquotient)
  | bytes limit =>
    obtain ⟨hgrowth,hlimit⟩ := isExceeded_bytes_iff.mp h
    have hpos : 0 < growth.toNat := toNat_pos_iff.mpr hgrowth
    exact isExceeded_bytes_iff.mpr ⟨toNat_pos_iff.mp (hpos.trans_le hsizes),
      Rounding.lt_of_lt_of_le hlimit (Rounding.toFloat_le_toFloat hpos hsizes)⟩

theorem isExceeded_of_isStricter (hstricter : stricter.IsStricter threshold)
    (h : threshold.isExceeded baseline growth = true) :
    stricter.isExceeded baseline growth = true := by
  cases hstricter with
  | share hle =>
    obtain ⟨hgrowth,hlimit⟩ := isExceeded_share_iff.mp h
    exact isExceeded_share_iff.mpr ⟨hgrowth,hlimit.imp_right (Rounding.lt_of_le_of_lt hle)⟩
  | bytes hle =>
    obtain ⟨hgrowth,hlimit⟩ := isExceeded_bytes_iff.mp h
    exact isExceeded_bytes_iff.mpr ⟨hgrowth,Rounding.lt_of_le_of_lt hle hlimit⟩

end Threshold

/-! ## Sizes -/

/-- The same components, none of them smaller than before. -/
structure Metrics.Grows (before after : Metrics) : Prop where
  names_eq : after.names = before.names
  le : ∀ name size size', before.get? name = some size → after.get? name = some size' → size ≤ size'

theorem Metrics.Grows.exists_size {before after : Metrics} (h : before.Grows after) {name : String}
    {size : Size} (hsize : before.get? name = some size) :
    ∃ size', after.get? name = some size' ∧ size ≤ size' := by
  have hname : name ∈ after.names := by
    rw [h.names_eq,NameMap.mem_names_iff]
    exact ⟨size,hsize⟩
  obtain ⟨size',hsize'⟩ := (NameMap.mem_names_iff after).mp hname
  exact ⟨size',hsize',h.le name size size' hsize hsize'⟩

namespace Verdict

variable {baseline : Metrics} {threshold stricter : Threshold} {name : String} {size size' : Size}

theorem IsFailing.of_size_le (hle : size ≤ size') (h : IsFailing baseline threshold name size) :
    IsFailing baseline threshold name size' := by
  obtain ⟨former,hformer,hlt,hexceeded⟩ := h
  refine ⟨former,hformer,UInt64.lt_of_lt_of_le hlt hle,?_⟩
  apply Threshold.isExceeded_of_growth_le ?_ hexceeded
  have hformer' := UInt64.le_of_lt hlt
  rw [UInt64.le_iff_toNat_le,UInt64.toNat_sub_of_le _ _ hformer',
    UInt64.toNat_sub_of_le _ _ (UInt64.le_trans hformer' hle)]
  exact Nat.sub_le_sub_right (UInt64.le_iff_toNat_le.mp hle) _

theorem IsFailing.of_isStricter (hstricter : stricter.IsStricter threshold)
    (h : IsFailing baseline threshold name size) : IsFailing baseline stricter name size := by
  obtain ⟨former,hformer,hlt,hexceeded⟩ := h
  exact ⟨former,hformer,hlt,Threshold.isExceeded_of_isStricter hstricter hexceeded⟩

section Of
variable (current baseline : Metrics) (threshold : Threshold) (floor : Size)

theorem mem_failing_iff {name : String} :
    name ∈ (of current baseline threshold floor).failures.map (·.component) ↔
      ∃ size, current.get? name = some size ∧ IsFailing baseline threshold name size := by
  constructor
  · intro h
    obtain ⟨found,hfound,rfl⟩ := List.mem_map.mp h
    have hcurrent := ((mem_failures_of ..).mp hfound).1
    exact ⟨_,hcurrent,(mem_failing_names_iff current baseline threshold floor hcurrent).mp h⟩
  · rintro ⟨size,hcurrent,hfailing⟩
    exact (mem_failing_names_iff current baseline threshold floor hcurrent).mpr hfailing

theorem passed_iff_no_failing :
    (of current baseline threshold floor).passed = true ↔
      ∀ name, name ∉ (of current baseline threshold floor).failures.map (·.component) := by
  rw [← List.eq_nil_iff_forall_not_mem,List.map_eq_nil_iff,← List.isEmpty_iff,of,
    (List.mergeSort_perm _ _).isEmpty_eq]

/-- **The gate is monotone:** what fails goes on failing when sizes grow and when the limit is lowered,
and where the larger sizes pass, so do the smaller ones. -/
theorem of_monotone :
    (∀ grown : Metrics, current.Grows grown →
      (∀ name ∈ (of current baseline threshold floor).failures.map (·.component),
        name ∈ (of grown baseline threshold floor).failures.map (·.component)) ∧
      ((of grown baseline threshold floor).passed = true →
        (of current baseline threshold floor).passed = true)) ∧
    (∀ stricter : Threshold, stricter.IsStricter threshold →
      ∀ name ∈ (of current baseline threshold floor).failures.map (·.component),
        name ∈ (of current baseline stricter floor).failures.map (·.component)) := by
  constructor
  · intro grown hgrown
    have hfailing : ∀ name ∈ (of current baseline threshold floor).failures.map (·.component),
        name ∈ (of grown baseline threshold floor).failures.map (·.component) := by
      intro name h
      obtain ⟨size,hsize,hfails⟩ := (mem_failing_iff ..).mp h
      obtain ⟨size',hsize',hle⟩ := hgrown.exists_size hsize
      exact (mem_failing_iff ..).mpr ⟨size',hsize',hfails.of_size_le hle⟩
    refine ⟨hfailing,fun hpassed => ?_⟩
    rw [passed_iff_no_failing] at hpassed ⊢
    exact fun name h => hpassed name (hfailing name h)
  · intro stricter hstricter name h
    obtain ⟨size,hsize,hfails⟩ := (mem_failing_iff ..).mp h
    exact (mem_failing_iff ..).mpr ⟨size,hsize,hfails.of_isStricter hstricter⟩

end Of

/-- A library that has grown by a tenth fails, and so it does when it has grown further and when the
limit is lowered. -/
theorem of_monotone_tenth :
    Metrics.Grows (NameMap.ofList [("library_core",110)]) (NameMap.ofList [("library_core",125)]) ∧
    (Threshold.share 0.05).IsStricter (.share 0.08) ∧
    "library_core" ∈ (of (NameMap.ofList [("library_core",125)])
      (NameMap.ofList [("library_core",100)]) (.share 0.08) 0).failures.map (·.component) ∧
    "library_core" ∈ (of (NameMap.ofList [("library_core",110)])
      (NameMap.ofList [("library_core",100)]) (.share 0.05) 0).failures.map (·.component) := by
  have hgrown : Metrics.Grows (NameMap.ofList [("library_core",110)])
      (NameMap.ofList [("library_core",125)]) := by
    refine ⟨rfl,fun name size size' h h' => ?_⟩
    have hsize := (NameMap.mem_entries_iff _).mpr h
    have hsize' := (NameMap.mem_entries_iff _).mpr h'
    obtain ⟨-,rfl⟩ := Prod.mk.inj (List.mem_singleton.mp hsize)
    obtain ⟨-,rfl⟩ := Prod.mk.inj (List.mem_singleton.mp hsize')
    decide
  have hstricter : (Threshold.share 0.05).IsStricter (.share 0.08) := .share (by decide +kernel)
  have hfails : "library_core" ∈ (of (NameMap.ofList [("library_core",110)])
      (NameMap.ofList [("library_core",100)]) (.share 0.08) 0).failures.map (·.component) := by
    decide +kernel
  obtain ⟨hlarger,hlower⟩ := of_monotone (NameMap.ofList [("library_core",110)])
    (NameMap.ofList [("library_core",100)]) (.share 0.08) 0
  exact ⟨hgrown,hstricter,(hlarger _ hgrown).1 _ hfails,hlower _ hstricter _ hfails⟩

end Verdict

end SizeSurvey
