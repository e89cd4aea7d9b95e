import Mathlib.Data.List.Basic
import SizeSurvey.Gate.Verdict
import SizeSurvey.Proofs.NameMap
import SizeSurvey.Proofs.Ranking.Stability
import SizeSurvey.Proofs.Size

/-! # What the gate makes of each component

Every current component is new, failing or accepted, and only one of these. The lists of a verdict
name the right components with their own sizes and in their own order, and what only the baseline has
plays no part.
-/
namespace SizeSurvey

namespace Verdict

/-! ## The three classes -/

section Classes
variable (baseline : Metrics) (threshold : Threshold) (name : String) (size : Size)

/-- A component that the baseline does not have. -/
def IsNew : Prop :=
  baseline.get? name = none

/-- A component that has grown, and by more than the threshold allows. -/
def IsFailing : Prop :=
  ∃ former, baseline.get? name = some former ∧ former < size ∧
    threshold.isExceeded former (size - former) = true

/-- Any other component that the baseline has. -/
def IsAccepted : Prop :=
  ∃ former, baseline.get? name = some former ∧
    ¬(former < size ∧ threshold.isExceeded former (size - former) = true)

/-- One of three propositions holds and the other two do not. -/
def ExactlyOne (p q r : Prop) : Prop :=
  (p ∧ ¬q ∧ ¬r) ∨ (¬p ∧ q ∧ ¬r) ∨ (¬p ∧ ¬q ∧ r)

theorem exactlyOne_class :
    ExactlyOne (IsNew baseline name) (IsFailing baseline threshold name size)
      (IsAccepted baseline threshold name size) := by
  unfold ExactlyOne IsNew IsFailing IsAccepted
  cases hformer : baseline.get? name with
  | none => simp
  | some former =>
    simp only [Option.some_inj,exists_eq_left',reduceCtorEq]
    by_cases h : former < size ∧ threshold.isExceeded former (size - former) = true
    · exact Or.inr (Or.inl ⟨id,h,not_not_intro h⟩)
    · exact Or.inr (Or.inr ⟨id,h,h⟩)

end Classes

/-! ## What is listed for one component -/

section Listed
variable {baseline : Metrics} {threshold : Threshold} {floor : Size} {entry : String × Size}

theorem newComponent?_eq_some_iff {found : NewComponent} :
    newComponent? baseline entry = some found ↔
      IsNew baseline entry.1 ∧ found = ⟨entry.1,entry.2⟩ := by
  unfold newComponent? IsNew
  cases baseline.get? entry.1 <;> simp [eq_comm]

theorem regression?_eq_some_iff {found : Regression} :
    regression? baseline threshold entry = some found ↔
      ∃ former, baseline.get? entry.1 = some former ∧
        (former < entry.2 ∧ threshold.isExceeded former (entry.2 - former) = true) ∧
        found = ⟨entry.1,former,entry.2,entry.2 - former,
          growthPercent? former (entry.2 - former)⟩ := by
  unfold regression?
  cases baseline.get? entry.1 with
  | none => simp
  | some former =>
    simp only [Option.ite_none_right_eq_some,Option.some_inj,exists_eq_left']
    exact and_congr_right fun _ => eq_comm

theorem improvement?_eq_some_iff {found : Improvement} :
    improvement? baseline floor entry = some found ↔
      ∃ former, baseline.get? entry.1 = some former ∧
        (entry.2 ≤ former ∧ floor < former - entry.2) ∧ found = ⟨entry.1,former - entry.2⟩ := by
  unfold improvement?
  cases baseline.get? entry.1 with
  | none => simp
  | some former =>
    simp only [Option.ite_none_right_eq_some,Option.some_inj,exists_eq_left']
    exact and_congr_right fun _ => eq_comm

end Listed

theorem mem_filterMap_entries {α : Type} {metrics : Metrics} {f : String × Size → Option α}
    {found : α} :
    found ∈ metrics.entries.filterMap f ↔
      ∃ name size, metrics.get? name = some size ∧ f (name,size) = some found := by
  simp only [List.mem_filterMap,Prod.exists,NameMap.mem_entries_iff]

/-- Components that are taken from the entries of a map one by one come in the order of their names. -/
theorem pairwise_filterMap_entries {α : Type} (metrics : Metrics) {f : String × Size → Option α}
    {component : α → String} (h : ∀ entry found, f entry = some found → component found = entry.1) :
    (metrics.entries.filterMap f).Pairwise fun a b => component a < component b := by
  refine metrics.sorted.filterMap f fun a b hab found hfound other hother => ?_
  rw [h a found hfound,h b other hother]
  exact hab

/-! ## The whole verdict -/

/-- A verdict that judges every current component for what it is. -/
structure Judges (current baseline : Metrics) (threshold : Threshold) (floor : Size)
    (verdict : Verdict) : Prop where
  exactly_one : ∀ name size, current.get? name = some size →
    ExactlyOne (name ∈ verdict.newComponents.map (·.component))
      (name ∈ verdict.failures.map (·.component)) (IsAccepted baseline threshold name size)
  mem_new_iff : ∀ found, found ∈ verdict.newComponents ↔
    current.get? found.component = some found.size ∧ baseline.get? found.component = none
  /-- A failure has its own sizes, and its growth is their difference. -/
  mem_failures_iff : ∀ found, found ∈ verdict.failures ↔
    current.get? found.component = some found.current ∧
      baseline.get? found.component = some found.baseline ∧ found.baseline < found.current ∧
      found.baseline.toNat + found.growth.toNat = found.current.toNat ∧
      threshold.isExceeded found.baseline found.growth = true ∧
      found.percent = growthPercent? found.baseline found.growth
  percent_eq_none_iff : ∀ found ∈ verdict.failures, found.percent = none ↔ found.baseline = 0
  /-- An improvement is an accepted component, and its reduction is the difference of its sizes. -/
  mem_improvements_iff : ∀ found, found ∈ verdict.improvements ↔
    ∃ size former, current.get? found.component = some size ∧
      baseline.get? found.component = some former ∧
      IsAccepted baseline threshold found.component size ∧
      size.toNat + found.reduction.toNat = former.toNat ∧ floor < found.reduction
  passed_iff : verdict.passed = true ↔ verdict.failures = []
  new_ordered : verdict.newComponents.Pairwise (·.component < ·.component)
  failures_ordered : verdict.failures.Pairwise
    (Precedes (·.growth.toNat) (·.component < ·.component))
  improvements_ordered : verdict.improvements.Pairwise
    (Precedes (·.reduction.toNat) (·.component < ·.component))

section Of
variable (current baseline : Metrics) (threshold : Threshold) (floor : Size)

theorem mem_newComponents_of (found : NewComponent) :
    found ∈ (of current baseline threshold floor).newComponents ↔
      current.get? found.component = some found.size ∧ baseline.get? found.component = none := by
  rw [of,mem_filterMap_entries]
  simp only [newComponent?_eq_some_iff]
  constructor
  · rintro ⟨name,size,hcurrent,hnew,rfl⟩
    exact ⟨hcurrent,hnew⟩
  · rintro ⟨hcurrent,hnew⟩
    exact ⟨_,_,hcurrent,hnew,rfl⟩

theorem mem_failures_of (found : Regression) :
    found ∈ (of current baseline threshold floor).failures ↔
      current.get? found.component = some found.current ∧
        baseline.get? found.component = some found.baseline ∧ found.baseline < found.current ∧
        found.baseline.toNat + found.growth.toNat = found.current.toNat ∧
        threshold.isExceeded found.baseline found.growth = true ∧
        found.percent = growthPercent? found.baseline found.growth := by
  rw [of,List.mem_mergeSort,mem_filterMap_entries]
  simp only [regression?_eq_some_iff]
  constructor
  · rintro ⟨name,size,hcurrent,former,hformer,⟨hlt,hexceeded⟩,rfl⟩
    exact ⟨hcurrent,hformer,hlt,(Size.sub_eq_iff (UInt64.le_of_lt hlt) _).mp rfl,hexceeded,rfl⟩
  · rintro ⟨hcurrent,hformer,hlt,hgrowth,hexceeded,hpercent⟩
    obtain ⟨component,former,size,growth,percent⟩ := found
    obtain rfl : size - former = growth :=
      (Size.sub_eq_iff (UInt64.le_of_lt hlt) growth).mpr hgrowth
    obtain rfl : percent = growthPercent? former (size - former) := hpercent
    exact ⟨component,size,hcurrent,former,hformer,⟨hlt,hexceeded⟩,rfl⟩

theorem mem_improvements_of (found : Improvement) :
    found ∈ (of current baseline threshold floor).improvements ↔
      ∃ size former, current.get? found.component = some size ∧
        baseline.get? found.component = some former ∧
        IsAccepted baseline threshold found.component size ∧
        size.toNat + found.reduction.toNat = former.toNat ∧ floor < found.reduction := by
  rw [of,List.mem_mergeSort,mem_filterMap_entries]
  simp only [improvement?_eq_some_iff]
  constructor
  · rintro ⟨name,size,hcurrent,former,hformer,⟨hle,hfloor⟩,rfl⟩
    exact ⟨size,former,hcurrent,hformer,⟨former,hformer,fun h => UInt64.not_lt.mpr hle h.1⟩,
      (Size.sub_eq_iff hle _).mp rfl,hfloor⟩
  · rintro ⟨size,former,hcurrent,hformer,_,hreduction,hfloor⟩
    obtain ⟨component,reduction⟩ := found
    have hle : size ≤ former := UInt64.le_iff_toNat_le.mpr (Nat.le.intro hreduction)
    obtain rfl : former - size = reduction := (Size.sub_eq_iff hle reduction).mpr hreduction
    exact ⟨component,size,hcurrent,former,hformer,⟨hle,hfloor⟩,rfl⟩

theorem mem_new_names_iff {name : String} {size : Size} (h : current.get? name = some size) :
    name ∈ (of current baseline threshold floor).newComponents.map (·.component) ↔
      IsNew baseline name := by
  rw [List.mem_map]
  constructor
  · rintro ⟨found,hfound,rfl⟩
    exact ((mem_newComponents_of ..).mp hfound).2
  · intro hnew
    exact ⟨⟨name,size⟩,(mem_newComponents_of ..).mpr ⟨h,hnew⟩,rfl⟩

theorem mem_failing_names_iff {name : String} {size : Size} (h : current.get? name = some size) :
    name ∈ (of current baseline threshold floor).failures.map (·.component) ↔
      IsFailing baseline threshold name size := by
  rw [List.mem_map]
  constructor
  · rintro ⟨found,hfound,rfl⟩
    obtain ⟨hcurrent,hformer,hlt,hgrowth,hexceeded,_⟩ := (mem_failures_of ..).mp hfound
    obtain rfl := Option.some_inj.mp (h.symm.trans hcurrent)
    refine ⟨found.baseline,hformer,hlt,?_⟩
    rw [(Size.sub_eq_iff (UInt64.le_of_lt hlt) found.growth).mpr hgrowth]
    exact hexceeded
  · rintro ⟨former,hformer,hlt,hexceeded⟩
    exact ⟨⟨name,former,size,size - former,growthPercent? former (size - former)⟩,
      (mem_failures_of ..).mpr ⟨h,hformer,hlt,(Size.sub_eq_iff (UInt64.le_of_lt hlt) _).mp rfl,
        hexceeded,rfl⟩,rfl⟩

theorem growthPercent?_eq_none_iff (former growth : Size) :
    growthPercent? former growth = none ↔ former = 0 := by
  unfold growthPercent?
  split <;> simp [*]

theorem of_congr {other : Metrics}
    (h : ∀ name ∈ current.names, other.get? name = baseline.get? name) :
    of current other threshold floor = of current baseline threshold floor := by
  have hentry : ∀ entry ∈ current.entries, other.get? entry.1 = baseline.get? entry.1 :=
    fun entry hentry => h entry.1 (List.mem_map_of_mem hentry)
  have hnew : current.entries.filterMap (newComponent? other) =
      current.entries.filterMap (newComponent? baseline) :=
    List.filterMap_congr fun entry he => by rw [newComponent?,newComponent?,hentry entry he]
  have hfailing : current.entries.filterMap (regression? other threshold) =
      current.entries.filterMap (regression? baseline threshold) :=
    List.filterMap_congr fun entry he => by rw [regression?,regression?,hentry entry he]
  have himproved : current.entries.filterMap (improvement? other floor) =
      current.entries.filterMap (improvement? baseline floor) :=
    List.filterMap_congr fun entry he => by rw [improvement?,improvement?,hentry entry he]
  rw [of,of,hnew,hfailing,himproved]

theorem of_self : of current current threshold floor = ⟨true,[],[],[]⟩ := by
  have hget : ∀ entry ∈ current.entries, current.get? entry.1 = some entry.2 :=
    fun entry hentry => current.mem_entries_iff.mp hentry
  have hnew : current.entries.filterMap (newComponent? current) = [] :=
    List.filterMap_eq_nil_iff.mpr fun entry he => by simp only [newComponent?,hget entry he]
  have hfailing : current.entries.filterMap (regression? current threshold) = [] :=
    List.filterMap_eq_nil_iff.mpr fun entry he => by
      simp only [regression?,hget entry he,UInt64.lt_irrefl,false_and,if_false]
  have himproved : current.entries.filterMap (improvement? current floor) = [] :=
    List.filterMap_eq_nil_iff.mpr fun entry he => by
      have hfloor : ¬floor < entry.2 - entry.2 := by
        rw [UInt64.sub_self]
        exact UInt64.not_lt.mpr UInt64.zero_le
      simp only [improvement?,hget entry he,hfloor,and_false,if_false]
  simp only [of,hnew,hfailing,himproved,List.mergeSort_nil,List.isEmpty_nil]

/-- **The verdict judges every component,** and does not change with what only the baseline has. -/
theorem of_judges :
    Judges current baseline threshold floor (of current baseline threshold floor) ∧
      ∀ other : Metrics, (∀ name ∈ current.names, other.get? name = baseline.get? name) →
        of current other threshold floor = of current baseline threshold floor := by
  refine ⟨?_,fun other h => of_congr current baseline threshold floor h⟩
  constructor
  case exactly_one =>
    intro name size h
    rw [mem_new_names_iff current baseline threshold floor h,
      mem_failing_names_iff current baseline threshold floor h]
    exact exactlyOne_class baseline threshold name size
  case mem_new_iff => exact mem_newComponents_of current baseline threshold floor
  case mem_failures_iff => exact mem_failures_of current baseline threshold floor
  case percent_eq_none_iff =>
    intro found hfound
    obtain ⟨_,_,_,_,_,hpercent⟩ := (mem_failures_of ..).mp hfound
    rw [hpercent,growthPercent?_eq_none_iff]
  case mem_improvements_iff => exact mem_improvements_of current baseline threshold floor
  case passed_iff =>
    rw [of,← (List.mergeSort_perm _ _).isEmpty_eq]
    exact List.isEmpty_iff
  case new_ordered =>
    refine pairwise_filterMap_entries current fun entry found h => ?_
    rw [(newComponent?_eq_some_iff.mp h).2]
  case failures_ordered =>
    refine pairwise_precedes_mergeSort (fun found : Regression => found.growth.toNat) (fun a b => ?_)
      (pairwise_filterMap_entries current fun entry found h => ?_)
    · rw [decide_eq_true_eq,UInt64.le_iff_toNat_le]
    · obtain ⟨_,_,_,rfl⟩ := regression?_eq_some_iff.mp h
      rfl
  case improvements_ordered =>
    refine pairwise_precedes_mergeSort (fun found : Improvement => found.reduction.toNat) (fun a b => ?_)
      (pairwise_filterMap_entries current fun entry found h => ?_)
    · rw [decide_eq_true_eq,UInt64.le_iff_toNat_le]
    · obtain ⟨_,_,_,rfl⟩ := improvement?_eq_some_iff.mp h
      rfl

end Of

end Verdict

end SizeSurvey
