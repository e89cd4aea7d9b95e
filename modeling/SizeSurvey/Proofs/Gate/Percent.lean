import SizeSurvey.Proofs.Gate.Growth
import SizeSurvey.Proofs.Rounding.Numeral
import SizeSurvey.Proofs.Text.Occurrence

/-! # Percentages

A percentage is rounded when it is read and again when it is divided by a hundred, and growth is rounded
once. Growth that is clearly below or above the share is judged by the exact numbers; growth of just the
share is judged by the numeral alone, and a numeral errs to one side only.
-/
namespace SizeSurvey
open Rounding

/-! ## Percentages as shares -/

namespace Threshold

/-- The share that a percentage stands for, as it is rounded. -/
def percent (digits places : Nat) : Float :=
  Decimal.nearest digits (-places) / 100.0

/-- Rounding twice gives less than rounding the share at once. -/
def Slips (digits places : Nat) : Prop :=
  percent digits places < Decimal.nearest digits (-(places + 2 : Nat))

instance (digits places : Nat) : Decidable (Slips digits places) :=
  inferInstanceAs (Decidable (_ < _))

section Percent
variable {m k : Nat}

theorem Slips.pos (h : Slips m k) : 0 < m := by
  refine Nat.pos_of_ne_zero ?_
  rintro rfl
  rw [Slips,percent,Decimal.nearest_of_zero,Decimal.nearest_of_zero] at h
  exact absurd h (by decide)

theorem number?_of_isNumeral {numeral : List Char} (h : Decimal.IsNumeral numeral m k) (hm : m < 10 ^ 7)
    (hk : k ≤ 5) : number? numeral = some (Decimal.nearest m (-k)) := by
  rw [number?,h.isWord.trim,Decimal.read?_of_isNumeral h]
  rcases Nat.eq_zero_or_pos m with rfl | hpos
  · rw [Decimal.nearest_of_zero]
    rfl
  · obtain ⟨t,hvalue,-⟩ := Decimal.exists_value hpos hm hk
    simp only [hvalue.isFinite,decide_eq_false hvalue.not_lt_zero]
    rfl

theorem parse_percent {numeral : List Char} (h : Decimal.IsNumeral numeral m k) (hm : m < 10 ^ 7)
    (hk : k ≤ 5) : parse (String.ofList (numeral ++ ['%'])) = .ok (share (percent m k)) := by
  have hword : Text.IsWord (numeral ++ ['%']) := by
    refine ⟨by simp,fun c hc => ?_⟩
    rcases List.mem_append.mp hc with hc | hc
    · exact h.isWord.2 c hc
    · rw [List.mem_singleton.mp hc]
      rfl
  rw [parse,String.toList_ofList,read?,hword.trim]
  simp only [Text.beforeEnd?_append,number?_of_isNumeral h hm hk]
  rfl

/-! ## Verdicts -/

section Verdict
variable {baseline growth : Size}

theorem hasValue_percent (hpos : 0 < m) (hm : m < 10 ^ 7) (hk : k ≤ 5) :
    ∃ t : ℚ, HasValue (percent m k) t 264 ∧
      (2 ^ 53 - 1) * ((2 ^ 53 - 1) * (m / (100 * 10 ^ k))) ≤ 2 ^ 53 * (2 ^ 53 * t) ∧
      2 ^ 53 * (2 ^ 53 * t) ≤ (2 ^ 53 + 1) * ((2 ^ 53 + 1) * (m / (100 * 10 ^ k))) := by
  obtain ⟨t,hvalue,hbelow,habove⟩ := Decimal.exists_value hpos hm hk
  have hhundred : HasValue 100.0 100 52 := HasValue.toFloat (n := 100) (by decide) (by decide)
  obtain ⟨s,hshare,hbelow',habove'⟩ := hvalue.exists_div hhundred (by decide)
  have hscale : (m : ℚ) / (100 * 10 ^ k) = m / 10 ^ k / 100 := by ring
  refine ⟨s,hshare,?_,?_⟩
  · rw [hscale]
    linarith
  · rw [hscale]
    linarith

theorem hasValue_growth (hb : 0 < baseline.toNat) (hg : 0 < growth.toNat)
    (hb' : baseline.toNat ≤ 2 ^ 40) (hg' : growth.toNat ≤ 2 ^ 40) :
    ∃ t : ℚ, HasValue (growth.toFloat / baseline.toFloat) t 158 ∧
      (2 ^ 53 - 1) * (growth.toNat / baseline.toNat : ℚ) ≤ 2 ^ 53 * t ∧
      2 ^ 53 * t ≤ (2 ^ 53 + 1) * (growth.toNat / baseline.toNat : ℚ) := by
  have hgrowth := HasValue.toFloat hg (by omega)
  have hbaseline := HasValue.toFloat hb (by omega)
  exact hgrowth.exists_div hbaseline (by decide)

theorem div_lt_div_of_clear (hb : 0 < baseline.toNat)
    (h : m * baseline.toNat * (2 ^ 51 + 1) < 100 * growth.toNat * 10 ^ k * 2 ^ 51) :
    (m / (100 * 10 ^ k) : ℚ) * (2 ^ 51 + 1) < growth.toNat / baseline.toNat * 2 ^ 51 := by
  have hcast : (m : ℚ) * baseline.toNat * (2 ^ 51 + 1) < 100 * growth.toNat * 10 ^ k * 2 ^ 51 := by
    exact_mod_cast h
  rw [div_mul_eq_mul_div,div_mul_eq_mul_div,div_lt_div_iff₀ (by positivity) (by positivity)]
  linarith

theorem div_le_div_of_clear (hb : 0 < baseline.toNat)
    (h : 100 * growth.toNat * 10 ^ k * (2 ^ 51 + 1) ≤ m * baseline.toNat * 2 ^ 51) :
    (growth.toNat / baseline.toNat : ℚ) * (2 ^ 51 + 1) ≤ m / (100 * 10 ^ k) * 2 ^ 51 := by
  have hcast : (100 : ℚ) * growth.toNat * 10 ^ k * (2 ^ 51 + 1) ≤ m * baseline.toNat * 2 ^ 51 := by
    exact_mod_cast h
  rw [div_mul_eq_mul_div,div_mul_eq_mul_div,div_le_div_iff₀ (by positivity) (by positivity)]
  linarith

theorem percent_lt_of_clear (hm : m < 10 ^ 7) (hk : k ≤ 5) (hb : 0 < baseline.toNat)
    (hg : 0 < growth.toNat) (hb' : baseline.toNat ≤ 2 ^ 40) (hg' : growth.toNat ≤ 2 ^ 40)
    (h : m * baseline.toNat * (2 ^ 51 + 1) < 100 * growth.toNat * 10 ^ k * 2 ^ 51) :
    percent m k < growth.toFloat / baseline.toFloat := by
  obtain ⟨t,hquotient,hbelow,-⟩ := hasValue_growth hb hg hb' hg'
  rcases Nat.eq_zero_or_pos m with rfl | hpos
  · rw [percent,Decimal.nearest_of_zero]
    exact hquotient.zero_lt
  · obtain ⟨s,hshare,-,habove⟩ := hasValue_percent hpos hm hk
    have hclear := div_lt_div_of_clear hb h
    have hpositive : (0 : ℚ) < m / (100 * 10 ^ k) := by positivity
    exact hshare.lt hquotient (by linarith)

theorem not_percent_lt_of_clear (hm : m < 10 ^ 7) (hk : k ≤ 5) (hb : 0 < baseline.toNat)
    (hg : 0 < growth.toNat) (hb' : baseline.toNat ≤ 2 ^ 40) (hg' : growth.toNat ≤ 2 ^ 40)
    (h : 100 * growth.toNat * 10 ^ k * (2 ^ 51 + 1) ≤ m * baseline.toNat * 2 ^ 51) :
    ¬percent m k < growth.toFloat / baseline.toFloat := by
  have hpos : 0 < m := by
    refine Nat.pos_of_ne_zero ?_
    rintro rfl
    have hpositive : 0 < 100 * growth.toNat * 10 ^ k * (2 ^ 51 + 1) := by positivity
    rw [Nat.zero_mul,Nat.zero_mul] at h
    omega
  obtain ⟨t,hquotient,-,habove⟩ := hasValue_growth hb hg hb' hg'
  obtain ⟨s,hshare,hbelow,-⟩ := hasValue_percent hpos hm hk
  have hclear := div_le_div_of_clear hb h
  have hpositive : (0 : ℚ) < growth.toNat / baseline.toNat := by positivity
  exact not_lt_of_le (hquotient.le hshare (by linarith))

/-- Rounded growth is on that side of the share, rounded at once, on which the growth is. -/
theorem nearest_share_bounds (hpos : 0 < m) (hm : m < 10 ^ 7) (hk : k ≤ 3) (hb : 0 < baseline.toNat)
    (hg : 0 < growth.toNat) (hb' : baseline.toNat ≤ 2 ^ 40) (hg' : growth.toNat ≤ 2 ^ 40) :
    (m * baseline.toNat ≤ 100 * growth.toNat * 10 ^ k →
      Decimal.nearest m (-(k + 2 : Nat)) ≤ growth.toFloat / baseline.toFloat) ∧
    (100 * growth.toNat * 10 ^ k ≤ m * baseline.toNat →
      growth.toFloat / baseline.toFloat ≤ Decimal.nearest m (-(k + 2 : Nat))) := by
  have hpower : 10 ^ (k + 2) < 2 ^ 53 :=
    Nat.lt_of_le_of_lt (Nat.pow_le_pow_right (by decide) (show k + 2 ≤ 5 by omega)) (by decide)
  have hwhole : HasValue m.toUInt64.toFloat m 52 := Decimal.hasValue_toUInt64 hpos (by omega)
  have hten : HasValue (10 ^ (k + 2)).toUInt64.toFloat (10 ^ (k + 2) : Nat) 52 :=
    Decimal.hasValue_toUInt64 (by positivity) hpower
  have hgrowth := HasValue.toFloat hg (by omega)
  have hbaseline := HasValue.toFloat hb (by omega)
  have hshare : 100 * growth.toNat * 10 ^ k = growth.toNat * 10 ^ (k + 2) := by ring
  rw [Decimal.nearest_neg hpos hm (by omega) (by omega),hshare]
  constructor
  · intro h
    refine hwhole.div_le_div hten hgrowth hbaseline (by decide) (by decide) ?_
    rw [div_le_div_iff₀ (by positivity) (by positivity)]
    exact_mod_cast h
  · intro h
    refine hgrowth.div_le_div hbaseline hwhole hten (by decide) (by decide) ?_
    rw [div_le_div_iff₀ (by positivity) (by positivity)]
    exact_mod_cast h

theorem percent_lt_of_slips (hm : m < 10 ^ 7) (hk : k ≤ 3) (hb : 0 < baseline.toNat)
    (hg : 0 < growth.toNat) (hb' : baseline.toNat ≤ 2 ^ 40) (hg' : growth.toNat ≤ 2 ^ 40)
    (h : m * baseline.toNat ≤ 100 * growth.toNat * 10 ^ k) (hslips : Slips m k) :
    percent m k < growth.toFloat / baseline.toFloat := by
  have hbounds := nearest_share_bounds hslips.pos hm hk hb hg hb' hg'
  exact lt_of_lt_of_le hslips (hbounds.1 h)

theorem not_percent_lt_of_not_slips (hm : m < 10 ^ 7) (hk : k ≤ 3) (hb : 0 < baseline.toNat)
    (hg : 0 < growth.toNat) (hb' : baseline.toNat ≤ 2 ^ 40) (hg' : growth.toNat ≤ 2 ^ 40)
    (h : 100 * growth.toNat * 10 ^ k ≤ m * baseline.toNat) (hslips : ¬Slips m k) :
    ¬percent m k < growth.toFloat / baseline.toFloat := by
  have hpos : 0 < m := by
    have hpositive : 0 < 100 * growth.toNat * 10 ^ k := by positivity
    exact Nat.pos_of_mul_pos_right (hpositive.trans_le h)
  have hbounds := nearest_share_bounds hpos hm hk hb hg hb' hg'
  exact fun hlt => hslips (lt_of_lt_of_le hlt (hbounds.2 h))

/-- A percentage without a point is rounded once only. -/
theorem not_slips_zero (hm : m < 10 ^ 7) : ¬Slips m 0 := by
  intro hslips
  have hpos := hslips.pos
  have hhundred : HasValue 100.0 100 52 := HasValue.toFloat (n := 100) (by decide) (by decide)
  have hten : HasValue (10 ^ 2).toUInt64.toFloat (10 ^ 2 : Nat) 52 :=
    Decimal.hasValue_toUInt64 (by decide) (by decide)
  have hwhole : HasValue m.toUInt64.toFloat m 52 := Decimal.hasValue_toUInt64 hpos (by omega)
  rw [Slips,Decimal.nearest_neg hpos hm (by decide) (by decide)] at hslips
  refine not_lt_of_le (hwhole.div_le_div hten (Decimal.hasValue_whole hpos hm) hhundred (by decide)
    (by decide) ?_) hslips
  norm_num

end Verdict

/-- How a percentage judges growth. Growth that is clearly above or below the share is judged by the exact
numbers. A percentage that slips lets no growth of the share or more pass, and one that does not slip lets
all growth up to the share pass. -/
structure Judges (digits places : Nat) (baseline growth : Size) : Prop where
  of_above : digits * baseline.toNat * (2 ^ 51 + 1) < 100 * growth.toNat * 10 ^ places * 2 ^ 51 →
    (share (percent digits places)).isExceeded baseline growth = true
  of_below : 100 * growth.toNat * 10 ^ places * (2 ^ 51 + 1) ≤ digits * baseline.toNat * 2 ^ 51 →
    (share (percent digits places)).isExceeded baseline growth = false
  of_slips : digits * baseline.toNat ≤ 100 * growth.toNat * 10 ^ places → Slips digits places →
    (share (percent digits places)).isExceeded baseline growth = true
  of_not_slips : 100 * growth.toNat * 10 ^ places ≤ digits * baseline.toNat → ¬Slips digits places →
    (share (percent digits places)).isExceeded baseline growth = false

section Judged
variable {baseline growth : Size}

theorem judges_zero (hb : 0 < baseline.toNat) : Judges m k baseline 0 := by
  have hnone : (share (percent m k)).isExceeded baseline 0 = false := rfl
  have hzero : 100 * (0 : Size).toNat * 10 ^ k = 0 := Nat.zero_mul _
  refine ⟨fun h => ?_,fun _ => hnone,fun h hslips => ?_,fun _ _ => hnone⟩
  · rw [hzero,Nat.zero_mul] at h
    exact absurd h (Nat.not_lt_zero _)
  · rw [hzero] at h
    exact absurd (Nat.mul_pos hslips.pos hb) (Nat.not_lt.mpr h)

theorem judges (hm : m < 10 ^ 7) (hk : k ≤ 3) (hb : 0 < baseline.toNat) (hb' : baseline.toNat ≤ 2 ^ 40)
    (hg' : growth.toNat ≤ 2 ^ 40) : Judges m k baseline growth := by
  by_cases hgrowth : growth = 0
  · exact hgrowth ▸ judges_zero hb
  have hg : 0 < growth.toNat := toNat_pos_iff.mpr hgrowth
  have hbaseline : baseline ≠ 0 := toNat_pos_iff.mp hb
  have hiff : (share (percent m k)).isExceeded baseline growth = true ↔
      percent m k < growth.toFloat / baseline.toFloat := by
    rw [isExceeded_share_iff,or_iff_right hbaseline,and_iff_right hgrowth]
  refine ⟨fun h => ?_,fun h => ?_,fun h hslips => ?_,fun h hslips => ?_⟩
  · exact hiff.mpr (percent_lt_of_clear hm (by omega) hb hg hb' hg' h)
  · rw [Bool.eq_false_iff,ne_eq,hiff]
    exact not_percent_lt_of_clear hm (by omega) hb hg hb' hg' h
  · exact hiff.mpr (percent_lt_of_slips hm hk hb hg hb' hg' h hslips)
  · rw [Bool.eq_false_iff,ne_eq,hiff]
    exact not_percent_lt_of_not_slips hm hk hb hg hb' hg' h hslips

/-- Growth in small numbers is clearly above or below the share unless it is just the share. -/
theorem Judges.iff_of_small (h : Judges m k baseline growth)
    (hsmall : 100 * growth.toNat * 10 ^ k ≤ 2 ^ 51) :
    (share (percent m k)).isExceeded baseline growth = true ↔
      m * baseline.toNat < 100 * growth.toNat * 10 ^ k ∨
        m * baseline.toNat = 100 * growth.toNat * 10 ^ k ∧ Slips m k := by
  rcases Nat.lt_trichotomy (m * baseline.toNat) (100 * growth.toNat * 10 ^ k) with hless | heq | hmore
  · exact iff_of_true (h.of_above (by omega)) (Or.inl hless)
  · by_cases hslips : Slips m k
    · exact iff_of_true (h.of_slips heq.le hslips) (Or.inr ⟨heq,hslips⟩)
    · rw [h.of_not_slips heq.ge hslips]
      simp [heq,hslips]
  · rw [h.of_below (by omega)]
    refine iff_of_false Bool.false_ne_true ?_
    rintro (hless | ⟨heq,-⟩) <;> omega

end Judged

/-- **Percentages are exact off the boundary:** every numeral is accepted, and growth exceeds the share if
and only if it does so in exact numbers, but for growth of just a share the rounding of which slips. -/
theorem isExceeded_percent {numeral : List Char} (h : Decimal.IsNumeral numeral m k) (hm : m ≤ 10 ^ 6)
    (hk : k ≤ 3) :
    parse (String.ofList (numeral ++ ['%'])) = .ok (share (percent m k)) ∧
      ∀ baseline growth : Size, 1 ≤ baseline.toNat → baseline.toNat ≤ 2 ^ 40 → growth.toNat ≤ 2 ^ 40 →
        Judges m k baseline growth ∧
        (k ≤ 1 ∨ 100 * growth.toNat * 10 ^ k ≤ 2 ^ 51 →
          ((share (percent m k)).isExceeded baseline growth = true ↔
            m * baseline.toNat < 100 * growth.toNat * 10 ^ k ∨
              m * baseline.toNat = 100 * growth.toNat * 10 ^ k ∧ Slips m k)) ∧
        (k = 0 → ((share (percent m k)).isExceeded baseline growth = true ↔
          m * baseline.toNat < 100 * growth.toNat)) := by
  have hdigits : m < 10 ^ 7 := by omega
  refine ⟨parse_percent h hdigits (by omega),fun baseline growth hb hb' hg' => ?_⟩
  have hjudges : Judges m k baseline growth := judges hdigits hk hb hb' hg'
  have hfew : k ≤ 1 → 100 * growth.toNat * 10 ^ k ≤ 2 ^ 51 := by
    intro hle
    have hpower : 10 ^ k ≤ 10 := Nat.pow_le_pow_right (by decide) hle
    calc 100 * growth.toNat * 10 ^ k ≤ 100 * 2 ^ 40 * 10 :=
          Nat.mul_le_mul (Nat.mul_le_mul_left _ hg') hpower
      _ ≤ 2 ^ 51 := by decide
  refine ⟨hjudges,fun hsmall => hjudges.iff_of_small (hsmall.elim hfew id),?_⟩
  rintro rfl
  rw [hjudges.iff_of_small (hfew (by decide)),Nat.pow_zero,Nat.mul_one]
  exact or_iff_left fun hequal => not_slips_zero hdigits hequal.2

/-- An eighth is read without loss. -/
theorem isExceeded_percent_eighth :
    Decimal.IsNumeral "12.5".toList 125 1 ∧
      parse (String.ofList ("12.5".toList ++ ['%'])) = .ok (share (percent 125 1)) ∧
      (share (percent 125 1)).isExceeded 1000 125 = false ∧
      (share (percent 125 1)).isExceeded 1000 126 = true := by
  have hnumeral : Decimal.IsNumeral "12.5".toList 125 1 :=
    ⟨['1','2'],['5'],0,rfl,Or.inr rfl,rfl⟩
  obtain ⟨hparse,hjudges⟩ := isExceeded_percent hnumeral (by decide) (by decide)
  have hequal := (hjudges 1000 125 (by decide) (by decide) (by decide)).2.1 (Or.inl (by decide))
  have hmore := (hjudges 1000 126 (by decide) (by decide) (by decide)).2.1 (Or.inl (by decide))
  refine ⟨hnumeral,hparse,?_,hmore.mpr (Or.inl (by decide))⟩
  rw [Bool.eq_false_iff,ne_eq,hequal]
  rintro (hless | ⟨-,hslips⟩)
  · exact absurd hless (by decide)
  · exact absurd hslips (by decide +kernel)

/-- Seven of a thousand exceed 0.7 percent. -/
theorem isExceeded_percent_slips :
    Decimal.IsNumeral "0.7".toList 7 1 ∧
      parse (String.ofList ("0.7".toList ++ ['%'])) = .ok (share (percent 7 1)) ∧
      ¬7 * (1000 : Size).toNat < 100 * (7 : Size).toNat * 10 ^ 1 ∧
      (share (percent 7 1)).isExceeded 1000 7 = true := by
  have hnumeral : Decimal.IsNumeral "0.7".toList 7 1 :=
    ⟨['0'],['7'],1,rfl,Or.inr rfl,rfl⟩
  exact ⟨hnumeral,parse_percent hnumeral (by decide) (by decide),by decide,by decide +kernel⟩

end Percent

end Threshold

end SizeSurvey
