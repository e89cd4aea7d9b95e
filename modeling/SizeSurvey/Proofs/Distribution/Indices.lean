import SizeSurvey.Proofs.Distribution.Interpolation
import SizeSurvey.Proofs.Rounding.Overflow

/-! # Indices of percentiles

Any floating point number may stand for a share: one outside the unit interval, an infinity, or what
is no number. None of the indices that are computed from it leaves a sample, as long as the number of
samples has 53 bits.
-/
namespace SizeSurvey.Percentile
open Rounding Float.Model

/-! ## Shares -/

theorem hasValue_one : HasValue 1.0 1 52 := by
  have hunit := unit_eq
  refine ⟨2 ^ 52,unit - 52,⟨⟨by decide,by decide⟩,by decide,rfl⟩,by omega,by omega,?_⟩
  rw [one_mul,Nat.cast_pow,Nat.cast_ofNat,← pow_add,Nat.add_sub_cancel' (by omega)]

/-- What a share is brought to: no number, an amount up to one, or a number that is so small that its
mantissa may be short of bits. -/
inductive IsClamped (x : Float) : Prop
  | undefined (h : x.toModel.unpack = .notANumber)
  | amount {q : ℚ} (h : HasAmount x q 200) (hle : q ≤ 1)
  | small {m : Nat} {e : Int} {hm : 0 < m} (h : x.toModel.unpack = .finite .positive m e hm)
      (he : e < -200)

theorem not_lt_clampUnit (p : Float) : ¬clampUnit p < 0.0 ∧ ¬1.0 < clampUnit p := by
  unfold clampUnit
  split_ifs with hlow hhigh
  · exact ⟨by decide,by decide⟩
  · exact ⟨by decide,by decide⟩
  · exact ⟨hlow,hhigh⟩

section Clamped
variable {x : Float}

theorem exists_part {m : Nat} {e : Int} {hm : 0 < m} (hx : x.toModel.unpack = .finite .positive m e hm)
    (he : -200 ≤ e) (htop : ¬1.0 < x) : ∃ q, HasValue x q 200 ∧ q ≤ 1 := by
  have hunit := unit_eq
  have hunpacked := isUnpacked_of_unpack hx
  obtain ⟨c,hc⟩ := Int.eq_ofNat_of_zero_le (show 0 ≤ e + unit by omega)
  obtain rfl : e = c - unit := by omega
  have hnormal : IsNormal m := ⟨hunpacked.normal_or.resolve_right (by omega),hunpacked.lt⟩
  have hmeasures : Measures x m c := ⟨hnormal,hm,hx⟩
  have hone : Measures 1.0 (2 ^ 52) (unit - 52) := ⟨⟨by decide,by decide⟩,by decide,rfl⟩
  have hexponent := hnormal.exponent_le hone.normal (not_lt.mp (mt (hone.lt hmeasures) htop))
  have hvalue : HasValue x (m * 2 ^ c / 2 ^ unit) 200 :=
    ⟨m,c,hmeasures,by omega,by omega,by field_simp⟩
  exact ⟨_,hvalue,not_lt.mp (mt (hasValue_one.lt hvalue) htop)⟩

theorem isClamped_of_not_lt (hlow : ¬x < 0.0) (hhigh : ¬1.0 < x) : IsClamped x := by
  match hx : x.toModel.unpack with
  | .notANumber => exact .undefined hx
  | .zero s => exact .amount (.of_unpack_zero hx) zero_le_one
  | .infinity .positive =>
    refine absurd (lt_iff_rank.mpr ⟨_,_,rfl,congrArg Rounding.rank hx,?_⟩) hhigh
    exact Prod.Lex.toLex_lt_toLex.mpr (Or.inl (show (1 : Int) < 2 by decide))
  | .infinity .negative =>
    refine absurd (lt_iff_rank.mpr ⟨_,_,congrArg Rounding.rank hx,rfl,?_⟩) hlow
    exact Prod.Lex.toLex_lt_toLex.mpr (Or.inl (show (-2 : Int) < 0 by decide))
  | .finite .negative m e hm =>
    refine absurd (lt_iff_rank.mpr ⟨_,_,congrArg Rounding.rank hx,rfl,?_⟩) hlow
    exact Prod.Lex.toLex_lt_toLex.mpr (Or.inl (show (-1 : Int) < 0 by decide))
  | .finite .positive m e hm =>
    rcases lt_or_ge e (-200) with hsmall | hlarge
    · exact .small hx hsmall
    · obtain ⟨q,hq,hle⟩ := exists_part hx hlarge hhigh
      exact .amount (Or.inr hq) hle

theorem isClamped_clampUnit (p : Float) : IsClamped (clampUnit p) :=
  isClamped_of_not_lt (not_lt_clampUnit p).1 (not_lt_clampUnit p).2

theorem lt_of_small {m : Nat} {e : Int} {hm : 0 < m} (hx : x.toModel.unpack = .finite .positive m e hm)
    (he : e < -200) : 0.0 < x ∧ x < 1.0 := by
  constructor
  · refine lt_iff_rank.mpr ⟨_,_,rfl,congrArg Rounding.rank hx,?_⟩
    exact Prod.Lex.toLex_lt_toLex.mpr (Or.inl Int.one_pos)
  · refine lt_iff_rank.mpr ⟨_,_,congrArg Rounding.rank hx,rfl,?_⟩
    refine Prod.Lex.toLex_lt_toLex.mpr (Or.inr ⟨rfl,Prod.Lex.toLex_lt_toLex.mpr (Or.inl ?_)⟩)
    exact he.trans (by decide)

theorem not_le_of_undefined {y : Float} (h : x.toModel.unpack = .notANumber) : ¬x ≤ y ∧ ¬y ≤ x := by
  rw [le_iff_rank,le_iff_rank,h]
  simp [Rounding.rank]

theorem IsClamped.eq_zero (h : IsClamped x) (hle : x ≤ 0.0) : HasAmount x 0 200 := by
  cases h with
  | undefined h => exact absurd hle (not_le_of_undefined h).1
  | amount h =>
    rcases h with ⟨-,s,hzero⟩ | hvalue
    · exact .of_unpack_zero hzero
    · exact absurd hvalue.zero_lt (not_lt_of_le hle)
  | small h he => exact absurd (lt_of_small h he).1 (not_lt_of_le hle)

theorem IsClamped.eq_one (h : IsClamped x) (hle : 1.0 ≤ x) : HasAmount x 1 200 := by
  cases h with
  | undefined h => exact absurd hle (not_le_of_undefined h).2
  | amount h hq =>
    rcases hq.lt_or_eq with hlt | rfl
    · exact absurd (h.lt (Or.inr hasValue_one) hlt) (not_lt_of_le hle)
    · exact h
  | small h he => exact absurd (lt_of_small h he).2 (not_lt_of_le hle)

end Clamped

theorem clampUnit_of_le_zero {p : Float} (h : p ≤ 0.0) : HasAmount (clampUnit p) 0 200 := by
  refine (isClamped_clampUnit p).eq_zero ?_
  unfold clampUnit
  split_ifs with hlow hhigh
  · decide
  · exact absurd (lt_of_lt_of_le hhigh h) (by decide)
  · exact h

theorem clampUnit_of_one_le {p : Float} (h : 1.0 ≤ p) : HasAmount (clampUnit p) 1 200 := by
  refine (isClamped_clampUnit p).eq_one ?_
  unfold clampUnit
  split_ifs with hlow hhigh
  · exact absurd (lt_of_le_of_lt h hlow) (by decide)
  · decide
  · exact h

/-! ## Indices around a rank -/

/-- The index below a rank and the one above it are not greater than `n`. -/
structure IsWithin (n : UInt64) (rank : Float) : Prop where
  floor_le : floorIndex rank ≤ n
  not_lt : ¬n.toFloat < rank

section Within
variable {n : UInt64} {x : Float}

theorem isWithin_of_undefined (h : x.toModel.unpack = .notANumber) : IsWithin n x := by
  constructor
  · have hzero : floorIndex x = 0 := by
      change UnpackedFloat.toUInt64 x.toModel.unpack = 0
      rw [h]
      rfl
    rw [hzero]
    exact UInt64.zero_le
  · rw [lt_iff_rank,h]
    simp [Rounding.rank]

theorem isWithin_of_hasAmount {t : ℚ} {r : Nat} (hn : n.toNat < 2 ^ 53) (h : HasAmount x t r)
    (hle : t ≤ n.toNat) : IsWithin n x := by
  constructor
  · rw [UInt64.le_iff_toNat_le,floorIndex,h.toNat_toUInt64]
    exact (Nat.min_le_left ..).trans (Nat.floor_le_of_le hle)
  · exact not_lt_of_le (h.le (.toFloat hn) hle)

theorem isWithin_of_isFraction (hn : 0 < n.toNat) (h : IsFraction x) : IsWithin n x := by
  refine ⟨?_,h.not_toFloat_lt hn⟩
  rw [floorIndex,h.toUInt64_eq]
  exact UInt64.zero_le

theorem unpack_mul_undefined (h : x.toModel.unpack = .notANumber) (y : Float) :
    (y * x).toModel.unpack = .notANumber := by
  have hproduct : UnpackedFloat.mul Format.binary64 y.toModel.unpack .notANumber = .notANumber := by
    cases y.toModel.unpack <;> rfl
  rw [unpack_mul,h,hproduct]
  rfl

/-- **A share of the last index is within the indices.** -/
theorem IsClamped.isWithin (h : IsClamped x) (hn : n.toNat < 2 ^ 53) : IsWithin n (n.toFloat * x) := by
  have hsize : HasAmount n.toFloat n.toNat 52 := .toFloat hn
  cases h with
  | undefined h => exact isWithin_of_undefined (unpack_mul_undefined h _)
  | amount h hle =>
    -- The exact product is not above the last index, which is a number of 53 bits.
    obtain ⟨t,ht,hnearest⟩ := hsize.exists_mul h (by omega)
    refine isWithin_of_hasAmount hn ht (hnearest.mono (HasAmount.isNearest_natCast hn) ?_)
    exact mul_le_of_le_one_right (Nat.cast_nonneg _) hle
  | small h he =>
    rcases Nat.eq_zero_or_pos n.toNat with hzero | hpos
    · obtain rfl : n = 0 := UInt64.toNat_inj.mp hzero
      have hproduct : ((0 : UInt64).toFloat * x).toModel.unpack = .zero (.positive * .positive) := by
        rw [unpack_mul,h]
        exact unpack_pack_zero _
      exact isWithin_of_hasAmount hn (.of_unpack_zero (r := 0) hproduct) (Nat.cast_nonneg _)
    · obtain ⟨k,c,hmeasures,-,hhigh,-⟩ := exists_roundsTo_toFloat hpos
      obtain ⟨hk,hunpack⟩ := hmeasures.unpack
      exact isWithin_of_isFraction hpos (.mul hunpack h (by omega))

theorem indices_of_whole {k r : Nat} (hk : k < 2 ^ 53) (hrange : r ≤ 800) (hx : HasAmount x k r) :
    (floorIndex x).toNat = k ∧ ceilIndex x = floorIndex x ∧ nearestIndex x = floorIndex x := by
  have hfloor : (floorIndex x).toNat = k := by
    rw [floorIndex,hx.toNat_toUInt64,Nat.floor_natCast]
    exact Nat.min_eq_left (hk.le.trans (by decide))
  have hwhole : HasAmount (floorIndex x).toFloat k (max r 52) := by
    have hamount : HasAmount (floorIndex x).toFloat (floorIndex x).toNat 52 := .toFloat (hfloor ▸ hk)
    rw [hfloor] at hamount
    exact hamount.mono (Nat.le_max_right ..)
  refine ⟨hfloor,if_neg (not_lt_of_le (hx.le hwhole le_rfl)),?_⟩
  -- Nothing is left of the rank above the index below it.
  obtain ⟨t,ht,hnearest⟩ := (hx.mono (Nat.le_max_left r 52)).exists_sub hwhole le_rfl (by omega)
  rw [sub_self] at hnearest
  obtain rfl := isNearest_zero.unique hnearest
  obtain ⟨-,s,hzero⟩ | hvalue := ht
  · have habove : ¬0.5 < x - (floorIndex x).toFloat := by
      rw [lt_iff_rank,hzero]
      rintro ⟨p,q,hp,hq,hlt⟩
      cases hp
      cases hq
      exact absurd hlt (by decide)
    have hhalf : (x - (floorIndex x).toFloat == 0.5) = false := by
      change UnpackedFloat.beq (x - (floorIndex x).toFloat).toModel.unpack _ = false
      rw [hzero]
      rfl
    simp [nearestIndex,habove,hhalf]
  · exact absurd hvalue.pos (lt_irrefl 0)

end Within

/-! ## Ranks of a sample -/

section Ranks
variable {count : Nat} {p : Float}

theorem toNat_last (hcount : count ≤ 2 ^ 53) (hpos : 0 < count) :
    (UInt64.ofNat (count - 1)).toNat = count - 1 ∧ (UInt64.ofNat (count - 1)).toNat < 2 ^ 53 := by
  have hlast : (UInt64.ofNat (count - 1)).toNat = count - 1 :=
    UInt64.toNat_ofNat_of_lt' (by rw [UInt64.size]; omega)
  exact ⟨hlast,by omega⟩

theorem indices_lt (hcount : count ≤ 2 ^ 53) (hpos : 0 < count) :
    (floorIndex (rank count p)).toNat < count ∧ (ceilIndex (rank count p)).toNat < count := by
  obtain ⟨hlast,hbits⟩ := toNat_last hcount hpos
  obtain ⟨hfloor,hnot⟩ := (isClamped_clampUnit p).isWithin hbits
  have hceil := ceilIndex_le hfloor hnot
  rw [UInt64.le_iff_toNat_le,hlast] at hfloor hceil
  exact ⟨Nat.lt_of_le_of_lt hfloor (Nat.sub_lt hpos Nat.one_pos),
    Nat.lt_of_le_of_lt hceil (Nat.sub_lt hpos Nat.one_pos)⟩

theorem hasAmount_rank {q : ℚ} {k : Nat} (hcount : count ≤ 2 ^ 53) (hpos : 0 < count)
    (hp : HasAmount (clampUnit p) q 200) (hk : k < 2 ^ 53) (hexact : ((count - 1 : Nat) : ℚ) * q = k) :
    HasAmount (rank count p) k 306 := by
  obtain ⟨hlast,hbits⟩ := toNat_last hcount hpos
  have hsize : HasAmount (UInt64.ofNat (count - 1)).toFloat (UInt64.ofNat (count - 1)).toNat 52 :=
    .toFloat hbits
  rw [hlast] at hsize
  obtain ⟨t,ht,hnearest⟩ := hsize.exists_mul hp (by omega)
  rw [hexact] at hnearest
  exact (HasAmount.isNearest_natCast hk).unique hnearest ▸ ht

theorem indices_first (hcount : count ≤ 2 ^ 53) (hpos : 0 < count) (hp : p ≤ 0.0) :
    (floorIndex (rank count p)).toNat = 0 ∧ ceilIndex (rank count p) = floorIndex (rank count p) ∧
      nearestIndex (rank count p) = floorIndex (rank count p) := by
  have hzero : ((count - 1 : Nat) : ℚ) * 0 = (0 : Nat) := by rw [mul_zero,Nat.cast_zero]
  have hrank := hasAmount_rank hcount hpos (clampUnit_of_le_zero hp) (by decide) hzero
  exact indices_of_whole (by decide) (by decide) hrank

theorem indices_last (hcount : count ≤ 2 ^ 53) (hpos : 0 < count) (hp : 1.0 ≤ p) :
    (floorIndex (rank count p)).toNat = count - 1 ∧
      ceilIndex (rank count p) = floorIndex (rank count p) ∧
      nearestIndex (rank count p) = floorIndex (rank count p) := by
  have hlast : count - 1 < 2 ^ 53 := by omega
  have hrank := hasAmount_rank hcount hpos (clampUnit_of_one_le hp) hlast (mul_one _)
  exact indices_of_whole hlast (by decide) hrank

end Ranks

/-! ## Samples that are read -/

/-- The nearest percentile of any share is a sample, and the shares from zero down and from one up
have the samples at the ends. -/
structure PicksSample {α : Type} (sorted : List α) (p : Float) : Prop where
  none_iff : nearest sorted p = none ↔ sorted = []
  mem : ∀ x, nearest sorted p = some x → x ∈ sorted
  first : p ≤ 0.0 → nearest sorted p = sorted.head?
  last : 1.0 ≤ p → nearest sorted p = sorted.getLast?

/-- What is interpolated between the samples at the indices around a rank. -/
def between (low high : UInt64) (rank : Float) : Float :=
  if floorIndex rank = ceilIndex rank then low.toFloat
  else low.toFloat + (high.toFloat - low.toFloat) * (rank - (floorIndex rank).toFloat)

/-- The interpolated percentile of any share reads two samples that are there, and the shares from zero
down and from one up have the samples at the ends. -/
structure ReadsSamples (sorted : List UInt64) (p : Float) : Prop where
  none_iff : interpolated sorted p = none ↔ sorted = []
  reads : sorted ≠ [] →
    ∃ (_ : (floorIndex (rank sorted.length p)).toNat < sorted.length)
      (_ : (ceilIndex (rank sorted.length p)).toNat < sorted.length),
      interpolated sorted p = some (between sorted[(floorIndex (rank sorted.length p)).toNat]
        sorted[(ceilIndex (rank sorted.length p)).toNat] (rank sorted.length p))
  first : p ≤ 0.0 → interpolated sorted p = sorted.head?.map UInt64.toFloat
  last : 1.0 ≤ p → interpolated sorted p = sorted.getLast?.map UInt64.toFloat

section Samples
variable {α : Type} {p : Float}

theorem nearest_eq {sorted : List α} (hne : sorted ≠ []) :
    nearest sorted p =
      sorted[min (nearestIndex (rank sorted.length p)).toNat (sorted.length - 1)]? := by
  obtain _ | ⟨only,_ | ⟨second,rest⟩⟩ := sorted
  · exact absurd rfl hne
  · simp [nearest]
  · rfl

theorem picksSample {sorted : List α} (hlength : sorted.length ≤ 2 ^ 53) : PicksSample sorted p := by
  rcases eq_or_ne sorted [] with rfl | hne
  · exact ⟨iff_of_true rfl rfl,nofun,fun _ => rfl,fun _ => rfl⟩
  have hpos := List.length_pos_iff.mpr hne
  have hread := nearest_eq (p := p) hne
  have hinside : min (nearestIndex (rank sorted.length p)).toNat (sorted.length - 1) <
      sorted.length := by omega
  refine ⟨?_,?_,?_,?_⟩
  · rw [hread,List.getElem?_eq_getElem hinside]
    exact iff_of_false (Option.some_ne_none _) hne
  · intro x hx
    exact List.mem_of_getElem? (hread.symm.trans hx)
  · intro hp
    obtain ⟨hfloor,-,hnearest⟩ := indices_first hlength hpos hp
    rw [hread,hnearest,hfloor,Nat.zero_min,List.head?_eq_getElem?]
  · intro hp
    obtain ⟨hfloor,-,hnearest⟩ := indices_last hlength hpos hp
    rw [hread,hnearest,hfloor,Nat.min_self,List.getLast?_eq_getElem?]

theorem interpolated_eq {sorted : List UInt64}
    (hlower : (floorIndex (rank sorted.length p)).toNat < sorted.length)
    (hupper : (ceilIndex (rank sorted.length p)).toNat < sorted.length) :
    interpolated sorted p = some (between sorted[(floorIndex (rank sorted.length p)).toNat]
      sorted[(ceilIndex (rank sorted.length p)).toNat] (rank sorted.length p)) := by
  unfold between
  obtain _ | ⟨only,_ | ⟨second,rest⟩⟩ := sorted
  · exact absurd hlower (Nat.not_lt_zero _)
  · -- Both indices of a single sample are zero.
    have hfirst : ∀ i : UInt64, i.toNat < [only].length → i = 0 := fun i hi =>
      UInt64.toNat_inj.mp (Nat.lt_one_iff.mp hi)
    simp only [interpolated,hfirst _ hlower,hfirst _ hupper]
    rfl
  · simp only [interpolated,List.getElem?_eq_getElem hlower,List.getElem?_eq_getElem hupper]
    split_ifs <;> rfl

theorem readsSamples {sorted : List UInt64} (hlength : sorted.length ≤ 2 ^ 53) :
    ReadsSamples sorted p := by
  rcases eq_or_ne sorted [] with rfl | hne
  · exact ⟨iff_of_true rfl rfl,fun h => absurd rfl h,fun _ => rfl,fun _ => rfl⟩
  have hpos := List.length_pos_iff.mpr hne
  obtain ⟨hlower,hupper⟩ := indices_lt (p := p) hlength hpos
  have hread := interpolated_eq hlower hupper
  refine ⟨?_,fun _ => ⟨hlower,hupper,hread⟩,?_,?_⟩
  · rw [hread]
    exact iff_of_false (Option.some_ne_none _) hne
  · intro hp
    obtain ⟨hfloor,hceil,-⟩ := indices_first hlength hpos hp
    rw [hread,between,if_pos hceil.symm,List.head?_eq_getElem?,← hfloor,List.getElem?_eq_getElem hlower]
    rfl
  · intro hp
    obtain ⟨hfloor,hceil,-⟩ := indices_last hlength hpos hp
    rw [hread,between,if_pos hceil.symm,List.getLast?_eq_getElem?,← hfloor,List.getElem?_eq_getElem hlower]
    rfl

/-- **No percentile leaves the sample**, whatever number stands for the share. -/
theorem indices_stay_inside (samples : List α) (sorted : List UInt64) (p : Float)
    (hsamples : samples.length ≤ 2 ^ 53) (hsorted : sorted.length ≤ 2 ^ 53) :
    PicksSample samples p ∧ ReadsSamples sorted p :=
  ⟨picksSample hsamples,readsSamples hsorted⟩

end Samples

theorem indices_stay_inside_above : [3,7,8].length ≤ 2 ^ 53 ∧ [(10 : UInt64),20].length ≤ 2 ^ 53 ∧
    nearest [3,7,8] 1.5 = some 8 ∧ interpolated [10,20] 1.5 = some (20 : UInt64).toFloat := by
  have hsamples : [3,7,8].length ≤ 2 ^ 53 := by decide
  have hsorted : [(10 : UInt64),20].length ≤ 2 ^ 53 := by decide
  obtain ⟨hpicks,hreads⟩ := indices_stay_inside [3,7,8] [10,20] 1.5 hsamples hsorted
  exact ⟨hsamples,hsorted,hpicks.last (by decide),hreads.last (by decide)⟩

end SizeSurvey.Percentile
