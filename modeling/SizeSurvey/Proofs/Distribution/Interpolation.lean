import SizeSurvey.Proofs.Distribution.Percentile
import SizeSurvey.Proofs.Rounding.Sums

/-! # Order of percentiles

Each step of an interpolation is rounded. Still an estimate never leaves the two samples around its
rank, because the weight of the upper one is never too near to one, and so a larger share never has
a smaller percentile.
-/
namespace SizeSurvey.Percentile
open Rounding

/-! ## Between two levels -/

/-- What the interpolation between two levels gives, with each step rounded. -/
def Interpolates (low high weight estimate : ℚ) : Prop :=
  ∃ difference product, IsNearest (high - low) difference ∧
    IsNearest (difference * weight) product ∧ IsNearest (low + product) estimate

section Interpolates
variable {low high weight heavier s t : ℚ}

theorem Interpolates.low_le (h : Interpolates low high weight t) (hlow : IsNearest low low) :
    low ≤ t := by
  obtain ⟨difference,product,-,hproduct,ht⟩ := h
  exact hlow.mono ht (le_add_of_nonneg_right hproduct.nonneg.2)

theorem Interpolates.mono (h : Interpolates low high weight s) (h' : Interpolates low high heavier t)
    (hle : weight ≤ heavier) : s ≤ t := by
  obtain ⟨difference,product,hdifference,hproduct,hs⟩ := h
  obtain ⟨difference',product',hdifference',hproduct',ht⟩ := h'
  obtain rfl := hdifference.unique hdifference'
  have hproducts := hproduct.mono hproduct'
    (mul_le_mul_of_nonneg_left hle hdifference.nonneg.2)
  exact hs.mono ht (add_le_add_right hproducts low)

/-- Both roundings may lift the product, by less than the weight falls short of one. -/
theorem Interpolates.le_high (h : Interpolates low high weight t) (hhigh : IsNearest high high)
    (hweight : 2 ^ 52 * weight ≤ 2 ^ 52 - 1) : t ≤ high := by
  obtain ⟨difference,product,hdifference,hproduct,ht⟩ := h
  obtain ⟨hgap,hpositive⟩ := hdifference.nonneg
  have hdifference := hdifference.le_error
  have hproduct := hproduct.le_error
  have hbound : product ≤ high - low := by
    refine le_of_mul_le_mul_left ?_ (by positivity : (0 : ℚ) < 2 ^ 53 * 2 ^ 53 * 2 ^ 52)
    calc 2 ^ 53 * 2 ^ 53 * 2 ^ 52 * product = 2 ^ 53 * 2 ^ 52 * (2 ^ 53 * product) := by ring
      _ ≤ 2 ^ 53 * 2 ^ 52 * ((2 ^ 53 + 1) * (difference * weight)) := by gcongr
      _ = (2 ^ 53 + 1) * (2 ^ 53 * difference) * (2 ^ 52 * weight) := by ring
      _ ≤ (2 ^ 53 + 1) * (2 ^ 53 * difference) * (2 ^ 52 - 1) := by gcongr
      _ ≤ (2 ^ 53 + 1) * ((2 ^ 53 + 1) * (high - low)) * (2 ^ 52 - 1) := by
        gcongr
      _ = (2 ^ 53 + 1) ^ 2 * (2 ^ 52 - 1) * (high - low) := by ring
      _ ≤ 2 ^ 53 * 2 ^ 53 * 2 ^ 52 * (high - low) :=
        mul_le_mul_of_nonneg_right (by norm_num) hgap
  exact ht.mono hhigh (by linarith)

end Interpolates

/-- Between levels that are numbers of 53 bits, nothing is added for the weight zero. -/
theorem interpolates_zero {x y : Float} {low high : ℚ} (hlow : HasAmount x low 52)
    (hhigh : HasAmount y high 52) (hle : low ≤ high) : Interpolates low high 0 low := by
  obtain ⟨difference,-,hdifference⟩ := hhigh.exists_sub hlow hle (by omega)
  refine ⟨difference,0,hdifference,?_,?_⟩
  · rw [mul_zero]
    exact isNearest_zero
  · rw [add_zero]
    exact hlow.isNearest

/-! ## Levels -/

/-- The value of a size as a floating point number. -/
noncomputable def level (size : UInt64) : ℚ := (HasAmount.exists_toFloat size).choose

theorem hasAmount_level (size : UInt64) : HasAmount size.toFloat (level size) 52 :=
  (HasAmount.exists_toFloat size).choose_spec.1

theorem isNearest_level (size : UInt64) : IsNearest size.toNat (level size) :=
  (HasAmount.exists_toFloat size).choose_spec.2

theorem level_mono {a b : UInt64} (h : a ≤ b) : level a ≤ level b :=
  (isNearest_level a).mono (isNearest_level b) (by exact_mod_cast UInt64.le_iff_toNat_le.mp h)

theorem level_of_toNat {size : UInt64} {n : Nat} (h : size.toNat = n) (hn : n < 2 ^ 53) :
    level size = n := by
  have hexact := (HasAmount.toFloat (h ▸ hn)).isNearest
  rw [← h]
  exact (isNearest_level size).unique hexact

/-- The sample of a rank, or the last one if the rank is too large. -/
def sampleAt (sorted : List UInt64) (k : Nat) : UInt64 :=
  sorted.getD (min k (sorted.length - 1)) 0

section Samples
variable {sorted : List UInt64}

theorem getElem?_eq_sampleAt {k : Nat} (h : k < sorted.length) :
    sorted[k]? = some (sampleAt sorted k) := by
  rw [sampleAt,Nat.min_eq_left (Nat.le_sub_one_of_lt h),List.getD_eq_getElem _ _ h]
  exact List.getElem?_eq_getElem h

theorem sampleAt_mono (hsorted : sorted.Pairwise (· ≤ ·)) {k l : Nat} (h : k ≤ l) :
    sampleAt sorted k ≤ sampleAt sorted l := by
  rcases Nat.eq_zero_or_pos sorted.length with hzero | hpos
  · obtain rfl := List.length_eq_zero_iff.mp hzero
    exact UInt64.le_refl _
  · have hk : min k (sorted.length - 1) < sorted.length := by omega
    have hl : min l (sorted.length - 1) < sorted.length := by omega
    rw [sampleAt,sampleAt,List.getD_eq_getElem _ _ hk,List.getD_eq_getElem _ _ hl]
    rcases Nat.lt_or_eq_of_le (min_le_min_right (sorted.length - 1) h) with hlt | heq
    · exact List.pairwise_iff_getElem.mp hsorted _ _ hk hl hlt
    · simp only [heq]
      exact UInt64.le_refl _

theorem sampleAt_zero (hne : sorted ≠ []) : sampleAt sorted 0 = sorted.head hne := by
  have hfirst := getElem?_eq_sampleAt (List.length_pos_iff.mpr hne)
  rw [← List.head?_eq_getElem?,List.head?_eq_some_head hne] at hfirst
  exact (Option.some.inj hfirst).symm

theorem sampleAt_last (hne : sorted ≠ []) {k : Nat} (h : sorted.length ≤ k) :
    sampleAt sorted k = sorted.getLast hne := by
  have hpos := List.length_pos_iff.mpr hne
  rw [sampleAt,Nat.min_eq_right (by omega),List.getLast_eq_getElem,
    List.getD_eq_getElem _ _ (by omega)]

end Samples

/-! ## Ranks -/

/-- A rank of which the part behind the point falls short of one by a unit in the last place. -/
structure IsRank (rank : ℚ) : Prop where
  nonneg : 0 ≤ rank
  weight_le : 2 ^ 52 * (rank - ⌊rank⌋₊) ≤ 2 ^ 52 - 1

theorem isRank_zero : IsRank 0 := ⟨le_rfl,by norm_num⟩

theorem isRank_of_one_le {x : Float} {rank : ℚ} {r : Nat} (h : HasValue x rank r) (hle : 1 ≤ rank) :
    IsRank rank := by
  obtain ⟨n,hn⟩ := @HasValue.exists_whole _ _ _ 0 h (by rw [pow_zero]; exact hle)
  rw [Nat.sub_zero] at hn
  have hfloor := Nat.lt_floor_add_one rank
  have hlt : n + 1 ≤ 2 ^ 52 * (⌊rank⌋₊ + 1) := by
    have hscaled : (n : ℚ) < 2 ^ 52 * (⌊rank⌋₊ + 1) := by
      rw [← hn,mul_comm]
      gcongr
    exact_mod_cast hscaled
  refine ⟨h.pos.le,?_⟩
  have hcast : (n : ℚ) + 1 ≤ 2 ^ 52 * (⌊rank⌋₊ + 1) := by exact_mod_cast hlt
  rw [← hn] at hcast
  linarith

/-- A share is at least a half, because its mantissa is a multiple of `2 ^ -53`. -/
theorem IsShare.exists_value {p : Float} (hp : IsShare p) :
    ∃ q, HasValue p q 53 ∧ 1 / 2 ≤ q ∧ q ≤ 127 / 128 := by
  have hunit := unit_eq
  obtain ⟨s,hs,hshare⟩ := hp.measures
  have hhalf := hs.normal.le
  have hpower : (2 : ℚ) ^ unit = 2 ^ 53 * 2 ^ (unit - 53) := by
    rw [← pow_add]
    congr 1
  refine ⟨s / 2 ^ 53,⟨s,_,hs,by omega,by omega,by rw [hpower]; field_simp⟩,?_,?_⟩
  · rw [le_div_iff₀ (by positivity)]
    have hcast : (2 : ℚ) ^ 52 ≤ s := by exact_mod_cast hhalf
    linarith
  · rw [div_le_iff₀ (by positivity)]
    have hcast : (128 : ℚ) * s ≤ 127 * 2 ^ 53 := by exact_mod_cast hshare
    linarith

/-- The rank of a share among the samples after the first, which are told apart by their number. -/
theorem exists_rank {n : UInt64} {p : Float} {q : ℚ} (hp : HasValue p q 53) (hhalf : 1 / 2 ≤ q)
    (hshare : q ≤ 127 / 128) :
    ∃ rank, HasAmount (n.toFloat * p) rank 159 ∧ IsNearest (level n * q) rank ∧ IsRank rank ∧
      rank ≤ 127 * 2 ^ 57 := by
  obtain ⟨rank,hrank,hnearest⟩ := (hasAmount_level n).exists_mul (Or.inr hp) (by omega)
  refine ⟨rank,hrank,hnearest,?_,?_⟩
  · rcases (by omega : n.toNat = 0 ∨ n.toNat = 1 ∨ 2 ≤ n.toNat) with hn | hn | hn
    · rw [level_of_toNat hn (by decide),Nat.cast_zero,zero_mul] at hnearest
      exact isNearest_zero.unique hnearest ▸ isRank_zero
    · rw [level_of_toNat hn (by decide),Nat.cast_one,one_mul] at hnearest
      have hfloor : ⌊q⌋₊ = 0 := Nat.floor_eq_zero.mpr (by linarith)
      refine hp.isNearest.unique hnearest ▸ ⟨hp.pos.le,?_⟩
      rw [hfloor,Nat.cast_zero]
      linarith
    · -- Here the rank is one at least.
      have htwo : 2 ≤ level n := by
        rw [← Nat.cast_ofNat,← @level_of_toNat 2 2 rfl (by decide)]
        exact level_mono (UInt64.le_iff_toNat_le.mpr hn)
      have hone : IsNearest ((1 : Nat) : ℚ) (1 : Nat) := HasAmount.isNearest_natCast (by decide)
      rw [Nat.cast_one] at hone
      have hle : 1 ≤ rank := hone.mono hnearest (by linarith [hp.pos,mul_le_mul htwo hhalf (by norm_num) (by linarith)])
      exact isRank_of_one_le (hrank.hasValue (by linarith)) hle
  · have hlimit : IsNearest ((1 : Nat) * 2 ^ 64) ((1 : Nat) * 2 ^ 64) :=
      (HasAmount.isNearest_natCast (by decide)).mul_two_pow 64
    have hbound : IsNearest ((127 : Nat) * 2 ^ 57) ((127 : Nat) * 2 ^ 57) :=
      (HasAmount.isNearest_natCast (by decide)).mul_two_pow 57
    have hlevel : level n ≤ 2 ^ 64 := by
      have hsize : (n.toNat : ℚ) ≤ 2 ^ 64 := by exact_mod_cast n.toNat_lt.le
      have hle := (isNearest_level n).mono hlimit (by rw [Nat.cast_one,one_mul]; exact hsize)
      rwa [Nat.cast_one,one_mul] at hle
    refine hnearest.mono hbound ?_
    calc level n * q ≤ 2 ^ 64 * (127 / 128) := by gcongr
      _ = (127 : Nat) * 2 ^ 57 := by norm_num

/-! ## Estimates -/

/-- What the interpolation gives for a rank of a sample. -/
def IsEstimate (sorted : List UInt64) (rank estimate : ℚ) : Prop :=
  ∃ weight, IsNearest (rank - ⌊rank⌋₊) weight ∧
    Interpolates (level (sampleAt sorted ⌊rank⌋₊)) (level (sampleAt sorted (⌊rank⌋₊ + 1))) weight
      estimate

section Estimates
variable {sorted : List UInt64} {rank higher s t : ℚ}

theorem IsEstimate.lower_le (h : IsEstimate sorted rank t) : level (sampleAt sorted ⌊rank⌋₊) ≤ t := by
  obtain ⟨weight,-,ht⟩ := h
  exact ht.low_le (hasAmount_level _).isNearest

theorem IsEstimate.le_upper (h : IsEstimate sorted rank t) (hrank : IsRank rank) :
    t ≤ level (sampleAt sorted (⌊rank⌋₊ + 1)) := by
  obtain ⟨weight,hweight,ht⟩ := h
  have hlimit : IsNearest ((2 ^ 52 - 1 : Nat) * 2 ^ 0) ((2 ^ 52 - 1 : Nat) * 2 ^ 0) :=
    (HasAmount.isNearest_natCast (by decide)).mul_two_pow 0
  refine ht.le_high (hasAmount_level _).isNearest ?_
  have hscaled := (hweight.mul_two_pow 52).mono hlimit (by
    have hle := hrank.weight_le
    push_cast
    linarith)
  push_cast at hscaled
  linarith

/-- **A higher rank has no smaller estimate.** -/
theorem IsEstimate.mono (h : IsEstimate sorted rank s) (h' : IsEstimate sorted higher t)
    (hsorted : sorted.Pairwise (· ≤ ·)) (hrank : IsRank rank) (hle : rank ≤ higher) : s ≤ t := by
  rcases Nat.lt_or_eq_of_le (Nat.floor_mono hle) with hlt | heq
  · calc s ≤ level (sampleAt sorted (⌊rank⌋₊ + 1)) := h.le_upper hrank
      _ ≤ level (sampleAt sorted ⌊higher⌋₊) := level_mono (sampleAt_mono hsorted hlt)
      _ ≤ t := h'.lower_le
  · obtain ⟨weight,hweight,hs⟩ := h
    obtain ⟨weight',hweight',ht⟩ := h'
    rw [← heq] at hweight' ht
    exact hs.mono ht (hweight.mono hweight' (by linarith))

theorem IsEstimate.bounds (h : IsEstimate sorted rank t) (hsorted : sorted.Pairwise (· ≤ ·))
    (hrank : IsRank rank) (hne : sorted ≠ []) :
    level (sorted.head hne) ≤ t ∧ t ≤ level (sorted.getLast hne) := by
  constructor
  · rw [← sampleAt_zero hne]
    exact (level_mono (sampleAt_mono hsorted (Nat.zero_le _))).trans h.lower_le
  · rw [← sampleAt_last hne (Nat.le_max_right (⌊rank⌋₊ + 1) sorted.length)]
    exact (h.le_upper hrank).trans (level_mono (sampleAt_mono hsorted (Nat.le_max_left ..)))

end Estimates

/-! ## Indices around a rank -/

section Indices
variable {sorted : List UInt64} {x : Float} {rank : ℚ}

theorem floor_lt_of_le (hlimit : rank ≤ 127 * 2 ^ 57) : ⌊rank⌋₊ + 1 < UInt64.size := by
  have hfloor : ⌊rank⌋₊ ≤ 127 * 2 ^ 57 := Nat.floor_le_of_le (by exact_mod_cast hlimit)
  exact Nat.lt_of_le_of_lt (Nat.succ_le_succ hfloor) (by decide)

theorem toNat_floorIndex (hx : HasAmount x rank 159) (hlimit : rank ≤ 127 * 2 ^ 57) :
    (floorIndex x).toNat = ⌊rank⌋₊ := by
  have hlt := floor_lt_of_le hlimit
  rw [floorIndex,hx.toNat_toUInt64]
  omega

theorem toNat_floorIndex_add_one (hx : HasAmount x rank 159) (hlimit : rank ≤ 127 * 2 ^ 57) :
    (floorIndex x + 1).toNat = ⌊rank⌋₊ + 1 := by
  rw [UInt64.toNat_add,toNat_floorIndex hx hlimit]
  exact Nat.mod_eq_of_lt (floor_lt_of_le hlimit)

theorem hasAmount_floorIndex (hx : HasAmount x rank 159) (hlimit : rank ≤ 127 * 2 ^ 57) :
    HasAmount (floorIndex x).toFloat ⌊rank⌋₊ 52 :=
  hx.toFloat_toUInt64 ((Nat.lt_succ_self _).trans (floor_lt_of_le hlimit))

/-- A rank that the index below it reaches is whole, and the sample is the estimate. -/
theorem isEstimate_sampleAt (hsorted : sorted.Pairwise (· ≤ ·)) (hx : HasAmount x rank 159)
    (hlimit : rank ≤ 127 * 2 ^ 57) (hwhole : ¬(floorIndex x).toFloat < x) :
    IsEstimate sorted rank (level (sampleAt sorted ⌊rank⌋₊)) := by
  have hle : rank ≤ ⌊rank⌋₊ :=
    not_lt.mp (mt ((hasAmount_floorIndex hx hlimit).lt hx) hwhole)
  refine ⟨0,?_,interpolates_zero (hasAmount_level _) (hasAmount_level _)
    (level_mono (sampleAt_mono hsorted (Nat.le_succ _)))⟩
  rw [sub_eq_zero.mpr (hle.antisymm (Nat.floor_le hx.nonneg))]
  exact isNearest_zero

theorem exists_estimate_between (hsorted : sorted.Pairwise (· ≤ ·)) (hx : HasAmount x rank 159)
    (hlimit : rank ≤ 127 * 2 ^ 57) :
    let low := (sampleAt sorted ⌊rank⌋₊).toFloat
    let high := (sampleAt sorted (⌊rank⌋₊ + 1)).toFloat
    ∃ t, HasAmount (low + (high - low) * (x - (floorIndex x).toFloat)) t 583 ∧
      IsEstimate sorted rank t := by
  have hlow := hasAmount_level (sampleAt sorted ⌊rank⌋₊)
  have hhigh := hasAmount_level (sampleAt sorted (⌊rank⌋₊ + 1))
  have hfloor := (hasAmount_floorIndex hx hlimit).mono (by omega : 52 ≤ 159)
  obtain ⟨weight,hweight,hnearest⟩ := hx.exists_sub hfloor (Nat.floor_le hx.nonneg) (by omega)
  obtain ⟨difference,hdifference,hnearest'⟩ := hhigh.exists_sub hlow
    (level_mono (sampleAt_mono hsorted (Nat.le_succ _))) (by omega)
  obtain ⟨product,hproduct,hnearest''⟩ := hdifference.exists_mul hweight (by omega)
  obtain ⟨t,ht,hestimate⟩ := (hlow.mono (by omega)).exists_add hproduct (by omega)
  exact ⟨t,ht,weight,hnearest,difference,product,hnearest',hnearest'',hestimate⟩

theorem exists_estimate_of_rank {y : Float} (hsorted : sorted.Pairwise (· ≤ ·))
    (hx : HasAmount x rank 159) (hlimit : rank ≤ 127 * 2 ^ 57)
    (hlower : (floorIndex x).toNat < sorted.length) (hupper : (ceilIndex x).toNat < sorted.length)
    (hy : (if floorIndex x = ceilIndex x then sorted[(floorIndex x).toNat]?.map UInt64.toFloat
      else do
        let low := (← sorted[(floorIndex x).toNat]?).toFloat
        let high := (← sorted[(ceilIndex x).toNat]?).toFloat
        return low + (high - low) * (x - (floorIndex x).toFloat)) = some y) :
    ∃ t, HasAmount y t 583 ∧ IsEstimate sorted rank t := by
  rw [getElem?_eq_sampleAt hlower,getElem?_eq_sampleAt hupper,toNat_floorIndex hx hlimit] at hy
  by_cases hwhole : (floorIndex x).toFloat < x
  · have hceil : ceilIndex x = floorIndex x + 1 := if_pos hwhole
    have hne : floorIndex x ≠ floorIndex x + 1 := by
      intro heq
      have hsucc := congrArg UInt64.toNat heq
      rw [toNat_floorIndex_add_one hx hlimit,toNat_floorIndex hx hlimit] at hsucc
      exact Nat.succ_ne_self _ hsucc.symm
    rw [hceil,if_neg hne,toNat_floorIndex_add_one hx hlimit] at hy
    obtain rfl := Option.some.inj hy
    exact exists_estimate_between hsorted hx hlimit
  · have hceil : ceilIndex x = floorIndex x := if_neg hwhole
    rw [hceil,if_pos rfl] at hy
    obtain rfl := Option.some.inj hy
    exact ⟨_,(hasAmount_level _).mono (by omega),isEstimate_sampleAt hsorted hx hlimit hwhole⟩

end Indices

/-! ## Percentiles -/

theorem isEstimate_singleton (only : UInt64) : IsEstimate [only] 0 (level only) := by
  refine ⟨0,?_,?_⟩
  · rw [Nat.floor_zero,Nat.cast_zero,sub_zero]
    exact isNearest_zero
  · rw [Nat.floor_zero]
    exact interpolates_zero (hasAmount_level _) (hasAmount_level _) le_rfl

theorem exists_estimate {sorted : List UInt64} {p x : Float} (hsorted : sorted.Pairwise (· ≤ ·))
    (hp : IsShare p) (hx : interpolated sorted p = some x) :
    ∃ q rank t, HasValue p q 53 ∧
      IsNearest (level (UInt64.ofNat (sorted.length - 1)) * q) rank ∧ IsRank rank ∧
      HasAmount x t 583 ∧ IsEstimate sorted rank t := by
  obtain ⟨q,hq,hhalf,hshare⟩ := hp.exists_value
  obtain _ | ⟨only,_ | ⟨second,rest⟩⟩ := sorted
  · exact absurd hx nofun
  · obtain rfl := Option.some.inj hx
    refine ⟨q,0,level only,hq,?_,isRank_zero,(hasAmount_level only).mono (by omega),
      isEstimate_singleton only⟩
    have hzero : level (UInt64.ofNat ([only].length - 1)) = (0 : Nat) := level_of_toNat rfl (by decide)
    rw [hzero,Nat.cast_zero,zero_mul]
    exact isNearest_zero
  -- The indices around the rank are indices of the sample.
  have hlast := toNat_last_lt (List.length_pos_iff.mpr (List.cons_ne_nil only (second :: rest)))
  obtain ⟨hfloor,htop⟩ := @rank_le (UInt64.ofNat ((only :: second :: rest).length - 1)) p hp
  have hceil := ceilIndex_le hfloor htop
  rw [UInt64.le_iff_toNat_le] at hfloor hceil
  obtain ⟨rank,hrank,hnearest,hisrank,hlimit⟩ :=
    @exists_rank (UInt64.ofNat ((only :: second :: rest).length - 1)) p q hq hhalf hshare
  simp only [interpolated,Percentile.rank,hp.clampUnit_eq] at hx
  obtain ⟨t,ht,hestimate⟩ := exists_estimate_of_rank hsorted hrank hlimit
    (Nat.lt_of_le_of_lt hfloor hlast) (Nat.lt_of_le_of_lt hceil hlast) hx
  exact ⟨q,rank,t,hq,hnearest,hisrank,ht,hestimate⟩

section Sorted
variable {sorted : List UInt64} {p p' x y : Float} (hsorted : sorted.Pairwise (· ≤ ·))
include hsorted

/-- **A larger share has no smaller percentile.** -/
theorem interpolated_mono (hp : IsShare p) (hp' : IsShare p') (hle : p ≤ p')
    (hx : interpolated sorted p = some x) (hy : interpolated sorted p' = some y) :
    x.toUInt64 ≤ y.toUInt64 := by
  obtain ⟨q,rank,s,hq,hrank,hisrank,hs,hestimate⟩ := exists_estimate hsorted hp hx
  obtain ⟨q',rank',t,hq',hrank',-,ht,hestimate'⟩ := exists_estimate hsorted hp' hy
  have hshares : q ≤ q' := not_lt.mp fun hlt => not_lt_of_le hle (hq'.lt hq hlt)
  have hranks : rank ≤ rank' :=
    hrank.mono hrank' (mul_le_mul_of_nonneg_left hshares (hasAmount_level _).nonneg)
  exact hs.toUInt64_le ht (hestimate.mono hestimate' hsorted hisrank hranks)

/-- **A percentile does not leave the sample** that is rounded to floating point numbers. -/
theorem interpolated_bounds (hne : sorted ≠ []) (hp : IsShare p) (hx : interpolated sorted p = some x) :
    (sorted.head hne).toFloat.toUInt64 ≤ x.toUInt64 ∧
      x.toUInt64 ≤ (sorted.getLast hne).toFloat.toUInt64 := by
  obtain ⟨q,rank,t,-,-,hisrank,ht,hestimate⟩ := exists_estimate hsorted hp hx
  obtain ⟨hlow,hhigh⟩ := hestimate.bounds hsorted hisrank hne
  exact ⟨(hasAmount_level _).toUInt64_le ht hlow,ht.toUInt64_le (hasAmount_level _) hhigh⟩

end Sorted

end SizeSurvey.Percentile
