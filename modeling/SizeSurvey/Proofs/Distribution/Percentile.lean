import SizeSurvey.Proofs.Distribution.Rounding

/-! # Ranks of percentiles

The rank of a share of a sample never leaves the sample, however large the sample is and however
the rank is rounded. So every sample that is not empty has its percentiles.
-/
namespace SizeSurvey.Percentile
open Rounding

/-- A share of less than the whole that is a multiple of `2 ^ -53`. -/
structure IsShare (p : Float) : Prop where
  clampUnit_eq : clampUnit p = p
  measures : ∃ s, Measures p s (unit - 53) ∧ 128 * s ≤ 127 * 2 ^ 53

theorem isShare_half : IsShare 0.5 :=
  ⟨rfl,2 ^ 52,⟨⟨by decide,by decide⟩,by decide,rfl⟩,by decide⟩

theorem isShare_nine_tenths : IsShare 0.9 :=
  ⟨rfl,8106479329266893,⟨⟨by decide,by decide⟩,by decide,rfl⟩,by decide⟩

theorem isShare_ninety_nine_hundredths : IsShare 0.99 :=
  ⟨rfl,8917127262193582,⟨⟨by decide,by decide⟩,by decide,rfl⟩,by decide⟩

/-- A number of 53 bits not above `n`, which the floating point number for `n` hardly exceeds. -/
theorem exists_bound {n : UInt64} (hn : 0 < n.toNat) :
    ∃ m c k b, Measures n.toFloat m c ∧ unit ≤ c + 52 ∧ c ≤ unit + 12 ∧ k < 2 ^ 53 ∧
      k * 2 ^ b ≤ n.toNat * 2 ^ unit ∧ 127 * (m * 2 ^ c) ≤ 128 * (k * 2 ^ b) := by
  obtain ⟨m,c,hmeasures,hlow,hhigh,hbelow⟩ := exists_measures_toFloat hn
  by_cases hsmall : n.toNat < 2 ^ 53
  · have hle := hbelow n.toNat unit hsmall (Nat.le_refl _)
    exact ⟨m,c,n.toNat,unit,hmeasures,hlow,hhigh,hsmall,Nat.le_refl _,by omega⟩
  · -- The first 53 bits of `n`, and one more in the last of their places.
    obtain ⟨k,hk⟩ : ∃ k, k = n.toNat / 2 ^ (n.toNat.log2 - 52) := ⟨_,rfl⟩
    have hnormal : IsNormal k := hk ▸ isNormal_div (by omega)
    have hbits := hnormal.le
    have hbelow' : k * 2 ^ (n.toNat.log2 - 52) ≤ n.toNat := hk ▸ Nat.div_mul_le_self ..
    have habove : n.toNat ≤ (k + 1) * 2 ^ (n.toNat.log2 - 52) := by
      rw [hk,Nat.mul_comm]
      exact Nat.le_of_lt (Nat.lt_mul_div_succ _ (Nat.two_pow_pos _))
    refine ⟨m,c,k,n.toNat.log2 - 52 + unit,hmeasures,hlow,hhigh,hnormal.lt,?_,?_⟩
    · rw [pow_add,← Nat.mul_assoc]
      exact Nat.mul_le_mul_right _ hbelow'
    · have hle : m * 2 ^ c ≤ (k + 1) * 2 ^ (n.toNat.log2 - 52 + unit) := by
        refine hbelow.le hnormal.lt ?_
        rw [pow_add,← Nat.mul_assoc]
        exact Nat.mul_le_mul_right _ habove
      calc 127 * (m * 2 ^ c) ≤ 127 * ((k + 1) * 2 ^ (n.toNat.log2 - 52 + unit)) :=
            Nat.mul_le_mul_left _ hle
        _ = 127 * (k + 1) * 2 ^ (n.toNat.log2 - 52 + unit) := (Nat.mul_assoc ..).symm
        _ ≤ 128 * k * 2 ^ (n.toNat.log2 - 52 + unit) := Nat.mul_le_mul_right _ (by omega)
        _ = 128 * (k * 2 ^ (n.toNat.log2 - 52 + unit)) := Nat.mul_assoc ..

theorem zero_mul_of_measures {p : Float} {s d : Nat} (hp : Measures p s d) :
    (0 : UInt64).toFloat * p = (0 : UInt64).toFloat := by
  obtain ⟨hpos,hunpack⟩ := hp.unpack
  change Float.ofModel (Float.Model.pack (.mul _ (0 : UInt64).toFloat.toModel.unpack
    p.toModel.unpack)) = _
  rw [hunpack]
  rfl

/-- A share of a magnitude does not pass a bound that the magnitude hardly exceeds. -/
theorem mul_share_le {m s c bound : Nat} (hc : 53 ≤ c) (hshare : 128 * s ≤ 127 * 2 ^ 53)
    (hexcess : 127 * (m * 2 ^ c) ≤ 128 * bound) : m * s * 2 ^ (c - 53) ≤ bound := by
  have hsplit : 2 ^ c = 2 ^ 53 * 2 ^ (c - 53) := by rw [← pow_add,Nat.add_sub_cancel' hc]
  refine Nat.le_of_mul_le_mul_left ?_ (show 0 < 128 by decide)
  calc 128 * (m * s * 2 ^ (c - 53)) = 128 * s * (m * 2 ^ (c - 53)) := by ac_rfl
    _ ≤ 127 * 2 ^ 53 * (m * 2 ^ (c - 53)) := Nat.mul_le_mul_right _ hshare
    _ = 127 * (m * 2 ^ c) := by rw [hsplit]; ac_rfl
    _ ≤ 128 * bound := hexcess

/-- A rank neither passes the last index nor the floating point number for it. -/
theorem rank_le {n : UInt64} {p : Float} (hp : IsShare p) :
    floorIndex (n.toFloat * p) ≤ n ∧ ¬n.toFloat < n.toFloat * p := by
  obtain ⟨s,hs,hshare⟩ := hp.measures
  rcases Nat.eq_zero_or_pos n.toNat with hzero | hn
  · obtain rfl : n = 0 := UInt64.toNat_inj.mp hzero
    rw [zero_mul_of_measures hs]
    exact ⟨by decide,by decide⟩
  · -- Rounding may lift the product, but no further than to the numbers of 53 bits above it: the
    -- bound below `n`, and the floating point number for `n`.
    obtain ⟨m,c,k,b,hmeasures,hlow,hhigh,hk,hbound,hexcess⟩ := exists_bound hn
    have hunit := unit_eq
    obtain ⟨r,a,hrank,hbelow⟩ := hmeasures.exists_mul hs (by omega) (by omega)
    have hexponent : c + (unit - 53) - unit = c - 53 := by omega
    rw [hexponent] at hbelow
    have hproduct := mul_share_le (by omega) hshare hexcess
    have hself : m * s * 2 ^ (c - 53) ≤ m * 2 ^ c := mul_share_le (by omega) hshare (by omega)
    have hfloor : r * 2 ^ a / 2 ^ unit ≤ n.toNat :=
      Nat.div_le_of_le_mul (Nat.mul_comm n.toNat _ ▸ Nat.le_trans (hbelow k b hk hproduct) hbound)
    refine ⟨?_,hrank.not_lt hmeasures (hbelow m c hmeasures.normal.lt hself)⟩
    rw [UInt64.le_iff_toNat_le,floorIndex,hrank.toNat_toUInt64]
    exact Nat.le_trans (Nat.min_le_left ..) hfloor

theorem ceilIndex_le {n : UInt64} {rank : Float} (hfloor : floorIndex rank ≤ n)
    (htop : ¬n.toFloat < rank) : ceilIndex rank ≤ n := by
  simp only [ceilIndex]
  split
  next hlt =>
    have hne : (floorIndex rank).toNat ≠ n.toNat := by
      intro heq
      rw [UInt64.toNat_inj.mp heq] at hlt
      exact htop hlt
    have hn := n.toNat_lt
    rw [UInt64.le_iff_toNat_le] at hfloor ⊢
    rw [UInt64.toNat_add]
    simp
    omega
  next => exact hfloor

theorem toNat_last_lt {count : Nat} (h : 0 < count) : (UInt64.ofNat (count - 1)).toNat < count := by
  rw [UInt64.toNat_ofNat']
  exact Nat.lt_of_le_of_lt (Nat.mod_le ..) (Nat.sub_lt h Nat.one_pos)

/-- **Every sample that is not empty has its percentiles.** -/
theorem exists_interpolated {sorted : List UInt64} {p : Float} (hne : sorted ≠ []) (hp : IsShare p) :
    ∃ x, interpolated sorted p = some x := by
  obtain _ | ⟨only,_ | ⟨second,rest⟩⟩ := sorted
  · exact absurd rfl hne
  · exact ⟨_,rfl⟩
  have hlast := toNat_last_lt (List.length_pos_iff.mpr hne)
  have hrank : rank (only :: second :: rest).length p =
      (UInt64.ofNat ((only :: second :: rest).length - 1)).toFloat * p := by
    rw [rank,hp.clampUnit_eq]
  obtain ⟨hfloor,htop⟩ := @rank_le (UInt64.ofNat ((only :: second :: rest).length - 1)) p hp
  have hceil := ceilIndex_le hfloor htop
  rw [UInt64.le_iff_toNat_le,← hrank] at hfloor hceil
  have hlower := List.getElem?_eq_getElem (Nat.lt_of_le_of_lt hfloor hlast)
  have hupper := List.getElem?_eq_getElem (Nat.lt_of_le_of_lt hceil hlast)
  simp only [interpolated,hlower,hupper]
  split
  · exact ⟨_,rfl⟩
  · exact ⟨_,rfl⟩

end SizeSurvey.Percentile
