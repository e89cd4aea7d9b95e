import SizeSurvey.Proofs.Rounding.Accuracy
import SizeSurvey.Proofs.Rounding.Unpacking

/-! # Overflow and underflow

A number that is not negative stays a number of that kind when it is multiplied by a power of two or
divided. Division by two or more keeps it finite, and a product is infinite if and only if the exact
product is larger than all floating point numbers.

A mantissa loses bits where its exponent cannot become any smaller. Still a product with a number far
below one is less than one, so that it is cut to zero and is not above any size but zero.
-/
namespace SizeSurvey.Rounding
open Float.Model UnpackedFloat

/-! ## Operations -/

theorem isFinite_eq (x : Float) : x.isFinite = x.toModel.unpack.isFinite := rfl

theorem unpack_mul (x y : Float) : (x * y).toModel.unpack =
    (Float.Model.pack (UnpackedFloat.mul Format.binary64 x.toModel.unpack y.toModel.unpack)).unpack := rfl

theorem unpack_div (x y : Float) : (x / y).toModel.unpack =
    (Float.Model.pack (UnpackedFloat.div Format.binary64 x.toModel.unpack y.toModel.unpack)).unpack := rfl

/-! ## Numbers that are not negative -/

/-- Zero of either sign, a positive number or infinity. -/
inductive IsNonneg : UnpackedFloat → Prop
  | zero (s : Sign) : IsNonneg (.zero s)
  | finite {m : Nat} {e : Int} (h : 0 < m) : IsNonneg (.finite .positive m e h)
  | infinity : IsNonneg (.infinity .positive)

theorem zero_le_iff {x : Float} : 0.0 ≤ x ↔ IsNonneg x.toModel.unpack := by
  have hzero : rank (0.0 : Float).toModel.unpack = some (toLex (0,toLex (0,0))) := rfl
  rw [le_iff_rank,hzero]
  generalize x.toModel.unpack = u
  constructor
  · rintro ⟨p,q,hp,hq,hle⟩
    cases hp
    match u with
    | .notANumber => cases hq
    | .infinity .negative | .finite .negative _ _ _ =>
      cases hq
      exact absurd hle (by simp [Prod.Lex.toLex_le_toLex])
    | .zero s => exact .zero s
    | .finite .positive _ _ h => exact .finite h
    | .infinity .positive => exact .infinity
  · intro h
    cases h with
    | zero s => exact ⟨_,_,rfl,rfl,le_refl _⟩
    | finite h => exact ⟨_,_,rfl,rfl,Prod.Lex.toLex_le_toLex.mpr (Or.inl Int.one_pos)⟩
    | infinity => exact ⟨_,_,rfl,rfl,Prod.Lex.toLex_le_toLex.mpr (Or.inl (by decide))⟩

theorem not_infinity_lt {x y : Float} (h : x.toModel.unpack = .infinity .positive) : ¬x < y := by
  rw [lt_iff_rank,h]
  rintro ⟨p,q,hp,hq,hlt⟩
  cases hp
  match hu : y.toModel.unpack with
  | .notANumber => rw [hu] at hq; cases hq
  | .infinity .negative | .finite .negative _ _ _ | .zero _ | .finite .positive _ _ _
  | .infinity .positive =>
    rw [hu] at hq
    cases hq
    exact absurd hlt (by simp [Prod.Lex.toLex_lt_toLex])

/-! ## Packing -/

theorem unpack_packComponents {exponent : BitVec 11} (h : exponent ≠ -1#11) (mantissa : BitVec 52) :
    (UnpackedFloat.unpack Format.binary64
      (packComponents Format.binary64 .positive exponent mantissa)).isFinite = true ∧
    IsNonneg (UnpackedFloat.unpack Format.binary64
      (packComponents Format.binary64 .positive exponent mantissa)) := by
  have hsign : Sign.ofBitVec (Sign.toBitVec .positive) = .positive := rfl
  rw [UnpackedFloat.unpack]
  simp only [unpackMantissa_packComponents,unpackExponent_packComponents,unpackSign_packComponents,
    hsign,if_neg h]
  split_ifs with hzero hnone
  · exact ⟨rfl,.zero _⟩
  · exact ⟨rfl,.finite _⟩
  · exact ⟨rfl,.finite _⟩

/-- A positive number is packed as infinity if and only if its exponent is too large. -/
theorem unpack_pack_positive {m : Nat} {e : Int} (h : 0 < m) :
    IsNonneg (Float.Model.pack (.finite .positive m e h)).unpack ∧
      ((Float.Model.pack (.finite .positive m e h)).unpack.isFinite = true ↔ e ≤ 971) := by
  change IsNonneg (UnpackedFloat.unpack Format.binary64 (UnpackedFloat.pack Format.binary64 _)) ∧
    ((UnpackedFloat.unpack Format.binary64 (UnpackedFloat.pack Format.binary64 _)).isFinite = true ↔ _)
  rw [UnpackedFloat.pack]
  dsimp only
  have hbias : (e + (Format.binary64.exponentBias : Nat) + (52 : Nat)).toNat = (e + 1075).toNat := by
    simp only [Format.exponentBias]
    omega
  rw [hbias]
  split_ifs with hlarge hnormal
  · have hinfinity : ¬(unpack Format.binary64 (packedInfinity Format.binary64 .positive)).isFinite = true :=
      Bool.false_ne_true
    refine ⟨.infinity,iff_of_false hinfinity ?_⟩
    omega
  · have hones : BitVec.ofNat 11 (e + 1075).toNat ≠ -1#11 := by
      intro hones
      have hnat : (e + 1075).toNat % 2 ^ 11 = 2047 := congrArg BitVec.toNat hones
      omega
    obtain ⟨hfinite,hnonneg⟩ := unpack_packComponents hones (.ofNat 52 m)
    refine ⟨hnonneg,iff_of_true hfinite ?_⟩
    omega
  · have hzero : 0#11 ≠ -1#11 := by decide
    obtain ⟨hfinite,hnonneg⟩ := unpack_packComponents hzero (.ofNat 52 m)
    refine ⟨hnonneg,iff_of_true hfinite ?_⟩
    omega

theorem unpack_pack_zero (s : Sign) : (Float.Model.pack (.zero s)).unpack = .zero s :=
  unpack_packedZero

/-! ## Rounding -/

theorem isNonneg_round (m : Nat) (e : Int) (accuracy : Accuracy) :
    IsNonneg (Float.Model.pack (roundWithAccuracy Format.binary64 .positive m e accuracy)).unpack := by
  rw [roundWithAccuracy]
  dsimp only
  split_ifs
  · rw [unpack_pack_zero]
    exact .zero _
  · exact (unpack_pack_positive _).1

theorem shiftToTargetExponent_snd (m : Nat) (e : Int) (accuracy : Accuracy) :
    (shiftToTargetExponent Format.binary64 m e accuracy).2 = max e (max (m.log2 + e - 52) (-1074)) := by
  simp only [shiftToTargetExponent,shiftToExponent,Format.targetExponent,totalExponent,
    Format.mantissaBits,Format.minExponent]
  omega

/-- At most 53 bits are left, so that rounding may add one bit only. -/
theorem log2_roundedMantissa_le {m d : Nat} (hd : 0 < d) (e : Int) :
    (shiftToTargetExponent Format.binary64 (m / d) e
      (accuracyOfFraction (m % d) d)).1.roundedMantissa.log2 ≤ 53 := by
  rw [shiftToTargetExponent,shiftToExponent]
  dsimp only
  generalize hbits : (Format.binary64.targetExponent (totalExponent (m / d) e) - e).toNat = bits
  have hlong : (m / d).log2 ≤ 52 + bits := by
    simp only [Format.targetExponent,totalExponent,Format.mantissaBits,Format.minExponent] at hbits
    omega
  have hholds := (holds_ofFraction (m := m) hd).shift hd bits
  have hquotient : m / (d * 2 ^ bits) < 2 ^ 53 := by
    rw [← Nat.div_div_eq_div_mul,Nat.div_lt_iff_lt_mul (Nat.two_pow_pos bits),← pow_add]
    exact Nat.lt_log2_self.trans_le (Nat.pow_le_pow_right Nat.two_pos (by omega))
  have hrounded : nearest m (d * 2 ^ bits) < 2 ^ 54 := by
    have hbounds := nearest_bounds m (d * 2 ^ bits)
    omega
  rw [hholds.roundedMantissa_eq]
  rcases Nat.eq_zero_or_pos (nearest m (d * 2 ^ bits)) with hzero | hpos
  · rw [hzero]
    decide
  · exact Nat.le_of_lt_succ ((Nat.log2_lt hpos.ne').mpr hrounded)

theorem isFinite_round {m d : Nat} {e : Int} (hd : 0 < d) (he : e ≤ 970)
    (hm : (m / d).log2 + e ≤ 1022) :
    (Float.Model.pack (roundWithAccuracy Format.binary64 .positive (m / d) e
      (accuracyOfFraction (m % d) d))).unpack.isFinite = true := by
  have hlog := log2_roundedMantissa_le (m := m) hd e
  have hfirst := shiftToTargetExponent_snd (m / d) e (accuracyOfFraction (m % d) d)
  rw [roundWithAccuracy]
  dsimp only
  split_ifs
  · rw [unpack_pack_zero]
    rfl
  · rw [(unpack_pack_positive _).2,shiftToTargetExponent_snd]
    omega

/-! ## Products -/

theorem IsNormal.exponent_eq {m n c d : Nat} (hm : IsNormal m) (hn : IsNormal n)
    (h : m * 2 ^ c = n * 2 ^ d) : c = d :=
  Nat.le_antisymm (hm.exponent_le hn h.le) (hn.exponent_le hm h.ge)

section Products
variable {x y : Float} {m k : Nat} {e : Int} {h : 0 < m} {h' : 0 < 2 ^ 52}

theorem exists_round_mul_two_pow (hm : IsNormal m) (c : Nat) :
    ∃ h, roundWithAccuracy Format.binary64 .positive (m * 2 ^ 52) (c - unit) .exact =
      .finite .positive m (c + 52 - unit) h := by
  have hlow : 2 ^ 52 ≤ m * 2 ^ 52 := Nat.le_mul_of_pos_left _ hm.pos
  obtain ⟨n,d,hn,hround,hrounds⟩ := exists_roundsTo_whole c hlow
  have hvalue : n * 2 ^ d = m * 2 ^ (c + 52) := by
    refine hrounds.value_eq_of_eq hm ?_
    rw [Nat.mul_one,Nat.mul_assoc,← pow_add,Nat.add_comm]
  obtain rfl := hrounds.normal.exponent_eq hm hvalue
  obtain rfl := Nat.eq_of_mul_eq_mul_right (Nat.two_pow_pos _) hvalue
  rw [hround]
  exact ⟨hn,by congr 1⟩

/-- A product with a power of two is finite if its exponent is small enough. -/
theorem isFinite_mul_iff (hx : x.toModel.unpack = .finite .positive m e h)
    (hy : y.toModel.unpack = .finite .positive (2 ^ 52) (k - 52) h') (hk : k ≤ 900) :
    (x * y).isFinite = true ↔ e + k ≤ 971 := by
  have hunit := unit_eq
  have hunpacked := isUnpacked_of_unpack hx
  rw [isFinite_eq,unpack_mul,hx,hy]
  change (Float.Model.pack (roundWithAccuracy Format.binary64 .positive (m * 2 ^ 52) (e + (k - 52))
    .exact)).unpack.isFinite = true ↔ _
  by_cases hsmall : e + k ≤ 970
  · have hlog : (m * 2 ^ 52).log2 < 105 := by
      refine (Nat.log2_lt (Nat.mul_pos h h').ne').mpr ?_
      calc m * 2 ^ 52 < 2 ^ 53 * 2 ^ 52 := Nat.mul_lt_mul_of_pos_right hunpacked.lt h'
        _ = 2 ^ 105 := by norm_num
    have hfinite := isFinite_round (m := m * 2 ^ 52) (d := 1) (e := e + (k - 52)) Nat.one_pos (by omega)
      (by rw [Nat.div_one]; omega)
    rw [Nat.div_one,Nat.mod_one] at hfinite
    exact iff_of_true hfinite (by omega)
  · have hnormal : IsNormal m := ⟨hunpacked.normal_or.resolve_right (by omega),hunpacked.lt⟩
    obtain ⟨c,hc⟩ := Int.eq_ofNat_of_zero_le (show 0 ≤ e + (k - 52) + unit by omega)
    have hexponent : e + (k - 52) = c - unit := by omega
    obtain ⟨hpos,hround⟩ := exists_round_mul_two_pow hnormal c
    rw [hexponent,hround,(unpack_pack_positive _).2]
    omega

end Products

/-! ## Quotients -/

/-- A quotient is finite if the divisor is at least two and not too large. -/
theorem isFinite_div {x y : Float} {m n : Nat} {e f : Int} {h : 0 < m} {h' : 0 < n}
    (hx : x.toModel.unpack = .finite .positive m e h)
    (hy : y.toModel.unpack = .finite .positive n f h') (hn : IsNormal n) (hlow : -51 ≤ f)
    (hhigh : f ≤ 900) : (x / y).isFinite = true := by
  have hunpacked := isUnpacked_of_unpack hx
  rw [isFinite_eq,unpack_div,hx,hy,UnpackedFloat.div,divCore]
  generalize htarget : min (e - f) (Format.binary64.targetExponent
    (totalExponent m e - totalExponent n f)) = target
  have hlog : m.log2 < 53 := (Nat.log2_lt h.ne').mpr hunpacked.lt
  have hlow' := hunpacked.le_exponent
  have hhigh' := hunpacked.exponent_le
  have hle : target ≤ e - f ∧ target ≤ 970 := by
    simp only [Format.targetExponent,totalExponent,Format.mantissaBits,Format.minExponent,
      hn.log2_eq] at htarget
    omega
  obtain ⟨shift,hshift⟩ := Int.eq_ofNat_of_zero_le (show 0 ≤ e - f - target by omega)
  have hquotient : (m * 2 ^ shift / n).log2 + target ≤ 1022 := by
    rcases Nat.eq_zero_or_pos (m * 2 ^ shift / n) with hzero | hpos
    · have hnone : (0 : Nat).log2 = 0 := rfl
      rw [hzero,hnone]
      omega
    · -- The divisor has 53 bits, so the quotient has as many bits less than the numerator, but for one.
      have hbits : 2 ^ ((m * 2 ^ shift / n).log2 + 52) < 2 ^ (m.log2 + 1 + shift) :=
        calc 2 ^ ((m * 2 ^ shift / n).log2 + 52) ≤ m * 2 ^ shift / n * n := by
              rw [pow_add]
              exact Nat.mul_le_mul (Nat.log2_self_le hpos.ne') hn.le
          _ ≤ m * 2 ^ shift := Nat.div_mul_le_self ..
          _ < 2 ^ (m.log2 + 1 + shift) := by
              rw [pow_add]
              exact Nat.mul_lt_mul_of_pos_right Nat.lt_log2_self (Nat.two_pow_pos shift)
      have hexponents := (Nat.pow_lt_pow_iff_right (Nat.lt_succ_self 1)).mp hbits
      omega
  dsimp only
  rw [hshift,Int.toNat_natCast,Nat.shiftLeft_eq]
  exact isFinite_round hn.pos hle.2 hquotient

/-! ## Amounts -/

/-- A finite number that is not negative. -/
structure IsAmount (x : Float) : Prop where
  isFinite : x.isFinite = true
  zero_le : 0.0 ≤ x

namespace IsAmount
variable {x y : Float}

theorem of_not_lt (hfinite : x.isFinite = true) (h : ¬x < 0.0) : IsAmount x := by
  refine ⟨hfinite,zero_le_iff.mpr ?_⟩
  rw [isFinite_eq] at hfinite
  have hzero : rank (0.0 : Float).toModel.unpack = some (toLex (0,toLex (0,0))) := rfl
  rw [lt_iff_rank,hzero] at h
  match hu : x.toModel.unpack with
  | .notANumber | .infinity _ => rw [hu] at hfinite; cases hfinite
  | .zero s => exact .zero s
  | .finite .positive _ _ hpos => exact .finite hpos
  | .finite .negative m e _ =>
    rw [hu] at h
    exact absurd ⟨_,_,rfl,rfl,Prod.Lex.toLex_lt_toLex.mpr (Or.inl (show (-1 : Int) < 0 by decide))⟩ h

theorem of_unpack_zero {s : Sign} (h : x.toModel.unpack = .zero s) : IsAmount x := by
  refine ⟨?_,zero_le_iff.mpr (h ▸ .zero s)⟩
  rw [isFinite_eq,h]
  rfl

theorem unpack_eq (h : IsAmount x) : (∃ s, x.toModel.unpack = .zero s) ∨
    ∃ m e hm, x.toModel.unpack = .finite .positive m e hm := by
  obtain ⟨hfinite,hle⟩ := h
  have hnonneg := zero_le_iff.mp hle
  rw [isFinite_eq] at hfinite
  generalize x.toModel.unpack = u at hfinite hnonneg
  cases hnonneg with
  | zero s => exact Or.inl ⟨s,rfl⟩
  | finite h => exact Or.inr ⟨_,_,h,rfl⟩
  | infinity => cases hfinite

theorem div (h : IsAmount x) {n : Nat} {f : Int} {hpos : 0 < n}
    (hy : y.toModel.unpack = .finite .positive n f hpos) (hn : IsNormal n) (hlow : -51 ≤ f)
    (hhigh : f ≤ 900) : IsAmount (x / y) := by
  rcases h.unpack_eq with ⟨s,hx⟩ | ⟨m,e,hm,hx⟩
  · have hquotient : (x / y).toModel.unpack = .zero (s / .positive) := by
      rw [unpack_div,hx,hy]
      exact unpack_pack_zero _
    exact of_unpack_zero hquotient
  · refine ⟨isFinite_div hx hy hn hlow hhigh,zero_le_iff.mpr ?_⟩
    rw [unpack_div,hx,hy]
    exact isNonneg_round _ _ _

end IsAmount

/-! ## Magnitudes -/

/-- The exact magnitude of a number. -/
def magnitude (value : Dyadic) : ℚ :=
  value.significand * 2 ^ value.exponent

theorem IsUnpacked.lt_iff {m k : Nat} {e : Int} (h : IsUnpacked m e) (hk : k ≤ 900) :
    (m : ℚ) * 2 ^ e * 2 ^ k < 2 ^ 1024 ↔ e + k ≤ 971 := by
  have hscale : (m : ℚ) * 2 ^ e * 2 ^ k = m * 2 ^ (e + k) := by
    rw [mul_assoc,zpow_add₀ (by norm_num),zpow_natCast]
  have hmost : (2 : ℚ) ^ 1024 = 2 ^ 53 * 2 ^ (971 : Int) := by rw [zpow_ofNat,← pow_add]
  have hnext : (2 : ℚ) ^ 1024 = 2 ^ 52 * 2 ^ (972 : Int) := by rw [zpow_ofNat,← pow_add]
  rw [hscale]
  constructor
  · intro hlt
    by_contra hlarge
    -- Only numbers with 53 bits have such an exponent.
    have hbits : 2 ^ 52 ≤ m := h.normal_or.resolve_right (by omega)
    refine absurd hlt (not_lt.mpr ?_)
    rw [hnext]
    gcongr
    · exact_mod_cast hbits
    · norm_num
    · omega
  · intro hle
    rw [hmost]
    have hm : (m : ℚ) < 2 ^ 53 := by exact_mod_cast h.lt
    calc (m : ℚ) * 2 ^ (e + k) < 2 ^ 53 * 2 ^ (e + k) := by gcongr
      _ ≤ 2 ^ 53 * 2 ^ (971 : Int) := by gcongr; norm_num

/-- A product with a power of two is infinite if and only if it is too large for a number. -/
theorem IsAmount.mul_two_pow {x y : Float} (h : IsAmount x) {k : Nat} {hpos : 0 < 2 ^ 52}
    (hy : y.toModel.unpack = .finite .positive (2 ^ 52) (k - 52) hpos) (hk : k ≤ 900) :
    0.0 ≤ x * y ∧ ∃ value, Dyadic.ofFloat? x = some value ∧
      ((x * y).isFinite = true ↔ magnitude value * 2 ^ k < 2 ^ 1024) := by
  rw [ofFloat?_eq_exactValue?]
  rcases h.unpack_eq with ⟨s,hx⟩ | ⟨m,e,hm,hx⟩
  · have hproduct : (x * y).toModel.unpack = .zero (s * .positive) := by
      rw [unpack_mul,hx,hy]
      exact unpack_pack_zero _
    obtain ⟨hfinite,hle⟩ := of_unpack_zero hproduct
    exact ⟨hle,_,by rw [hx]; rfl,iff_of_true hfinite (by simp [magnitude])⟩
  · refine ⟨zero_le_iff.mpr ?_,_,by rw [hx]; rfl,?_⟩
    · rw [unpack_mul,hx,hy]
      exact isNonneg_round _ _ _
    · rw [isFinite_mul_iff hx hy hk]
      exact ((isUnpacked_of_unpack hx).lt_iff hk).symm

/-! ## Exponents -/

section Exponents
variable {s : Sign} {m m' : Nat} {e e' : Int} {h' : 0 < m'}

theorem exponent_unpack_packComponents {exponent : BitVec 11} {mantissa : BitVec 52}
    (hunpack : UnpackedFloat.unpack Format.binary64
      (packComponents Format.binary64 .positive exponent mantissa) = .finite s m' e' h') :
    e' ≤ max ((exponent.toNat : Int) - 1075) (-1074) := by
  rw [UnpackedFloat.unpack] at hunpack
  simp only [unpackMantissa_packComponents,unpackExponent_packComponents] at hunpack
  have hbias : ((Format.binary64.exponentBias : Nat) + (52 : Nat) : Int) = 1075 := rfl
  split_ifs at hunpack with hones hnone hleast hnone
  · injection hunpack with _ _ he
    rw [hleast,hbias] at he
    exact he ▸ le_max_right _ _
  · injection hunpack with _ _ he
    rw [hbias] at he
    exact he ▸ le_max_left _ _

/-- Packing does not make an exponent larger, but for the least one. -/
theorem exponent_unpack_pack {h : 0 < m}
    (hunpack : (Float.Model.pack (.finite .positive m e h)).unpack = .finite s m' e' h') :
    e' ≤ max e (-1074) := by
  change UnpackedFloat.unpack Format.binary64 (UnpackedFloat.pack Format.binary64 _) = _ at hunpack
  rw [UnpackedFloat.pack] at hunpack
  dsimp only at hunpack
  have hbias : (e + (Format.binary64.exponentBias : Nat) + (52 : Nat)).toNat = (e + 1075).toNat := by
    simp only [Format.exponentBias]
    omega
  rw [hbias] at hunpack
  split_ifs at hunpack
  · cases hunpack
  · have hle := exponent_unpack_packComponents hunpack
    have hfield : (BitVec.ofNat 11 (e + 1075).toNat).toNat ≤ (e + 1075).toNat := by
      rw [BitVec.toNat_ofNat]
      exact Nat.mod_le ..
    omega
  · have hle := exponent_unpack_packComponents hunpack
    have hfield : (0#11).toNat = 0 := rfl
    rw [hfield] at hle
    omega

/-- A mantissa of 53 bits or less keeps its exponent, and rounding may add one bit. -/
theorem exponent_round (hunpack : (Float.Model.pack
      (roundWithAccuracy Format.binary64 .positive m e .exact)).unpack = .finite s m' e' h') :
    e' ≤ max e (max (m.log2 + e - 52) (-1074)) + 1 := by
  have hlog := log2_roundedMantissa_le (m := m) Nat.one_pos e
  have hexact : accuracyOfFraction 0 1 = .exact := rfl
  have hfirst := shiftToTargetExponent_snd m e .exact
  rw [Nat.div_one,Nat.mod_one,hexact] at hlog
  rw [roundWithAccuracy] at hunpack
  dsimp only at hunpack
  split_ifs at hunpack
  · rw [unpack_pack_zero] at hunpack
    cases hunpack
  · have hle := exponent_unpack_pack hunpack
    rw [shiftToTargetExponent_snd] at hle
    omega

end Exponents

/-! ## Fractions -/

/-- An amount with all its bits behind the point. -/
structure IsFraction (x : Float) : Prop where
  amount : IsAmount x
  exponent_le : ∀ {s m e h}, x.toModel.unpack = .finite s m e h → e ≤ -53

namespace IsFraction
variable {x y : Float}

theorem toUInt64_eq (h : IsFraction x) : x.toUInt64 = 0 := by
  have hunit := unit_eq
  change UnpackedFloat.toUInt64 x.toModel.unpack = 0
  rcases h.amount.unpack_eq with ⟨s,hx⟩ | ⟨m,e,hm,hx⟩
  · rw [hx]
    rfl
  · have hunpacked := isUnpacked_of_unpack hx
    have hexponent := h.exponent_le hx
    have hlow := hunpacked.le_exponent
    obtain ⟨c,hc⟩ := Int.eq_ofNat_of_zero_le (show 0 ≤ e + unit by omega)
    obtain rfl : e = c - unit := by omega
    have hless : m * 2 ^ c < 2 ^ unit := by
      calc m * 2 ^ c < 2 ^ 53 * 2 ^ c := Nat.mul_lt_mul_of_pos_right hunpacked.lt (Nat.two_pow_pos c)
        _ = 2 ^ (53 + c) := (pow_add ..).symm
        _ ≤ 2 ^ unit := Nat.pow_le_pow_right Nat.two_pos (by omega)
    rw [hx,UnpackedFloat.toUInt64,UnpackedFloat.toInt,roundToInt_eq,Nat.div_eq_of_lt hless]
    rfl

theorem not_toFloat_lt (h : IsFraction x) {n : UInt64} (hn : 0 < n.toNat) : ¬n.toFloat < x := by
  obtain ⟨k,c,hmeasures,hlow,-⟩ := exists_roundsTo_toFloat hn
  obtain ⟨hk,hunpack⟩ := hmeasures.unpack
  intro hlt
  obtain ⟨p,q,hp,hq,hpq⟩ := lt_iff_rank.mp hlt
  rw [hunpack] at hp
  cases hp
  rcases h.amount.unpack_eq with ⟨s,hx⟩ | ⟨m,e,hm,hx⟩
  · rw [hx] at hq
    cases hq
    exact absurd hpq (by simp [Prod.Lex.toLex_lt_toLex])
  · -- Numbers of one kind are in the order of their exponents first.
    have hexponent := h.exponent_le hx
    rw [hx] at hq
    cases hq
    simp only [Prod.Lex.toLex_lt_toLex] at hpq
    omega

/-- **A product with a number far below one is less than one.** -/
theorem mul {k m : Nat} {f e : Int} {hk : 0 < k} {hm : 0 < m}
    (hx : x.toModel.unpack = .finite .positive k f hk)
    (hy : y.toModel.unpack = .finite .positive m e hm) (hsmall : f + e ≤ -107) :
    IsFraction (x * y) := by
  have hproduct : (x * y).toModel.unpack = (Float.Model.pack
      (roundWithAccuracy Format.binary64 .positive (k * m) (f + e) .exact)).unpack := by
    rw [unpack_mul,hx,hy]
    rfl
  have hlog : (k * m).log2 < 106 := by
    refine (Nat.log2_lt (Nat.mul_pos hk hm).ne').mpr ?_
    calc k * m < 2 ^ 53 * 2 ^ 53 :=
          Nat.mul_lt_mul'' (isUnpacked_of_unpack hx).lt (isUnpacked_of_unpack hy).lt
      _ = 2 ^ 106 := (pow_add ..).symm
  refine ⟨⟨?_,zero_le_iff.mpr (hproduct ▸ isNonneg_round _ _ _)⟩,?_⟩
  · have hfinite := isFinite_round (m := k * m) (d := 1) (e := f + e) Nat.one_pos (by omega)
      (by rw [Nat.div_one]; omega)
    rw [Nat.div_one,Nat.mod_one] at hfinite
    rw [isFinite_eq,hproduct]
    exact hfinite
  · intro s m' e' hm' hunpack
    have hle := exponent_round (hproduct ▸ hunpack)
    omega

end IsFraction

end SizeSurvey.Rounding
