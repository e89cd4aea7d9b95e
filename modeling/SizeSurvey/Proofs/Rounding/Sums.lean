import SizeSurvey.Proofs.Rounding.Accuracy

/-! # Sums, differences and products

Numbers that are not negative are added, subtracted and multiplied as their values are, and the result
is rounded to 53 bits. To round keeps the order of exact values, and it leaves numbers of 53 bits as
they are.
-/
namespace SizeSurvey.Rounding
open Float.Model UnpackedFloat

/-! ## The nearest number -/

/-- The number of 53 bits that an exact value is rounded to. -/
def IsNearest (exact nearest : ℚ) : Prop :=
  (exact = 0 ∧ nearest = 0) ∨ ∃ m a n c, RoundsTo m 1 a n c ∧
    (m : ℚ) * 2 ^ a = exact * 2 ^ unit ∧ (n : ℚ) * 2 ^ c = nearest * 2 ^ unit

theorem isNearest_zero : IsNearest 0 0 := Or.inl ⟨rfl,rfl⟩

theorem isNearest_self {q : ℚ} {m c : Nat} (hm : IsNormal m) (hvalue : (m : ℚ) * 2 ^ c = q * 2 ^ unit) :
    IsNearest q q :=
  Or.inr ⟨m,c,m,c,roundsTo_self hm c,hvalue,hvalue⟩

namespace IsNearest
variable {p q s t : ℚ}

theorem pos_of_roundsTo {m a n c : Nat} (h : RoundsTo m 1 a n c)
    (hexact : (m : ℚ) * 2 ^ a = p * 2 ^ unit) (hnearest : (n : ℚ) * 2 ^ c = s * 2 ^ unit) :
    0 < p ∧ 0 < s := by
  have hm : 0 < m := by
    have hbits := h.le_quotient
    rw [Nat.div_one] at hbits
    exact (Nat.two_pow_pos 52).trans_le hbits
  have hn := h.normal.pos
  have hp : 0 < p * 2 ^ unit := by rw [← hexact]; positivity
  have hs : 0 < s * 2 ^ unit := by rw [← hnearest]; positivity
  exact ⟨pos_of_mul_pos_left hp (by positivity),pos_of_mul_pos_left hs (by positivity)⟩

theorem nonneg (h : IsNearest p s) : 0 ≤ p ∧ 0 ≤ s := by
  rcases h with ⟨rfl,rfl⟩ | ⟨m,a,n,c,hrounds,hexact,hnearest⟩
  · exact ⟨le_rfl,le_rfl⟩
  · exact (pos_of_roundsTo hrounds hexact hnearest).imp le_of_lt le_of_lt

/-- **Rounding keeps the order.** -/
theorem mono (h : IsNearest p s) (h' : IsNearest q t) (hle : p ≤ q) : s ≤ t := by
  rcases h with ⟨rfl,rfl⟩ | ⟨m,a,n,c,hrounds,hexact,hnearest⟩
  · exact h'.nonneg.2
  · rcases h' with ⟨rfl,rfl⟩ | ⟨m',a',n',c',hrounds',hexact',hnearest'⟩
    · exact absurd hle (not_le.mpr (pos_of_roundsTo hrounds hexact hnearest).1)
    · have hfraction : (m : ℚ) * 2 ^ a ≤ m' * 2 ^ a' := by
        rw [hexact,hexact']
        gcongr
      have hvalue := hrounds.mono hrounds' (by
        rw [Nat.mul_one,Nat.mul_one]
        exact_mod_cast hfraction)
      have hscaled : s * 2 ^ unit ≤ t * 2 ^ unit := by
        rw [← hnearest,← hnearest']
        exact_mod_cast hvalue
      exact le_of_mul_le_mul_right hscaled (by positivity)

theorem unique (h : IsNearest p s) (h' : IsNearest p t) : s = t :=
  le_antisymm (h.mono h' le_rfl) (h'.mono h le_rfl)

theorem le_error (h : IsNearest p s) : 2 ^ 53 * s ≤ (2 ^ 53 + 1) * p := by
  rcases h with ⟨rfl,rfl⟩ | ⟨m,a,n,c,hrounds,hexact,hnearest⟩
  · norm_num
  · have herror := hrounds.error.1
    rw [Nat.mul_one] at herror
    have hscaled : 2 ^ 53 * (s * 2 ^ unit) ≤ (2 ^ 53 + 1) * (p * 2 ^ unit) := by
      rw [← hexact,← hnearest]
      exact_mod_cast herror
    rw [← mul_assoc,← mul_assoc] at hscaled
    exact le_of_mul_le_mul_right hscaled (by positivity)

/-- Rounding does not depend on the scale. -/
theorem mul_two_pow (h : IsNearest p s) (k : Nat) : IsNearest (p * 2 ^ k) (s * 2 ^ k) := by
  rcases h with ⟨rfl,rfl⟩ | ⟨m,a,n,c,hrounds,hexact,hnearest⟩
  · rw [zero_mul]
    exact isNearest_zero
  · refine Or.inr ⟨m,a + k,n,c + k,⟨hrounds.divisor_pos,hrounds.le_quotient,hrounds.normal,
      Nat.add_le_add_right hrounds.le_exponent k,?_⟩,?_,?_⟩
    · rw [pow_add,← Nat.mul_assoc,hrounds.value_eq,Nat.add_right_comm,pow_add _ _ k,Nat.mul_assoc]
    · rw [pow_add,← mul_assoc,hexact,mul_right_comm]
    · rw [pow_add,← mul_assoc,hnearest,mul_right_comm]

end IsNearest

/-! ## Amounts with a value -/

/-- A number that is zero, or positive with an exponent that is not far from zero. -/
def HasAmount (x : Float) (q : ℚ) (range : Nat) : Prop :=
  (q = 0 ∧ ∃ s, x.toModel.unpack = .zero s) ∨ HasValue x q range

theorem HasValue.isNearest {x : Float} {q : ℚ} {r : Nat} (h : HasValue x q r) : IsNearest q q := by
  obtain ⟨m,c,hm,-,-,hvalue⟩ := h
  exact isNearest_self hm.normal hvalue.symm

namespace HasAmount
variable {x y : Float} {p q : ℚ} {r r' : Nat}

theorem isNearest (h : HasAmount x p r) : IsNearest p p := by
  rcases h with ⟨rfl,-⟩ | h
  · exact isNearest_zero
  · exact h.isNearest

theorem nonneg (h : HasAmount x p r) : 0 ≤ p := h.isNearest.nonneg.1

theorem mono (h : HasAmount x p r) (hrange : r ≤ r') : HasAmount x p r' :=
  h.imp_right fun h => h.mono hrange

theorem hasValue (h : HasAmount x p r) (hpos : 0 < p) : HasValue x p r :=
  h.resolve_left fun hzero => hpos.ne' hzero.1

theorem lt (hx : HasAmount x p r) (hy : HasAmount y q r') (h : p < q) : x < y := by
  have hvalue := hy.hasValue (hx.nonneg.trans_lt h)
  rcases hx with ⟨rfl,s,hzero⟩ | hx
  · obtain ⟨n,d,hn,-⟩ := hvalue
    obtain ⟨hpos,hunpack⟩ := hn.unpack
    refine lt_iff_rank.mpr ⟨_,_,congrArg rank hzero,congrArg rank hunpack,?_⟩
    exact Prod.Lex.toLex_lt_toLex.mpr (Or.inl Int.one_pos)
  · exact hx.lt hvalue h

theorem le (hx : HasAmount x p r) (hy : HasAmount y q r') (h : p ≤ q) : x ≤ y := by
  rcases hx with ⟨rfl,s,hzero⟩ | hx
  · rcases hy with ⟨-,s',hzero'⟩ | ⟨n,d,hn,-⟩
    · exact le_iff_rank.mpr ⟨_,_,congrArg rank hzero,congrArg rank hzero',le_rfl⟩
    · obtain ⟨hpos,hunpack⟩ := hn.unpack
      refine le_iff_rank.mpr ⟨_,_,congrArg rank hzero,congrArg rank hunpack,?_⟩
      exact Prod.Lex.toLex_le_toLex.mpr (Or.inl Int.one_pos)
  · exact hx.le (hy.hasValue (hx.pos.trans_le h)) h

/-! ## Sizes and whole parts -/

theorem exists_toFloat (n : UInt64) : ∃ t, HasAmount n.toFloat t 52 ∧ IsNearest n.toNat t := by
  have hunit := unit_eq
  rcases Nat.eq_zero_or_pos n.toNat with hzero | hpos
  · obtain rfl : n = 0 := UInt64.toNat_inj.mp hzero
    exact ⟨0,Or.inl ⟨rfl,.positive,rfl⟩,isNearest_zero⟩
  · obtain ⟨m,c,hm,hlow,hhigh,hrounds⟩ := exists_roundsTo_toFloat hpos
    refine ⟨m * 2 ^ c / 2 ^ unit,Or.inr ⟨m,c,hm,by omega,by omega,by field_simp⟩,
      Or.inr ⟨_,_,m,c,hrounds,?_,by field_simp⟩⟩
    have hexponent : 52 - n.toNat.log2 + (unit - (52 - n.toNat.log2)) = unit := by omega
    push_cast
    rw [mul_assoc,← pow_add,hexponent]

theorem toFloat {n : UInt64} (h : n.toNat < 2 ^ 53) : HasAmount n.toFloat n.toNat 52 := by
  rcases Nat.eq_zero_or_pos n.toNat with hzero | hpos
  · obtain rfl : n = 0 := UInt64.toNat_inj.mp hzero
    exact Or.inl ⟨rfl,.positive,rfl⟩
  · exact Or.inr (.toFloat hpos h)

theorem isNearest_natCast {n : Nat} (h : n < 2 ^ 53) : IsNearest n n := by
  have hsize : (UInt64.ofNat n).toNat = n := UInt64.toNat_ofNat_of_lt' (h.trans (by decide))
  have hamount : HasAmount (UInt64.ofNat n).toFloat (UInt64.ofNat n).toNat 52 :=
    .toFloat (by rwa [hsize])
  rw [hsize] at hamount
  exact hamount.isNearest

theorem toNat_toUInt64 (h : HasAmount x p r) :
    x.toUInt64.toNat = min ⌊p⌋₊ (UInt64.size - 1) := by
  rcases h with ⟨rfl,s,hzero⟩ | ⟨m,c,hm,-,-,hvalue⟩
  · rw [Nat.floor_zero,Nat.zero_min]
    change (UnpackedFloat.toUInt64 x.toModel.unpack).toNat = 0
    rw [hzero]
    rfl
  · have hp : p = (m * 2 ^ c : Nat) / (2 ^ unit : Nat) := by
      push_cast
      rw [← hvalue]
      field_simp
    rw [hm.toNat_toUInt64,hp,Nat.floor_div_eq_div]

theorem toUInt64_le (hx : HasAmount x p r) (hy : HasAmount y q r') (h : p ≤ q) :
    x.toUInt64 ≤ y.toUInt64 := by
  rw [UInt64.le_iff_toNat_le,hx.toNat_toUInt64,hy.toNat_toUInt64]
  exact min_le_min_right _ (Nat.floor_mono h)

end HasAmount

/-- A number that is not too small is whole in units of its last place. -/
theorem HasValue.exists_whole {x : Float} {q : ℚ} {r k : Nat} (h : HasValue x q r) (hle : 2 ^ k ≤ q) :
    ∃ n : Nat, q * 2 ^ (52 - k) = n := by
  obtain ⟨m,c,hm,-,-,hvalue⟩ := h
  have hexponent : unit ≤ c + (52 - k) := by
    have hscaled : (2 : ℚ) ^ (k + unit) < 2 ^ (53 + c) := by
      calc (2 : ℚ) ^ (k + unit) ≤ q * 2 ^ unit := by
            rw [pow_add]
            gcongr
        _ = m * 2 ^ c := hvalue
        _ < 2 ^ 53 * 2 ^ c := by
            gcongr
            exact_mod_cast hm.normal.lt
        _ = 2 ^ (53 + c) := (pow_add ..).symm
    have hlt := (pow_lt_pow_iff_right₀ one_lt_two).mp hscaled
    omega
  refine ⟨m * 2 ^ (c + (52 - k) - unit),mul_right_cancel₀ (pow_ne_zero unit two_ne_zero) ?_⟩
  push_cast
  rw [mul_right_comm,hvalue,mul_assoc,mul_assoc,← pow_add,← pow_add,Nat.sub_add_cancel hexponent]

theorem HasAmount.toFloat_toUInt64 {x : Float} {q : ℚ} {r : Nat} (h : HasAmount x q r)
    (hlt : ⌊q⌋₊ < UInt64.size) : HasAmount x.toUInt64.toFloat ⌊q⌋₊ 52 := by
  have hwhole : x.toUInt64.toNat = ⌊q⌋₊ := by
    rw [h.toNat_toUInt64]
    omega
  rcases Nat.lt_or_ge ⌊q⌋₊ (2 ^ 53) with hsmall | hlarge
  · rw [← hwhole] at hsmall ⊢
    exact .toFloat hsmall
  · -- Here the number is its own whole part.
    have hle : (2 : ℚ) ^ 53 ≤ q := by
      have hfloor := (Nat.le_floor_iff h.nonneg).mp hlarge
      exact_mod_cast hfloor
    obtain ⟨n,hn⟩ := (h.hasValue ((by positivity : (0 : ℚ) < 2 ^ 53).trans_le hle)).exists_whole hle
    rw [pow_zero,mul_one] at hn
    obtain ⟨t,ht,hnearest⟩ := exists_toFloat x.toUInt64
    rw [hwhole] at hnearest
    have hself := h.isNearest
    rw [hn,Nat.floor_natCast] at hnearest ⊢
    rw [hn] at hself
    exact hself.unique hnearest ▸ ht

/-! ## Whole numbers of units -/

theorem exists_hasValue_round {k e r : Nat} (hk : 0 < k) (hlow : unit ≤ e + r)
    (hhigh : k * 2 ^ e < 2 ^ (unit + r)) (hrange : r ≤ 900) :
    ∃ t, HasValue ⟨Float.Model.pack (UnpackedFloat.round Format.binary64 .positive k (e - unit))⟩ t
        (r + 52) ∧ IsNearest (k * 2 ^ e / 2 ^ unit) t := by
  have hunit := unit_eq
  have hlog : k.log2 + e < unit + r := by
    refine (Nat.pow_lt_pow_iff_right (Nat.lt_succ_self 1)).mp (Nat.lt_of_le_of_lt ?_ hhigh)
    rw [pow_add]
    exact Nat.mul_le_mul_right _ (Nat.log2_self_le hk.ne')
  obtain ⟨n,c,h,hround,hrounds⟩ :=
    exists_roundsTo_whole (e - (52 - k.log2)) (le_mul_two_pow_log2 hk)
  have hexcess : excess (k * 2 ^ (52 - k.log2)) 1 ≤ k.log2 - 52 := by
    refine excess_le ?_
    calc k * 2 ^ (52 - k.log2) < 2 ^ (k.log2 + 1) * 2 ^ (52 - k.log2) :=
          Nat.mul_lt_mul_of_pos_right Nat.lt_log2_self (Nat.two_pow_pos _)
      _ = 2 ^ (53 + (k.log2 - 52)) * 1 := by rw [Nat.mul_one,← pow_add]; congr 1; omega
  have hexponent := hrounds.exponent_le
  have hle := hrounds.le_exponent
  rw [round_eq_roundWithAccuracy (by omega),hround]
  refine ⟨n * 2 ^ c / 2 ^ unit,⟨n,c,.ofModel_pack h hrounds.normal (by omega),by omega,by omega,
    by field_simp⟩,Or.inr ⟨_,_,n,c,hrounds,?_,by field_simp⟩⟩
  have hsum : 52 - k.log2 + (e - (52 - k.log2)) = e := by omega
  push_cast
  rw [mul_assoc,← pow_add,hsum]
  field_simp

theorem HasValue.repack {x : Float} {q : ℚ} {r : Nat} (h : HasValue x q r) (hrange : r ≤ 900) :
    HasValue ⟨Float.Model.pack x.toModel.unpack⟩ q r := by
  obtain ⟨m,c,hm,hlow,hhigh,hvalue⟩ := h
  obtain ⟨hpos,hunpack⟩ := hm.unpack
  rw [hunpack]
  exact ⟨m,c,.ofModel_pack hpos hm.normal (by omega),hlow,hhigh,hvalue⟩

/-- A mantissa that is brought to a smaller exponent keeps its value. -/
theorem aligned_value {p : ℚ} {m c least : Nat} (h : least ≤ c) (hvalue : p * 2 ^ unit = m * 2 ^ c) :
    ((m * 2 ^ (c - least) : Nat) : ℚ) * 2 ^ least = p * 2 ^ unit := by
  push_cast
  rw [mul_assoc,← pow_add,Nat.sub_add_cancel h,hvalue]

theorem decreaseExponent_fst {m c least : Nat} (h : least ≤ c) :
    (decreaseExponent m ((c : Int) - unit) ((least : Int) - unit)).1 = m * 2 ^ (c - least) := by
  have hcount : ((c : Int) - unit - (least - unit)).toNat = c - least := by omega
  rw [decreaseExponent,hcount]
  exact Nat.shiftLeft_eq ..

theorem min_exponents (c d : Nat) :
    min ((c : Int) - unit) ((d : Int) - unit) = (min c d : Nat) - unit := by
  omega

theorem HasValue.lt_two_pow {x : Float} {q : ℚ} {r : Nat} (h : HasValue x q r) :
    q < 2 ^ (r + 53) := by
  obtain ⟨m,c,hm,-,hhigh,hvalue⟩ := h
  have hscaled : q * 2 ^ unit < 2 ^ (r + 53) * 2 ^ unit := by
    rw [hvalue,← pow_add]
    have hbound : m * 2 ^ c < 2 ^ (r + 53 + unit) := by
      calc m * 2 ^ c < 2 ^ 53 * 2 ^ c := Nat.mul_lt_mul_of_pos_right hm.normal.lt (Nat.two_pow_pos _)
        _ ≤ 2 ^ (r + 53 + unit) := by
          rw [← pow_add]
          exact Nat.pow_le_pow_right Nat.two_pos (by omega)
    exact_mod_cast hbound
  exact lt_of_mul_lt_mul_right hscaled (by positivity)

/-- A value of moderate size in whole units is rounded, if it is not negative. -/
theorem exists_hasAmount_normalize {k : Int} {e r : Nat} {t : ℚ} (ht : 0 ≤ t)
    (hvalue : (k : ℚ) * 2 ^ e = t * 2 ^ unit) (hlow : unit ≤ e + r) (hhigh : t < 2 ^ r)
    (hrange : r ≤ 900) :
    ∃ u, HasAmount
        ⟨Float.Model.pack (UnpackedFloat.normalize Format.binary64 k (e - unit) .positive)⟩ u
        (r + 52) ∧ IsNearest t u := by
  have hk : 0 ≤ k := by
    have hscaled : (0 : ℚ) ≤ k * 2 ^ e := by rw [hvalue]; positivity
    exact_mod_cast nonneg_of_mul_nonneg_left hscaled (by positivity)
  obtain ⟨n,rfl⟩ := Int.eq_ofNat_of_zero_le hk
  rcases Nat.eq_zero_or_pos n with rfl | hn
  · have hzero : t = 0 := by
      rw [Int.ofNat_zero,Int.cast_zero,zero_mul] at hvalue
      exact (mul_eq_zero.mp hvalue.symm).resolve_right (by positivity)
    exact ⟨0,Or.inl ⟨rfl,.positive,unpack_packedZero⟩,hzero ▸ isNearest_zero⟩
  · have hbound : n * 2 ^ e < 2 ^ (unit + r) := by
      have hscaled : (n : ℚ) * 2 ^ e < 2 ^ unit * 2 ^ r := by
        rw [Int.cast_natCast] at hvalue
        rw [hvalue,mul_comm]
        gcongr
      rw [← pow_add] at hscaled
      exact_mod_cast hscaled
    obtain ⟨u,hu,hnearest⟩ := exists_hasValue_round hn hlow hbound hrange
    have hexact : (n : ℚ) * 2 ^ e / 2 ^ unit = t := by
      rw [div_eq_iff (by positivity)]
      exact hvalue
    rw [normalize_of_pos _ rfl hn]
    exact ⟨u,Or.inr hu,hexact ▸ hnearest⟩

namespace HasAmount
variable {x y : Float} {p q : ℚ} {r r' : Nat}

theorem of_unpack_zero {s : Sign} (h : x.toModel.unpack = .zero s) : HasAmount x 0 r :=
  Or.inl ⟨rfl,s,h⟩

theorem exists_mul (hx : HasAmount x p r) (hy : HasAmount y q r') (hrange : r + r' ≤ 800) :
    ∃ t, HasAmount (x * y) t (r + r' + 54) ∧ IsNearest (p * q) t := by
  have hunit := unit_eq
  have hproduct : (x * y).toModel.unpack = (Float.Model.pack
      (UnpackedFloat.mul Format.binary64 x.toModel.unpack y.toModel.unpack)).unpack := rfl
  rcases hx with ⟨rfl,s,hx⟩ | ⟨m,c,hm,hlow,hhigh,hvalue⟩
  · rcases hy with ⟨rfl,s',hy⟩ | ⟨n,d,hn,-⟩
    · rw [hx,hy] at hproduct
      exact ⟨0,of_unpack_zero (hproduct.trans unpack_packedZero),by rw [zero_mul]; exact isNearest_zero⟩
    · obtain ⟨hpos,hy⟩ := hn.unpack
      rw [hx,hy] at hproduct
      exact ⟨0,of_unpack_zero (hproduct.trans unpack_packedZero),by rw [zero_mul]; exact isNearest_zero⟩
  · rcases hy with ⟨rfl,s',hy⟩ | ⟨n,d,hn,hlow',hhigh',hvalue'⟩
    · obtain ⟨hpos,hx⟩ := hm.unpack
      rw [hx,hy] at hproduct
      exact ⟨0,of_unpack_zero (hproduct.trans unpack_packedZero),by rw [mul_zero]; exact isNearest_zero⟩
    · obtain ⟨k,a,hk,hrounds⟩ := hm.exists_mul_roundsTo hn (by omega) (by omega)
      have hlong : m * n < 2 ^ (53 + 53) * 1 := by
        rw [pow_add,Nat.mul_one]
        exact Nat.mul_lt_mul'' hm.normal.lt hn.normal.lt
      have hexcess := excess_le hlong
      have hleast := hrounds.le_exponent
      have hmost := hrounds.exponent_le
      refine ⟨k * 2 ^ a / 2 ^ unit,Or.inr ⟨k,a,hk,by omega,by omega,by field_simp⟩,
        Or.inr ⟨_,_,k,a,hrounds,?_,by field_simp⟩⟩
      have hexponent : c + d - unit + unit = c + d := by omega
      refine mul_right_cancel₀ (pow_ne_zero unit (two_ne_zero : (2 : ℚ) ≠ 0)) ?_
      push_cast
      calc (m : ℚ) * n * 2 ^ (c + d - unit) * 2 ^ unit = m * 2 ^ c * (n * 2 ^ d) := by
            rw [mul_assoc _ (2 ^ (c + d - unit)),← pow_add,hexponent,pow_add]
            ring
        _ = p * q * 2 ^ unit * 2 ^ unit := by
            rw [← hvalue,← hvalue']
            ring

theorem exists_add (hx : HasAmount x p r) (hy : HasAmount y q r) (hrange : r ≤ 800) :
    ∃ t, HasAmount (x + y) t (r + 106) ∧ IsNearest (p + q) t := by
  have hsum : x + y = ⟨Float.Model.pack
      (UnpackedFloat.add Format.binary64 x.toModel.unpack y.toModel.unpack)⟩ := rfl
  rcases hx with ⟨rfl,s,hx⟩ | hx
  · rcases hy with ⟨rfl,s',hy⟩ | hy
    · refine ⟨0,?_,by rw [zero_add]; exact isNearest_zero⟩
      rw [hsum,hx,hy,UnpackedFloat.add]
      split_ifs
      · exact of_unpack_zero unpack_packedZero
      · exact of_unpack_zero unpack_packedZero
    · refine ⟨q,?_,by rw [zero_add]; exact hy.isNearest⟩
      obtain ⟨n,d,hn,-⟩ := id hy
      obtain ⟨hpos,hunpack⟩ := hn.unpack
      have hsame : UnpackedFloat.add Format.binary64 x.toModel.unpack y.toModel.unpack =
          y.toModel.unpack := by
        rw [hx,hunpack]
        rfl
      rw [hsum,hsame]
      exact Or.inr ((hy.repack (by omega)).mono (by omega))
  · obtain ⟨m,c,hm,hlow,hhigh,hvalue⟩ := id hx
    obtain ⟨hpos,hunpack⟩ := hm.unpack
    rcases hy with ⟨rfl,s',hy⟩ | hy
    · refine ⟨p,?_,by rw [add_zero]; exact hx.isNearest⟩
      have hsame : UnpackedFloat.add Format.binary64 x.toModel.unpack y.toModel.unpack =
          x.toModel.unpack := by
        rw [hunpack,hy]
        rfl
      rw [hsum,hsame]
      exact Or.inr ((hx.repack (by omega)).mono (by omega))
    · obtain ⟨n,d,hn,hlow',hhigh',hvalue'⟩ := id hy
      obtain ⟨hpos',hunpack'⟩ := hn.unpack
      have hexact : ((m * 2 ^ (c - min c d) : Nat) + (n * 2 ^ (d - min c d) : Nat) : Int) *
          (2 : ℚ) ^ min c d = (p + q) * 2 ^ unit := by
        rw [Int.cast_add,Int.cast_natCast,Int.cast_natCast,add_mul,add_mul p,
          aligned_value (Nat.min_le_left ..) hvalue,aligned_value (Nat.min_le_right ..) hvalue']
      have hbound : p + q < 2 ^ (r + 54) := by
        calc p + q < 2 ^ (r + 53) + 2 ^ (r + 53) := add_lt_add hx.lt_two_pow hy.lt_two_pow
          _ = 2 ^ (r + 54) := by ring
      have haligned : UnpackedFloat.add Format.binary64 x.toModel.unpack y.toModel.unpack =
          UnpackedFloat.normalize Format.binary64
            ((m * 2 ^ (c - min c d) : Nat) + (n * 2 ^ (d - min c d) : Nat))
            ((min c d : Nat) - unit) .positive := by
        rw [hunpack,hunpack',← decreaseExponent_fst (Nat.min_le_left c d),
          ← decreaseExponent_fst (Nat.min_le_right c d),← min_exponents]
        rfl
      rw [hsum,haligned]
      exact exists_hasAmount_normalize (add_nonneg hx.pos.le hy.pos.le) hexact (by omega) hbound
        (by omega)

theorem exists_sub (hx : HasAmount x p r) (hy : HasAmount y q r) (hle : q ≤ p) (hrange : r ≤ 800) :
    ∃ t, HasAmount (x - y) t (r + 106) ∧ IsNearest (p - q) t := by
  have hdifference : x - y = ⟨Float.Model.pack
      (UnpackedFloat.sub Format.binary64 x.toModel.unpack y.toModel.unpack)⟩ := rfl
  rcases hx with ⟨rfl,s,hx⟩ | hx
  · rcases hy with ⟨rfl,s',hy⟩ | hy
    · refine ⟨0,?_,by rw [sub_zero]; exact isNearest_zero⟩
      rw [hdifference,hx,hy,UnpackedFloat.sub]
      split_ifs
      · exact of_unpack_zero unpack_packedZero
      · exact of_unpack_zero unpack_packedZero
    · exact absurd hle (not_le.mpr hy.pos)
  · obtain ⟨m,c,hm,hlow,hhigh,hvalue⟩ := id hx
    obtain ⟨hpos,hunpack⟩ := hm.unpack
    rcases hy with ⟨rfl,s',hy⟩ | hy
    · refine ⟨p,?_,by rw [sub_zero]; exact hx.isNearest⟩
      have hsame : UnpackedFloat.sub Format.binary64 x.toModel.unpack y.toModel.unpack =
          x.toModel.unpack := by
        rw [hunpack,hy]
        rfl
      rw [hdifference,hsame]
      exact Or.inr ((hx.repack (by omega)).mono (by omega))
    · obtain ⟨n,d,hn,hlow',hhigh',hvalue'⟩ := id hy
      obtain ⟨hpos',hunpack'⟩ := hn.unpack
      have hexact : ((m * 2 ^ (c - min c d) : Nat) - (n * 2 ^ (d - min c d) : Nat) : Int) *
          (2 : ℚ) ^ min c d = (p - q) * 2 ^ unit := by
        rw [Int.cast_sub,Int.cast_natCast,Int.cast_natCast,sub_mul,sub_mul p,
          aligned_value (Nat.min_le_left ..) hvalue,aligned_value (Nat.min_le_right ..) hvalue']
      have hbound : p - q < 2 ^ (r + 54) := by
        calc p - q ≤ p := sub_le_self p hy.pos.le
          _ < 2 ^ (r + 53) := hx.lt_two_pow
          _ ≤ 2 ^ (r + 54) := by gcongr <;> norm_num
      have haligned : UnpackedFloat.sub Format.binary64 x.toModel.unpack y.toModel.unpack =
          UnpackedFloat.normalize Format.binary64
            ((m * 2 ^ (c - min c d) : Nat) - (n * 2 ^ (d - min c d) : Nat))
            ((min c d : Nat) - unit) .positive := by
        rw [hunpack,hunpack',← decreaseExponent_fst (Nat.min_le_left c d),
          ← decreaseExponent_fst (Nat.min_le_right c d),← min_exponents]
        rfl
      rw [hdifference,haligned]
      exact exists_hasAmount_normalize (sub_nonneg.mpr hle) hexact (by omega) hbound (by omega)

end HasAmount

end SizeSurvey.Rounding
