import SizeSurvey.Proofs.Distribution.Rounding

/-! # Values of floating point numbers

A number of moderate size has a rational value, and numbers are in the order of their values. Whole
numbers of 53 bits are exact, and a quotient of numbers is off by half a unit in its last place.
-/
namespace SizeSurvey.Rounding
open Float.Model

/-! ## Exact roundings -/

section Rounded
variable {m d a n c k b : Nat}

theorem roundsTo_self (h : IsNormal n) (c : Nat) : RoundsTo n 1 c n c := by
  have hexcess : excess n 1 = 0 := by rw [excess,Nat.div_one,h.log2_eq]
  refine ⟨Nat.one_pos,by rw [Nat.div_one]; exact h.le,h,Nat.le_refl c,?_⟩
  rw [hexcess,Nat.add_zero,Nat.pow_zero,Nat.mul_one,nearest,Nat.mod_one,Nat.div_one]
  rfl

/-- A fraction that is a number of 53 bits is not changed. -/
theorem RoundsTo.value_eq_of_eq (h : RoundsTo m d a n c) (hk : IsNormal k)
    (heq : m * 2 ^ a = k * 2 ^ b * d) : n * 2 ^ c = k * 2 ^ b := by
  have hself := roundsTo_self hk b
  refine Nat.le_antisymm (h.mono hself ?_) (hself.mono h ?_)
  · rw [Nat.mul_one]
    exact heq.le
  · rw [Nat.mul_one]
    exact heq.ge

/-! ## Errors -/

theorem nearest_error (m : Nat) (hd : 0 < d) :
    2 * (nearest m d * d) ≤ 2 * m + d ∧ 2 * m ≤ 2 * (nearest m d * d) + d := by
  have hm := Nat.div_add_mod' m d
  have hrest := Nat.mod_lt m hd
  unfold nearest
  split_ifs with hover hhalf
  · rw [Nat.add_mul,Nat.one_mul]
    omega
  · rcases Nat.mod_two_eq_zero_or_one (m / d) with heven | hodd
    · rw [heven,Nat.add_zero]
      omega
    · rw [hodd,Nat.add_mul,Nat.one_mul]
      omega
  · rw [Nat.add_zero]
    omega

/-- Rounding to 53 bits moves a fraction by at most one part in `2 ^ 53`. -/
theorem RoundsTo.error (h : RoundsTo m d a n c) :
    2 ^ 53 * (n * 2 ^ c * d) ≤ (2 ^ 53 + 1) * (m * 2 ^ a) ∧
      (2 ^ 53 - 1) * (m * 2 ^ a) ≤ 2 ^ 53 * (n * 2 ^ c * d) := by
  have hpos : 0 < d * 2 ^ excess m d := Nat.mul_pos h.divisor_pos (Nat.two_pow_pos _)
  obtain ⟨hbelow,habove⟩ := nearest_error m hpos
  have hbits := h.fraction_bounds.1
  have hvalue : n * 2 ^ c * d = nearest m (d * 2 ^ excess m d) * (d * 2 ^ excess m d) * 2 ^ a := by
    rw [h.value_eq,pow_add]
    ac_rfl
  rw [hvalue,← Nat.mul_assoc (2 ^ 53),← Nat.mul_assoc (2 ^ 53 + 1),← Nat.mul_assoc (2 ^ 53 - 1)]
  constructor
  · exact Nat.mul_le_mul_right _ (by omega)
  · exact Nat.mul_le_mul_right _ (by omega)

end Rounded

theorem Measures.lt {x y : Float} {m c n d : Nat} (hx : Measures x m c) (hy : Measures y n d)
    (h : m * 2 ^ c < n * 2 ^ d) : x < y := by
  obtain ⟨p,q,hp,hq,hle⟩ := le_iff_rank.mp (hx.le hy h.le)
  refine lt_iff_rank.mpr ⟨p,q,hp,hq,lt_of_le_of_ne hle ?_⟩
  -- Numbers of the same rank would have the same magnitude.
  rintro rfl
  obtain ⟨hmpos,hunpack⟩ := hx.unpack
  obtain ⟨hnpos,hunpack'⟩ := hy.unpack
  rw [hunpack] at hp
  rw [hunpack',← hp] at hq
  have hrank := Option.some_inj.mp hq
  have hpair := congrArg (fun rank => (ofLex (ofLex rank).2)) hrank
  obtain ⟨hexponent,hmantissa⟩ := Prod.mk.inj hpair
  obtain rfl : d = c := by omega
  obtain rfl : n = m := by omega
  exact lt_irrefl _ h

/-! ## Values -/

/-- A positive number of value `q`, the exponent of which is not far from zero. -/
def HasValue (x : Float) (q : ℚ) (range : Nat) : Prop :=
  ∃ m c, Measures x m c ∧ unit ≤ c + range ∧ c ≤ unit + range ∧ q * 2 ^ unit = m * 2 ^ c

namespace HasValue
variable {x y z w : Float} {p q s t : ℚ} {r r' : Nat}

theorem pos (h : HasValue x p r) : 0 < p := by
  obtain ⟨m,c,hmeasures,-,-,hvalue⟩ := h
  have hm : 0 < m := hmeasures.normal.pos
  have hproduct : 0 < p * 2 ^ unit := by
    rw [hvalue]
    positivity
  exact pos_of_mul_pos_left hproduct (by positivity)

theorem le (hx : HasValue x p r) (hy : HasValue y q r') (h : p ≤ q) : x ≤ y := by
  obtain ⟨m,c,hm,-,-,hvalue⟩ := hx
  obtain ⟨n,d,hn,-,-,hvalue'⟩ := hy
  refine hm.le hn ?_
  have hscaled : (m : ℚ) * 2 ^ c ≤ n * 2 ^ d := by
    rw [← hvalue,← hvalue']
    gcongr
  exact_mod_cast hscaled

theorem lt (hx : HasValue x p r) (hy : HasValue y q r') (h : p < q) : x < y := by
  obtain ⟨m,c,hm,-,-,hvalue⟩ := hx
  obtain ⟨n,d,hn,-,-,hvalue'⟩ := hy
  refine hm.lt hn ?_
  have hscaled : (m : ℚ) * 2 ^ c < n * 2 ^ d := by
    rw [← hvalue,← hvalue']
    gcongr
  exact_mod_cast hscaled

theorem mono (h : HasValue x p r) (hrange : r ≤ r') : HasValue x p r' := by
  obtain ⟨m,c,hm,hlow,hhigh,hvalue⟩ := h
  exact ⟨m,c,hm,by omega,by omega,hvalue⟩

theorem isFinite (h : HasValue x p r) : x.isFinite = true := by
  obtain ⟨m,c,hm,-⟩ := h
  obtain ⟨hpos,hunpack⟩ := hm.unpack
  change UnpackedFloat.isFinite x.toModel.unpack = true
  rw [hunpack]
  rfl

theorem zero_lt (h : HasValue x p r) : 0.0 < x := by
  obtain ⟨m,c,hm,-⟩ := h
  obtain ⟨hpos,hunpack⟩ := hm.unpack
  refine lt_iff_rank.mpr ⟨_,_,rfl,congrArg rank hunpack,?_⟩
  exact Prod.Lex.toLex_lt_toLex.mpr (Or.inl Int.one_pos)

theorem not_lt_zero (h : HasValue x p r) : ¬x < 0.0 := by
  obtain ⟨k,l,hk,hl,hlt⟩ := lt_iff_rank.mp h.zero_lt
  exact not_lt_of_le (le_iff_rank.mpr ⟨k,l,hk,hl,hlt.le⟩)

theorem toFloat {n : UInt64} (hpos : 0 < n.toNat) (hlt : n.toNat < 2 ^ 53) :
    HasValue n.toFloat n.toNat 52 := by
  have hunit := unit_eq
  obtain ⟨m,c,hmeasures,hlow,hhigh,hrounds⟩ := exists_roundsTo_toFloat hpos
  have hlog : n.toNat.log2 < 53 := (Nat.log2_lt (Nat.ne_of_gt hpos)).mpr hlt
  have hnormal : IsNormal (n.toNat * 2 ^ (52 - n.toNat.log2)) := by
    refine ⟨le_mul_two_pow_log2 hpos,?_⟩
    calc n.toNat * 2 ^ (52 - n.toNat.log2) < 2 ^ (n.toNat.log2 + 1) * 2 ^ (52 - n.toNat.log2) :=
          Nat.mul_lt_mul_of_pos_right Nat.lt_log2_self (Nat.two_pow_pos _)
      _ = 2 ^ 53 := by rw [← pow_add]; congr 1; omega
  have hvalue := hrounds.value_eq_of_eq hnormal (Nat.mul_one _).symm
  rw [Nat.mul_assoc,← pow_add,Nat.add_sub_cancel' (by omega)] at hvalue
  exact ⟨m,c,hmeasures,by omega,by omega,by exact_mod_cast hvalue.symm⟩

theorem mul_one (hx : HasValue x p r) (hrange : r ≤ 800) : HasValue (x * 1.0) p (r + 52) := by
  have hunit := unit_eq
  obtain ⟨m,c,hm,hlow,hhigh,hvalue⟩ := hx
  have hone : Measures 1.0 (2 ^ 52) (unit - 52) := ⟨⟨by decide,by decide⟩,by decide,rfl⟩
  obtain ⟨k,a,hk,hrounds⟩ := hm.exists_mul_roundsTo hone (by omega) (by omega)
  have hproduct : m * 2 ^ 52 < 2 ^ (53 + 52) * 1 := by
    rw [pow_add,Nat.mul_one]
    exact Nat.mul_lt_mul_of_pos_right hm.normal.lt (Nat.two_pow_pos 52)
  have hexcess := excess_le hproduct
  have hleast := hrounds.le_exponent
  have hmost := hrounds.exponent_le
  have hsame : k * 2 ^ a = m * 2 ^ c := by
    have hexponent : 52 + (c + (unit - 52) - unit) = c := by omega
    refine hrounds.value_eq_of_eq hm.normal ?_
    rw [Nat.mul_one,Nat.mul_assoc,← pow_add,hexponent]
  refine ⟨k,a,hk,by omega,by omega,hvalue.trans ?_⟩
  exact_mod_cast hsame.symm

/-! ## Quotients -/

theorem exists_roundsTo_div (hx : HasValue x p r) (hy : HasValue y q r') (hrange : r + r' ≤ 800) :
    ∃ m d a n c, Measures (x / y) n c ∧ RoundsTo m d a n c ∧ unit ≤ c + (r + r' + 54) ∧
      c ≤ unit + (r + r' + 54) ∧ (m : ℚ) * 2 ^ a = p / q * 2 ^ unit * d := by
  have hunit := unit_eq
  obtain ⟨m,c,hm,hlow,hhigh,hvalue⟩ := hx
  have hq := hy.pos
  obtain ⟨n,d,hn,hlow',hhigh',hvalue'⟩ := hy
  obtain ⟨k,a,hk,hrounds⟩ := hm.exists_div hn (by omega) (by omega)
  have hexcess := excess_quotient_le hm.normal hn.normal
  have hleast := hrounds.le_exponent
  have hmost := hrounds.exponent_le
  refine ⟨m * 2 ^ 53,n,c + unit - d - 53,k,a,hk,hrounds,by omega,by omega,?_⟩
  have hpower : (2 : ℚ) ^ 53 * 2 ^ (c + unit - d - 53) * 2 ^ d = 2 ^ c * 2 ^ unit := by
    rw [← pow_add,← pow_add,← pow_add]
    congr 1
    omega
  have hd : (2 : ℚ) ^ d ≠ 0 := by positivity
  refine mul_right_cancel₀ hd ?_
  push_cast
  calc (m : ℚ) * 2 ^ 53 * 2 ^ (c + unit - d - 53) * 2 ^ d = m * 2 ^ c * 2 ^ unit := by
        rw [mul_assoc (m : ℚ),mul_assoc (m : ℚ),hpower,mul_assoc]
    _ = p / q * 2 ^ unit * (q * 2 ^ unit) := by
        rw [← hvalue]
        field_simp
    _ = p / q * 2 ^ unit * n * 2 ^ d := by rw [hvalue',mul_assoc _ (n : ℚ)]

/-- **A quotient is off by one part in `2 ^ 53` at most.** -/
theorem exists_div (hx : HasValue x p r) (hy : HasValue y q r') (hrange : r + r' ≤ 800) :
    ∃ t, HasValue (x / y) t (r + r' + 54) ∧ (2 ^ 53 - 1) * (p / q) ≤ 2 ^ 53 * t ∧
      2 ^ 53 * t ≤ (2 ^ 53 + 1) * (p / q) := by
  obtain ⟨m,d,a,n,c,hn,hrounds,hlow,hhigh,hvalue⟩ := hx.exists_roundsTo_div hy hrange
  have hd : (0 : ℚ) < 2 ^ unit * d := by
    have hdivisor := hrounds.divisor_pos
    positivity
  have hscaled : (n : ℚ) * 2 ^ c / 2 ^ unit * (2 ^ unit * d) = n * 2 ^ c * d := by
    field_simp
  obtain ⟨hbelow,habove⟩ := hrounds.error
  have hcast : ((2 ^ 53 - 1 : Nat) : ℚ) = 2 ^ 53 - 1 := by norm_num
  refine ⟨n * 2 ^ c / 2 ^ unit,⟨n,c,hn,hlow,hhigh,by field_simp⟩,?_,?_⟩
  · refine le_of_mul_le_mul_right ?_ hd
    rw [mul_assoc (2 ^ 53 : ℚ),hscaled,mul_assoc _ (p / q),← mul_assoc (p / q),← hvalue,← hcast]
    exact_mod_cast habove
  · refine le_of_mul_le_mul_right ?_ hd
    rw [mul_assoc (2 ^ 53 : ℚ),hscaled,mul_assoc _ (p / q),← mul_assoc (p / q),← hvalue]
    exact_mod_cast hbelow

theorem div_le_div {r₁ r₂ r₃ r₄ : Nat} (hx : HasValue x p r₁) (hy : HasValue y q r₂)
    (hz : HasValue z s r₃) (hw : HasValue w t r₄) (hrange : r₁ + r₂ ≤ 800) (hrange' : r₃ + r₄ ≤ 800)
    (h : p / q ≤ s / t) : x / y ≤ z / w := by
  obtain ⟨m,d,a,n,c,hn,hrounds,-,-,hvalue⟩ := hx.exists_roundsTo_div hy hrange
  obtain ⟨m',d',a',n',c',hn',hrounds',-,-,hvalue'⟩ := hz.exists_roundsTo_div hw hrange'
  refine hn.le hn' (hrounds.mono hrounds' ?_)
  have hscaled : (m : ℚ) * 2 ^ a * d' ≤ m' * 2 ^ a' * d := by
    rw [hvalue,hvalue',mul_right_comm]
    gcongr
  exact_mod_cast hscaled

end HasValue

end SizeSurvey.Rounding
