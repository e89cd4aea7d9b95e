import Mathlib
import SizeSurvey.Distribution.Percentile
import SizeSurvey.Proofs.Rounding.Magnitude

/-! # Rounding of products

A product of floating point numbers is rounded to a number of 53 bits. Rounding never passes a
number that has 53 bits itself, which bounds a product from above by any such number that is not
below the exact product.
-/
namespace SizeSurvey.Rounding
open Float.Model UnpackedFloat

/-! ## Rounding of whole numbers -/

/-- A number of 53 bits that is not below the one magnitude is not below the other. -/
def StaysBelow (exact rounded : Nat) : Prop :=
  ∀ k b, k < 2 ^ 53 → exact ≤ k * 2 ^ b → rounded ≤ k * 2 ^ b

theorem StaysBelow.le {exact rounded k b : Nat} (h : StaysBelow exact rounded) (hk : k ≤ 2 ^ 53)
    (hexact : exact ≤ k * 2 ^ b) : rounded ≤ k * 2 ^ b := by
  rcases Nat.lt_or_eq_of_le hk with hlt | rfl
  · exact h k b hlt hexact
  · -- The bound is one bit longer, but its magnitude has a mantissa of 53 bits too.
    have hcarry : 2 ^ 53 * 2 ^ b = 2 ^ 52 * 2 ^ (b + 1) := by rw [← pow_add,← pow_add]; congr 1; omega
    rw [hcarry] at hexact ⊢
    exact h _ _ (by decide) hexact

theorem RoundsTo.staysBelow {m a n c : Nat} (h : RoundsTo m 1 a n c) :
    StaysBelow (m * 2 ^ a) (n * 2 ^ c) := by
  intro k b hk hle
  rw [h.value_eq,Nat.one_mul]
  by_cases hb : a + excess m 1 ≤ b
  · obtain ⟨d,rfl⟩ := Nat.exists_eq_add_of_le hb
    have hsplit : k * 2 ^ (a + excess m 1 + d) = k * 2 ^ d * 2 ^ excess m 1 * 2 ^ a := by
      rw [pow_add,pow_add]
      ac_rfl
    have hexact : m ≤ k * 2 ^ d * 2 ^ excess m 1 :=
      Nat.le_of_mul_le_mul_right (hsplit ▸ hle) (Nat.two_pow_pos a)
    calc nearest m (2 ^ excess m 1) * 2 ^ (a + excess m 1)
        ≤ k * 2 ^ d * 2 ^ (a + excess m 1) :=
          Nat.mul_le_mul_right _ (nearest_le (Nat.two_pow_pos _) hexact)
      _ = k * 2 ^ (a + excess m 1 + d) := by rw [pow_add _ _ d]; ac_rfl
  · -- Such a number would be less than the leading bit of `m * 2 ^ a`.
    refine absurd hle (Nat.not_le.mpr ?_)
    calc k * 2 ^ b < 2 ^ 53 * 2 ^ b := Nat.mul_lt_mul_of_pos_right hk (Nat.two_pow_pos b)
      _ = 2 ^ 52 * 2 ^ (b + 1) := by ring
      _ ≤ 2 ^ 52 * 2 ^ (a + excess m 1) :=
          Nat.mul_le_mul_left _ (Nat.pow_le_pow_right Nat.two_pos (by omega))
      _ = 2 ^ 52 * (1 * 2 ^ excess m 1) * 2 ^ a := by ring
      _ ≤ m * 2 ^ a := Nat.mul_le_mul_right _ h.fraction_bounds.1

/-- A whole number does not pass a number of 53 bits either when it becomes a floating point
number. -/
theorem exists_measures_toFloat {n : UInt64} (hn : 0 < n.toNat) :
    ∃ m c, Measures n.toFloat m c ∧ unit ≤ c + 52 ∧ c ≤ unit + 12 ∧
      StaysBelow (n.toNat * 2 ^ unit) (m * 2 ^ c) := by
  have hunit := unit_eq
  obtain ⟨m,c,hmeasures,hlow,hhigh,hrounds⟩ := exists_roundsTo_toFloat hn
  have hvalue : n.toNat * 2 ^ (52 - n.toNat.log2) * 2 ^ (unit - (52 - n.toNat.log2)) =
      n.toNat * 2 ^ unit := by
    rw [Nat.mul_assoc,← pow_add,Nat.add_sub_cancel' (by omega)]
  have hbelow := hrounds.staysBelow
  rw [hvalue] at hbelow
  exact ⟨m,c,hmeasures,hlow,hhigh,hbelow⟩

theorem Measures.exists_mul_roundsTo {x y : Float} {m c n d : Nat} (hx : Measures x m c)
    (hy : Measures y n d) (hlow : unit ≤ c + d) (hhigh : c + d ≤ 2 * unit + 900) :
    ∃ k a, Measures (x * y) k a ∧ RoundsTo (m * n) 1 (c + d - unit) k a := by
  have hm : 2 ^ 52 ≤ m * n := Nat.le_trans hx.normal.le (Nat.le_mul_of_pos_right m hy.normal.pos)
  obtain ⟨k,a,h,hround,hrounds⟩ := exists_roundsTo_whole (c + d - unit) hm
  have hproduct : m * n < 2 ^ (53 + 53) * 1 := by
    rw [pow_add,Nat.mul_one]
    exact Nat.mul_lt_mul'' hx.normal.lt hy.normal.lt
  have hexcess := excess_le hproduct
  have hexponent := hrounds.exponent_le
  refine ⟨k,a,?_,hrounds⟩
  obtain ⟨hmpos,hunpack⟩ := hx.unpack
  obtain ⟨hnpos,hunpack'⟩ := hy.unpack
  have hsum : ((c : Int) - unit) + (d - unit) = (c + d - unit : Nat) - unit := by omega
  have hfloat : x * y = ⟨Float.Model.pack (.finite .positive k (a - unit) h)⟩ := by
    rw [← hround,← hsum]
    change Float.ofModel (Float.Model.pack (UnpackedFloat.mul _ x.toModel.unpack y.toModel.unpack)) = _
    rw [hunpack,hunpack']
    rfl
  rw [hfloat]
  exact .ofModel_pack h hrounds.normal (by omega)

/-- **A product does not pass a number of 53 bits** that is not below it. -/
theorem Measures.exists_mul {x y : Float} {m c n d : Nat} (hx : Measures x m c) (hy : Measures y n d)
    (hlow : unit ≤ c + d) (hhigh : c + d ≤ 2 * unit + 900) :
    ∃ k a, Measures (x * y) k a ∧ StaysBelow (m * n * 2 ^ (c + d - unit)) (k * 2 ^ a) := by
  obtain ⟨k,a,hproduct,hrounds⟩ := hx.exists_mul_roundsTo hy hlow hhigh
  exact ⟨k,a,hproduct,hrounds.staysBelow⟩

/-! ## Cutting -/

theorem roundToInt_eq (m c : Nat) :
    roundToInt .positive m (c - unit) = (m * 2 ^ c / 2 ^ unit : Nat) := by
  have hshift : roundToInt .positive m (c - unit) =
      (ExtendedMantissa.ofMantissaAndAccuracy (m * 2 ^ (c - unit)) .exact >>> (unit - c)).mantissa := by
    have hleft : ((c : Int) - unit - 0).toNat = c - unit := by omega
    have hright : (0 - ((c : Int) - unit - (c - unit : Nat))).toNat = unit - c := by omega
    simp only [roundToInt,decreaseExponent,shiftToExponent,hleft,hright,Nat.shiftLeft_eq]
    rfl
  rw [hshift,mantissa_shift]
  refine Int.natCast_inj.mpr ?_
  rcases Nat.le_total unit c with h | h
  · obtain ⟨d,rfl⟩ := Nat.exists_eq_add_of_le h
    rw [Nat.add_sub_cancel_left,Nat.sub_eq_zero_of_le h,pow_add,← Nat.mul_assoc,
      Nat.mul_right_comm,Nat.mul_div_cancel _ (Nat.two_pow_pos unit),Nat.pow_zero,Nat.div_one]
  · obtain ⟨d,hd⟩ := Nat.exists_eq_add_of_le h
    rw [Nat.sub_eq_zero_of_le h,Nat.pow_zero,Nat.mul_one,hd,Nat.add_sub_cancel_left,pow_add,
      Nat.mul_comm m,Nat.mul_div_mul_left _ _ (Nat.two_pow_pos c)]

theorem Measures.toNat_toUInt64 {x : Float} {m c : Nat} (hx : Measures x m c) :
    x.toUInt64.toNat = min (m * 2 ^ c / 2 ^ unit) (UInt64.size - 1) := by
  obtain ⟨hpos,hunpack⟩ := hx.unpack
  change (UnpackedFloat.toUInt64 x.toModel.unpack).toNat = _
  rw [hunpack,UnpackedFloat.toUInt64,UnpackedFloat.toInt,roundToInt_eq,Int.toNat_natCast]
  rcases Nat.lt_or_ge (m * 2 ^ c / 2 ^ unit) UInt64.size with hlt | hge
  · rw [UInt64.toNat_ofNatClamp_of_lt hlt,Nat.min_eq_left (by omega)]
  · rw [UInt64.toNat_ofNatClamp_of_le hge,Nat.min_eq_right (by omega)]

end SizeSurvey.Rounding
