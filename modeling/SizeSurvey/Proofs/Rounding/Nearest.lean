import Mathlib

/-! # Rounding of fractions

A fraction is rounded to the nearest number of 53 bits, and to the even one of two that are equally
near. Its bits are dropped one at a time, but what is left in the end depends on the fraction alone,
and a larger fraction is never rounded to a smaller number.

Magnitudes are natural numbers here, multiples of the least positive number.
-/
namespace SizeSurvey.Rounding
open Float.Model UnpackedFloat

/-- All magnitudes are multiples of `2 ^ -unit`. -/
def unit : Nat := 1074

theorem unit_eq : unit = 1074 := rfl

/-! ## The nearest whole number -/

/-- The whole number that is nearest to a fraction. -/
def nearest (m d : Nat) : Nat :=
  m / d + if d < 2 * (m % d) then 1 else if d = 2 * (m % d) then m / d % 2 else 0

theorem nearest_bounds (m d : Nat) : m / d ≤ nearest m d ∧ nearest m d ≤ m / d + 1 := by
  unfold nearest
  split_ifs <;> omega

theorem nearest_mono {m d m' d' : Nat} (hd : 0 < d) (hd' : 0 < d') (h : m * d' ≤ m' * d) :
    nearest m d ≤ nearest m' d' := by
  have hquotient : m / d ≤ m' / d' := by
    rw [Nat.le_div_iff_mul_le hd']
    refine Nat.le_of_mul_le_mul_right ?_ hd
    calc m / d * d' * d = m / d * d * d' := Nat.mul_right_comm ..
      _ ≤ m * d' := Nat.mul_le_mul_right _ (Nat.div_mul_le_self m d)
      _ ≤ m' * d := h
  rcases Nat.lt_or_eq_of_le hquotient with hlt | heq
  · exact (nearest_bounds m d).2.trans (hlt.trans_le (nearest_bounds m' d').1)
  · -- The quotients are the same, so the remainders are in the order of the fractions.
    have hremainder : m % d * d' ≤ m' % d' * d := by
      have hm := Nat.div_add_mod' m d
      have hm' := Nat.div_add_mod' m' d'
      rw [← hm,← hm',heq,Nat.add_mul,Nat.add_mul,Nat.mul_right_comm (m' / d')] at h
      exact Nat.le_of_add_le_add_left h
    have hover : d < 2 * (m % d) → d' < 2 * (m' % d') := fun hgt => by nlinarith
    have hhalf : d = 2 * (m % d) → d' ≤ 2 * (m' % d') := fun he => by nlinarith
    unfold nearest
    rw [heq]
    split_ifs <;> omega

theorem nearest_le {m d bound : Nat} (hd : 0 < d) (h : m ≤ bound * d) : nearest m d ≤ bound := by
  have hbound : nearest bound 1 = bound := by simp [nearest,Nat.mod_one]
  exact (nearest_mono hd Nat.one_pos (by rwa [Nat.mul_one])).trans_eq hbound

/-! ## Dropping bits -/

/-- What is kept of a fraction while it is rounded: its whole part, whether the rest is at least a
half, and whether it is neither a half nor nothing. -/
structure Holds (em : ExtendedMantissa) (m d : Nat) : Prop where
  mantissa_eq : em.mantissa = m / d
  roundBit_iff : em.roundBit = true ↔ d ≤ 2 * (m % d)
  stickyBit_iff : em.stickyBit = true ↔ 2 * (m % d) ≠ 0 ∧ 2 * (m % d) ≠ d

theorem holds_ofFraction {m d : Nat} (hd : 0 < d) :
    Holds (ExtendedMantissa.ofMantissaAndAccuracy (m / d) (accuracyOfFraction (m % d) d)) m d := by
  unfold accuracyOfFraction
  split_ifs with hzero
  · exact ⟨rfl,by simp [ExtendedMantissa.ofMantissaAndAccuracy]; omega,
      by simp [ExtendedMantissa.ofMantissaAndAccuracy,hzero]⟩
  · cases hcompare : compare (2 * (m % d)) d with
    | lt =>
      have := Nat.compare_eq_lt.mp hcompare
      exact ⟨rfl,by simp [ExtendedMantissa.ofMantissaAndAccuracy]; omega,
        by simp [ExtendedMantissa.ofMantissaAndAccuracy]; omega⟩
    | eq =>
      have := Nat.compare_eq_eq.mp hcompare
      exact ⟨rfl,by simp [ExtendedMantissa.ofMantissaAndAccuracy]; omega,
        by simp [ExtendedMantissa.ofMantissaAndAccuracy]; omega⟩
    | gt =>
      have := Nat.compare_eq_gt.mp hcompare
      exact ⟨rfl,by simp [ExtendedMantissa.ofMantissaAndAccuracy]; omega,
        by simp [ExtendedMantissa.ofMantissaAndAccuracy]; omega⟩

variable {em : ExtendedMantissa} {m d : Nat}

/-- To drop a bit is to double the divisor. -/
theorem Holds.shiftRightOne (h : Holds em m d) (hd : 0 < d) : Holds em.shiftRightOne m (d * 2) := by
  have hrest : m % (d * 2) = m % d + d * (m / d % 2) := Nat.mod_mul
  have hlt := Nat.mod_lt m hd
  have hlow : (em.roundBit || em.stickyBit) = true ↔ m % d ≠ 0 := by
    rw [Bool.or_eq_true,h.roundBit_iff,h.stickyBit_iff]
    omega
  have hmantissa : em.mantissa / 2 = m / (d * 2) := by
    rw [h.mantissa_eq,Nat.div_div_eq_div_mul]
  rcases Nat.mod_two_eq_zero_or_one (m / d) with hbit | hbit
  all_goals
    rw [hbit] at hrest
    refine ⟨hmantissa,?_,hlow.trans ?_⟩
    · rw [ExtendedMantissa.shiftRightOne,bne_iff_ne,h.mantissa_eq,hbit]
      omega
    · omega

theorem Holds.shift (h : Holds em m d) (hd : 0 < d) (count : Nat) :
    Holds (em >>> count) m (d * 2 ^ count) := by
  induction count with
  | zero => rwa [Nat.pow_zero,Nat.mul_one]
  | succ count ih =>
    rw [pow_succ,← Nat.mul_assoc]
    exact ih.shiftRightOne (Nat.mul_pos hd (Nat.two_pow_pos count))

theorem mantissa_shift (m count : Nat) :
    (ExtendedMantissa.ofMantissaAndAccuracy m .exact >>> count).mantissa = m / 2 ^ count := by
  have hholds := (holds_ofFraction (m := m) Nat.one_pos).shift Nat.one_pos count
  rw [Nat.mod_one,Nat.div_one,Nat.one_mul] at hholds
  exact hholds.mantissa_eq

/-- What is kept is enough to round as if the whole fraction were known. -/
theorem Holds.roundedMantissa_eq (h : Holds em m d) : em.roundedMantissa = nearest m d := by
  obtain ⟨q,round,sticky⟩ := em
  obtain ⟨hq,hround,hsticky⟩ := h
  simp only at hq hround hsticky
  unfold ExtendedMantissa.roundedMantissa nearest
  cases round <;> cases sticky <;>
    simp [ExtendedMantissa.accuracy,Accuracy.roundToNearestEven] at hround hsticky ⊢ <;>
    split_ifs <;> omega

/-! ## Rounding to 53 bits -/

/-- A mantissa with its leading bit at the place where it is implicit. -/
structure IsNormal (m : Nat) : Prop where
  le : 2 ^ 52 ≤ m
  lt : m < 2 ^ 53

theorem IsNormal.pos {m : Nat} (h : IsNormal m) : 0 < m :=
  Nat.lt_of_lt_of_le (Nat.two_pow_pos 52) h.le

theorem IsNormal.log2_eq {m : Nat} (h : IsNormal m) : m.log2 = 52 :=
  (Nat.log2_eq_iff (Nat.ne_of_gt h.pos)).mpr ⟨h.le,h.lt⟩

theorem IsNormal.add_le_of_le {m c k : Nat} (hm : IsNormal m) (h : m * 2 ^ c ≤ 2 ^ k) :
    52 + c ≤ k := by
  refine (Nat.pow_le_pow_iff_right (Nat.lt_succ_self 1)).mp ?_
  calc 2 ^ (52 + c) = 2 ^ 52 * 2 ^ c := pow_add ..
    _ ≤ m * 2 ^ c := Nat.mul_le_mul_right _ hm.le
    _ ≤ 2 ^ k := h

/-- Both have 53 bits, so the exponents are in the order of the magnitudes. -/
theorem IsNormal.exponent_le {m n c d : Nat} (hm : IsNormal m) (hn : IsNormal n)
    (h : m * 2 ^ c ≤ n * 2 ^ d) : c ≤ d := by
  have hlt : 2 ^ (52 + c) < 2 ^ (53 + d) :=
    calc 2 ^ (52 + c) = 2 ^ 52 * 2 ^ c := pow_add ..
      _ ≤ n * 2 ^ d := Nat.le_trans (Nat.mul_le_mul_right _ hm.le) h
      _ < 2 ^ 53 * 2 ^ d := Nat.mul_lt_mul_of_pos_right hn.lt (Nat.two_pow_pos d)
      _ = 2 ^ (53 + d) := (pow_add ..).symm
  have hexponents := (Nat.pow_lt_pow_iff_right (Nat.lt_succ_self 1)).mp hlt
  omega

theorem shiftToTargetExponent_eq {m : Nat} {e : Int} (accuracy : Accuracy) (hm : 2 ^ 52 ≤ m)
    (he : -1074 ≤ e) :
    shiftToTargetExponent Format.binary64 m e accuracy =
      (ExtendedMantissa.ofMantissaAndAccuracy m accuracy >>> (m.log2 - 52),
        e + (m.log2 - 52 : Nat)) := by
  have hlog : 52 ≤ m.log2 := (Nat.le_log2 (by omega)).mpr hm
  have htarget : Format.binary64.targetExponent (totalExponent m e) = e + (m.log2 - 52 : Nat) := by
    simp only [Format.targetExponent,totalExponent,Format.mantissaBits,Format.minExponent]
    omega
  have hcount : (e + (m.log2 - 52 : Nat) - e).toNat = m.log2 - 52 := by omega
  simp only [shiftToTargetExponent,shiftToExponent,htarget,hcount]

/-- A first shift makes room, and a second one takes back the bit that rounding may have added. -/
theorem roundWithAccuracy_of_shifts {m r : Nat} {e e₁ e₂ : Int} {accuracy : Accuracy}
    {em₁ em₂ : ExtendedMantissa}
    (hfirst : shiftToTargetExponent Format.binary64 m e accuracy = (em₁,e₁))
    (hrounded : em₁.roundedMantissa = r)
    (hsecond : shiftToTargetExponent Format.binary64 r e₁ .exact = (em₂,e₂))
    (hpos : 0 < em₂.mantissa) :
    roundWithAccuracy Format.binary64 .positive m e accuracy =
      .finite .positive em₂.mantissa e₂ hpos := by
  simp only [roundWithAccuracy,hfirst,hrounded,hsecond,dif_neg (Nat.ne_of_gt hpos)]

/-- The mantissa of 53 bits with the magnitude of a rounded mantissa, which may have reached 54. -/
theorem isNormal_shift {r : Nat} (hlow : 2 ^ 52 ≤ r) (hhigh : r ≤ 2 ^ 53) :
    IsNormal (r / 2 ^ (r.log2 - 52)) ∧ r / 2 ^ (r.log2 - 52) * 2 ^ (r.log2 - 52) = r := by
  rcases Nat.lt_or_eq_of_le hhigh with hlt | rfl
  · have hnormal : IsNormal r := ⟨hlow,hlt⟩
    rw [hnormal.log2_eq,Nat.sub_self,Nat.pow_zero,Nat.div_one,Nat.mul_one]
    exact ⟨hnormal,rfl⟩
  · rw [Nat.log2_two_pow]
    exact ⟨⟨by decide,by decide⟩,by decide⟩

theorem isNormal_div {m : Nat} (hm : 2 ^ 52 ≤ m) : IsNormal (m / 2 ^ (m.log2 - 52)) := by
  have hne : m ≠ 0 := by omega
  have hlog : 52 ≤ m.log2 := (Nat.le_log2 hne).mpr hm
  have hpos := Nat.two_pow_pos (m.log2 - 52)
  constructor
  · rw [Nat.le_div_iff_mul_le hpos,← Nat.pow_add,Nat.add_sub_cancel' hlog]
    exact Nat.log2_self_le hne
  · rw [Nat.div_lt_iff_lt_mul hpos,← Nat.pow_add]
    exact Nat.lt_of_lt_of_le Nat.lt_log2_self (Nat.pow_le_pow_right Nat.two_pos (by omega))

/-- The bits of a quotient that a mantissa of 53 bits has no room for. -/
def excess (m d : Nat) : Nat :=
  (m / d).log2 - 52

theorem excess_le {k : Nat} (h : m < 2 ^ (53 + k) * d) : excess m d ≤ k := by
  unfold excess
  have hquotient : m / d < 2 ^ (53 + k) := Nat.div_lt_of_lt_mul (by rwa [Nat.mul_comm])
  rcases Nat.eq_zero_or_pos (m / d) with hzero | hpos
  · rw [hzero]
    exact Nat.zero_le k
  · have := (Nat.log2_lt (Nat.ne_of_gt hpos)).mpr hquotient
    omega

/-- The fraction `m / d` times `2 ^ a` is rounded to a number of 53 bits times `2 ^ c`. -/
structure RoundsTo (m d a n c : Nat) : Prop where
  divisor_pos : 0 < d
  le_quotient : 2 ^ 52 ≤ m / d
  normal : IsNormal n
  le_exponent : a ≤ c
  value_eq : n * 2 ^ c = nearest m (d * 2 ^ excess m d) * 2 ^ (a + excess m d)

theorem isNormal_quotient (hq : 2 ^ 52 ≤ m / d) : IsNormal (m / (d * 2 ^ excess m d)) := by
  rw [← Nat.div_div_eq_div_mul]
  exact isNormal_div hq

/-- **Rounding gives the nearest number of 53 bits.** -/
theorem exists_roundsTo (a : Nat) (hd : 0 < d) (hq : 2 ^ 52 ≤ m / d) :
    ∃ (n c : Nat) (h : 0 < n), roundWithAccuracy Format.binary64 .positive (m / d) (a - unit)
        (accuracyOfFraction (m % d) d) = .finite .positive n (c - unit) h ∧
      RoundsTo m d a n c := by
  have hunit := unit_eq
  have hholds := (holds_ofFraction (m := m) hd).shift hd (excess m d)
  have hquotient := isNormal_quotient hq
  obtain ⟨hle,hge⟩ := nearest_bounds m (d * 2 ^ excess m d)
  have hrounded := hholds.roundedMantissa_eq
  generalize hr : nearest m (d * 2 ^ excess m d) = r at hle hge hrounded
  have hlow : 2 ^ 52 ≤ r := hquotient.le.trans hle
  obtain ⟨hnormal,hvalue⟩ := isNormal_shift hlow (hge.trans hquotient.lt)
  have hfirst := shiftToTargetExponent_eq (e := a - unit) (accuracyOfFraction (m % d) d) hq (by omega)
  have hsecond := shiftToTargetExponent_eq (e := a - unit + excess m d) .exact hlow (by omega)
  have hmantissa := mantissa_shift r (r.log2 - 52)
  have hround := roundWithAccuracy_of_shifts hfirst hrounded hsecond (hmantissa ▸ hnormal.pos)
  refine ⟨r / 2 ^ (r.log2 - 52),a + excess m d + (r.log2 - 52),hnormal.pos,?_,hd,hq,hnormal,
    by omega,?_⟩
  · rw [hround]
    simp only [hmantissa]
    congr 1
    omega
  · rw [hr,pow_add _ _ (r.log2 - 52),Nat.mul_comm (2 ^ (a + _)),← Nat.mul_assoc,hvalue]

theorem exists_roundsTo_whole (a : Nat) (hm : 2 ^ 52 ≤ m) :
    ∃ (n c : Nat) (h : 0 < n), roundWithAccuracy Format.binary64 .positive m (a - unit) .exact =
        .finite .positive n (c - unit) h ∧ RoundsTo m 1 a n c := by
  have hrounds := exists_roundsTo (m := m) a Nat.one_pos (by rwa [Nat.div_one])
  rwa [Nat.div_one,Nat.mod_one] at hrounds

section Order
variable {a n c m' d' a' n' c' : Nat}

theorem RoundsTo.fraction_bounds (h : RoundsTo m d a n c) :
    2 ^ 52 * (d * 2 ^ excess m d) ≤ m ∧ m < 2 ^ 53 * (d * 2 ^ excess m d) := by
  have hpos : 0 < d * 2 ^ excess m d := Nat.mul_pos h.divisor_pos (Nat.two_pow_pos _)
  have hquotient := isNormal_quotient h.le_quotient
  exact ⟨(Nat.le_div_iff_mul_le hpos).mp hquotient.le,(Nat.div_lt_iff_lt_mul hpos).mp hquotient.lt⟩

theorem RoundsTo.exponent_le (h : RoundsTo m d a n c) : c ≤ a + excess m d + 1 := by
  have hrounded : nearest m (d * 2 ^ excess m d) ≤ 2 ^ 53 :=
    (nearest_bounds ..).2.trans (isNormal_quotient h.le_quotient).lt
  have hvalue : n * 2 ^ c ≤ 2 ^ (53 + (a + excess m d)) := by
    rw [h.value_eq,pow_add 2 53]
    exact Nat.mul_le_mul_right _ hrounded
  have := h.normal.add_le_of_le hvalue
  omega

theorem RoundsTo.excess_le (h : RoundsTo m d a n c) (h' : RoundsTo m' d' a' n' c')
    (hle : m * 2 ^ a * d' ≤ m' * 2 ^ a' * d) : a + excess m d ≤ a' + excess m' d' := by
  by_contra hgt
  refine absurd hle (Nat.not_le.mpr ?_)
  have hpower : 2 ^ (a' + excess m' d' + 1) ≤ 2 ^ (a + excess m d) :=
    Nat.pow_le_pow_right Nat.two_pos (by omega)
  calc m' * 2 ^ a' * d
      < 2 ^ 53 * (d' * 2 ^ excess m' d') * 2 ^ a' * d :=
        Nat.mul_lt_mul_of_pos_right
          (Nat.mul_lt_mul_of_pos_right h'.fraction_bounds.2 (Nat.two_pow_pos a')) h.divisor_pos
    _ = 2 ^ 52 * 2 ^ (a' + excess m' d' + 1) * d * d' := by ring
    _ ≤ 2 ^ 52 * 2 ^ (a + excess m d) * d * d' := by gcongr
    _ = 2 ^ 52 * (d * 2 ^ excess m d) * 2 ^ a * d' := by ring
    _ ≤ m * 2 ^ a * d' := by gcongr; exact h.fraction_bounds.1

/-- **A larger fraction is not rounded to a smaller number.** -/
theorem RoundsTo.mono (h : RoundsTo m d a n c) (h' : RoundsTo m' d' a' n' c')
    (hle : m * 2 ^ a * d' ≤ m' * 2 ^ a' * d) : n * 2 ^ c ≤ n' * 2 ^ c' := by
  rw [h.value_eq,h'.value_eq]
  rcases Nat.lt_or_eq_of_le (h.excess_le h' hle) with hlt | heq
  · -- The next exponent starts where the numbers of this one end.
    have hhigh : nearest m (d * 2 ^ excess m d) ≤ 2 ^ 53 :=
      (nearest_bounds ..).2.trans (isNormal_quotient h.le_quotient).lt
    have hlow : 2 ^ 52 ≤ nearest m' (d' * 2 ^ excess m' d') :=
      (isNormal_quotient h'.le_quotient).le.trans (nearest_bounds ..).1
    calc nearest m (d * 2 ^ excess m d) * 2 ^ (a + excess m d)
        ≤ 2 ^ 53 * 2 ^ (a + excess m d) := Nat.mul_le_mul_right _ hhigh
      _ = 2 ^ 52 * 2 ^ (a + excess m d + 1) := by ring
      _ ≤ 2 ^ 52 * 2 ^ (a' + excess m' d') :=
          Nat.mul_le_mul_left _ (Nat.pow_le_pow_right Nat.two_pos hlt)
      _ ≤ nearest m' (d' * 2 ^ excess m' d') * 2 ^ (a' + excess m' d') :=
          Nat.mul_le_mul_right _ hlow
  · rw [heq]
    refine Nat.mul_le_mul_right _ (nearest_mono ?_ ?_ ?_)
    · exact Nat.mul_pos h.divisor_pos (Nat.two_pow_pos _)
    · exact Nat.mul_pos h'.divisor_pos (Nat.two_pow_pos _)
    · refine Nat.le_of_mul_le_mul_right ?_ (Nat.two_pow_pos (a' + excess m' d'))
      calc m * (d' * 2 ^ excess m' d') * 2 ^ (a' + excess m' d')
          = m * (d' * 2 ^ excess m' d') * 2 ^ (a + excess m d) := by rw [heq]
        _ = m * 2 ^ a * d' * 2 ^ (excess m d + excess m' d') := by ring
        _ ≤ m' * 2 ^ a' * d * 2 ^ (excess m d + excess m' d') := Nat.mul_le_mul_right _ hle
        _ = m' * (d * 2 ^ excess m d) * 2 ^ (a' + excess m' d') := by ring

end Order

end SizeSurvey.Rounding
