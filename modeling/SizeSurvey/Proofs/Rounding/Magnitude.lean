import Mathlib
import SizeSurvey.Proofs.Rounding.Nearest
import SizeSurvey.Proofs.Rounding.Order
import SizeSurvey.Proofs.Rounding.Unpacking

/-! # Magnitudes of floating point numbers

A number that is neither too small nor too large is packed without loss, and numbers are in the order
of their magnitudes. A size becomes such a number and so does the quotient of two sizes, so that
neither conversion nor division puts sizes in another order.
-/
namespace SizeSurvey.Rounding
open Float.Model UnpackedFloat

/-! ## Packing -/

theorem toNat_leading_append {m : Nat} (h : IsNormal m) : (1#1 ++ BitVec.ofNat 52 m).toNat = m := by
  have hlow := h.le
  have hhigh := h.lt
  rw [toNat_append_one,BitVec.toNat_ofNat]
  omega

theorem unpack_packed {m : Nat} {e : Int} (h : 0 < m) (hm : IsNormal m) (hlow : -1074 ≤ e)
    (hhigh : e ≤ 971) :
    (Float.Model.pack (.finite .positive m e h)).unpack = .finite .positive m e h := by
  have hfield : (BitVec.ofNat 11 (e + 1075).toNat).toNat = (e + 1075).toNat := by
    rw [BitVec.toNat_ofNat]
    omega
  have hpack : UnpackedFloat.pack Format.binary64 (.finite .positive m e h) =
      packComponents Format.binary64 .positive (BitVec.ofNat 11 (e + 1075).toNat)
        (BitVec.ofNat 52 m) := by
    have hbiased : (e + 1023 + 52).toNat = (e + 1075).toNat := by omega
    simp [UnpackedFloat.pack,Format.exponentBias,Format.mantissaBits,hm.log2_eq,hbiased]
    omega
  have hones : BitVec.ofNat 11 (e + 1075).toNat ≠ -1#11 := by
    intro he
    have hmax : (e + 1075).toNat = 2047 := by rw [← hfield,he]; rfl
    omega
  have hzero : BitVec.ofNat 11 (e + 1075).toNat ≠ 0#11 := by
    intro he
    have hmin : (e + 1075).toNat = 0 := by rw [← hfield,he]; rfl
    omega
  change UnpackedFloat.unpack Format.binary64 (UnpackedFloat.pack Format.binary64 _) = _
  rw [hpack,UnpackedFloat.unpack]
  simp only [unpackMantissa_packComponents,unpackExponent_packComponents,unpackSign_packComponents,
    if_neg hones,if_neg hzero,hfield,toNat_leading_append hm]
  congr 1
  simp [Format.exponentBias]
  omega

/-! ## Numbers with a magnitude -/

/-- A positive number of magnitude `m * 2 ^ c`. -/
structure Measures (x : Float) (m c : Nat) : Prop where
  normal : IsNormal m
  unpack : ∃ h, x.toModel.unpack = .finite .positive m (c - unit) h

theorem Measures.ofModel_pack {m c : Nat} (h : 0 < m) (hm : IsNormal m) (hc : c ≤ unit + 971) :
    Measures ⟨Float.Model.pack (.finite .positive m (c - unit) h)⟩ m c := by
  have hunit := unit_eq
  exact ⟨hm,h,unpack_packed h hm (by omega) (by omega)⟩

/-! ## Comparing -/

theorem Measures.le {x y : Float} {m c n d : Nat} (hx : Measures x m c) (hy : Measures y n d)
    (h : m * 2 ^ c ≤ n * 2 ^ d) : x ≤ y := by
  obtain ⟨hmpos,hunpack⟩ := hx.unpack
  obtain ⟨hnpos,hunpack'⟩ := hy.unpack
  have hexponent := hx.normal.exponent_le hy.normal h
  refine le_iff_rank.mpr ⟨_,_,congrArg rank hunpack,congrArg rank hunpack',?_⟩
  refine Prod.Lex.toLex_le_toLex.mpr (Or.inr ⟨rfl,Prod.Lex.toLex_le_toLex.mpr ?_⟩)
  rcases Nat.lt_or_eq_of_le hexponent with hless | rfl
  · exact Or.inl (Int.sub_lt_sub_right (Int.ofNat_lt.mpr hless) _)
  · exact Or.inr ⟨rfl,Int.ofNat_le.mpr (Nat.le_of_mul_le_mul_right h (Nat.two_pow_pos c))⟩

theorem Measures.not_lt {x y : Float} {m c n d : Nat} (hx : Measures x m c) (hy : Measures y n d)
    (h : m * 2 ^ c ≤ n * 2 ^ d) : ¬y < x :=
  not_lt_of_le (hx.le hy h)

/-! ## Sizes -/

theorem normalize_of_pos {k : Int} {n : Nat} (e : Int) (hk : k = n) (hn : 0 < n) :
    UnpackedFloat.normalize Format.binary64 k e .positive = UnpackedFloat.round Format.binary64 .positive n e := by
  subst hk
  rw [UnpackedFloat.normalize,Int.compare_eq_gt.mpr (Int.natCast_pos.mpr hn)]
  rfl

/-- A whole number times a power of two is shifted to 53 bits before it is rounded, if it is shorter. -/
theorem round_eq_roundWithAccuracy {k e : Nat} (he : 52 ≤ e) :
    UnpackedFloat.round Format.binary64 .positive k (e - unit) =
      roundWithAccuracy Format.binary64 .positive (k * 2 ^ (52 - k.log2))
        ((e - (52 - k.log2) : Nat) - unit) .exact := by
  have hunit := unit_eq
  have hcount : ((e : Int) - unit - Format.binary64.targetExponent
      (totalExponent k ((e : Int) - unit))).toNat = 52 - k.log2 := by
    simp only [Format.targetExponent,totalExponent,Format.mantissaBits,Format.minExponent]
    omega
  have hexponent : (e : Int) - unit - (52 - k.log2 : Nat) = (e - (52 - k.log2) : Nat) - unit := by
    omega
  simp only [UnpackedFloat.round,decreaseExponent,hcount,Nat.shiftLeft_eq,hexponent]

theorem ofNat_eq_roundWithAccuracy {n : Nat} (hn : 0 < n) :
    UnpackedFloat.ofNat Format.binary64 n = roundWithAccuracy Format.binary64 .positive
      (n * 2 ^ (52 - n.log2)) ((unit - (52 - n.log2) : Nat) - unit) .exact := by
  have hunit := unit_eq
  have hround := @round_eq_roundWithAccuracy n unit (by omega)
  rw [Int.sub_self] at hround
  rw [UnpackedFloat.ofNat,UnpackedFloat.ofInt,normalize_of_pos 0 rfl hn,hround]

theorem le_mul_two_pow_log2 {n : Nat} (hn : 0 < n) : 2 ^ 52 ≤ n * 2 ^ (52 - n.log2) :=
  calc 2 ^ 52 ≤ 2 ^ (n.log2 + (52 - n.log2)) := Nat.pow_le_pow_right Nat.two_pos (by omega)
    _ = 2 ^ n.log2 * 2 ^ (52 - n.log2) := pow_add ..
    _ ≤ n * 2 ^ (52 - n.log2) := Nat.mul_le_mul_right _ (Nat.log2_self_le (Nat.ne_of_gt hn))

theorem exists_roundsTo_toFloat {n : UInt64} (hn : 0 < n.toNat) :
    ∃ m c, Measures n.toFloat m c ∧ unit ≤ c + 52 ∧ c ≤ unit + 12 ∧
      RoundsTo (n.toNat * 2 ^ (52 - n.toNat.log2)) 1 (unit - (52 - n.toNat.log2)) m c := by
  have hunit := unit_eq
  have hlow := le_mul_two_pow_log2 hn
  obtain ⟨m,c,h,hround,hrounds⟩ := exists_roundsTo_whole (unit - (52 - n.toNat.log2)) hlow
  have hfloat : n.toFloat = ⟨Float.Model.pack (.finite .positive m (c - unit) h)⟩ := by
    rw [← hround,← ofNat_eq_roundWithAccuracy hn]
    rfl
  have hsize : n.toNat * 2 ^ (52 - n.toNat.log2) < 2 ^ (53 + 11) * 1 := by
    rcases Nat.le_total 52 n.toNat.log2 with hlong | hshort
    · rw [Nat.sub_eq_zero_of_le hlong,Nat.pow_zero]
      exact Nat.mul_lt_mul_of_pos_right n.toNat_lt Nat.one_pos
    · calc n.toNat * 2 ^ (52 - n.toNat.log2)
          < 2 ^ (n.toNat.log2 + 1) * 2 ^ (52 - n.toNat.log2) :=
            Nat.mul_lt_mul_of_pos_right Nat.lt_log2_self (Nat.two_pow_pos _)
        _ = 2 ^ 53 := by rw [← pow_add]; congr 1; omega
        _ ≤ 2 ^ (53 + 11) * 1 := by norm_num
  have hexcess := excess_le hsize
  have hexponent := hrounds.exponent_le
  have hle := hrounds.le_exponent
  refine ⟨m,c,?_,by omega,by omega,hrounds⟩
  rw [hfloat]
  exact .ofModel_pack h hrounds.normal (by omega)

theorem roundsTo_le {n k m c m' c' : Nat} (h : n ≤ k)
    (hn : RoundsTo (n * 2 ^ (52 - n.log2)) 1 (unit - (52 - n.log2)) m c)
    (hk : RoundsTo (k * 2 ^ (52 - k.log2)) 1 (unit - (52 - k.log2)) m' c') :
    m * 2 ^ c ≤ m' * 2 ^ c' := by
  have hunit := unit_eq
  have hvalue : ∀ j : Nat, j * 2 ^ (52 - j.log2) * 2 ^ (unit - (52 - j.log2)) * 1 = j * 2 ^ unit := by
    intro j
    rw [Nat.mul_one,Nat.mul_assoc,← pow_add,Nat.add_sub_cancel' (by omega)]
  refine hn.mono hk ?_
  rw [hvalue,hvalue]
  exact Nat.mul_le_mul_right _ h

/-- **A larger size does not become a smaller number.** -/
theorem toFloat_le_toFloat {n k : UInt64} (hn : 0 < n.toNat) (h : n.toNat ≤ k.toNat) :
    n.toFloat ≤ k.toFloat := by
  obtain ⟨m,c,hm,-,-,hrounds⟩ := exists_roundsTo_toFloat hn
  obtain ⟨m',c',hm',-,-,hrounds'⟩ := exists_roundsTo_toFloat (hn.trans_le h)
  exact hm.le hm' (roundsTo_le h hrounds hrounds')

/-! ## Quotients of sizes -/

section Quotients
variable {x y z : Float} {m c n d k a : Nat}

/-- Numerators are shifted by 53 bits before they are divided. -/
theorem divCore_eq (hm : IsNormal m) (hn : IsNormal n) (hlow : d + 53 ≤ c + unit) :
    divCore Format.binary64 m (c - unit) n (d - unit) =
      (m * 2 ^ 53 / n,((c + unit - d - 53 : Nat) : Int) - unit,
        accuracyOfFraction (m * 2 ^ 53 % n) n) := by
  have hunit := unit_eq
  have htarget : min ((c : Int) - unit - (d - unit)) (Format.binary64.targetExponent
      (totalExponent m (c - unit) - totalExponent n (d - unit))) =
      ((c + unit - d - 53 : Nat) : Int) - unit := by
    simp only [Format.targetExponent,totalExponent,Format.mantissaBits,Format.minExponent,
      hm.log2_eq,hn.log2_eq]
    omega
  have hcount : ((c : Int) - unit - (d - unit) - (((c + unit - d - 53 : Nat) : Int) - unit)).toNat =
      53 := by omega
  simp only [divCore,htarget,hcount,Nat.shiftLeft_eq]

theorem excess_quotient_le (hm : IsNormal m) (hn : IsNormal n) : excess (m * 2 ^ 53) n ≤ 1 := by
  refine excess_le ?_
  calc m * 2 ^ 53 < 2 ^ 53 * 2 ^ 53 := Nat.mul_lt_mul_of_pos_right hm.lt (by norm_num)
    _ = 2 ^ (53 + 1) * 2 ^ 52 := by norm_num
    _ ≤ 2 ^ (53 + 1) * n := Nat.mul_le_mul_left _ hn.le

theorem Measures.exists_div (hx : Measures x m c) (hy : Measures y n d)
    (hlow : d + 53 ≤ c + unit) (hhigh : c ≤ d + 900) :
    ∃ k a, Measures (x / y) k a ∧ RoundsTo (m * 2 ^ 53) n (c + unit - d - 53) k a := by
  have hunit := unit_eq
  have hquotient : 2 ^ 52 ≤ m * 2 ^ 53 / n :=
    (Nat.le_div_iff_mul_le hy.normal.pos).mpr (Nat.mul_le_mul hx.normal.le hy.normal.lt.le)
  obtain ⟨k,a,h,hround,hrounds⟩ := exists_roundsTo (c + unit - d - 53) hy.normal.pos hquotient
  obtain ⟨hmpos,hunpack⟩ := hx.unpack
  obtain ⟨hnpos,hunpack'⟩ := hy.unpack
  have hfloat : x / y = ⟨Float.Model.pack (.finite .positive k (a - unit) h)⟩ := by
    rw [← hround]
    change Float.ofModel (Float.Model.pack (UnpackedFloat.div _ x.toModel.unpack y.toModel.unpack)) = _
    rw [hunpack,hunpack',UnpackedFloat.div,divCore_eq hx.normal hy.normal hlow]
    rfl
  have hexcess := excess_quotient_le hx.normal hy.normal
  have hexponent := hrounds.exponent_le
  refine ⟨k,a,?_,hrounds⟩
  rw [hfloat]
  exact .ofModel_pack h hrounds.normal (by omega)

theorem Measures.div_le_div (hx : Measures x m c) (hy : Measures y n d) (hz : Measures z k a)
    (hlow : a + 53 ≤ c + unit) (hlow' : a + 53 ≤ d + unit) (hhigh : c ≤ a + 900)
    (hhigh' : d ≤ a + 900) (h : m * 2 ^ c ≤ n * 2 ^ d) : x / z ≤ y / z := by
  obtain ⟨q,b,hq,hrounds⟩ := hx.exists_div hz hlow hhigh
  obtain ⟨q',b',hq',hrounds'⟩ := hy.exists_div hz hlow' hhigh'
  refine hq.le hq' (hrounds.mono hrounds' (Nat.mul_le_mul_right k ?_))
  -- Both fractions have the same factor beside their magnitudes.
  refine Nat.le_of_mul_le_mul_right ?_ (Nat.two_pow_pos a)
  have hscale : ∀ j e : Nat, a + 53 ≤ e + unit →
      j * 2 ^ 53 * 2 ^ (e + unit - a - 53) * 2 ^ a = j * 2 ^ e * 2 ^ unit := by
    intro j e he
    have hsum : 53 + (e + unit - a - 53) + a = e + unit := by omega
    rw [Nat.mul_assoc j,Nat.mul_assoc j,Nat.mul_assoc j,← pow_add,← pow_add,← pow_add,hsum]
  rw [hscale m c hlow,hscale n d hlow']
  exact Nat.mul_le_mul_right _ h

end Quotients

/-- **A larger size does not have a smaller quotient.** -/
theorem div_le_div {n k d : UInt64} (hn : 0 < n.toNat) (h : n.toNat ≤ k.toNat) (hd : 0 < d.toNat) :
    n.toFloat / d.toFloat ≤ k.toFloat / d.toFloat := by
  have hunit := unit_eq
  obtain ⟨m₁,c₁,hx,hlow₁,hhigh₁,hrounds₁⟩ := exists_roundsTo_toFloat hn
  obtain ⟨m₂,c₂,hy,hlow₂,hhigh₂,hrounds₂⟩ := exists_roundsTo_toFloat (hn.trans_le h)
  obtain ⟨m₃,c₃,hz,hlow₃,hhigh₃,-⟩ := exists_roundsTo_toFloat hd
  refine hx.div_le_div hy hz (by omega) (by omega) (by omega) (by omega) ?_
  exact roundsTo_le h hrounds₁ hrounds₂

end SizeSurvey.Rounding
