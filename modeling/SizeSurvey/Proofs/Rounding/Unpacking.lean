import Mathlib
import SizeSurvey.Decimal.Binary64

/-! # Parts of floating point numbers

A finite number is unpacked into a sign, a mantissa and an exponent. These are the parts that its exact
value is computed from.
-/
namespace SizeSurvey.Rounding
open Float.Model UnpackedFloat

/-! ## Fields -/

section Fields
variable (bits : UInt64)

theorem toNat_unpackMantissa :
    (@unpackMantissa Format.binary64 bits.toBitVec).toNat =
      (bits &&& 0xfffffffffffff).toNat := by
  have hmask : (0xfffffffffffff : UInt64).toNat = 2 ^ 52 - 1 := rfl
  rw [unpackMantissa_def,UInt64.toNat_and,hmask,Nat.and_two_pow_sub_one_eq_mod]
  simp [BitVec.extractLsb'_toNat]

theorem toNat_unpackExponent :
    (@unpackExponent Format.binary64 bits.toBitVec).toNat =
      ((bits >>> 52) &&& 0x7ff).toNat := by
  have hmask : (0x7ff : UInt64).toNat = 2 ^ 11 - 1 := rfl
  rw [unpackExponent_def,UInt64.toNat_and,hmask,Nat.and_two_pow_sub_one_eq_mod]
  simp [BitVec.extractLsb'_toNat]

theorem unpackSign_eq_one_iff :
    @unpackSign Format.binary64 bits.toBitVec = 1#1 ↔ bits >>> 63 = 1 := by
  rw [unpackSign_def,← BitVec.toNat_inj,← UInt64.toNat_inj]
  have hlt := bits.toNat_lt
  simp [BitVec.extractLsb'_toNat,Nat.shiftRight_eq_div_pow]
  omega

end Fields

/-- A mantissa and an exponent as they are unpacked: either the mantissa has 53 bits, or it has fewer and
the exponent is the least one. -/
structure IsUnpacked (m : Nat) (e : Int) : Prop where
  pos : 0 < m
  lt : m < 2 ^ 53
  le_exponent : -1074 ≤ e
  exponent_le : e ≤ 971
  normal_or : 2 ^ 52 ≤ m ∨ e = -1074

def isNegative : Sign → Bool
  | .negative => true
  | .positive => false

theorem isNegative_unpackSign (bits : UInt64) :
    isNegative (Sign.ofBitVec (@unpackSign Format.binary64 bits.toBitVec)) =
      (bits >>> 63 == 1) := by
  rw [Bool.eq_iff_iff,beq_iff_eq,← unpackSign_eq_one_iff]
  generalize @unpackSign Format.binary64 bits.toBitVec = sign
  revert sign
  decide

theorem toNat_append_one (mantissa : BitVec 52) : (1#1 ++ mantissa).toNat = 2 ^ 52 + mantissa.toNat := by
  rw [BitVec.toNat_append,← Nat.shiftLeft_add_eq_or_of_lt mantissa.isLt]
  rfl

/-- The exact value of a finite number. -/
def exactValue? : UnpackedFloat → Option Dyadic
  | .finite s m e _ => some ⟨isNegative s,m,e⟩
  | .zero s => some ⟨isNegative s,0,Dyadic.leastExponent⟩
  | .infinity _ | .notANumber => none

theorem ofFloat?_eq_exactValue? (x : Float) : Dyadic.ofFloat? x = exactValue? x.toModel.unpack := by
  change _ = exactValue? (UnpackedFloat.unpack Format.binary64 x.toBits.toBitVec)
  rw [Dyadic.ofFloat?]
  generalize x.toBits = bits
  have hones : ((bits >>> 52) &&& 0x7ff).toNat = 0x7ff ↔
      @unpackExponent Format.binary64 bits.toBitVec = -1#11 := by
    rw [← toNat_unpackExponent,← BitVec.toNat_inj]
    rfl
  have hzero : ((bits >>> 52) &&& 0x7ff).toNat = 0 ↔
      @unpackExponent Format.binary64 bits.toBitVec = 0#11 := by
    rw [← toNat_unpackExponent,← BitVec.toNat_inj]
    rfl
  rw [UnpackedFloat.unpack]
  simp only [hones,hzero,← toNat_unpackMantissa,← isNegative_unpackSign]
  split_ifs with hinfinite hnone hleast hnone
  · rfl
  · rfl
  · rw [hnone]
    rfl
  · rw [hleast]
    rfl
  · have hfield : 0 < (@unpackExponent Format.binary64 bits.toBitVec).toNat :=
      Nat.pos_of_ne_zero fun h => hleast (BitVec.toNat_inj.mp h)
    rw [exactValue?,toNat_append_one,← toNat_unpackExponent]
    congr 2
    simp only [Dyadic.leastExponent,Format.exponentBias]
    omega

theorem isUnpacked_of_unpack {x : Float} {s : Sign} {m : Nat} {e : Int} {h : 0 < m}
    (hunpack : x.toModel.unpack = .finite s m e h) : IsUnpacked m e := by
  change UnpackedFloat.unpack Format.binary64 x.toModel.toBits.toBitVec = _ at hunpack
  generalize x.toModel.toBits.toBitVec = bits at hunpack
  rw [UnpackedFloat.unpack] at hunpack
  dsimp only at hunpack
  have hfield : (@unpackExponent Format.binary64 bits).toNat < 2048 := BitVec.isLt _
  have hmantissa : (@unpackMantissa Format.binary64 bits).toNat < 2 ^ 52 := BitVec.isLt _
  split_ifs at hunpack with hinfinite _ hleast _
  · injection hunpack with hs hm he
    rw [hleast] at he
    have hexponent : -1074 = e := he
    refine ⟨h,by omega,by omega,by omega,Or.inr (by omega)⟩
  · injection hunpack with hs hm he
    have hpos : (@unpackExponent Format.binary64 bits).toNat ≠ 0 :=
      fun h => hleast (BitVec.toNat_inj.mp h)
    have hmost : (@unpackExponent Format.binary64 bits).toNat ≠ 2047 :=
      fun h => hinfinite (BitVec.toNat_inj.mp h)
    rw [toNat_append_one] at hm
    have hexponent : ((@unpackExponent Format.binary64 bits).toNat : Int) - 1075 = e := by
      simpa [Format.exponentBias] using he
    exact ⟨h,by omega,by omega,by omega,Or.inl (by omega)⟩

end SizeSurvey.Rounding
