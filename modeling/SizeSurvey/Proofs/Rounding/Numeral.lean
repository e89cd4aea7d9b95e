import SizeSurvey.Decimal.Reading
import SizeSurvey.Proofs.Listing.Numeral
import SizeSurvey.Proofs.Rounding.Accuracy
import SizeSurvey.Proofs.Text.Cutting

/-! # Numerals

Digits with a point among them are read as the quotient of two whole numbers, which is the nearest
floating point number as long as both of them have 53 bits.
-/
namespace SizeSurvey.Decimal
open Rounding

/-! ## Reading -/

/-- The digits of a number, zeros in front of them, and a point before, among or after them or none; the
number and how many digits stand behind the point. -/
def IsNumeral (text : List Char) (digits places : Nat) : Prop :=
  ∃ whole fraction zeros, whole ++ fraction = List.replicate zeros '0' ++ Nat.toDigits 10 digits ∧
    (text = whole ∧ fraction = [] ∨ text = whole ++ '.' :: fraction) ∧ places = fraction.length

section Numeral
variable {text whole fraction : List Char} {digits places zeros : Nat}

theorem isDigit_of_digits (h : whole ++ fraction = List.replicate zeros '0' ++ Nat.toDigits 10 digits) :
    ∀ c ∈ whole ++ fraction, Text.isDigit c = true := by
  rw [h]
  exact Text.isSome_of_readDigits (Text.readDigits_numeral (by decide) Text.digit?_digitChar zeros digits)

theorem digitsValue_of_digits
    (h : whole ++ fraction = List.replicate zeros '0' ++ Nat.toDigits 10 digits) :
    digitsValue (whole ++ fraction) = digits := by
  rw [digitsValue,h,Text.readDigits_numeral (by decide) Text.digit?_digitChar zeros digits]
  rfl

theorem IsNumeral.isDigit_or (h : IsNumeral text digits places) {c : Char} (hc : c ∈ text) :
    Text.isDigit c = true ∨ c = '.' := by
  obtain ⟨whole,fraction,zeros,hdigits,htext,-⟩ := h
  have hall := isDigit_of_digits hdigits
  rcases htext with ⟨rfl,-⟩ | rfl
  · exact Or.inl (hall c (List.mem_append_left _ hc))
  · rcases List.mem_append.mp hc with hc | hc
    · exact Or.inl (hall c (List.mem_append_left _ hc))
    · rcases List.mem_cons.mp hc with rfl | hc
      · exact Or.inr rfl
      · exact Or.inl (hall c (List.mem_append_right _ hc))

theorem isBlank_of_isDigit {c : Char} (h : Text.isDigit c = true) : Text.isBlank c = false := by
  have hrange : 48 ≤ c.toNat ∧ c.toNat ≤ 57 := by
    rw [Text.isDigit,Text.digit?] at h
    split at h
    next hrange => exact ⟨UInt32.le_iff_toNat_le.mp hrange.1,UInt32.le_iff_toNat_le.mp hrange.2⟩
    next => cases h
  simp only [Text.isBlank,Bool.or_eq_false_iff,Bool.and_eq_false_iff,beq_eq_false_iff_ne,
    decide_eq_false_iff_not]
  omega

theorem ne_nil_of_digits (h : whole ++ fraction = List.replicate zeros '0' ++ Nat.toDigits 10 digits) :
    whole ++ fraction ≠ [] := by
  rw [h]
  have hlong : 0 < (Nat.toDigits 10 digits).length := Nat.length_toDigits_pos
  exact List.append_ne_nil_of_right_ne_nil _ (List.ne_nil_of_length_pos hlong)

theorem IsNumeral.isWord (h : IsNumeral text digits places) : Text.IsWord text := by
  refine ⟨?_,fun c hc => ?_⟩
  · obtain ⟨whole,fraction,zeros,hdigits,htext,-⟩ := h
    rcases htext with ⟨rfl,rfl⟩ | rfl
    · have hne := ne_nil_of_digits hdigits
      rwa [List.append_nil] at hne
    · simp
  · rcases h.isDigit_or hc with hdigit | rfl
    · exact isBlank_of_isDigit hdigit
    · rfl

theorem readUnsigned?_of_isNumeral (h : IsNumeral text digits places) :
    readUnsigned? text = some (nearest digits (-places)) := by
  obtain ⟨whole,fraction,zeros,hdigits,htext,rfl⟩ := h
  obtain ⟨hwhole,hfraction⟩ := List.forall_mem_append.mp (isDigit_of_digits hdigits)
  have hsome : (whole.isEmpty && fraction.isEmpty) = false := by
    rw [Bool.eq_false_iff,ne_eq,Bool.and_eq_true,List.isEmpty_iff,List.isEmpty_iff]
    rintro ⟨rfl,rfl⟩
    exact ne_nil_of_digits hdigits rfl
  rcases htext with ⟨rfl,rfl⟩ | rfl
  · rw [readUnsigned?,List.takeWhile_eq_self_iff.mpr hwhole,List.dropWhile_eq_nil_iff.mpr hwhole]
    simp only [hsome,readExponent?,digitsValue_of_digits hdigits]
    rfl
  · have hpoint : ∀ rest, ∀ c ∈ ('.' :: rest).head?, Text.isDigit c = false := by
      rintro rest c ⟨⟩
      rfl
    rw [readUnsigned?,Text.takeWhile_run hwhole (hpoint _),Text.dropWhile_run hwhole (hpoint _)]
    simp only [List.takeWhile_eq_self_iff.mpr hfraction,List.dropWhile_eq_nil_iff.mpr hfraction,hsome,
      readExponent?,digitsValue_of_digits hdigits]
    exact congrArg (fun exponent => some (nearest _ exponent)) (Int.zero_sub _)

theorem read?_of_isNumeral (h : IsNumeral text digits places) :
    read? text = some (nearest digits (-places)) := by
  have hsign : readSign text = (false,text) := by
    unfold readSign
    split
    next rest =>
      rcases h.isDigit_or List.mem_cons_self with hdigit | hpoint
      · exact absurd hdigit (by decide)
      · exact absurd hpoint (by decide)
    next rest =>
      rcases h.isDigit_or List.mem_cons_self with hdigit | hpoint
      · exact absurd hdigit (by decide)
      · exact absurd hpoint (by decide)
    next => rfl
  have hread := readUnsigned?_of_isNumeral h
  rw [read?,hsign]
  exact congrArg (Option.map _) hread

end Numeral

/-! ## Values of numerals -/

section Nearest
variable {m k : Nat}

theorem toNat_toUInt64 {n : Nat} (h : n < 2 ^ 53) : n.toUInt64.toNat = n :=
  Nat.mod_eq_of_lt (h.trans (by decide))

theorem hasValue_toUInt64 {n : Nat} (hpos : 0 < n) (h : n < 2 ^ 53) :
    HasValue n.toUInt64.toFloat n 52 := by
  have hsame := toNat_toUInt64 h
  have hvalue := HasValue.toFloat (n := n.toUInt64) (by omega) (by omega)
  rwa [hsame] at hvalue

theorem nearest_of_zero (exponent : Int) : nearest 0 exponent = 0.0 := by
  rw [nearest.eq_def]
  exact if_pos rfl

theorem length_toDigits_le (h : m < 10 ^ 7) : (Nat.toDigits 10 m).length ≤ 7 :=
  (Nat.length_toDigits_le_iff (by decide) (by decide)).mpr h

theorem nearest_zero (hpos : 0 < m) (h : m < 10 ^ 7) : nearest m 0 = m.toUInt64.toFloat * 1.0 := by
  have hlength := length_toDigits_le h
  have hfits : m < 2 ^ 53 ∧ 0 ≤ 22 := by omega
  rw [nearest.eq_def]
  dsimp only
  rw [if_neg (by omega),if_neg (by omega),if_neg (by omega)]
  change Float.ofScientific (m * 1) false 0 = _
  rw [Nat.mul_one,Float.ofScientific,dif_pos hfits]
  rfl

theorem power_toFloat : ∀ e : Fin 5, ∀ h : e.val + 1 < Float.exactlyRepresentablePowersOfTen.size,
    Float.exactlyRepresentablePowersOfTen[e.val + 1] = (10 ^ (e.val + 1)).toUInt64.toFloat
  | 0, _ => rfl
  | 1, _ => rfl
  | 2, _ => rfl
  | 3, _ => rfl
  | 4, _ => rfl

theorem nearest_neg (hpos : 0 < m) (h : m < 10 ^ 7) (hk : 0 < k) (hplaces : k ≤ 5) :
    nearest m (-k) = m.toUInt64.toFloat / (10 ^ k).toUInt64.toFloat := by
  have hlength := length_toDigits_le h
  have hlong : 0 < (Nat.toDigits 10 m).length := Nat.length_toDigits_pos
  obtain ⟨e,rfl⟩ := Nat.exists_eq_succ_of_ne_zero (Nat.ne_of_gt hk)
  have hfits : m < 2 ^ 53 ∧ e + 1 ≤ 22 := by omega
  rw [nearest.eq_def]
  dsimp only
  rw [if_neg (by omega),if_neg (by omega),if_neg (by omega)]
  change Float.ofScientific m true (e + 1) = _
  rw [Float.ofScientific,dif_pos hfits]
  exact congrArg (m.toUInt64.toFloat / ·) (power_toFloat ⟨e,by omega⟩ _)

theorem hasValue_whole (hpos : 0 < m) (h : m < 10 ^ 7) : HasValue (nearest m 0) m 104 := by
  rw [nearest_zero hpos h]
  exact (hasValue_toUInt64 hpos (by omega)).mul_one (by decide)

/-- The value of a numeral is off by one part in `2 ^ 53` at most. -/
theorem exists_value (hpos : 0 < m) (h : m < 10 ^ 7) (hplaces : k ≤ 5) :
    ∃ t : ℚ, HasValue (nearest m (-k)) t 158 ∧ (2 ^ 53 - 1) * (m / 10 ^ k) ≤ 2 ^ 53 * t ∧
      2 ^ 53 * t ≤ (2 ^ 53 + 1) * (m / 10 ^ k) := by
  rcases Nat.eq_zero_or_pos k with rfl | hk
  · have hvalue := hasValue_whole hpos h
    have hpositive := hvalue.pos
    refine ⟨m,hvalue.mono (by decide),?_,?_⟩ <;> rw [pow_zero,div_one] <;> linarith
  · have hwhole : HasValue m.toUInt64.toFloat m 52 := hasValue_toUInt64 hpos (by omega)
    have hpower : 10 ^ k < 2 ^ 53 :=
      Nat.lt_of_le_of_lt (Nat.pow_le_pow_right (by decide) hplaces) (by decide)
    have hten : HasValue (10 ^ k).toUInt64.toFloat (10 ^ k : Nat) 52 :=
      hasValue_toUInt64 (Nat.pow_pos (by decide)) hpower
    obtain ⟨t,hvalue,hbelow,habove⟩ := hwhole.exists_div hten (by decide)
    rw [← nearest_neg hpos h hk hplaces] at hvalue
    rw [Nat.cast_pow] at hbelow habove
    exact ⟨t,hvalue,hbelow,habove⟩

end Nearest

end SizeSurvey.Decimal
