import SizeSurvey.Listing.SymbolTable
import SizeSurvey.Proofs.Size
import SizeSurvey.Proofs.Text.Cutting

/-! # Sizes that are written down

A size can be written in decimal or in hexadecimal digits, with zeros in front, and is read back
from each of these numerals.
-/
namespace SizeSurvey.Text

section Digits
variable {base : Nat} {value : Char → Option Nat}

theorem readDigits_append (before after : List Char) (high : Nat) :
    readDigits base value (before ++ after) high =
      (readDigits base value before high).bind (readDigits base value after) := by
  induction before generalizing high with
  | nil => rfl
  | cons c rest ih =>
    rw [List.cons_append,readDigits,readDigits]
    cases value c with
    | none => rfl
    | some d => exact ih (high * base + d)

theorem readDigits_zeros (h : value '0' = some 0) (zeros : Nat) :
    readDigits base value (List.replicate zeros '0') 0 = some 0 := by
  induction zeros with
  | zero => rfl
  | succ zeros ih =>
    rw [List.replicate_succ,readDigits,h]
    simpa using ih

theorem readDigits_toDigits (hbase : 1 < base) (h : ∀ d < base, value (Nat.digitChar d) = some d)
    (n : Nat) : readDigits base value (Nat.toDigits base n) 0 = some n := by
  induction n using Nat.strongRecOn with
  | ind n ih =>
    by_cases hlt : n < base
    · rw [Nat.toDigits_of_lt_base hlt,readDigits,h n hlt]
      simp [readDigits]
    · have hle : base ≤ n := Nat.not_lt.mp hlt
      have hsmaller : n / base < n := Nat.div_lt_self (by omega) hbase
      rw [Nat.toDigits_of_base_le hbase hle,readDigits_append,ih _ hsmaller,Option.bind_some,
        readDigits,h _ (Nat.mod_lt n (by omega)),Option.bind_some,readDigits,Nat.div_add_mod']

theorem isSome_of_readDigits {text : List Char} {high n : Nat}
    (h : readDigits base value text high = some n) : ∀ c ∈ text, (value c).isSome := by
  induction text generalizing high with
  | nil => exact fun c hc => absurd hc List.not_mem_nil
  | cons c rest ih =>
    rw [readDigits] at h
    cases hvalue : value c with
    | none => rw [hvalue] at h; cases h
    | some d =>
      rw [hvalue] at h
      exact List.forall_mem_cons.mpr ⟨by rw [hvalue]; rfl,ih h⟩

/-- Zeros in front of the digits of a number do not change it. -/
theorem readDigits_numeral (hbase : 1 < base) (h : ∀ d < base, value (Nat.digitChar d) = some d)
    (zeros n : Nat) :
    readDigits base value (List.replicate zeros '0' ++ Nat.toDigits base n) 0 = some n := by
  rw [readDigits_append,readDigits_zeros (h 0 (by omega)),Option.bind_some,
    readDigits_toDigits hbase h]

theorem readDigits_map {change : Char → Char} (h : ∀ c, value (change c) = value c)
    (text : List Char) (high : Nat) :
    readDigits base value (text.map change) high = readDigits base value text high := by
  induction text generalizing high with
  | nil => rfl
  | cons c rest ih =>
    rw [List.map_cons,readDigits,readDigits,h]
    exact congrArg _ (funext fun d => ih (high * base + d))

end Digits

theorem digit?_digitChar : ∀ d < 10, digit? (Nat.digitChar d) = some d := by decide

theorem hexDigit?_digitChar : ∀ d < 16, hexDigit? (Nat.digitChar d) = some d := by decide

theorem hexDigit?_toAsciiLower (c : Char) : hexDigit? (toAsciiLower c) = hexDigit? c := by
  have hletters : ∀ n < 91, hexDigit? (toAsciiLower (Char.ofNat n)) = hexDigit? (Char.ofNat n) := by
    decide
  by_cases h : 'A' ≤ c ∧ c ≤ 'Z'
  · have hle : c.toNat ≤ 90 := h.2
    have hsmall := hletters c.toNat (by omega)
    rwa [Char.ofNat_toNat] at hsmall
  · rw [toAsciiLower,if_neg h]

theorem isBlank_of_hexDigit? {c : Char} (h : (hexDigit? c).isSome) : isBlank c = false := by
  have hrange : 48 ≤ c.toNat ∧ c.toNat ≤ 102 := by
    unfold hexDigit? at h
    split at h
    next hc => exact ⟨hc.1,Nat.le_trans hc.2 (by decide)⟩
    split at h
    next hc => exact ⟨Nat.le_trans (by decide) hc.1,hc.2⟩
    split at h
    next hc => exact ⟨Nat.le_trans (by decide) hc.1,Nat.le_trans hc.2 (by decide)⟩
    cases h
  simp only [isBlank]
  simp
  omega

theorem hexDigit?_of_digit? {c : Char} (h : (digit? c).isSome) : (hexDigit? c).isSome := by
  unfold digit? at h
  split at h
  next hc => rw [hexDigit?,if_pos hc]; rfl
  next => cases h

end SizeSurvey.Text

namespace SizeSurvey.Listing
open Text

/-- The ways to write a size: decimal digits, or hexadecimal digits of either case behind their
mark, both with any number of zeros in front. -/
inductive IsNumeral (size : Size) : List Char → Prop
  | decimal (zeros : Nat) :
    IsNumeral size (List.replicate zeros '0' ++ Nat.toDigits 10 size.toNat)
  | hex {mark : Char} (hmark : mark = 'x' ∨ mark = 'X') (zeros : Nat) {digits : List Char}
      (hdigits : digits.map toAsciiLower = Nat.toDigits 16 size.toNat) :
    IsNumeral size ('0' :: mark :: (List.replicate zeros '0' ++ digits))

theorem readNumber?_eq {base : Nat} {value : Char → Option Nat} {text : List Char} {n : Nat}
    (hplus : value '+' = none) (hnil : text ≠ [])
    (h : readDigits base value text 0 = some n) : readNumber? base value text = some n := by
  obtain ⟨c,rest,rfl⟩ := List.exists_cons_of_ne_nil hnil
  have hc : c ≠ '+' := by
    rintro rfl
    have hsome := isSome_of_readDigits h '+' List.mem_cons_self
    rw [hplus] at hsome
    cases hsome
  simp [readNumber?,hc,h]

theorem readDecimal?_numeral (zeros n : Nat) :
    readDecimal? (List.replicate zeros '0' ++ Nat.toDigits 10 n) = some n :=
  readNumber?_eq (by decide) (by simp [Nat.toDigits_ne_nil])
    (readDigits_numeral (by decide) digit?_digitChar zeros n)

theorem readDigits_hex (zeros n : Nat) {digits : List Char}
    (h : digits.map toAsciiLower = Nat.toDigits 16 n) :
    readDigits 16 hexDigit? (List.replicate zeros '0' ++ digits) 0 = some n := by
  have hzeros : (List.replicate zeros '0').map toAsciiLower = List.replicate zeros '0' := by
    rw [List.map_replicate]
    rfl
  rw [← readDigits_map hexDigit?_toAsciiLower,List.map_append,h,hzeros]
  exact readDigits_numeral (by decide) hexDigit?_digitChar zeros n

theorem readHex?_numeral (zeros n : Nat) {digits : List Char}
    (h : digits.map toAsciiLower = Nat.toDigits 16 n) :
    readHex? (List.replicate zeros '0' ++ digits) = some n := by
  have hnil : digits ≠ [] := by
    rintro rfl
    exact Nat.toDigits_ne_nil h.symm
  exact readNumber?_eq (by decide) (by simp [hnil]) (readDigits_hex zeros n h)

theorem size?_of_isNumeral {size : Size} {text : List Char} (h : IsNumeral size text) :
    size? text = some size := by
  cases h with
  | decimal zeros =>
    have hread := readDecimal?_numeral zeros size.toNat
    have hmark : ∀ c rest, List.replicate zeros '0' ++ Nat.toDigits 10 size.toNat = '0' :: c :: rest →
        c ≠ 'x' ∧ c ≠ 'X' := by
      intro c rest he
      have hdigit := isSome_of_readDigits
        (readDigits_numeral (by decide) digit?_digitChar zeros size.toNat) c (by rw [he]; simp)
      constructor
      · rintro rfl
        cases hdigit
      · rintro rfl
        cases hdigit
    unfold size? number?
    split
    next rest he => exact absurd rfl (hmark _ _ he).1
    next rest he => exact absurd rfl (hmark _ _ he).2
    next => rw [hread,Option.bind_some,Size.ofNat?_toNat]
  | hex hmark zeros hdigits =>
    have hread := readHex?_numeral zeros size.toNat hdigits
    rcases hmark with rfl | rfl
    · rw [size?,number?,hread,Option.bind_some,Size.ofNat?_toNat]
    · rw [size?,number?,hread,Option.bind_some,Size.ofNat?_toNat]

theorem isWord_of_isNumeral {size : Size} {text : List Char} (h : IsNumeral size text) :
    IsWord text := by
  cases h with
  | decimal zeros =>
    constructor
    · simp [Nat.toDigits_ne_nil]
    · intro c hc
      have hdigit := isSome_of_readDigits
        (readDigits_numeral (by decide) digit?_digitChar zeros size.toNat) c hc
      exact isBlank_of_hexDigit? (hexDigit?_of_digit? hdigit)
  | @hex mark hmark zeros digits hdigits =>
    have hread : readDigits 16 hexDigit? (List.replicate zeros '0' ++ digits) 0 =
        some size.toNat := readDigits_hex zeros size.toNat hdigits
    have hmarked : isBlank mark = false := by
      rcases hmark with rfl | rfl <;> decide
    constructor
    · exact List.cons_ne_nil _ _
    · intro c hc
      rcases List.mem_cons.mp hc with rfl | hc
      · decide
      rcases List.mem_cons.mp hc with rfl | hc
      · exact hmarked
      · exact isBlank_of_hexDigit? (isSome_of_readDigits hread c hc)

end SizeSurvey.Listing
