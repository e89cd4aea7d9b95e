import SizeSurvey.Decimal.Reading
import SizeSurvey.Proofs.Listing.Numeral

/-! # Capital letters

A number is read alike in small and in capital letters, whether it has an exponent or is written as a word.
-/
namespace SizeSurvey

namespace Text

/-- Only the small letters of ASCII are changed, so what is the same for these is the same for all. -/
theorem apply_toAsciiUpper {α : Type} {f : Char → α}
    (h : ∀ n < 123, f (toAsciiUpper (Char.ofNat n)) = f (Char.ofNat n)) (c : Char) :
    f (toAsciiUpper c) = f c := by
  by_cases hsmall : 'a' ≤ c ∧ c ≤ 'z'
  · have hle : c.toNat ≤ 122 := hsmall.2
    have hletter := h c.toNat (by omega)
    rwa [Char.ofNat_toNat] at hletter
  · rw [toAsciiUpper,if_neg hsmall]

theorem digit?_toAsciiUpper : ∀ c, digit? (toAsciiUpper c) = digit? c :=
  apply_toAsciiUpper (by decide)

theorem isBlank_toAsciiUpper : ∀ c, isBlank (toAsciiUpper c) = isBlank c :=
  apply_toAsciiUpper (by decide)

theorem toAsciiLower_toAsciiUpper : ∀ c, toAsciiLower (toAsciiUpper c) = toAsciiLower c :=
  apply_toAsciiUpper (by decide)

theorem isDigit_comp_toAsciiUpper : isDigit ∘ toAsciiUpper = isDigit :=
  funext fun c => congrArg Option.isSome (digit?_toAsciiUpper c)

theorem isBlank_comp_toAsciiUpper : isBlank ∘ toAsciiUpper = isBlank :=
  funext isBlank_toAsciiUpper

theorem toAsciiUpper_eq_iff {mark : Char} (hmark : mark ∈ ['-','+','.']) (c : Char) :
    toAsciiUpper c = mark ↔ c = mark := by
  have hsame : ∀ n < 123, decide (toAsciiUpper (Char.ofNat n) = mark) = decide (Char.ofNat n = mark) := by
    simp only [List.mem_cons,List.not_mem_nil,or_false] at hmark
    rcases hmark with rfl | rfl | rfl <;> decide
  exact decide_eq_decide.mp (apply_toAsciiUpper (f := fun c => decide (c = mark)) hsame c)

theorem trim_map_toAsciiUpper (text : List Char) :
    trim (text.map toAsciiUpper) = (trim text).map toAsciiUpper := by
  rw [trim,trim,trimStart,trimStart,trimEnd,trimEnd,List.dropWhile_map,isBlank_comp_toAsciiUpper,
    ← List.map_reverse,List.dropWhile_map,isBlank_comp_toAsciiUpper,List.map_reverse]

end Text

namespace Decimal
open Text

theorem readSign_of_ne {c : Char} (hminus : c ≠ '-') (hplus : c ≠ '+') (rest : List Char) :
    readSign (c :: rest) = (false,c :: rest) := by
  unfold readSign
  split
  next h => exact absurd (List.cons.inj h).1 hminus
  next h => exact absurd (List.cons.inj h).1 hplus
  next => rfl

theorem readSign_map_toAsciiUpper (text : List Char) :
    readSign (text.map toAsciiUpper) = ((readSign text).1,(readSign text).2.map toAsciiUpper) := by
  rcases text with _ | ⟨c,rest⟩
  · rfl
  by_cases hminus : c = '-'
  · rw [hminus]
    rfl
  by_cases hplus : c = '+'
  · rw [hplus]
    rfl
  have hminus' := mt (toAsciiUpper_eq_iff (by decide) c).mp hminus
  have hplus' := mt (toAsciiUpper_eq_iff (by decide) c).mp hplus
  rw [List.map_cons,readSign_of_ne hminus' hplus',readSign_of_ne hminus hplus]
  rfl

theorem digitsValue_map_toAsciiUpper (digits : List Char) :
    digitsValue (digits.map toAsciiUpper) = digitsValue digits := by
  rw [digitsValue,readDigits_map digit?_toAsciiUpper]
  rfl

theorem readExponent?_map_toAsciiUpper (text : List Char) :
    readExponent? (text.map toAsciiUpper) = readExponent? text := by
  cases text with
  | nil => rfl
  | cons mark rest =>
    have hmark : (toAsciiUpper mark = 'e' ∨ toAsciiUpper mark = 'E') ↔ (mark = 'e' ∨ mark = 'E') :=
      decide_eq_decide.mp (apply_toAsciiUpper (f := fun c => decide (c = 'e' ∨ c = 'E')) (by decide) mark)
    rw [List.map_cons,readExponent?,readExponent?,readSign_map_toAsciiUpper]
    simp only [hmark,List.isEmpty_map,List.all_map,isDigit_comp_toAsciiUpper,
      digitsValue_map_toAsciiUpper]

theorem readWord?_map_toAsciiUpper (text : List Char) :
    readWord? (text.map toAsciiUpper) = readWord? text := by
  have hlower : toAsciiLower ∘ toAsciiUpper = toAsciiLower := funext toAsciiLower_toAsciiUpper
  rw [readWord?,readWord?,List.map_map,hlower]

/-- The digits behind a point, if there is one, and what follows them. -/
def readFraction : List Char → List Char × List Char
  | '.' :: rest => (rest.takeWhile isDigit,rest.dropWhile isDigit)
  | rest => ([],rest)

theorem readFraction_of_ne {c : Char} (h : c ≠ '.') (rest : List Char) :
    readFraction (c :: rest) = ([],c :: rest) := by
  unfold readFraction
  split
  next h' => exact absurd (List.cons.inj h').1 h
  next => rfl

theorem readFraction_map_toAsciiUpper (text : List Char) :
    readFraction (text.map toAsciiUpper) =
      ((readFraction text).1.map toAsciiUpper,(readFraction text).2.map toAsciiUpper) := by
  rcases text with _ | ⟨c,rest⟩
  · rfl
  by_cases hpoint : c = '.'
  · have hkept : toAsciiUpper '.' = '.' := rfl
    rw [hpoint,List.map_cons,hkept,readFraction,readFraction,List.takeWhile_map,List.dropWhile_map,
      isDigit_comp_toAsciiUpper]
  · have hpoint' := mt (toAsciiUpper_eq_iff (by decide) c).mp hpoint
    rw [List.map_cons,readFraction_of_ne hpoint',readFraction_of_ne hpoint]
    rfl

theorem readUnsigned?_eq (text : List Char) :
    readUnsigned? text =
      let fraction := readFraction (text.dropWhile isDigit)
      if (text.takeWhile isDigit).isEmpty && fraction.1.isEmpty then readWord? text
      else (readExponent? fraction.2).map fun exponent =>
        nearest (digitsValue (text.takeWhile isDigit ++ fraction.1)) (exponent - fraction.1.length) := by
  rw [readUnsigned?]
  generalize text.dropWhile isDigit = rest
  rcases rest with _ | ⟨c,rest⟩
  · rfl
  by_cases hpoint : c = '.'
  · rw [hpoint]
    rfl
  · rw [readFraction_of_ne hpoint]
    dsimp only
    split
    next h => exact absurd (List.cons.inj h).1 hpoint
    next => rfl

theorem readUnsigned?_map_toAsciiUpper (text : List Char) :
    readUnsigned? (text.map toAsciiUpper) = readUnsigned? text := by
  simp only [readUnsigned?_eq,List.takeWhile_map,List.dropWhile_map,isDigit_comp_toAsciiUpper,
    readFraction_map_toAsciiUpper,List.isEmpty_map,List.length_map,← List.map_append,
    digitsValue_map_toAsciiUpper,readExponent?_map_toAsciiUpper,readWord?_map_toAsciiUpper]

theorem read?_map_toAsciiUpper (text : List Char) : read? (text.map toAsciiUpper) = read? text := by
  rw [read?,read?,readSign_map_toAsciiUpper]
  simp only [readUnsigned?_map_toAsciiUpper]

end Decimal

end SizeSurvey
