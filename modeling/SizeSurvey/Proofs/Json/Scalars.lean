import SizeSurvey.Json.Parser
import SizeSurvey.Json.Printer
import SizeSurvey.Proofs.Listing.Numeral

/-! # Strings and numbers read back

A written string is read back character by character, whatever follows its closing quote. The digits
of a number below `2 ^ 64` are read back where no further part of a number follows them.
-/
namespace SizeSurvey.Json

/-! ## Strings -/

/-- The part of a string as which a written character is read. -/
def unitOf (c : Char) : Unit16 :=
  if c.toNat < 0x20 ∧ c ∉ ['\n','\r','\t','\x08','\x0c'] then .code c.toNat else .char c

theorem readDigits_hexCode {n : Nat} (h : n < 256) :
    Text.readDigits 16 Text.hexDigit? ('0' :: '0' :: hexCode n) 0 = some n := by
  have hhigh := Text.hexDigit?_digitChar (n / 16) (by omega)
  have hlow := Text.hexDigit?_digitChar (n % 16) (by omega)
  have hzero : Text.hexDigit? '0' = some 0 := rfl
  simp only [hexCode,Text.readDigits,hzero,hhigh,hlow,Option.bind_some,Option.some_inj]
  omega

/-- A written character is read as one part of the string. -/
theorem readUnits_writeChar (c : Char) (done : List Unit16) (rest : List Char) :
    readUnits done (writeChar c ++ rest) = readUnits (unitOf c :: done) rest := by
  unfold writeChar
  split
  case h_8 hquote hbackslash hline hreturn htab hback hfeed =>
    split
    case isTrue hcontrol =>
      have hcode := readDigits_hexCode (n := c.toNat) (by omega)
      have hunit : unitOf c = .code c.toNat := by
        simp_all [unitOf]
      rw [hunit]
      simp only [hexCode] at hcode ⊢
      simp only [List.cons_append,List.nil_append]
      rw [readUnits,hcode]
    case isFalse hprinted =>
      have hunit : unitOf c = .char c := if_neg fun h => hprinted h.1
      rw [hunit,List.singleton_append,readUnits]
      · exact if_neg (not_or.mpr ⟨hprinted,hbackslash⟩)
      all_goals simp_all
  all_goals simp [readUnits,escaped?,unitOf]

theorem readUnits_flatMap (text : List Char) (done : List Unit16) (rest : List Char) :
    readUnits done (text.flatMap writeChar ++ '"' :: rest) =
      some ((text.map unitOf).reverse ++ done,rest) := by
  induction text generalizing done with
  | nil => simp [readUnits]
  | cons c text ih =>
    rw [List.flatMap_cons,List.append_assoc,readUnits_writeChar,ih]
    simp

theorem decode_code {n : Nat} (h : n < 0xd800) (rest : List Unit16) :
    Unit16.decode (.code n :: rest) = (Unit16.decode rest).map (Char.ofNat n :: ·) := by
  have hhigh : ¬(0xd800 ≤ n ∧ n < 0xdc00) := by omega
  have hlow : ¬(0xdc00 ≤ n ∧ n < 0xe000) := by omega
  have hboth : ¬(0xd800 ≤ n ∧ n < 0xe000) := by omega
  rcases rest with _ | ⟨_ | m,rest⟩
  · simp only [Unit16.decode,if_neg hboth]
  · simp only [Unit16.decode,if_neg hboth]
  · rw [Unit16.decode,if_neg hhigh,if_neg hlow]

theorem decode_map_unitOf (text : List Char) : Unit16.decode (text.map unitOf) = some text := by
  induction text with
  | nil => rfl
  | cons c text ih =>
    rw [List.map_cons]
    by_cases hspelled : c.toNat < 0x20 ∧ c ∉ ['\n','\r','\t','\x08','\x0c']
    · rw [unitOf,if_pos hspelled,decode_code (by omega),ih,Char.ofNat_toNat]
      rfl
    · rw [unitOf,if_neg hspelled,Unit16.decode,ih]
      rfl

/-- **A written string is read back,** whatever its characters are. -/
theorem readString_flatMap (s : String) (rest : List Char) :
    readString (s.toList.flatMap writeChar ++ '"' :: rest) = some (some s,rest) := by
  simp only [readString,readUnits_flatMap,Option.map_some,List.append_nil,List.reverse_reverse,
    decode_map_unitOf,String.ofList_toList]

theorem writeString_append (s : String) (rest : List Char) :
    writeString s ++ rest = '"' :: (s.toList.flatMap writeChar ++ '"' :: rest) := by
  simp [writeString]

/-! ## Numbers -/

/-- What may follow the digits of a number without being read as a part of it. -/
def EndsNumber (rest : List Char) : Prop :=
  ∀ c ∈ rest.head?, Text.isDigit c = false ∧ c ≠ '.' ∧ c ≠ 'e' ∧ c ≠ 'E'

theorem le_of_readDigits {text : List Char} {high n : Nat}
    (h : Text.readDigits 10 Text.digit? text high = some n) : high ≤ n := by
  induction text generalizing high with
  | nil => exact Nat.le_of_eq (Option.some_inj.mp h)
  | cons c rest ih =>
    obtain ⟨d,_,hrest⟩ := Option.bind_eq_some_iff.mp h
    have hle := ih hrest
    omega

theorem significand_of_readDigits {text : List Char} {high n : Nat}
    (h : Text.readDigits 10 Text.digit? text high = some n) (hn : n < UInt64.size) :
    Literal.significand high text = (n,[]) := by
  induction text generalizing high with
  | nil => rw [Literal.significand,Option.some_inj.mp h]
  | cons c rest ih =>
    obtain ⟨d,hd,hrest⟩ := Option.bind_eq_some_iff.mp h
    have hdigit : Literal.digit c = d := by rw [Literal.digit,hd]; rfl
    have hfits : high * 10 + d < UInt64.size := Nat.lt_of_le_of_lt (le_of_readDigits hrest) hn
    simp only [Literal.significand,hdigit,if_pos hfits]
    exact ih hrest

theorem isDigit_of_mem_toDigits {n : Nat} {c : Char} (h : c ∈ Nat.toDigits 10 n) :
    Text.isDigit c = true :=
  Text.isSome_of_readDigits (Text.readDigits_toDigits (by decide) Text.digit?_digitChar n) c h

/-- The digits of a number begin with a digit, which is no zero unless the number is. -/
theorem toDigits_eq_cons (n : Nat) :
    ∃ c rest, Nat.toDigits 10 n = c :: rest ∧ Text.isDigit c = true ∧ (c = '0' → n = 0) := by
  suffices h : ∃ c rest, Nat.toDigits 10 n = c :: rest ∧ (c = '0' → n = 0) by
    obtain ⟨c,rest,hdigits,hc⟩ := h
    exact ⟨c,rest,hdigits,isDigit_of_mem_toDigits (n := n) (by simp [hdigits]),hc⟩
  have hzero : ∀ d < 10, Nat.digitChar d = '0' → d = 0 := by decide
  induction n using Nat.strongRecOn with
  | ind n ih =>
    by_cases hlt : n < 10
    · exact ⟨_,[],Nat.toDigits_of_lt_base hlt,hzero n hlt⟩
    · have hle : 10 ≤ n := Nat.not_lt.mp hlt
      obtain ⟨c,rest,hdigits,hc⟩ := ih (n / 10) (by omega)
      refine ⟨c,rest ++ [Nat.digitChar (n % 10)],?_,fun h => ?_⟩
      · rw [Nat.toDigits_of_base_le (by decide) hle,hdigits,List.cons_append]
      · have hdiv := hc h
        omega

theorem readDigitRun_append {digits rest : List Char} (hne : digits ≠ [])
    (hdigits : ∀ c ∈ digits, Text.isDigit c = true) (hrest : EndsNumber rest) :
    readDigitRun (digits ++ rest) = some (digits,rest) := by
  have hend : ∀ c ∈ rest.head?, Text.isDigit c = false := fun c hc => (hrest c hc).1
  simp only [readDigitRun,Text.takeWhile_run hdigits hend,Text.dropWhile_run hdigits hend]
  simp [hne]

theorem readWhole_toDigits (n : Nat) {rest : List Char} (hrest : EndsNumber rest) :
    readWhole (Nat.toDigits 10 n ++ rest) = some (Nat.toDigits 10 n,rest) := by
  by_cases hn : n = 0
  · have hdigits : Nat.toDigits 10 n = ['0'] := by rw [hn]; rfl
    rw [hdigits]
    cases rest with
    | nil => rfl
    | cons c rest => simp [readWhole,(hrest c rfl).1]
  · obtain ⟨c,more,hdigits,_,hzero⟩ := toDigits_eq_cons n
    have hrun := readDigitRun_append Nat.toDigits_ne_nil
      (fun _ => isDigit_of_mem_toDigits (n := n)) hrest
    have hne : ∀ tail, Nat.toDigits 10 n ++ rest = '0' :: tail → False := by
      intro tail htail
      rw [hdigits] at htail
      exact hn (hzero (List.cons.inj htail).1)
    rw [readWhole,hrun]
    exact hne

theorem EndsNumber.readFraction {rest : List Char} (h : EndsNumber rest) :
    readFraction rest = some (none,rest) := by
  unfold Json.readFraction
  split
  next tail => exact absurd rfl (h '.' rfl).2.1
  next => rfl

theorem EndsNumber.readExponent {rest : List Char} (h : EndsNumber rest) :
    readExponent rest = some (none,rest) := by
  cases rest with
  | nil => rfl
  | cons c rest =>
    obtain ⟨_,_,hlower,hupper⟩ := h c rfl
    exact if_neg (not_or.mpr ⟨hlower,hupper⟩)

/-- **The digits of a number are read back.** -/
theorem readNumber_toDigits {n : Nat} (hn : n < UInt64.size) {rest : List Char}
    (hrest : EndsNumber rest) : readNumber (Nat.toDigits 10 n ++ rest) = some (.natural n,rest) := by
  obtain ⟨c,more,hdigits,hc,_⟩ := toDigits_eq_cons n
  have hunsigned : ∀ tail, Nat.toDigits 10 n ++ rest = '-' :: tail → False := by
    intro tail htail
    rw [hdigits] at htail
    rw [(List.cons.inj htail).1] at hc
    cases hc
  have hvalue : Literal.significand 0 (Nat.toDigits 10 n) = (n,[]) :=
    significand_of_readDigits (Text.readDigits_toDigits (by decide) Text.digit?_digitChar n) hn
  unfold readNumber
  split
  next negative text hsign =>
    split at hsign
    next tail htail => exact (hunsigned tail htail).elim
    next =>
      cases hsign
      simp [readWhole_toDigits n hrest,hrest.readFraction,hrest.readExponent,Literal.toJson,hvalue]

end SizeSurvey.Json
