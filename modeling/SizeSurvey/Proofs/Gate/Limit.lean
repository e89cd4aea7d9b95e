import SizeSurvey.Proofs.Gate.Growth
import SizeSurvey.Proofs.Rounding.Overflow
import SizeSurvey.Proofs.Text.Capitals
import SizeSurvey.Proofs.Text.Occurrence

/-! # Limits

The number of a threshold is finite and not negative, and so is the limit that is computed from it, unless
the number has a unit and so many bytes that no floating point number is as large. The limit is infinite
then, and no growth exceeds it.
-/
namespace SizeSurvey.Threshold
open Rounding

/-! ## Units -/

/-- By how many bits a unit shifts its number. -/
def unitBits? : Char → Option Nat
  | 'K' => some 10
  | 'M' => some 20
  | 'G' => some 30
  | _ => none

/-- A factor that shifts a number by so many bits. -/
structure IsShift (factor : Float) (bits : Nat) : Prop where
  le : bits ≤ 900
  unpack : ∃ h, factor.toModel.unpack = .finite .positive (2 ^ 52) (bits - 52) h

theorem unit?_append (text : List Char) (c : Char) :
    (unitBits? c = none ∧ unit? (text ++ [c]) = none) ∨
      ∃ bits factor, unitBits? c = some bits ∧ IsShift factor bits ∧
        unit? (text ++ [c]) = some (factor,text) := by
  have hpositive : 0 < 2 ^ 52 := by decide
  by_cases hkilo : c = 'K'
  · refine Or.inr ⟨10,1024.0,hkilo ▸ rfl,⟨by decide,hpositive,rfl⟩,?_⟩
    simp [unit?,units,Text.beforeEnd?_singleton,hkilo]
  by_cases hmega : c = 'M'
  · refine Or.inr ⟨20,1048576.0,hmega ▸ rfl,⟨by decide,hpositive,rfl⟩,?_⟩
    simp [unit?,units,Text.beforeEnd?_singleton,hmega]
  by_cases hgiga : c = 'G'
  · refine Or.inr ⟨30,1073741824.0,hgiga ▸ rfl,⟨by decide,hpositive,rfl⟩,?_⟩
    simp [unit?,units,Text.beforeEnd?_singleton,hgiga]
  refine Or.inl ⟨?_,?_⟩
  · unfold unitBits?
    split <;> first | rfl | contradiction
  · simp [unit?,units,Text.beforeEnd?_singleton,Ne.symm hkilo,Ne.symm hmega,Ne.symm hgiga]

/-! ## Limits -/

/-- A finite limit that is not negative. -/
def IsUsable : Threshold → Prop
  | share limit | bytes limit => IsAmount limit

/-- A text of a number and a unit that stand for too many bytes to be a floating point number. -/
def Overflows (text : String) : Prop :=
  ∃ number unit bits x value, Text.trim text.toList = number ++ [unit] ∧
    unitBits? (Text.toAsciiUpper unit) = some bits ∧ number? number = some x ∧
    Dyadic.ofFloat? x = some value ∧ 2 ^ 1024 ≤ magnitude value * 2 ^ bits

theorem isAmount_of_number? {text : List Char} {x : Float} (h : number? text = some x) : IsAmount x := by
  rw [number?] at h
  split at h
  next y hread =>
    rw [Option.ite_none_right_eq_some] at h
    obtain ⟨hcheck,hsome⟩ := h
    obtain rfl := Option.some_inj.mp hsome
    rw [Bool.and_eq_true,Bool.not_eq_true',decide_eq_false_iff_not] at hcheck
    exact .of_not_lt hcheck.1 hcheck.2
  next => cases h

theorem number?_map_toAsciiUpper (text : List Char) :
    number? (text.map Text.toAsciiUpper) = number? text := by
  rw [number?,number?,Text.trim_map_toAsciiUpper,Decimal.read?_map_toAsciiUpper]

theorem isAmount_percent {x : Float} (h : IsAmount x) : IsAmount (x / 100.0) := by
  have hhundred : (100.0 : Float).toModel.unpack = .finite .positive 0x19000000000000 (-46) (by decide) :=
    rfl
  exact h.div hhundred ⟨by decide,by decide⟩ (by decide) (by decide)

theorem isExceeded_of_infinite {limit : Float} (hle : 0.0 ≤ limit) (hinfinite : limit.isFinite = false)
    (baseline growth : Size) : (bytes limit).isExceeded baseline growth = false := by
  have hunpack : limit.toModel.unpack = .infinity .positive := by
    have hnonneg := zero_le_iff.mp hle
    rw [isFinite_eq] at hinfinite
    generalize limit.toModel.unpack = u at hnonneg hinfinite
    cases hnonneg with
    | zero | finite => cases hinfinite
    | infinity => rfl
  rw [Bool.eq_false_iff,ne_eq,isExceeded_bytes_iff]
  exact fun h => not_infinity_lt hunpack h.2

/-! ## Reading -/

theorem parse_eq (text : String) :
    parse text = (read? text.toList).elim (.error (.invalidThreshold text)) .ok := by
  rw [parse]
  cases read? text.toList <;> rfl

theorem overflows_iff {text : String} {front : List Char} {c : Char}
    (htext : Text.trim text.toList = front ++ [c]) :
    Overflows text ↔ ∃ bits x value, unitBits? (Text.toAsciiUpper c) = some bits ∧
      number? front = some x ∧ Dyadic.ofFloat? x = some value ∧
      2 ^ 1024 ≤ magnitude value * 2 ^ bits := by
  constructor
  · rintro ⟨number,unit,bits,x,value,hnumber,h⟩
    obtain ⟨rfl,hunit⟩ := List.append_inj' (htext.symm.trans hnumber) rfl
    obtain rfl := List.singleton_inj.mp hunit
    exact ⟨bits,x,value,h⟩
  · rintro ⟨bits,x,value,h⟩
    exact ⟨front,c,bits,x,value,htext,h⟩

/-- What becomes of a text. -/
inductive Parses (text : String) : Prop
  | rejected (hparse : parse text = .error (.invalidThreshold text)) (h : ¬Overflows text)
  | usable {threshold : Threshold} (hparse : parse text = .ok threshold) (hlimit : threshold.IsUsable)
    (h : ¬Overflows text)
  | infinite {limit : Float} (hparse : parse text = .ok (bytes limit)) (hle : 0.0 ≤ limit)
    (hinfinite : limit.isFinite = false) (h : Overflows text)

theorem parses_of_amount {text : String} (number : List Char) (limit : Float → Threshold)
    (hread : read? text.toList = (number? number).map limit)
    (hlimit : ∀ x, IsAmount x → (limit x).IsUsable) (h : ¬Overflows text) : Parses text := by
  have hparse := parse_eq text
  rw [hread] at hparse
  cases hnumber : number? number with
  | none =>
    rw [hnumber] at hparse
    exact .rejected hparse h
  | some x =>
    rw [hnumber] at hparse
    exact .usable hparse (hlimit x (isAmount_of_number? hnumber)) h

theorem parses_of_unit {text : String} {front : List Char} {c : Char} {bits : Nat} {factor : Float}
    (htext : Text.trim text.toList = front ++ [c])
    (hread : read? text.toList = (number? front).map fun x => bytes (x * factor))
    (hbits : unitBits? (Text.toAsciiUpper c) = some bits) (hfactor : IsShift factor bits) :
    Parses text := by
  have hparse := parse_eq text
  have hoverflows := overflows_iff htext
  rw [hread] at hparse
  rw [hbits] at hoverflows
  cases hnumber : number? front with
  | none =>
    rw [hnumber] at hparse hoverflows
    exact .rejected hparse (by simp [hoverflows])
  | some x =>
    obtain ⟨hpositive,hunpack⟩ := hfactor.unpack
    obtain ⟨hle,value,hvalue,hfinite⟩ := (isAmount_of_number? hnumber).mul_two_pow hunpack hfactor.le
    rw [hnumber] at hparse hoverflows
    have hlarge : Overflows text ↔ ¬(x * factor).isFinite = true := by
      rw [hfinite,not_lt,hoverflows]
      simp [hvalue]
    by_cases h : (x * factor).isFinite = true
    · have hlimit : IsAmount (x * factor) := ⟨h,hle⟩
      exact .usable hparse hlimit fun hoverflows => hlarge.mp hoverflows h
    · exact .infinite hparse hle (Bool.eq_false_iff.mpr h) (hlarge.mpr h)

theorem parses (text : String) : Parses text := by
  rcases List.eq_nil_or_concat (Text.trim text.toList) with htext | ⟨front,c,htext⟩
  · refine parses_of_amount [] bytes ?_ (fun _ h => h) ?_
    · rw [read?,htext]
      rfl
    · rintro ⟨number,unit,-,-,-,hnumber,-⟩
      simp [htext] at hnumber
  rw [List.concat_eq_append] at htext
  by_cases hpercent : c = '%'
  · subst hpercent
    refine parses_of_amount front (fun x => share (x / 100.0)) ?_
      (fun _ h => isAmount_percent h) ?_
    · rw [read?,htext]
      simp only [Text.beforeEnd?_singleton,if_true]
    · rw [overflows_iff htext]
      rintro ⟨bits,-,-,hbits,-⟩
      cases hbits
  have hnone : Text.beforeEnd? ['%'] (front ++ [c]) = none := by
    rw [Text.beforeEnd?_singleton,if_neg (Ne.symm hpercent)]
  rcases unit?_append (front.map Text.toAsciiUpper) (Text.toAsciiUpper c) with
    ⟨hbits,hunit⟩ | ⟨bits,factor,hbits,hfactor,hunit⟩
  · refine parses_of_amount (front ++ [c]) bytes ?_ (fun _ h => h) ?_
    · rw [read?,htext]
      simp only [hnone,List.map_append,List.map_singleton,hunit]
    · rw [overflows_iff htext,hbits]
      rintro ⟨bits,-,-,hnone,-⟩
      cases hnone
  · refine parses_of_unit htext ?_ hbits hfactor
    rw [read?,htext]
    simp only [hnone,List.map_append,List.map_singleton,hunit,number?_map_toAsciiUpper]

theorem overflows_gigabytes : Overflows "1e308G" := by
  have hvalue : (number? "1e308".toList).bind Dyadic.ofFloat? = some ⟨false,5010420900022432,971⟩ := by
    decide +kernel
  obtain ⟨x,hnumber,hexact⟩ := Option.bind_eq_some_iff.mp hvalue
  have hunpacked : IsUnpacked 5010420900022432 971 :=
    ⟨by decide,by decide,by decide,by decide,Or.inl (by decide)⟩
  have hlarge : 2 ^ 1024 ≤ magnitude ⟨false,5010420900022432,971⟩ * 2 ^ 30 :=
    not_lt.mp (mt (hunpacked.lt_iff (by decide)).mp (by decide))
  exact ⟨"1e308".toList,'G',30,x,_,rfl,rfl,hnumber,hexact,hlarge⟩

/-- **Limits are finite unless they overflow:** a text is rejected as it is, or it gives a finite limit that
is not negative, if and only if its number and its unit do not stand for too many bytes; if they do, the text
is accepted, and no growth ever exceeds its limit. -/
theorem parse_usable_iff (text : String) :
    ((parse text = .error (.invalidThreshold text) ∨
        ∃ threshold, parse text = .ok threshold ∧ threshold.IsUsable) ↔ ¬Overflows text) ∧
      (Overflows text → ∃ limit, parse text = .ok (bytes limit) ∧ limit.isFinite = false ∧
        ∀ baseline growth, (bytes limit).isExceeded baseline growth = false) := by
  cases parses text with
  | rejected hparse h => exact ⟨iff_of_true (Or.inl hparse) h,fun h' => absurd h' h⟩
  | usable hparse hlimit h => exact ⟨iff_of_true (Or.inr ⟨_,hparse,hlimit⟩) h,fun h' => absurd h' h⟩
  | @infinite limit hparse hle hinfinite h =>
    refine ⟨iff_of_false ?_ (not_not_intro h),fun _ =>
      ⟨limit,hparse,hinfinite,isExceeded_of_infinite hle hinfinite⟩⟩
    rw [hparse]
    rintro (herror | ⟨threshold,hthreshold,husable⟩)
    · cases herror
    · obtain rfl := Except.ok.inj hthreshold
      exact Bool.eq_false_iff.mp hinfinite husable.isFinite

/-- The gate is disabled by so many gigabytes. -/
theorem parse_usable_iff_gigabytes : Overflows "1e308G" ∧
    ∃ limit, parse "1e308G" = .ok (bytes limit) ∧ limit.isFinite = false ∧
      ∀ baseline growth, (bytes limit).isExceeded baseline growth = false :=
  ⟨overflows_gigabytes,(parse_usable_iff _).2 overflows_gigabytes⟩

/-- So many gigabytes are not rejected. -/
theorem parse_infinite : ∃ limit, parse "1e308G" = .ok (bytes limit) ∧ limit.isFinite = false := by
  cases parses "1e308G" with
  | rejected _ h | usable _ _ h => exact absurd overflows_gigabytes h
  | infinite hparse _ hinfinite _ => exact ⟨_,hparse,hinfinite⟩

end SizeSurvey.Threshold
