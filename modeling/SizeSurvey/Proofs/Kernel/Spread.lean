import SizeSurvey.Proofs.Distribution.Interpolation
import SizeSurvey.Proofs.Kernel.Summary

/-! # Order of the spread of kernel sizes

The least and the greatest size are exact, and the percentiles between them are those of the sizes
as floating point numbers. So the five numbers are in order as far as these give back the ends of the
spread, which they do for sizes of 53 bits.
-/
namespace SizeSurvey
open Rounding

/-- What is left of a size after it was a floating point number. -/
def Size.rounded (size : Size) : Size :=
  size.toFloat.toUInt64

theorem Size.rounded_of_isNearest {size : Size} (h : IsNearest size.toNat size.toNat) :
    rounded size = size := by
  have hlevel := (Percentile.isNearest_level size).unique h
  have hwhole := (Percentile.hasAmount_level size).toNat_toUInt64
  have hlt := size.toNat_lt
  rw [hlevel,Nat.floor_natCast,Nat.min_eq_left (Nat.le_sub_one_of_lt hlt)] at hwhole
  exact UInt64.toNat_inj.mp hwhole

theorem Size.rounded_of_le {size : Size} (h : size.toNat ≤ 2 ^ 53) : rounded size = size := by
  refine rounded_of_isNearest ?_
  rcases Nat.lt_or_eq_of_le h with hlt | heq
  · exact HasAmount.isNearest_natCast hlt
  · have hpower := (HasAmount.isNearest_natCast (by decide : 1 < 2 ^ 53)).mul_two_pow 53
    rw [Nat.cast_one,one_mul] at hpower
    rw [heq]
    exact_mod_cast hpower

theorem half_le_nine_tenths : (0.5 : Float) ≤ 0.9 := by decide

theorem nine_tenths_le_ninety_nine_hundredths : (0.9 : Float) ≤ 0.99 := by decide

namespace SizeSpread

theorem exists_percentiles {sorted : List Size} {spread : SizeSpread}
    (h : ofSorted? sorted = some spread) :
    sorted.head? = some spread.least ∧ sorted.getLast? = some spread.greatest ∧
      ∃ x y z, Percentile.interpolated sorted 0.5 = some x ∧
        Percentile.interpolated sorted 0.9 = some y ∧ Percentile.interpolated sorted 0.99 = some z ∧
        spread.median = x.toUInt64 ∧ spread.p90 = y.toUInt64 ∧ spread.p99 = z.toUInt64 := by
  simp only [ofSorted?,Option.bind_eq_bind,Option.bind_eq_some_iff,Option.map_eq_some_iff,
    Option.pure_def,Option.some.injEq] at h
  obtain ⟨least,hleast,_,⟨x,hx,rfl⟩,_,⟨y,hy,rfl⟩,_,⟨z,hz,rfl⟩,greatest,hgreatest,rfl⟩ := h
  exact ⟨hleast,hgreatest,x,y,z,hx,hy,hz,rfl,rfl,rfl⟩

/-- What a spread says about sizes. -/
structure Describes (sizes : List Size) (spread : SizeSpread) : Prop where
  least : IsExtreme (· ≤ ·) sizes spread.least
  greatest : IsExtreme (· ≥ ·) sizes spread.greatest
  rounded_least_le_median : spread.least.rounded ≤ spread.median
  median_le_p90 : spread.median ≤ spread.p90
  p90_le_p99 : spread.p90 ≤ spread.p99
  p99_le_rounded_greatest : spread.p99 ≤ spread.greatest.rounded
  least_le_median : spread.least.toNat ≤ 2 ^ 53 → spread.least ≤ spread.median
  p99_le_greatest : spread.greatest.toNat ≤ 2 ^ 53 → spread.p99 ≤ spread.greatest
  single : ∀ size, sizes = [size] →
    spread = ⟨size,size.rounded,size.rounded,size.rounded,size⟩

theorem exists_describes {sizes : List Size} (hne : sizes ≠ []) :
    ∃ spread, ofSorted? (sizes.mergeSort fun a b => a ≤ b) = some spread ∧
      Describes sizes spread := by
  have hsorted := pairwise_mergeSort_sizes sizes
  obtain ⟨spread,hspread,hleast,hgreatest⟩ := exists_extremes hne
  obtain ⟨hhead,hlast,x,y,z,hx,hy,hz,hmedian,hp90,hp99⟩ := exists_percentiles hspread
  have hsome : (sizes.mergeSort fun a b => a ≤ b) ≠ [] := fun hnil => by simp [hnil] at hhead
  have hfirst : (sizes.mergeSort fun a b => a ≤ b).head hsome = spread.least :=
    Option.some.inj ((List.head?_eq_some_head hsome).symm.trans hhead)
  have hend : (sizes.mergeSort fun a b => a ≤ b).getLast hsome = spread.greatest :=
    Option.some.inj ((List.getLast?_eq_some_getLast hsome).symm.trans hlast)
  obtain ⟨hlow,-⟩ := Percentile.interpolated_bounds hsorted hsome Percentile.isShare_half hx
  obtain ⟨-,hhigh⟩ :=
    Percentile.interpolated_bounds hsorted hsome Percentile.isShare_ninety_nine_hundredths hz
  rw [hfirst,← hmedian] at hlow
  rw [hend,← hp99] at hhigh
  refine ⟨spread,hspread,?_⟩
  constructor
  case least => exact hleast
  case greatest => exact hgreatest
  case rounded_least_le_median => exact hlow
  case median_le_p90 =>
    rw [hmedian,hp90]
    exact Percentile.interpolated_mono hsorted Percentile.isShare_half
      Percentile.isShare_nine_tenths half_le_nine_tenths hx hy
  case p90_le_p99 =>
    rw [hp90,hp99]
    exact Percentile.interpolated_mono hsorted Percentile.isShare_nine_tenths
      Percentile.isShare_ninety_nine_hundredths nine_tenths_le_ninety_nine_hundredths hy hz
  case p99_le_rounded_greatest => exact hhigh
  case least_le_median =>
    intro h
    exact Size.rounded_of_le h ▸ hlow
  case p99_le_greatest =>
    intro h
    exact Size.rounded_of_le h ▸ hhigh
  case single =>
    rintro size rfl
    rw [List.mergeSort_singleton] at hspread
    exact (Option.some.inj hspread).symm

end SizeSpread

namespace KernelSummary
variable {σ : Type} {demangle : Demangler (StateM σ)} {settings : KernelSettings}
  {image symbols : List UInt8} {world : σ} {summary : KernelSummary}

/-- **The spread of a kernel table is in order** up to the rounding of its ends. -/
theorem spread_of_decode
    (h : ((decode demangle settings image symbols).run world).1 = .ok (some summary)) :
    let names := ((demangle (identifiersOf image symbols)).run world).1.names
    let sizes := (kernelsOf image symbols names).map (·.size)
    (sizes ≠ [] → SizeSpread.Describes sizes summary.spread) ∧
      (sizes = [] → summary.spread = ⟨0,0,0,0,0⟩) := by
  obtain ⟨-,rfl⟩ := eq_ofKernels_of_decode h
  constructor
  · intro hne
    obtain ⟨spread,hspread,hdescribes⟩ := SizeSpread.exists_describes hne
    simp only [ofKernels,hspread]
    exact hdescribes
  · intro hnone
    simp only [ofKernels,hnone,List.mergeSort_nil]
    rfl

/-- A table of three kernels and a name that no record goes with. -/
theorem spread_of_decode_three :
    ∃ (image symbols : List UInt8) (summary : KernelSummary),
      ((decode (fun names => pure (.complete names) : Demangler (StateM Unit)) {} image
        symbols).run ()).1 = .ok (some summary) ∧
      SizeSpread.Describes [100,300,700] summary.spread ∧
      summary.spread = ⟨100,300,620,692,700⟩ := by
  obtain ⟨image,himage⟩ : ∃ image, KernelRecord.decode image = [⟨0,100⟩,⟨100,300⟩,⟨400,700⟩] :=
    ⟨_,(@KernelRecord.IsTable.octets [⟨0,100⟩,⟨100,300⟩,⟨400,700⟩] [] (by decide)).decode_eq⟩
  obtain ⟨symbols,hsymbols⟩ : ∃ symbols, kernelNames symbols = ["k","l","m","n"] :=
    ⟨_,((IsNameTable.zeros 0).name "n" 0 |>.name "m" 0 |>.name "l" 0 |>.name "k" 0).kernelNames_eq
      (by simp [IsKernelName])⟩
  have hdecode := @run_decode _ (fun names => pure (.complete names)) {} image symbols ()
  simp only [himage,hsymbols] at hdecode
  have hsizes : (kernelsOf image symbols (identifiersOf image symbols)).map (·.size) =
      [100,300,700] := by
    rw [kernelsOf,identifiersOf,himage,hsymbols]
    rfl
  have hdescribes := (spread_of_decode hdecode).1 (by
    change (kernelsOf image symbols (identifiersOf image symbols)).map (·.size) ≠ []
    rw [hsizes]
    exact List.cons_ne_nil 100 [300,700])
  refine ⟨image,symbols,_,hdecode,hsizes ▸ hdescribes,?_⟩
  change (SizeSpread.ofSorted? (((kernelsOf image symbols (identifiersOf image symbols)).map
    (·.size)).mergeSort fun a b => a ≤ b)).getD _ = _
  rw [hsizes,List.mergeSort_of_pairwise (by decide)]
  rfl

/-- A single kernel of `2 ^ 53 + 1` bytes is larger than its own percentiles. -/
theorem spread_of_decode_uneven :
    ∃ (image symbols : List UInt8) (summary : KernelSummary),
      ((decode (fun names => pure (.complete names) : Demangler (StateM Unit)) {} image
        symbols).run ()).1 = .ok (some summary) ∧
      KernelRecord.decode image = [⟨0,9007199254740993⟩] ∧ summary.count = 1 ∧
      ¬summary.spread.least ≤ summary.spread.median ∧
      summary.spread = ⟨9007199254740993,9007199254740992,9007199254740992,9007199254740992,
        9007199254740993⟩ := by
  obtain ⟨image,himage⟩ : ∃ image, KernelRecord.decode image = [⟨0,9007199254740993⟩] :=
    ⟨_,(@KernelRecord.IsTable.octets [⟨0,9007199254740993⟩] [] (by decide)).decode_eq⟩
  obtain ⟨symbols,hsymbols⟩ : ∃ symbols, kernelNames symbols = ["k"] :=
    ⟨_,((IsNameTable.zeros 0).name "k" 0).kernelNames_eq (by simp [IsKernelName])⟩
  have hdecode := @run_decode _ (fun names => pure (.complete names)) {} image symbols ()
  simp only [himage,hsymbols] at hdecode
  have hsizes : (kernelsOf image symbols (identifiersOf image symbols)).map (·.size) =
      [9007199254740993] := by
    rw [kernelsOf,identifiersOf,himage,hsymbols]
    rfl
  obtain ⟨summary,hsummary,hcount,hspread⟩ : ∃ summary : KernelSummary,
      ((decode (fun names => pure (.complete names) : Demangler (StateM Unit)) {} image
        symbols).run ()).1 = .ok (some summary) ∧ summary.count = 1 ∧
      summary.spread = ⟨9007199254740993,9007199254740992,9007199254740992,9007199254740992,
        9007199254740993⟩ := by
    refine ⟨_,hdecode,?_,?_⟩
    · exact (List.length_map _).symm.trans (congrArg List.length hsizes)
    · change (SizeSpread.ofSorted? (((kernelsOf image symbols (identifiersOf image symbols)).map
        (·.size)).mergeSort fun a b => a ≤ b)).getD _ = _
      rw [hsizes,List.mergeSort_singleton]
      rfl
  refine ⟨image,symbols,summary,hsummary,himage,hcount,?_,hspread⟩
  rw [hspread]
  decide

end KernelSummary

end SizeSurvey
