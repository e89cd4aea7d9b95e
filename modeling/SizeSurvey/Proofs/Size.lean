import Mathlib.Algebra.Ring.Nat
import SizeSurvey.Size

/-! # Totals of sizes

A total is the sum of its sizes as numbers, or the largest size if that is less.
-/
namespace SizeSurvey.Size

theorem size_eq : UInt64.size = 2 ^ 64 := rfl

theorem toNat_largest : largest.toNat = UInt64.size - 1 := rfl

theorem toNat_plus (a b : Size) :
    (plus a b).toNat = min (a.toNat + b.toNat) (UInt64.size - 1) := by
  have ha := a.toNat_lt
  have hb := b.toNat_lt
  have hsize := size_eq
  unfold plus
  split
  next h =>
    rw [UInt64.lt_iff_toNat_lt,UInt64.toNat_add] at h
    rw [toNat_largest]
    omega
  next h =>
    rw [UInt64.lt_iff_toNat_lt,UInt64.toNat_add] at h
    rw [UInt64.toNat_add]
    omega

theorem toNat_max (a b : Size) : (max a b).toNat = max a.toNat b.toNat := by
  rw [show max a b = if a ≤ b then b else a from rfl,Nat.max_def]
  simp only [UInt64.le_iff_toNat_le]
  split <;> rfl

theorem toNat_min (a b : Size) : (min a b).toNat = min a.toNat b.toNat := by
  rw [show min a b = if a ≤ b then a else b from rfl,Nat.min_def]
  simp only [UInt64.le_iff_toNat_le]
  split <;> rfl

theorem toNat_foldl_plus (sizes : List Size) (start : Size) :
    (sizes.foldl plus start).toNat =
      min (start.toNat + (sizes.map UInt64.toNat).sum) (UInt64.size - 1) := by
  induction sizes generalizing start with
  | nil =>
    have hstart := start.toNat_lt
    have hsize := size_eq
    simp only [List.foldl_nil,List.map_nil,List.sum_nil]
    omega
  | cons size rest ih =>
    rw [List.foldl_cons,ih,toNat_plus,List.map_cons,List.sum_cons]
    omega

/-- Sizes that are added without a limit are added exactly as long as all of them together fit. -/
theorem toNat_foldl_add {sizes : List Size} {start : Size}
    (h : start.toNat + (sizes.map UInt64.toNat).sum < UInt64.size) :
    (sizes.foldl (· + ·) start).toNat = start.toNat + (sizes.map UInt64.toNat).sum := by
  induction sizes generalizing start with
  | nil => rfl
  | cons size rest ih =>
    rw [List.map_cons,List.sum_cons] at h ⊢
    have hadd : (start + size).toNat = start.toNat + size.toNat := by
      rw [UInt64.toNat_add]
      exact Nat.mod_eq_of_lt (by rw [← size_eq]; omega)
    rw [List.foldl_cons,ih (by rw [hadd]; omega),hadd,Nat.add_assoc]

theorem toNat_total (sizes : List Size) :
    (total sizes).toNat = min (sizes.map UInt64.toNat).sum (UInt64.size - 1) := by
  have h := toNat_foldl_plus sizes 0
  simpa [total] using h

/-- The sum of sizes as numbers, or the largest size if that is less. -/
def saturated (sizes : List Size) : Size :=
  UInt64.ofNat (min (sizes.map UInt64.toNat).sum (UInt64.size - 1))

theorem toNat_saturated (sizes : List Size) :
    (saturated sizes).toNat = min (sizes.map UInt64.toNat).sum (UInt64.size - 1) := by
  have hlt : min (sizes.map UInt64.toNat).sum (UInt64.size - 1) < UInt64.size :=
    Nat.lt_of_le_of_lt (Nat.min_le_right ..) (by decide)
  rw [saturated,UInt64.toNat_ofNat_of_lt' hlt]

theorem total_eq_saturated (sizes : List Size) : total sizes = saturated sizes := by
  rw [← UInt64.toNat_inj,toNat_total,toNat_saturated]

theorem saturated_perm {sizes others : List Size} (h : sizes.Perm others) :
    saturated sizes = saturated others := by
  rw [saturated,saturated,(h.map UInt64.toNat).sum_nat]

theorem saturated_append (sizes others : List Size) :
    saturated (sizes ++ others) = plus (saturated sizes) (saturated others) := by
  rw [← UInt64.toNat_inj,toNat_plus]
  simp only [toNat_saturated,List.map_append,List.sum_append]
  omega

theorem ofNat?_toNat (size : Size) : ofNat? size.toNat = some size := by
  rw [ofNat?,if_pos size.toNat_lt,UInt64.ofNat_toNat]

theorem sub_eq_iff {a b : Size} (h : a ≤ b) (c : Size) :
    b - a = c ↔ a.toNat + c.toNat = b.toNat := by
  rw [UInt64.le_iff_toNat_le] at h
  rw [← UInt64.toNat_inj,UInt64.toNat_sub_of_le b a (UInt64.le_iff_toNat_le.mpr h)]
  omega

end SizeSurvey.Size

namespace SizeSurvey

/-! ## Parts of a run -/

/-- A part of a state that only sees some elements, and of each of these only its entry, is after a
run the fold over their entries. -/
theorem foldl_part {σ α β γ : Type} (add : σ → α → σ) (part : σ → β) (concerned : α → Bool)
    (entry : α → γ) (step : β → γ → β)
    (h : ∀ state x, part (add state x) =
      if concerned x then step (part state) (entry x) else part state)
    (state : σ) (xs : List α) :
    part (xs.foldl add state) = ((xs.filter concerned).map entry).foldl step (part state) := by
  induction xs generalizing state with
  | nil => rfl
  | cons x rest ih =>
    rw [List.foldl_cons,ih,h]
    cases hx : concerned x with
    | true => rw [List.filter_cons_of_pos hx,List.map_cons,List.foldl_cons,if_pos rfl]
    | false => rw [List.filter_cons_of_neg (Bool.eq_false_iff.mp hx),if_neg Bool.false_ne_true]

theorem sum_filter_cons {α : Type} (p : α → Bool) (amount : α → Nat) (x : α) (rest : List α) :
    (((x :: rest).filter p).map amount).sum =
      (if p x then amount x else 0) + ((rest.filter p).map amount).sum := by
  cases h : p x <;> simp [h]

theorem sum_filter_le {α : Type} (p : α → Bool) (amount : α → Nat) (xs : List α) :
    ((xs.filter p).map amount).sum ≤ (xs.map amount).sum := by
  induction xs with
  | nil => exact Nat.le_refl 0
  | cons x rest ih =>
    rw [sum_filter_cons,List.map_cons,List.sum_cons]
    split <;> omega

/-- Where all sizes together fit, no part of them is cut off. -/
theorem Size.toNat_saturated_filter {α : Type} {xs : List α} {size : α → Size}
    (h : (xs.map fun x => (size x).toNat).sum < UInt64.size) (p : α → Bool) :
    (saturated ((xs.filter p).map size)).toNat =
      ((xs.filter p).map fun x => (size x).toNat).sum := by
  have hle := sum_filter_le p (fun x => (size x).toNat) xs
  rw [toNat_saturated,List.map_map]
  exact Nat.min_eq_left (by simp only [Function.comp_def]; omega)

end SizeSurvey
