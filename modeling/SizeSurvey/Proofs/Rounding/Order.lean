import Mathlib

/-! # The order of floating point numbers

A comparison looks at the signs of two numbers, at their exponents and at their mantissas. All of
these make up the rank of a number, and to compare numbers is to compare their ranks, so that a
number without a rank is neither below nor above any other.
-/
namespace SizeSurvey.Rounding
open Float.Model UnpackedFloat

/-! ## Ranks -/

/-- Where a number stands among the others. A negative number stands the lower the larger it is. -/
def rank : UnpackedFloat → Option (Int ×ₗ Int ×ₗ Int)
  | .notANumber => none
  | .infinity .negative => some (toLex (-2,toLex (0,0)))
  | .finite .negative m e _ => some (toLex (-1,toLex (-e,-m)))
  | .zero _ => some (toLex (0,toLex (0,0)))
  | .finite .positive m e _ => some (toLex (1,toLex (e,m)))
  | .infinity .positive => some (toLex (2,toLex (0,0)))

theorem compare_natCast (m n : Nat) : compare (m : Int) n = compare m n := by
  rw [← cmp_eq_compare,← cmp_eq_compare]
  exact Nat.strictMono_cast.cmp_map_eq m n

theorem compare_neg (a b : Int) : compare (-a) (-b) = compare b a := by
  rw [← cmp_eq_compare,← cmp_eq_compare]
  exact StrictAnti.cmp_map_eq (fun _ _ => Int.neg_lt_neg) a b

theorem compare_toLex (a b c d : Int) :
    compare (toLex (a,b)) (toLex (c,d)) = (compare a c).then (compare b d) := by
  rw [Prod.Lex.compare_def]
  rfl

/-- Ranks of numbers of the same kind differ in what follows the kind. -/
theorem compare_same_kind (kind : Int) (p q : Int ×ₗ Int) :
    compare (toLex (kind,p)) (toLex (kind,q)) = compare p q := by
  rw [Prod.Lex.compare_def]
  change (compare kind kind).then (compare p q) = _
  rw [compare_eq_iff_eq.mpr rfl]
  rfl

theorem compare_eq_compare_rank (x y : UnpackedFloat) :
    x.compare y = (rank x).bind fun p => (rank y).map fun q => compare p q := by
  match x, y with
  | .finite .positive m e _, .finite .positive n f _ =>
    change some ((compare e f).then (compare m n)) = some (compare _ _)
    rw [compare_same_kind,compare_toLex,compare_natCast]
  | .finite .negative m e _, .finite .negative n f _ =>
    change some ((compare e f).then (compare m n)).swap = some (compare _ _)
    rw [compare_same_kind,compare_toLex,compare_neg,compare_neg,compare_natCast,
      Ordering.swap_then,Int.compare_swap,Nat.compare_swap]
  -- Numbers of different kinds are told apart by the kind alone.
  | .notANumber, _ => rfl
  | .infinity .negative, .notANumber => rfl
  | .infinity .positive, .notANumber => rfl
  | .zero _, .notANumber => rfl
  | .finite .negative .., .notANumber => rfl
  | .finite .positive .., .notANumber => rfl
  | .infinity s, .infinity t => cases s <;> cases t <;> rfl
  | .infinity s, .zero _ => cases s <;> rfl
  | .zero _, .infinity t => cases t <;> rfl
  | .infinity s, .finite t .. => cases s <;> cases t <;> rfl
  | .finite s .., .infinity t => cases s <;> cases t <;> rfl
  | .zero _, .zero _ => rfl
  | .finite s .., .zero _ => cases s <;> rfl
  | .zero _, .finite t .. => cases t <;> rfl
  | .finite .positive .., .finite .negative .. => rfl
  | .finite .negative .., .finite .positive .. => rfl

/-! ## Comparing -/

variable {x y z : Float}

theorem lt_iff_rank :
    x < y ↔ ∃ p q, rank x.toModel.unpack = some p ∧ rank y.toModel.unpack = some q ∧ p < q := by
  have hdecide : x < y ↔ UnpackedFloat.lt x.toModel.unpack y.toModel.unpack = true :=
    ⟨of_decide_eq_true,decide_eq_true⟩
  rw [hdecide,UnpackedFloat.lt,beq_iff_eq,compare_eq_compare_rank]
  cases rank x.toModel.unpack with
  | none => simp
  | some p =>
    cases rank y.toModel.unpack with
    | none => simp
    | some q => simp [compare_lt_iff_lt]

theorem le_iff_rank :
    x ≤ y ↔ ∃ p q, rank x.toModel.unpack = some p ∧ rank y.toModel.unpack = some q ∧ p ≤ q := by
  have hdecide : x ≤ y ↔ UnpackedFloat.le x.toModel.unpack y.toModel.unpack = true :=
    ⟨of_decide_eq_true,decide_eq_true⟩
  rw [hdecide,UnpackedFloat.le,compare_eq_compare_rank]
  cases rank x.toModel.unpack with
  | none => simp
  | some p =>
    cases rank y.toModel.unpack with
    | none => simp
    | some q => simp [Ordering.isLE_iff_ne_gt,compare_le_iff_le]

theorem lt_of_lt_of_le (h : x < y) (h' : y ≤ z) : x < z := by
  obtain ⟨p,q,hx,hy,hlt⟩ := lt_iff_rank.mp h
  obtain ⟨q',r,hy',hz,hle⟩ := le_iff_rank.mp h'
  obtain rfl := Option.some_inj.mp (hy.symm.trans hy')
  exact lt_iff_rank.mpr ⟨p,r,hx,hz,hlt.trans_le hle⟩

theorem lt_of_le_of_lt (h : x ≤ y) (h' : y < z) : x < z := by
  obtain ⟨p,q,hx,hy,hle⟩ := le_iff_rank.mp h
  obtain ⟨q',r,hy',hz,hlt⟩ := lt_iff_rank.mp h'
  obtain rfl := Option.some_inj.mp (hy.symm.trans hy')
  exact lt_iff_rank.mpr ⟨p,r,hx,hz,hle.trans_lt hlt⟩

theorem not_lt_of_le (h : x ≤ y) : ¬y < x := by
  intro hlt
  obtain ⟨p,q,hp,hq,hpq⟩ := lt_iff_rank.mp (lt_of_lt_of_le hlt h)
  obtain rfl := Option.some_inj.mp (hp.symm.trans hq)
  exact lt_irrefl p hpq

end SizeSurvey.Rounding
