import Mathlib.Algebra.Ring.Nat

/-! # Distinct names

Names of which each is kept where it stands first, and when nothing is lost by that.
-/
namespace SizeSurvey

theorem eraseDups_sublist (names : List String) : names.eraseDups.Sublist names := by
  cases names with
  | nil => exact List.Sublist.refl []
  | cons name rest =>
    rw [List.eraseDups_cons]
    exact ((eraseDups_sublist _).trans List.filter_sublist).cons_cons name
termination_by names.length
decreasing_by exact Nat.lt_succ_of_le (List.length_filter_le _ _)

theorem nodup_eraseDups (names : List String) : names.eraseDups.Nodup := by
  cases names with
  | nil => exact List.Pairwise.nil
  | cons name rest =>
    rw [List.eraseDups_cons]
    refine List.nodup_cons.mpr ⟨fun hmem => ?_,nodup_eraseDups _⟩
    have hother := (List.mem_filter.mp (List.mem_eraseDups.mp hmem)).2
    simp at hother
termination_by names.length
decreasing_by exact Nat.lt_succ_of_le (List.length_filter_le _ _)

theorem eraseDups_of_nodup {names : List String} (h : names.Nodup) : names.eraseDups = names := by
  induction names with
  | nil => rfl
  | cons name rest ih =>
    obtain ⟨hname,hrest⟩ := List.nodup_cons.mp h
    have hall : ∀ other ∈ rest, (!other == name) = true := by
      intro other hother
      have hne : other ≠ name := fun he => hname (he ▸ hother)
      rw [beq_false_of_ne hne]
      rfl
    rw [List.eraseDups_cons,List.filter_eq_self.mpr hall,ih hrest]

/-- Nothing is dropped from names if and only if they are distinct. -/
theorem length_eraseDups_eq_iff (names : List String) :
    names.eraseDups.length = names.length ↔ names.Nodup := by
  constructor
  · intro h
    rw [← (eraseDups_sublist names).eq_of_length h]
    exact nodup_eraseDups names
  · intro h
    rw [eraseDups_of_nodup h]

theorem eraseDups_append_singleton (names : List String) (name : String) :
    (names ++ [name]).eraseDups =
      names.eraseDups ++ if name ∈ names.eraseDups then [] else [name] := by
  rw [List.eraseDups_append]
  by_cases h : name ∈ names
  · rw [if_pos (List.mem_eraseDups.mpr h)]
    simp [List.removeAll,h]
  · rw [if_neg (mt List.mem_eraseDups.mp h)]
    simp [List.removeAll,h,List.eraseDups_cons]

/-- The sums over the elements of each key add up to the sum over all elements. -/
theorem sum_groups {α : Type} (key : α → String) (amount : α → Nat) (xs : List α) :
    ((xs.map key).eraseDups.map fun name =>
        ((xs.filter fun x => key x = name).map amount).sum).sum = (xs.map amount).sum := by
  match xs with
  | [] => rfl
  | x :: rest =>
    let others := rest.filter fun y => !decide (key y = key x)
    have hkeys : (rest.map key).filter (fun name => !name == key x) = others.map key := by
      rw [List.filter_map]
      simp only [Function.comp_def,beq_eq_decide,others]
    have hothers : ∀ name ∈ (others.map key).eraseDups,
        (x :: rest).filter (fun y => key y = name) = others.filter fun y => key y = name := by
      intro name hname
      obtain ⟨y,hy,rfl⟩ := List.mem_map.mp (List.mem_eraseDups.mp hname)
      have hne : key y ≠ key x := by simpa using (List.mem_filter.mp hy).2
      rw [List.filter_cons_of_neg (by simpa using hne.symm),List.filter_filter]
      refine List.filter_congr fun z _ => ?_
      by_cases hz : key z = key y <;> simp [hz,hne]
    have hgroups : ((others.map key).eraseDups.map fun name =>
        (((x :: rest).filter fun y => key y = name).map amount).sum).sum =
          (others.map amount).sum := by
      rw [← sum_groups key amount others]
      exact congrArg List.sum (List.map_congr_left fun name hname => by rw [hothers name hname])
    have hsplit := (List.filter_append_perm (fun y => decide (key y = key x)) (x :: rest)).map amount
    rw [List.map_cons,List.eraseDups_cons,hkeys,List.map_cons,List.sum_cons,hgroups,← hsplit.sum_nat,
      List.map_append,List.sum_append]
    rw [List.filter_cons_of_neg (p := fun y => !decide (key y = key x)) (by simp)]
termination_by xs.length
decreasing_by exact Nat.lt_succ_of_le (List.length_filter_le _ _)

theorem sum_count_eraseDups (names : List String) :
    (names.eraseDups.map fun name => names.count name).sum = names.length := by
  have hgroups := sum_groups id (fun _ => 1) names
  simp only [List.map_id,id_eq,List.map_const',List.sum_replicate_nat,Nat.mul_one] at hgroups
  simpa only [List.count,List.countP_eq_length_filter,beq_eq_decide] using hgroups

/-- What is left of names stands in the order in which they first appear. -/
theorem pairwise_idxOf_eraseDups (names : List String) :
    names.eraseDups.Pairwise fun a b => names.idxOf a < names.idxOf b := by
  rw [← List.reverse_reverse names]
  induction names.reverse with
  | nil => exact List.Pairwise.nil
  | cons name rest ih =>
    have hsame : ∀ a ∈ rest.reverse, (rest.reverse ++ [name]).idxOf a = rest.reverse.idxOf a := by
      intro a ha
      rw [List.idxOf_append,if_pos ha]
    have hold := ih.imp_of_mem fun {a b} ha hb h => by
      rw [← hsame a (List.mem_eraseDups.mp ha),← hsame b (List.mem_eraseDups.mp hb)] at h
      exact h
    rw [List.reverse_cons,eraseDups_append_singleton]
    split
    next => rwa [List.append_nil]
    next hnew =>
      rw [List.mem_eraseDups] at hnew
      refine List.pairwise_append.mpr ⟨hold,List.pairwise_singleton ..,fun a ha b hb => ?_⟩
      obtain rfl := List.mem_singleton.mp hb
      rw [List.mem_eraseDups] at ha
      rw [hsame a ha,List.idxOf_append,if_neg hnew]
      exact Nat.lt_of_lt_of_le (List.idxOf_lt_length_of_mem ha) (Nat.le_add_left ..)

theorem idxOf_le_of_getElem? {names : List String} {name : String} {i : Nat}
    (h : names[i]? = some name) : names.idxOf name ≤ i := by
  obtain ⟨hi,rfl⟩ := List.getElem?_eq_some_iff.mp h
  refine Nat.le_of_not_lt fun hlt => ?_
  have hne := List.not_of_lt_findIdx hlt
  simp at hne

/-- Of names in strictly increasing order, the first one of a group comes before the others of the
group and before every name of a group that appears later. -/
theorem exists_first_of_group {names : List String} (hnames : names.Pairwise (· < ·))
    (group : String → String) {space : String} (hspace : space ∈ names.map group) :
    ∃ first ∈ names, group first = space ∧ ∀ name ∈ names,
      (group name = space → first ≤ name) ∧
      ((names.map group).idxOf space < (names.map group).idxOf (group name) → first < name) := by
  have hlength := List.idxOf_lt_length_of_mem hspace
  have hfound := List.getElem_idxOf hlength
  rw [List.getElem_map] at hfound
  rw [List.length_map] at hlength
  refine ⟨_,List.getElem_mem hlength,hfound,fun name hname => ?_⟩
  obtain ⟨i,hi,rfl⟩ := List.getElem_of_mem hname
  have hplace : (names.map group).idxOf (group names[i]) ≤ i := idxOf_le_of_getElem? (by simp [hi])
  have hafter : (names.map group).idxOf space < i →
      names[(names.map group).idxOf space] < names[i] :=
    List.pairwise_iff_getElem.mp hnames _ _ hlength hi
  constructor
  · intro hsame
    rw [hsame] at hplace
    rcases Nat.lt_or_eq_of_le hplace with hlt | heq
    · exact String.not_lt.mp (String.lt_asymm (hafter hlt))
    · simp only [heq,String.le_refl]
  · intro hlt
    exact hafter (Nat.lt_of_lt_of_le hlt hplace)

theorem nodup_map_of_injective {α β : Type} {f : α → β} (hf : ∀ a b, f a = f b → a = b)
    {xs : List α} : (xs.map f).Nodup ↔ xs.Nodup := by
  rw [List.Nodup,List.Nodup,List.pairwise_map]
  exact ⟨fun h => h.imp fun hne he => hne (congrArg f he),
    fun h => h.imp fun hne he => hne (hf _ _ he)⟩

end SizeSurvey
