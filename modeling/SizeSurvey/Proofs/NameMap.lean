import SizeSurvey.NameMap

/-! # Looking names up

What a name is bound to after each operation on a map. A map is determined by its bindings.
-/
namespace SizeSurvey.NameMap
variable {α : Type}

theorem lookup_cons_eq_ite (entry : String × α) (rest : List (String × α)) (key : String) :
    (entry :: rest).lookup key = if key = entry.1 then some entry.2 else rest.lookup key := by
  rw [List.lookup_cons]
  by_cases h : key = entry.1
  · rw [if_pos h,beq_iff_eq.mpr h]
  · rw [if_neg h,beq_eq_false_iff_ne.mpr h]

theorem lookup_filter {p : String → Bool} {key : String} (h : p key = true)
    (entries : List (String × α)) :
    (entries.filter fun entry => p entry.1).lookup key = entries.lookup key := by
  induction entries with
  | nil => rfl
  | cons entry rest ih =>
    rw [lookup_cons_eq_ite,List.filter_cons]
    by_cases hkey : key = entry.1
    · rw [if_pos hkey,if_pos (hkey ▸ h),lookup_cons_eq_ite,if_pos hkey]
    · rw [if_neg hkey]
      split
      · rw [lookup_cons_eq_ite,if_neg hkey,ih]
      · exact ih

theorem lookup_of_mem {entries : List (String × α)}
    (hnodup : (entries.map Prod.fst).Nodup) {entry : String × α} (h : entry ∈ entries) :
    entries.lookup entry.1 = some entry.2 := by
  induction entries with
  | nil => cases h
  | cons first rest ih =>
    obtain ⟨hfirst,hrest⟩ := List.nodup_cons.mp hnodup
    rw [lookup_cons_eq_ite]
    rcases List.mem_cons.mp h with rfl | h
    · exact if_pos rfl
    · have hne : entry.1 ≠ first.1 := fun he => hfirst (he ▸ List.mem_map_of_mem h)
      rw [if_neg hne,ih hrest h]

theorem mem_of_lookup {entries : List (String × α)} {name : String} {value : α}
    (h : entries.lookup name = some value) : (name,value) ∈ entries := by
  obtain ⟨front,back,hentries,_⟩ := List.lookup_eq_some_iff.mp h
  rw [hentries]
  exact List.mem_append_right front List.mem_cons_self

theorem lookup_insertEntry (name key : String) (value : α) (entries : List (String × α)) :
    (insertEntry name value entries).lookup key =
      if key = name then some value else entries.lookup key := by
  induction entries with
  | nil => rw [insertEntry,lookup_cons_eq_ite]
  | cons entry rest ih =>
    unfold insertEntry
    split
    · rw [lookup_cons_eq_ite]
    split
    next heq =>
      rw [lookup_cons_eq_ite,lookup_cons_eq_ite entry rest,heq]
      split <;> rfl
    next hne =>
      rw [lookup_cons_eq_ite,lookup_cons_eq_ite,ih]
      by_cases h : key = name
      · simp [h,hne]
      · simp [h]

theorem get?_insert (map : NameMap α) (name key : String) (value : α) :
    (map.insert name value).get? key = if key = name then some value else map.get? key :=
  lookup_insertEntry name key value map.entries

theorem get?_update (map : NameMap α) (name key : String) (initial : α) (change : α → α) :
    (map.update name initial change).get? key =
      if key = name then some (change ((map.get? name).getD initial)) else map.get? key :=
  get?_insert ..

theorem get?_foldl_insert (map : NameMap α) (entries : List (String × α)) (key : String) :
    (entries.foldl (fun map entry => map.insert entry.1 entry.2) map).get? key =
      (entries.reverse.lookup key).or (map.get? key) := by
  induction entries generalizing map with
  | nil => rfl
  | cons entry rest ih =>
    rw [List.foldl_cons,ih,get?_insert,List.reverse_cons,List.lookup_append,lookup_cons_eq_ite]
    by_cases h : key = entry.1 <;> simp [h]

/-- Of several bindings of a name the last one counts. -/
theorem get?_ofList (entries : List (String × α)) (key : String) :
    (ofList entries).get? key = entries.reverse.lookup key := by
  have h := get?_foldl_insert empty entries key
  rwa [show (empty : NameMap α).get? key = none from rfl,Option.or_none] at h

theorem mem_entries_iff (map : NameMap α) {name : String} {value : α} :
    (name,value) ∈ map.entries ↔ map.get? name = some value := by
  rcases map with ⟨entries,hsorted⟩
  rw [get?]
  induction entries with
  | nil => simp
  | cons entry rest ih =>
    obtain ⟨hfirst,hrest⟩ := List.pairwise_cons.mp hsorted
    rw [List.mem_cons,lookup_cons_eq_ite]
    by_cases h : name = entry.1
    · subst h
      have habsent : (entry.1,value) ∉ rest := fun hmem =>
        String.lt_irrefl entry.1 (hfirst (entry.1,value) hmem)
      simp [Prod.ext_iff,habsent,eq_comm]
    · have hne : (name,value) ≠ entry := fun he => h (he ▸ rfl)
      simp [h,hne,ih hrest]

theorem mem_names_iff (map : NameMap α) {name : String} :
    name ∈ map.names ↔ ∃ value, map.get? name = some value := by
  simp only [names,List.mem_map,← mem_entries_iff]
  constructor
  · rintro ⟨entry,hentry,rfl⟩
    exact ⟨_,hentry⟩
  · rintro ⟨value,hentry⟩
    exact ⟨_,hentry,rfl⟩

theorem contains_iff (map : NameMap α) {name : String} :
    map.contains name = true ↔ name ∈ map.names := by
  rw [contains,mem_names_iff,Option.isSome_iff_exists]

/-- Lists in the order of their names are the same list if they have the same elements. -/
theorem eq_of_sorted {β : Type} (name : β → String) {xs ys : List β}
    (hxs : xs.Pairwise fun x y => name x < name y) (hys : ys.Pairwise fun x y => name x < name y)
    (h : ∀ x, x ∈ xs ↔ x ∈ ys) : xs = ys := by
  have hnodup : ∀ {zs : List β}, (zs.Pairwise fun x y => name x < name y) → zs.Nodup := by
    intro zs hzs
    refine hzs.imp fun {x y} hlt heq => ?_
    rw [heq] at hlt
    exact String.lt_irrefl _ hlt
  have hperm : xs.Perm ys := (List.perm_ext_iff_of_nodup (hnodup hxs) (hnodup hys)).mpr h
  exact hperm.eq_of_pairwise (fun x y _ _ hxy hyx => absurd hxy (String.lt_asymm hyx)) hxs hys

theorem pairwise_le_mergeSort {β : Type} (name : β → String) (xs : List β) :
    (xs.mergeSort fun x y => name x ≤ name y).Pairwise fun x y => name x ≤ name y := by
  refine (List.pairwise_mergeSort (fun x y z hxy hyz => ?_) (fun x y => ?_) xs).imp
    of_decide_eq_true
  · exact decide_eq_true (String.le_trans (of_decide_eq_true hxy) (of_decide_eq_true hyz))
  · rw [Bool.or_eq_true]
    exact (String.le_total (name x) (name y)).imp decide_eq_true decide_eq_true

theorem pairwise_lt_mergeSort {β : Type} (name : β → String) {xs : List β}
    (hnodup : (xs.map name).Nodup) :
    (xs.mergeSort fun x y => name x ≤ name y).Pairwise fun x y => name x < name y := by
  have hperm := List.mergeSort_perm xs fun x y => name x ≤ name y
  have hne := List.pairwise_map.mp ((hperm.map name).nodup_iff.mpr hnodup)
  refine ((pairwise_le_mergeSort name xs).and hne).imp fun {x y} h =>
    Decidable.byContradiction fun hlt => ?_
  exact h.2 (String.le_antisymm h.1 (String.not_lt.mp hlt))

theorem ext_get? {a b : NameMap α} (h : ∀ key, a.get? key = b.get? key) : a = b := by
  refine ext (eq_of_sorted Prod.fst a.sorted b.sorted ?_)
  rintro ⟨name,value⟩
  rw [mem_entries_iff,mem_entries_iff,h]

theorem get?_ofList_eq_some_iff {entries : List (String × α)}
    (hnodup : (entries.map Prod.fst).Nodup) {name : String} {value : α} :
    (ofList entries).get? name = some value ↔ (name,value) ∈ entries := by
  rw [get?_ofList]
  constructor
  · intro h
    exact List.mem_reverse.mp (mem_of_lookup h)
  · intro h
    have hreverse : (entries.reverse.map Prod.fst).Nodup := by
      rw [List.map_reverse]
      exact List.pairwise_reverse.mpr (hnodup.imp Ne.symm)
    exact lookup_of_mem hreverse (List.mem_reverse.mpr h)

theorem ofList_perm {entries others : List (String × α)} (hnodup : (entries.map Prod.fst).Nodup)
    (h : entries.Perm others) : ofList entries = ofList others := by
  have hother : (others.map Prod.fst).Nodup := (h.map Prod.fst).nodup_iff.mp hnodup
  refine ext_get? fun name => Option.ext fun value => ?_
  rw [get?_ofList_eq_some_iff hnodup,get?_ofList_eq_some_iff hother,h.mem_iff]

theorem isEmpty_ofList {entries : List (String × α)} (h : entries ≠ []) :
    (ofList entries).isEmpty = false := by
  obtain ⟨front,last,rfl⟩ : ∃ front last, entries = front ++ [last] :=
    ⟨_,_,(List.dropLast_concat_getLast h).symm⟩
  have hlast := get?_ofList (front ++ [last]) last.1
  rw [List.reverse_concat,lookup_cons_eq_ite,if_pos rfl] at hlast
  cases hmap : (ofList (front ++ [last])).entries with
  | nil => rw [get?,hmap] at hlast; cases hlast
  | cons _ _ => rw [isEmpty,hmap]; rfl

theorem insertEntry_of_forall_lt {name : String} {entries : List (String × α)}
    (h : ∀ entry ∈ entries, entry.1 < name) (value : α) :
    insertEntry name value entries = entries ++ [(name,value)] := by
  induction entries with
  | nil => rfl
  | cons entry rest ih =>
    obtain ⟨hfirst,hrest⟩ := List.forall_mem_cons.mp h
    have hne : name ≠ entry.1 := fun heq => String.lt_irrefl name (heq.symm ▸ hfirst)
    rw [insertEntry,if_neg (String.lt_asymm hfirst),if_neg hne,ih hrest,List.cons_append]

theorem entries_foldl_insert (map : NameMap α) {rest : List (String × α)}
    (h : (map.entries ++ rest).Pairwise (·.1 < ·.1)) :
    (rest.foldl (fun map entry => map.insert entry.1 entry.2) map).entries = map.entries ++ rest := by
  induction rest generalizing map with
  | nil => simp
  | cons entry rest ih =>
    have hbefore : ∀ other ∈ map.entries, other.1 < entry.1 := fun other hother =>
      (List.pairwise_append.mp h).2.2 other hother entry List.mem_cons_self
    have hentries : (map.insert entry.1 entry.2).entries = map.entries ++ [entry] :=
      insertEntry_of_forall_lt hbefore entry.2
    rw [List.foldl_cons,ih _ (by simpa [hentries] using h),hentries]
    simp

theorem ofList_entries (map : NameMap α) : ofList map.entries = map :=
  ext (entries_foldl_insert empty map.sorted)

/-- The map that binds each of the given names to its own value, and no other name. -/
def tabulate (names : List String) (value : String → α) : NameMap α :=
  ofList (names.map fun name => (name,value name))

theorem lookup_map (names : List String) (value : String → α) (key : String) :
    (names.map fun name => (name,value name)).lookup key =
      if key ∈ names then some (value key) else none := by
  induction names with
  | nil => rfl
  | cons name rest ih =>
    rw [List.map_cons,lookup_cons_eq_ite,ih]
    by_cases h : key = name <;> simp [h]

theorem get?_tabulate (names : List String) (value : String → α) (key : String) :
    (tabulate names value).get? key = if key ∈ names then some (value key) else none := by
  rw [tabulate,get?_ofList,← List.map_reverse,lookup_map]
  simp

end SizeSurvey.NameMap
