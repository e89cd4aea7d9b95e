import SizeSurvey.Proofs.NameMap
import SizeSurvey.Ranking.Tally

/-! # The index and the entries of a tally

The index of a tally leads every key to the one slot where its entry stands, and an update keeps it
so. While the two are in step an update does to the entries what it would do to a plain list of keys
with their values, and tallies with the same entries are the same.
-/
namespace SizeSurvey.Tally
variable {α : Type}

/-- The index leads a key to a slot if and only if the entry of the key stands there. -/
structure InStep (tally : Tally α) : Prop where
  slot_iff : ∀ key slot,
    tally.slots.get? key = some slot ↔ (tally.entries.map Prod.fst)[slot]? = some key

theorem inStep_empty : InStep ({} : Tally α) := by
  constructor
  intro key slot
  exact iff_of_false nofun (by simp)

/-- The change of one key in a list of keys with their values. -/
def updateEntries (key : String) (initial : α) (change : α → α) :
    List (String × α) → List (String × α)
  | [] => [(key,change initial)]
  | entry :: rest =>
    if entry.1 = key then (key,change entry.2) :: rest
    else entry :: updateEntries key initial change rest

section Entries
variable {key : String} {initial : α} {change : α → α}

theorem updateEntries_of_notMem {entries : List (String × α)} (h : key ∉ entries.map Prod.fst) :
    updateEntries key initial change entries = entries ++ [(key,change initial)] := by
  induction entries with
  | nil => rfl
  | cons entry rest ih =>
    obtain ⟨hne,hrest⟩ := not_or.mp (mt List.mem_cons.mpr h)
    rw [updateEntries,if_neg (Ne.symm hne),ih hrest,List.cons_append]

theorem map_fst_modify (entries : List (String × α)) (slot : Nat) :
    (entries.modify slot fun entry => (entry.1,change entry.2)).map Prod.fst =
      entries.map Prod.fst := by
  apply List.ext_getElem?
  intro i
  rw [List.getElem?_map,List.getElem?_map,List.getElem?_modify]
  cases entries[i]? with
  | none => rfl
  | some entry => by_cases h : slot = i <;> simp [h]

theorem updateEntries_of_getElem? {entries : List (String × α)}
    (hnodup : (entries.map Prod.fst).Nodup) {slot : Nat}
    (h : (entries.map Prod.fst)[slot]? = some key) :
    updateEntries key initial change entries =
      entries.modify slot fun entry => (entry.1,change entry.2) := by
  induction entries generalizing slot with
  | nil => simp at h
  | cons entry rest ih =>
    obtain ⟨hfirst,hrest⟩ := List.nodup_cons.mp hnodup
    cases slot with
    | zero =>
      have hkey : entry.1 = key := Option.some.inj h
      rw [updateEntries,if_pos hkey,List.modify_zero_cons,hkey]
    | succ slot =>
      have hlater : (rest.map Prod.fst)[slot]? = some key := h
      have hne : entry.1 ≠ key := fun he => hfirst (he ▸ List.mem_of_getElem? hlater)
      rw [updateEntries,if_neg hne,List.modify_succ_cons,ih hrest hlater]

end Entries

namespace InStep
variable {tally : Tally α}

theorem nodup_keys (h : tally.InStep) : (tally.entries.map Prod.fst).Nodup := by
  rw [List.Nodup,List.pairwise_iff_getElem]
  intro i j hi hj hij heq
  have hslot := (h.slot_iff _ i).mpr (List.getElem?_eq_getElem hi)
  rw [heq,(h.slot_iff _ j).mpr (List.getElem?_eq_getElem hj)] at hslot
  exact Nat.ne_of_gt hij (Option.some.inj hslot)

theorem get?_slots_eq_none_iff (h : tally.InStep) {key : String} :
    tally.slots.get? key = none ↔ key ∉ tally.entries.map Prod.fst := by
  rw [Option.eq_none_iff_forall_ne_some,List.mem_iff_getElem?,not_exists]
  exact forall_congr' fun slot => not_congr (h.slot_iff key slot)

/-- A new key is entered in the slot behind all others, which no other key has. -/
theorem enter (h : tally.InStep) (key : String) (initial : α) :
    (tally.enter key initial).1.InStep := by
  unfold Tally.enter
  cases hkey : tally.slots.get? key with
  | some slot => exact h
  | none =>
    constructor
    intro other slot
    simp only [NameMap.get?_insert,List.length_append,List.length_singleton,Nat.add_sub_cancel,
      List.map_append,List.map_singleton]
    by_cases hold : slot < tally.entries.length
    · rw [List.getElem?_append_left (by simpa using hold),← h.slot_iff other slot]
      split
      next hother => simp [hother,hkey,Nat.ne_of_gt hold]
      next => rfl
    · have hnone : tally.slots.get? other ≠ some slot := by
        intro hslot
        obtain ⟨hlt,_⟩ := List.getElem?_eq_some_iff.mp ((h.slot_iff other slot).mp hslot)
        exact hold (by simpa using hlt)
      have hlast : slot - tally.entries.length = 0 ↔ tally.entries.length = slot := by omega
      rw [List.getElem?_append_right (by simpa using hold),List.length_map,List.getElem?_singleton]
      by_cases hother : other = key
      · simp [hother,hlast]
      · simp [hother,Ne.symm hother,hnone]

/-- **An update keeps the index and the entries in step.** -/
theorem update (h : tally.InStep) (key : String) (initial : α) (change : α → α) :
    (tally.update key initial change).InStep := by
  constructor
  intro other slot
  rw [Tally.update,map_fst_modify]
  exact (h.enter key initial).slot_iff other slot

/-- **An update of a tally in step** changes its entries as a plain list of them. -/
theorem entries_update (h : tally.InStep) (key : String) (initial : α) (change : α → α) :
    (tally.update key initial change).entries = updateEntries key initial change tally.entries := by
  unfold Tally.update Tally.enter
  cases hkey : tally.slots.get? key with
  | some slot =>
    exact (updateEntries_of_getElem? h.nodup_keys ((h.slot_iff key slot).mp hkey)).symm
  | none =>
    rw [updateEntries_of_notMem (h.get?_slots_eq_none_iff.mp hkey)]
    simp [List.modify_eq_take_cons_drop]

/-- A tally in step finds the value of a key as one finds it among the entries. -/
theorem get?_eq_lookup (h : tally.InStep) (key : String) :
    tally.get? key = tally.entries.lookup key := by
  simp only [Tally.get?,bind,pure]
  cases hkey : tally.slots.get? key with
  | none =>
    have hnew := h.get?_slots_eq_none_iff.mp hkey
    refine (List.lookup_eq_none_iff.mpr fun entry hentry => ?_).symm
    rw [bne_iff_ne]
    intro heq
    exact hnew (heq ▸ List.mem_map_of_mem hentry)
  | some slot =>
    obtain ⟨entry,hentry,rfl⟩ := Option.map_eq_some_iff.mp
      (List.getElem?_map.symm.trans ((h.slot_iff key slot).mp hkey))
    rw [NameMap.lookup_of_mem h.nodup_keys (List.mem_of_getElem? hentry)]
    simp [hentry]

theorem ext {other : Tally α} (h : tally.InStep) (hother : other.InStep)
    (heq : tally.entries = other.entries) : tally = other := by
  have hslots : tally.slots = other.slots := by
    apply NameMap.ext_get?
    intro key
    apply Option.ext
    intro slot
    rw [h.slot_iff key slot,hother.slot_iff key slot,heq]
  cases tally
  cases other
  rw [Tally.mk.injEq]
  exact ⟨hslots,heq⟩

end InStep

/-- The tally of entries with distinct keys. -/
def ofEntries (entries : List (String × α)) : Tally α :=
  ⟨NameMap.ofList (entries.map Prod.fst).zipIdx,entries⟩

theorem inStep_ofEntries {entries : List (String × α)} (h : (entries.map Prod.fst).Nodup) :
    (ofEntries entries).InStep := by
  constructor
  intro key slot
  rw [← List.zipIdx_map_fst 0 (entries.map Prod.fst)] at h
  rw [ofEntries,NameMap.get?_ofList_eq_some_iff h,List.mem_zipIdx_iff_getElem?]

section Runs
variable {β : Type} (key : β → String) (initial : α) (change : β → α → α) (xs : List β)
  {tally : Tally α}

/-- **A run of updates keeps the index and the entries in step.** -/
theorem InStep.foldl_update (h : tally.InStep) :
    (xs.foldl (fun tally x => tally.update (key x) initial (change x)) tally).InStep := by
  induction xs generalizing tally with
  | nil => exact h
  | cons x xs ih => exact ih (h.update (key x) initial (change x))

/-- **A run of updates** changes the entries as a plain list of them. -/
theorem InStep.entries_foldl_update (h : tally.InStep) :
    (xs.foldl (fun tally x => tally.update (key x) initial (change x)) tally).entries =
      xs.foldl (fun entries x => updateEntries (key x) initial (change x) entries) tally.entries := by
  induction xs generalizing tally with
  | nil => rfl
  | cons x xs ih =>
    rw [List.foldl_cons,ih (h.update (key x) initial (change x)),h.entries_update]
    rfl

end Runs

end SizeSurvey.Tally
