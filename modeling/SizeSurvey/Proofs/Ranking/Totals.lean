import Mathlib.Algebra.BigOperators.Group.List.Basic
import SizeSurvey.Proofs.Distinct
import SizeSurvey.Proofs.Ranking.Slots

/-! # Totals by key

A tally that is filled one amount after the other holds, in the order in which the keys were first
seen, the total of all amounts of each key. A map that is filled so binds just these keys, and where
their amounts are added up, its values add up to all amounts together.
-/
namespace SizeSurvey

/-- The amounts of one key in the order in which they come. -/
def amountsOf (pairs : List (String × Size)) (key : String) : List Size :=
  (pairs.filter fun pair => pair.1 = key).map Prod.snd

theorem amountsOf_cons (pair : String × Size) (rest : List (String × Size)) (key : String) :
    amountsOf (pair :: rest) key =
      if key = pair.1 then pair.2 :: amountsOf rest key else amountsOf rest key := by
  by_cases h : key = pair.1
  · simp [amountsOf,h]
  · simp [amountsOf,h,Ne.symm h]

namespace Tally
variable {α : Type}

/-- Changing a key among entries that give a value to each of some distinct keys. -/
theorem updateEntries_map {keys : List String} (hkeys : keys.Nodup) (value : String → α)
    (key : String) (initial : α) (change : α → α) :
    updateEntries key initial change (keys.map fun k => (k,value k)) =
      (keys.map fun k => (k,if k = key then change (value k) else value k)) ++
        if key ∈ keys then [] else [(key,change initial)] := by
  induction keys with
  | nil => simp [updateEntries]
  | cons first rest ih =>
    obtain ⟨hfirst,hrest⟩ := List.nodup_cons.mp hkeys
    rw [List.map_cons,updateEntries]
    by_cases h : first = key
    · have hsame : ∀ k ∈ rest, (k,value k) = (k,if k = key then change (value k) else value k) := by
        intro k hk
        have hne : k ≠ key := fun he => hfirst (by rw [h,← he]; exact hk)
        rw [if_neg hne]
      simp [h,List.map_congr_left hsame]
    · simp [h,ih hrest,Ne.symm h]

section Gather
variable {β : Type} (key : β → String) (initial : α) (change : β → α → α)

/-- What the elements of one key make of the initial value, one after the other. -/
def gathered (xs : List β) (name : String) : α :=
  (xs.filter fun x => key x = name).foldl (fun value x => change x value) initial

theorem gathered_append_singleton (xs : List β) (x : β) (name : String) :
    gathered key initial change (xs ++ [x]) name =
      if name = key x then change x (gathered key initial change xs name)
      else gathered key initial change xs name := by
  by_cases h : name = key x
  · simp [gathered,h]
  · simp [gathered,h,Ne.symm h]

/-- What each key has gathered, in the order in which the keys were first seen. -/
def gatheredEntries (xs : List β) : List (String × α) :=
  (xs.map key).eraseDups.map fun name => (name,gathered key initial change xs name)

theorem keys_gatheredEntries (xs : List β) :
    (gatheredEntries key initial change xs).map Prod.fst = (xs.map key).eraseDups := by
  rw [gatheredEntries,List.map_map]
  exact List.map_id _

theorem gatheredEntries_append_singleton (xs : List β) (x : β) :
    gatheredEntries key initial change (xs ++ [x]) =
      updateEntries (key x) initial (change x) (gatheredEntries key initial change xs) := by
  have hkeys := eraseDups_append_singleton (xs.map key) (key x)
  rw [gatheredEntries,gatheredEntries,updateEntries_map (nodup_eraseDups _),List.map_append,
    List.map_singleton,hkeys,List.map_append]
  -- The key may be new, which adds an entry at the end, or known, which adds none.
  congr 1
  · exact List.map_congr_left fun name _ => by rw [gathered_append_singleton]
  · by_cases h : key x ∈ (xs.map key).eraseDups
    · simp [h]
    · have hnone : xs.filter (fun y => key y = key x) = [] := by
        rw [List.filter_eq_nil_iff]
        intro y hy he
        rw [List.mem_eraseDups] at h
        exact h (List.mem_map.mpr ⟨y,hy,of_decide_eq_true he⟩)
      simp [h,gathered,hnone]

theorem foldl_updateEntries (before xs : List β) :
    xs.foldl (fun entries x => updateEntries (key x) initial (change x) entries)
        (gatheredEntries key initial change before) =
      gatheredEntries key initial change (before ++ xs) := by
  induction xs generalizing before with
  | nil => rw [List.append_nil,List.foldl_nil]
  | cons x rest ih =>
    rw [List.foldl_cons,← gatheredEntries_append_singleton,ih,List.append_assoc,
      List.singleton_append]

/-- The tally that gives to each key what its elements make of the initial value. -/
def gather (xs : List β) : Tally α :=
  ofEntries (gatheredEntries key initial change xs)

theorem entries_gather (xs : List β) : (gather key initial change xs).entries =
    (xs.map key).eraseDups.map fun name => (name,gathered key initial change xs name) :=
  rfl

theorem inStep_gather (xs : List β) : (gather key initial change xs).InStep := by
  apply inStep_ofEntries
  rw [keys_gatheredEntries]
  exact nodup_eraseDups _

/-- **A tally that is filled step by step** holds for each key what its own elements make. -/
theorem foldl_update_eq_gather (xs : List β) :
    xs.foldl (fun tally x => tally.update (key x) initial (change x)) {} =
      gather key initial change xs := by
  refine (inStep_empty.foldl_update key initial change xs).ext (inStep_gather ..) ?_
  rw [inStep_empty.entries_foldl_update]
  exact foldl_updateEntries key initial change [] xs

end Gather

/-! ### Additions -/

variable (pairs : List (String × Size))

theorem ofList_eq_gather : ofList pairs =
    gather Prod.fst 0 (fun (pair : String × Size) total => Size.plus total pair.2) pairs :=
  foldl_update_eq_gather Prod.fst 0
    (fun (pair : String × Size) total => Size.plus total pair.2) pairs

theorem gathered_eq_total (name : String) :
    gathered Prod.fst 0 (fun (pair : String × Size) total => Size.plus total pair.2) pairs name =
      Size.total (amountsOf pairs name) := by
  rw [gathered,Size.total,amountsOf,List.foldl_map]

/-- The tally that gives to each key the total of its amounts. -/
def sums : Tally Size :=
  ofEntries ((pairs.map Prod.fst).eraseDups.map fun key => (key,Size.total (amountsOf pairs key)))

theorem entries_sums : (sums pairs).entries =
    (pairs.map Prod.fst).eraseDups.map fun key => (key,Size.total (amountsOf pairs key)) :=
  rfl

theorem ofList_eq_sums : ofList pairs = sums pairs := by
  rw [ofList_eq_gather,gather,gatheredEntries]
  simp only [gathered_eq_total]
  rfl

end Tally

/-! ## Maps -/

namespace NameMap

section Filling
variable {α β : Type} (key : β → String) (initial : α) (change : β → α → α)

theorem get?_foldl_update (map : NameMap α) (xs : List β) (name : String) :
    (xs.foldl (fun map x => map.update (key x) initial (change x)) map).get? name =
      if name ∈ xs.map key then
        some (Tally.gathered key ((map.get? name).getD initial) change xs name)
      else map.get? name := by
  induction xs generalizing map with
  | nil => rfl
  | cons x rest ih =>
    rw [List.foldl_cons,ih,get?_update,List.map_cons]
    by_cases h : name = key x
    · subst h
      by_cases hrest : key x ∈ rest.map key
      · simp [hrest,Tally.gathered]
      · have hnone : rest.filter (fun y => key y = key x) = [] := by
          simpa [List.filter_eq_nil_iff] using hrest
        simp [hrest,hnone,Tally.gathered]
    · simp [h,Ne.symm h,Tally.gathered]

/-- **A map that is filled step by step** binds each key to what its own elements make. -/
theorem foldl_update_eq_tabulate (xs : List β) :
    xs.foldl (fun map x => map.update (key x) initial (change x)) ∅ =
      tabulate (xs.map key) (Tally.gathered key initial change xs) := by
  refine ext_get? fun name => ?_
  rw [get?_foldl_update,get?_tabulate]
  rfl

end Filling

def sum (map : NameMap UInt64) : Nat :=
  (map.entries.map fun entry => entry.2.toNat).sum

/-- The amount of a name; names that are not bound have none. -/
def amountAt (map : NameMap UInt64) (name : String) : Nat :=
  ((map.get? name).getD 0).toNat

theorem entries_tabulate_perm {α : Type} (names : List String) (value : String → α) :
    (tabulate names value).entries.Perm (names.eraseDups.map fun name => (name,value name)) := by
  have hnodup : (tabulate names value).entries.Nodup := by
    refine (tabulate names value).sorted.imp fun {a b} hlt he => ?_
    rw [he] at hlt
    exact String.lt_irrefl _ hlt
  have hother : (names.eraseDups.map fun name => (name,value name)).Nodup :=
    (nodup_map_of_injective fun _ _ h => (Prod.mk.inj h).1).mpr (nodup_eraseDups names)
  refine (List.perm_ext_iff_of_nodup hnodup hother).mpr ?_
  rintro ⟨name,held⟩
  rw [mem_entries_iff,get?_tabulate,List.mem_map]
  simp only [List.mem_eraseDups]
  constructor
  · intro h
    split at h
    next hname => exact ⟨name,hname,by rw [Option.some_inj.mp h]⟩
    next => cases h
  · rintro ⟨other,hother,heq⟩
    obtain ⟨rfl,rfl⟩ := Prod.mk.inj heq
    exact if_pos hother

/-- The totals of all keys add up to the total of all elements. -/
theorem sum_tabulate {β : Type} {key : β → String} {amount : β → Nat} {value : String → UInt64}
    {xs : List β} (h : ∀ name ∈ xs.map key,
      (value name).toNat = ((xs.filter fun x => key x = name).map amount).sum) :
    (tabulate (xs.map key) value).sum = (xs.map amount).sum := by
  have hperm := entries_tabulate_perm (xs.map key) value
  rw [sum,(hperm.map _).sum_nat,List.map_map,← sum_groups key amount xs]
  exact congrArg List.sum (List.map_congr_left fun name hname => h name (List.mem_eraseDups.mp hname))

end NameMap

end SizeSurvey
