/-!
# Maps from names

A map from texts to values, kept as a list in strictly increasing order of its names. Two maps with
the same bindings are therefore the same map, and reading one off in order needs no sorting.
-/
namespace SizeSurvey

structure NameMap (α : Type) where
  entries : List (String × α)
  sorted : entries.Pairwise fun a b => a.1 < b.1

namespace NameMap

variable {α β : Type}

def empty : NameMap α := ⟨[], .nil⟩

instance : Inhabited (NameMap α) := ⟨empty⟩

instance : EmptyCollection (NameMap α) := ⟨empty⟩

theorem ext {a b : NameMap α} (h : a.entries = b.entries) : a = b := by
  cases a; cases b; simp_all

def insertEntry (name : String) (value : α) : List (String × α) → List (String × α)
  | [] => [(name, value)]
  | entry :: rest =>
    if name < entry.1 then (name, value) :: entry :: rest
    else if name = entry.1 then (name, value) :: rest
    else entry :: insertEntry name value rest

theorem mem_insertEntry {name : String} {value : α} {entry : String × α} :
    {entries : List (String × α)} → entry ∈ insertEntry name value entries →
      entry = (name, value) ∨ entry ∈ entries
  | [], h => by simpa [insertEntry] using h
  | first :: rest, h => by
    unfold insertEntry at h
    split at h
    · simpa using h
    split at h
    · rcases List.mem_cons.1 h with h | h
      · exact .inl h
      · exact .inr (List.mem_cons_of_mem _ h)
    · rcases List.mem_cons.1 h with h | h
      · exact .inr (h ▸ List.mem_cons_self)
      · exact (mem_insertEntry h).imp_right (List.mem_cons_of_mem _)

theorem sorted_insertEntry (name : String) (value : α) :
    {entries : List (String × α)} → entries.Pairwise (fun a b => a.1 < b.1) →
      (insertEntry name value entries).Pairwise (fun a b => a.1 < b.1)
  | [], _ => by simp [insertEntry]
  | first :: rest, h => by
    obtain ⟨above, tail⟩ := List.pairwise_cons.1 h
    unfold insertEntry
    split
    next lt =>
      refine List.pairwise_cons.2 ⟨fun entry mem => ?_, h⟩
      rcases List.mem_cons.1 mem with rfl | mem
      · exact lt
      · exact String.lt_trans lt (above entry mem)
    next notLt =>
      split
      next eq =>
        exact List.pairwise_cons.2 ⟨fun entry mem => eq ▸ above entry mem, tail⟩
      next ne =>
        refine List.pairwise_cons.2 ⟨fun entry mem => ?_, sorted_insertEntry name value tail⟩
        rcases mem_insertEntry mem with rfl | mem
        · rcases Decidable.em (first.1 < name) with lt | notGt
          · exact lt
          · exact absurd (String.le_antisymm (String.not_lt.1 notGt) (String.not_lt.1 notLt)) ne
        · exact above entry mem

/-- Binds a name to a value, in the place of what it was bound to before. -/
def insert (map : NameMap α) (name : String) (value : α) : NameMap α :=
  ⟨insertEntry name value map.entries, sorted_insertEntry name value map.sorted⟩

/-- Of two bindings of one name the later one holds. -/
def ofList (entries : List (String × α)) : NameMap α :=
  entries.foldl (fun map entry => map.insert entry.1 entry.2) empty

def get? (map : NameMap α) (name : String) : Option α :=
  map.entries.lookup name

def contains (map : NameMap α) (name : String) : Bool :=
  (map.get? name).isSome

def names (map : NameMap α) : List String :=
  map.entries.map Prod.fst

def size (map : NameMap α) : Nat :=
  map.entries.length

def isEmpty (map : NameMap α) : Bool :=
  map.entries.isEmpty

/-- Changes the value of one name, which starts from `initial` if the name is not bound. -/
def update (map : NameMap α) (name : String) (initial : α) (change : α → α) : NameMap α :=
  map.insert name (change ((map.get? name).getD initial))

theorem sorted_names (map : NameMap α) : map.names.Pairwise (· < ·) :=
  List.pairwise_map.2 map.sorted

end NameMap

end SizeSurvey
