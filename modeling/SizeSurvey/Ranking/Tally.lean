import SizeSurvey.NameMap
import SizeSurvey.Size
/-!
# Tallies

A tally holds a value for each key and remembers in which order the keys were first seen: its entries
stand in that order, and an index tells in which slot the entry of a key is. Rankings of a tally are
stable, so keys of equal rank keep that order.
-/
namespace SizeSurvey

structure Tally (α : Type) where
  slots : NameMap Nat := ∅
  entries : List (String × α) := []

namespace Tally

variable {α : Type}

/-- The slot of a key. A new key is given the one behind all others, with the value `initial`. -/
def enter (tally : Tally α) (key : String) (initial : α) : Tally α × Nat :=
  match tally.slots.get? key with
  | some slot => (tally, slot)
  | none =>
    let entries := tally.entries ++ [(key, initial)]
    let slot := entries.length - 1
    (⟨tally.slots.insert key slot, entries⟩, slot)

/-- Changes the value of one key, which starts from `initial` when it is new. -/
def update (tally : Tally α) (key : String) (initial : α) (change : α → α) : Tally α :=
  let (entered, slot) := tally.enter key initial
  { entered with entries := entered.entries.modify slot fun entry => (entry.1, change entry.2) }

def get? (tally : Tally α) (key : String) : Option α := do
  let slot ← tally.slots.get? key
  let entry ← tally.entries[slot]?
  return entry.2

def size (tally : Tally α) : Nat :=
  tally.entries.length

def isEmpty (tally : Tally α) : Bool :=
  tally.entries.isEmpty

/-- The first `limit` entries in descending order of rank. -/
def ranked {κ : Type} [LE κ] [DecidableLE κ] (tally : Tally α) (rank : α → κ) (limit : Nat) :
    List (String × α) :=
  (tally.entries.mergeSort fun a b => rank b.2 ≤ rank a.2).take limit

def add (tally : Tally Size) (key : String) (amount : Size) : Tally Size :=
  tally.update key 0 (Size.plus · amount)

def mostCommon (tally : Tally Size) (limit : Nat) : List (String × Size) :=
  tally.ranked UInt64.toNat limit

def ofList (amounts : List (String × Size)) : Tally Size :=
  amounts.foldl (fun tally entry => tally.add entry.1 entry.2) {}

end Tally

end SizeSurvey
