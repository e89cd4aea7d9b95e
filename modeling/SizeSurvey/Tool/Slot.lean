/-!
# The slot of the demangler

Which demangler is installed is looked up once and remembered, also when there is none, until the
slot is reset.
-/
namespace SizeSurvey

structure DemanglerSlot where
  /-- The answer of the first look-up, once there was one. -/
  answer : Option (Option String) := none
deriving DecidableEq, Repr

namespace DemanglerSlot

variable {m : Type → Type} [Monad m]

/-- The first program that is found; the programs after it are not looked up. -/
def firstFound (find : String → m (Option String)) : List String → m (Option String)
  | [] => pure none
  | candidate :: rest => do
    match ← find candidate with
    | some path => return some path
    | none => firstFound find rest

def resolve (find : String → m (Option String)) (candidates : List String)
    (slot : DemanglerSlot) : m (Option String × DemanglerSlot) :=
  match slot.answer with
  | some answer => pure (answer, slot)
  | none => do
    let answer ← firstFound find candidates
    return (answer, ⟨some answer⟩)

def reset (_ : DemanglerSlot) : DemanglerSlot := {}

def isResolved (slot : DemanglerSlot) : Bool :=
  slot.answer.isSome

end DemanglerSlot

end SizeSurvey
