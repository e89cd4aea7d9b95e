import SizeSurvey.Fault
/-!
# Demangling of batches

Names are demangled a batch at a time. A batch is either demangled completely or left as it was
completely, so there is always one name for each name that was given.
-/
namespace SizeSurvey

inductive DegradeReason where
  | toolUnavailable
  | toolFailed (message : String)
  | countMismatch (expected actual : Nat)
deriving DecidableEq, Repr

inductive DemangleStatus where
  | demangled
  | degraded (reason : DegradeReason)
deriving DecidableEq, Repr

/-- The names of a batch afterwards, and what became of it. -/
structure DemangledBatch where
  names : List String
  status : DemangleStatus
deriving DecidableEq, Repr

namespace DemangledBatch

def complete (names : List String) : DemangledBatch :=
  ⟨names, .demangled⟩

def unchanged (names : List String) (reason : DegradeReason) : DemangledBatch :=
  ⟨names, .degraded reason⟩

def isDegraded (batch : DemangledBatch) : Bool :=
  batch.status ≠ .demangled

end DemangledBatch

abbrev Demangler (m : Type → Type) := List String → m DemangledBatch

end SizeSurvey
