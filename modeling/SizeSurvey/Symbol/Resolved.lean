import SizeSurvey.Demangle.Basic
import SizeSurvey.Listing.SymbolTable
import SizeSurvey.Symbol.Basic
/-!
# Symbols with their names

The rows of a mangled table get their names for readers from the demangled table of the same
library when the two have equally many rows, and from a demangler otherwise.
-/
namespace SizeSurvey

structure ResolvedSymbols where
  symbols : List Symbol
  demangling : DemangleStatus
deriving DecidableEq

namespace ResolvedSymbols

def ofNames (rows : List Listing.SymbolRow) (batch : DemangledBatch) : ResolvedSymbols where
  symbols :=
    rows.zipWith (fun row name => Symbol.ofKind row.name name row.kind row.size) batch.names
  demangling := batch.status

/-- The names of a demangled table that fits the rows. -/
def listedNames? (rows : List Listing.SymbolRow) (demangled : Option (List Listing.SymbolRow)) :
    Option (List String) :=
  match demangled with
  | some listed =>
    if !listed.isEmpty && listed.length == rows.length then some (listed.map (·.name)) else none
  | none => none

def resolve {m : Type → Type} [Monad m] (demangle : Demangler m) (rows : List Listing.SymbolRow)
    (demangled : Option (List Listing.SymbolRow)) : m ResolvedSymbols :=
  match listedNames? rows demangled with
  | some names => pure (ofNames rows (.complete names))
  | none => do return ofNames rows (← demangle (rows.map (·.name)))

end ResolvedSymbols

end SizeSurvey
