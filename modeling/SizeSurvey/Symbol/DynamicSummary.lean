import SizeSurvey.NameMap
import SizeSurvey.Ranking.Tally
import SizeSurvey.Symbol.Basic
import SizeSurvey.Symbol.Namespace
/-!
# Summary of a dynamic symbol table

Every defined symbol by descending size, and the bytes of the namespaces at two depths.
-/
namespace SizeSurvey

structure DynamicSymbol where
  name : String
  demangled : String
  size : Size
  binding : Binding
  entity : Entity
deriving DecidableEq, Repr

def DynamicSymbol.ofSymbol (symbol : Symbol) : DynamicSymbol :=
  ⟨symbol.name, symbol.demangled, symbol.size, symbol.binding, symbol.entity⟩

structure DynamicSummary where
  symbols : List DynamicSymbol := []
  /-- Three tokens, else the first one. -/
  shallow : List (String × Size) := []
  /-- Four tokens, else two. -/
  deep : List (String × Size) := []
deriving DecidableEq

namespace DynamicSummary

/-- Bytes by the leading tokens of names for readers; names with too few tokens take no part. -/
def namespaceTally (depths : List Nat) (symbols : List Symbol) : Tally Size :=
  .ofList (symbols.filterMap fun symbol =>
    (Namespace.leading? depths (Namespace.tokens symbol.demangled)).map (·, symbol.size))

def ofSymbols (limit : Nat) (symbols : List Symbol) : DynamicSummary :=
  let defined := symbols.filter Symbol.isDefined
  { symbols := (defined.map DynamicSymbol.ofSymbol).mergeSort fun a b => b.size ≤ a.size
    shallow := (namespaceTally [3, 1] defined).mostCommon limit
    deep := (namespaceTally [4, 2] defined).mostCommon limit }

/-- The least size of each name for readers. -/
def sizes (summary : DynamicSummary) : NameMap Size :=
  .ofList ((summary.symbols.filter fun symbol => !symbol.demangled.isEmpty).map fun symbol =>
    (symbol.demangled, symbol.size))

end DynamicSummary

end SizeSurvey
