import SizeSurvey.NameMap
import SizeSurvey.Ranking.Tally
import SizeSurvey.Settings
import SizeSurvey.Symbol.Namespace
/-!
# Overlap of libraries

What each two libraries have in common, and what all three have when there are three. A library is
given as the sizes of its symbols by name.
-/
namespace SizeSurvey

structure SharedSymbol where
  name : String
  sizeA : Size
  sizeB : Size
deriving DecidableEq, Repr

structure SharedNamespace where
  «namespace» : String
  count : Nat
  sizeA : Size
  sizeB : Size
deriving DecidableEq, Repr

structure PairOverlap where
  libraryA : String
  libraryB : String
  sharedCount : Nat
  topSymbols : List SharedSymbol
  topNamespaces : List SharedNamespace
deriving DecidableEq, Repr

structure TripleOverlap where
  sharedCount : Nat
  /-- The first shared names in order. -/
  examples : List String
deriving DecidableEq, Repr

structure Overlap where
  pairs : List PairOverlap := []
  /-- Only for three libraries. -/
  triple : Option TripleOverlap := none
deriving DecidableEq, Repr

abbrev SymbolSizes := NameMap Size

namespace PairOverlap

def key (pair : PairOverlap) : String :=
  pair.libraryA ++ "::" ++ pair.libraryB

def shared (a b : SymbolSizes) : List SharedSymbol :=
  a.entries.filterMap fun (name, sizeA) => (b.get? name).map fun sizeB => ⟨name, sizeA, sizeB⟩

/-- Up to four tokens, else the whole name. -/
def namespaceOf (name : String) : String :=
  (Namespace.leading? [4, 3, 2, 1] (Namespace.tokens name)).getD name

/-- The greater size of a symbol decides its place. -/
def byLargerSize (x y : SharedSymbol) : Bool :=
  max y.sizeA y.sizeB ≤ max x.sizeA x.sizeB

/-- Number of symbols and bytes on both sides of a namespace. -/
structure NamespaceSum where
  count : Nat := 0
  sizeA : Size := 0
  sizeB : Size := 0

def NamespaceSum.add (sum : NamespaceSum) (symbol : SharedSymbol) : NamespaceSum :=
  ⟨sum.count + 1, sum.sizeA.plus symbol.sizeA, sum.sizeB.plus symbol.sizeB⟩

def namespaceTally (symbols : List SharedSymbol) : Tally NamespaceSum :=
  symbols.foldl (fun tally symbol => tally.update (namespaceOf symbol.name) {} (·.add symbol)) {}

/-- The bytes of both sides together, which may be more than a size can be. -/
def NamespaceSum.bytes (sum : NamespaceSum) : Nat :=
  sum.sizeA.toNat + sum.sizeB.toNat

def ofShared (settings : OverlapSettings) (libraryA libraryB : String)
    (symbols : List SharedSymbol) : PairOverlap where
  libraryA
  libraryB
  sharedCount := symbols.length
  topSymbols := (symbols.mergeSort byLargerSize).take settings.topSymbols.toNat
  topNamespaces :=
    ((namespaceTally symbols).ranked NamespaceSum.bytes settings.topNamespaces.toNat).map
      fun (name, sum) => ⟨name, sum.count, sum.sizeA, sum.sizeB⟩

def of (settings : OverlapSettings) (a b : String × SymbolSizes) : PairOverlap :=
  ofShared settings a.1 b.1 (shared a.2 b.2)

end PairOverlap

namespace Overlap

/-- Each two libraries, the earlier one first. -/
def pairsOf (settings : OverlapSettings) : List (String × SymbolSizes) → List PairOverlap
  | [] => []
  | library :: rest => rest.map (PairOverlap.of settings library) ++ pairsOf settings rest

def tripleNames (a b c : SymbolSizes) : List String :=
  a.names.filter fun name => b.contains name && c.contains name

def tripleOf (settings : OverlapSettings) (shared : List String) : TripleOverlap :=
  ⟨shared.length, shared.take settings.tripleExamples.toNat⟩

def of (settings : OverlapSettings) (libraries : List (String × SymbolSizes)) : Overlap where
  pairs := pairsOf settings libraries
  triple :=
    match libraries with
    | [(_, a), (_, b), (_, c)] => some (tripleOf settings (tripleNames a b c))
    | _ => none

def pair? (overlap : Overlap) (a b : String) : Option PairOverlap :=
  overlap.pairs.find? fun pair => pair.libraryA = a && pair.libraryB = b

end Overlap

end SizeSurvey
