import SizeSurvey.Distribution.Percentile
import SizeSurvey.NameMap
import SizeSurvey.Ranking.Leaders
import SizeSurvey.Ranking.Tally
import SizeSurvey.Symbol.Basic
import SizeSurvey.Symbol.Namespace
/-!
# Summary of a static symbol table

One pass over the symbols of a library counts and sums them by four keys, sums them by namespace,
and ranks them by size and by the length of their names. Undefined symbols are only counted, and
symbols without bytes take no part in what is about sizes.
-/
namespace SizeSurvey

/-- Adds an amount to what a name is bound to. -/
def NameMap.bump (map : NameMap Size) (name : String) (amount : Size) : NameMap Size :=
  map.update name 0 (Size.plus · amount)

/-- Number and bytes of the symbols with each key. -/
structure Breakdown where
  counts : NameMap UInt64 := ∅
  sizes : NameMap Size := ∅

def Breakdown.add (breakdown : Breakdown) (key : String) (size : Size) : Breakdown where
  counts := breakdown.counts.bump key 1
  sizes := breakdown.sizes.bump key size

structure RankedSymbol where
  name : String
  size : Size
deriving DecidableEq, Repr

structure LongName where
  name : String
  length : Nat
  binding : Binding
  entity : Entity
  size : Size
deriving DecidableEq, Repr

/-- Long names are ordered by name, then by the names of binding and entity, then by size. -/
instance : Ord LongName where
  compare a b :=
    (compare a.name b.name).then <| (compare a.binding.name b.binding.name).then <|
      (compare a.entity.name b.entity.name).then (compare a.size b.size)

/-- How long the names are; the percentiles are lengths that occur. -/
structure NameLengths where
  count : Nat
  average : Float
  median : Nat
  p90 : Nat
  p99 : Nat
  longest : Nat

/-- No lengths have no statistics. -/
def NameLengths.ofLengths? (lengths : List Nat) : Option NameLengths := do
  let sorted := lengths.mergeSort
  return {
    count := lengths.length
    average := (UInt64.ofNat (lengths.foldl (· + ·) 0)).toFloat / (UInt64.ofNat lengths.length).toFloat
    median := ← Percentile.nearest sorted 0.5
    p90 := ← Percentile.nearest sorted 0.9
    p99 := ← Percentile.nearest sorted 0.99
    longest := ← sorted.getLast? }

structure NamespaceTallies where
  all : Tally Size := {}
  locals : Tally Size := {}
  globals : Tally Size := {}
  rodata : Tally Size := {}
  rwdata : Tally Size := {}
  bss : Tally Size := {}

structure SizeLeaders where
  localFunctions : Leaders String
  globalFunctions : Leaders String
  localObjects : Leaders String
  globalObjects : Leaders String
  rodataObjects : Leaders String
  rwdataObjects : Leaders String
  bssObjects : Leaders String

structure StaticSurvey where
  total : UInt64 := 0
  defined : UInt64 := 0
  byBinding : Breakdown := {}
  byKind : Breakdown := {}
  byRegion : Breakdown := {}
  byEntity : Breakdown := {}
  namespaces : NamespaceTallies := {}
  nameBytes : NameMap Size := ∅
  nameLengths : List Nat := []
  leaders : SizeLeaders
  longNames : Leaders LongName

namespace StaticSurvey

def start (limit : Nat) : StaticSurvey where
  leaders :=
    { localFunctions := { capacity := limit }
      globalFunctions := { capacity := limit }
      localObjects := { capacity := limit }
      globalObjects := { capacity := limit }
      rodataObjects := { capacity := limit }
      rwdataObjects := { capacity := limit }
      bssObjects := { capacity := limit } }
  longNames := { capacity := limit }

def addBreakdowns (survey : StaticSurvey) (symbol : Symbol) : StaticSurvey :=
  { survey with
    defined := survey.defined + 1
    byBinding := survey.byBinding.add symbol.binding.name symbol.size
    byKind := survey.byKind.add (String.singleton (Text.toAsciiUpper symbol.kind)) symbol.size
    byRegion := survey.byRegion.add symbol.region.name symbol.size
    byEntity := survey.byEntity.add symbol.entity.name symbol.size }

/-- Names take their length and one terminator; empty names take no part. The entry of a name that
is too short to be kept is not even made. -/
def addName (survey : StaticSurvey) (symbol : Symbol) : StaticSurvey :=
  let name := symbol.displayName
  let length := name.length
  if length = 0 then survey
  else
    { survey with
      nameLengths := length :: survey.nameLengths
      nameBytes := survey.nameBytes.bump symbol.binding.name (UInt64.ofNat (length + 1))
      longNames :=
        if survey.longNames.admits (UInt64.ofNat length) then
          survey.longNames.push (UInt64.ofNat length)
            { name, length, binding := symbol.binding, entity := symbol.entity,
              size := symbol.size }
        else survey.longNames }

def addNamespace (survey : StaticSurvey) (symbol : Symbol) : StaticSurvey :=
  let key := Namespace.key symbol.displayName
  let sums := survey.namespaces
  { survey with
    namespaces :=
      if symbol.isLocal then
        { sums with all := sums.all.add key symbol.size, locals := sums.locals.add key symbol.size }
      else
        { sums with
          all := sums.all.add key symbol.size, globals := sums.globals.add key symbol.size } }

def addFunction (survey : StaticSurvey) (symbol : Symbol) : StaticSurvey :=
  let leaders := survey.leaders
  let name := symbol.displayName
  { survey with
    leaders :=
      if symbol.isLocal then
        { leaders with localFunctions := leaders.localFunctions.push symbol.size name }
      else { leaders with globalFunctions := leaders.globalFunctions.push symbol.size name } }

def addObject (survey : StaticSurvey) (symbol : Symbol) : StaticSurvey :=
  let leaders := survey.leaders
  let name := symbol.displayName
  { survey with
    leaders :=
      if symbol.isLocal then
        { leaders with localObjects := leaders.localObjects.push symbol.size name }
      else { leaders with globalObjects := leaders.globalObjects.push symbol.size name } }

/-- Objects count once more in the data region that holds them. -/
def addRegion (survey : StaticSurvey) (symbol : Symbol) : StaticSurvey :=
  let leaders := survey.leaders
  let sums := survey.namespaces
  let name := symbol.displayName
  let key := Namespace.key name
  match symbol.region with
  | .rodata =>
    { survey with
      namespaces := { sums with rodata := sums.rodata.add key symbol.size }
      leaders := { leaders with rodataObjects := leaders.rodataObjects.push symbol.size name } }
  | .rwdata | .common =>
    { survey with
      namespaces := { sums with rwdata := sums.rwdata.add key symbol.size }
      leaders := { leaders with rwdataObjects := leaders.rwdataObjects.push symbol.size name } }
  | .bss =>
    { survey with
      namespaces := { sums with bss := sums.bss.add key symbol.size }
      leaders := { leaders with bssObjects := leaders.bssObjects.push symbol.size name } }
  | _ => survey

def addSized (survey : StaticSurvey) (symbol : Symbol) : StaticSurvey :=
  let survey :=
    if (Namespace.tokens symbol.displayName).isEmpty then survey else survey.addNamespace symbol
  match symbol.entity with
  | .function => survey.addFunction symbol
  | .object => (survey.addObject symbol).addRegion symbol
  | .unknown => survey

def add (survey : StaticSurvey) (symbol : Symbol) : StaticSurvey :=
  let survey := { survey with total := survey.total + 1 }
  if symbol.isDefined then
    let survey := (survey.addBreakdowns symbol).addName symbol
    if symbol.size = 0 then survey else survey.addSized symbol
  else survey

def ofSymbols (limit : Nat) (symbols : List Symbol) : StaticSurvey :=
  symbols.foldl add (start limit)

end StaticSurvey

structure StaticSummary where
  total : UInt64
  defined : UInt64
  byBinding : Breakdown
  byKind : Breakdown
  byRegion : Breakdown
  byEntity : Breakdown
  namespaceAll : List (String × Size)
  namespaceLocal : List (String × Size)
  namespaceGlobal : List (String × Size)
  namespaceRodata : List (String × Size)
  namespaceRwdata : List (String × Size)
  namespaceBss : List (String × Size)
  nameBytes : NameMap Size
  localFunctions : List RankedSymbol
  globalFunctions : List RankedSymbol
  localObjects : List RankedSymbol
  globalObjects : List RankedSymbol
  rodataObjects : List RankedSymbol
  rwdataObjects : List RankedSymbol
  bssObjects : List RankedSymbol
  longNames : List LongName
  nameLengths : Option NameLengths

namespace StaticSummary

def ranking (leaders : Leaders String) : List RankedSymbol :=
  leaders.toList.map fun (size, name) => { name, size }

def ofSurvey (limit : Nat) (survey : StaticSurvey) : StaticSummary where
  total := survey.total
  defined := survey.defined
  byBinding := survey.byBinding
  byKind := survey.byKind
  byRegion := survey.byRegion
  byEntity := survey.byEntity
  namespaceAll := survey.namespaces.all.mostCommon limit
  namespaceLocal := survey.namespaces.locals.mostCommon limit
  namespaceGlobal := survey.namespaces.globals.mostCommon limit
  namespaceRodata := survey.namespaces.rodata.mostCommon limit
  namespaceRwdata := survey.namespaces.rwdata.mostCommon limit
  namespaceBss := survey.namespaces.bss.mostCommon limit
  nameBytes := survey.nameBytes
  localFunctions := ranking survey.leaders.localFunctions
  globalFunctions := ranking survey.leaders.globalFunctions
  localObjects := ranking survey.leaders.localObjects
  globalObjects := ranking survey.leaders.globalObjects
  rodataObjects := ranking survey.leaders.rodataObjects
  rwdataObjects := ranking survey.leaders.rwdataObjects
  bssObjects := ranking survey.leaders.bssObjects
  longNames := survey.longNames.toList.map Prod.snd
  nameLengths := NameLengths.ofLengths? survey.nameLengths

def ofSymbols (limit : Nat) (symbols : List Symbol) : StaticSummary :=
  ofSurvey limit (StaticSurvey.ofSymbols limit symbols)

end StaticSummary

end SizeSurvey
