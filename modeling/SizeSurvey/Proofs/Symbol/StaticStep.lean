import SizeSurvey.Proofs.Ranking.Restriction
import SizeSurvey.Proofs.Size
import SizeSurvey.Symbol.StaticSummary

/-! # What one symbol adds to a survey

Each accumulator of a survey sees the symbols that meet a condition of its own, and nothing else of
a symbol reaches it. A run is thereby taken apart into one fold for each accumulator.
-/
namespace SizeSurvey

namespace Symbol

def isSized (symbol : Symbol) : Bool := symbol.isDefined && 0 < symbol.size

def isNamed (symbol : Symbol) : Bool := symbol.isDefined && symbol.displayName ≠ ""

/-- Whether the symbol counts for the namespaces of all symbols. -/
def isTokened (symbol : Symbol) : Bool :=
  symbol.isSized && !(Namespace.tokens symbol.displayName).isEmpty

def isFunction (symbol : Symbol) : Bool := symbol.isSized && symbol.entity = .function

def isObject (symbol : Symbol) : Bool := symbol.isSized && symbol.entity = .object

def isObjectIn (regions : List Region) (symbol : Symbol) : Bool :=
  symbol.isObject && regions.contains symbol.region

/-- The kind code without its case. -/
def kindName (symbol : Symbol) : String := String.singleton (Text.toAsciiUpper symbol.kind)

def namespaceKey (symbol : Symbol) : String := Namespace.key symbol.displayName

/-- The octets of a name and its terminator, one for each character. -/
def nameBytes (symbol : Symbol) : Size := UInt64.ofNat (symbol.displayName.length + 1)

def nameLength (symbol : Symbol) : Nat := symbol.displayName.length

def longName (symbol : Symbol) : LongName where
  name := symbol.displayName
  length := symbol.nameLength
  binding := symbol.binding
  entity := symbol.entity
  size := symbol.size

end Symbol

/-- The guard before a push changes nothing, because the push asks the same question. -/
theorem Leaders.guarded_push {α : Type} [Ord α] (leaders : Leaders α) (metric : Size) (item : α) :
    (if leaders.admits metric then leaders.push metric item else leaders) =
      leaders.push metric item := by
  cases h : leaders.admits metric with
  | true => rw [if_pos rfl]
  | false => rw [if_neg Bool.false_ne_true,push_of_not_admits h]

namespace StaticSurvey

/-- A step of an accumulator that a symbol concerns or does not. -/
def feed {β : Type} (concerned : Bool) (step : β → β) (held : β) : β :=
  if concerned then step held else held

@[simp] theorem feed_true {β : Type} (step : β → β) (held : β) : feed true step held = step held :=
  rfl

@[simp] theorem feed_false {β : Type} (step : β → β) (held : β) : feed false step held = held := rfl

theorem addName_eq (survey : StaticSurvey) (symbol : Symbol) :
    survey.addName symbol =
      { survey with
        nameLengths := feed (symbol.displayName ≠ "") (symbol.nameLength :: ·) survey.nameLengths
        nameBytes := feed (symbol.displayName ≠ "") (·.bump symbol.binding.name symbol.nameBytes)
          survey.nameBytes
        longNames := feed (symbol.displayName ≠ "")
          (·.push (UInt64.ofNat symbol.nameLength) symbol.longName) survey.longNames } := by
  unfold addName
  by_cases h : symbol.displayName = ""
  · simp [h]
  · simp only [String.length_eq_zero_iff,h,if_false,Leaders.guarded_push,ne_eq,not_false_eq_true,
      decide_true,feed_true]
    rfl

theorem addNamespace_eq (survey : StaticSurvey) (symbol : Symbol) :
    survey.addNamespace symbol =
      { survey with
        namespaces :=
          { survey.namespaces with
            all := survey.namespaces.all.add symbol.namespaceKey symbol.size
            locals := feed symbol.isLocal (·.add symbol.namespaceKey symbol.size)
              survey.namespaces.locals
            globals := feed (!symbol.isLocal) (·.add symbol.namespaceKey symbol.size)
              survey.namespaces.globals } } := by
  unfold addNamespace
  cases symbol.isLocal <;> rfl

theorem addFunction_eq (survey : StaticSurvey) (symbol : Symbol) :
    survey.addFunction symbol =
      { survey with
        leaders :=
          { survey.leaders with
            localFunctions := feed symbol.isLocal (·.push symbol.size symbol.displayName)
              survey.leaders.localFunctions
            globalFunctions := feed (!symbol.isLocal) (·.push symbol.size symbol.displayName)
              survey.leaders.globalFunctions } } := by
  unfold addFunction
  cases symbol.isLocal <;> rfl

theorem addObject_eq (survey : StaticSurvey) (symbol : Symbol) :
    survey.addObject symbol =
      { survey with
        leaders :=
          { survey.leaders with
            localObjects := feed symbol.isLocal (·.push symbol.size symbol.displayName)
              survey.leaders.localObjects
            globalObjects := feed (!symbol.isLocal) (·.push symbol.size symbol.displayName)
              survey.leaders.globalObjects } } := by
  unfold addObject
  cases symbol.isLocal <;> rfl

theorem addRegion_eq (survey : StaticSurvey) (symbol : Symbol) :
    survey.addRegion symbol =
      { survey with
        namespaces :=
          { survey.namespaces with
            rodata := feed ([.rodata].contains symbol.region)
              (·.add symbol.namespaceKey symbol.size) survey.namespaces.rodata
            rwdata := feed ([.rwdata,.common].contains symbol.region)
              (·.add symbol.namespaceKey symbol.size) survey.namespaces.rwdata
            bss := feed ([.bss].contains symbol.region)
              (·.add symbol.namespaceKey symbol.size) survey.namespaces.bss }
        leaders :=
          { survey.leaders with
            rodataObjects := feed ([.rodata].contains symbol.region)
              (·.push symbol.size symbol.displayName) survey.leaders.rodataObjects
            rwdataObjects := feed ([.rwdata,.common].contains symbol.region)
              (·.push symbol.size symbol.displayName) survey.leaders.rwdataObjects
            bssObjects := feed ([.bss].contains symbol.region)
              (·.push symbol.size symbol.displayName) survey.leaders.bssObjects } } := by
  unfold addRegion
  cases symbol.region <;> rfl

/-- **What one symbol adds.** -/
theorem add_eq (survey : StaticSurvey) (symbol : Symbol) :
    survey.add symbol =
      { total := survey.total + 1
        defined := feed symbol.isDefined (· + 1) survey.defined
        byBinding := feed symbol.isDefined (·.add symbol.binding.name symbol.size) survey.byBinding
        byKind := feed symbol.isDefined (·.add symbol.kindName symbol.size) survey.byKind
        byRegion := feed symbol.isDefined (·.add symbol.region.name symbol.size) survey.byRegion
        byEntity := feed symbol.isDefined (·.add symbol.entity.name symbol.size) survey.byEntity
        namespaces :=
          let add (concerned : Bool) := feed concerned (Tally.add · symbol.namespaceKey symbol.size)
          { all := add symbol.isTokened survey.namespaces.all
            locals := add (symbol.isTokened && symbol.isLocal) survey.namespaces.locals
            globals := add (symbol.isTokened && !symbol.isLocal) survey.namespaces.globals
            rodata := add (symbol.isObjectIn [.rodata]) survey.namespaces.rodata
            rwdata := add (symbol.isObjectIn [.rwdata,.common]) survey.namespaces.rwdata
            bss := add (symbol.isObjectIn [.bss]) survey.namespaces.bss }
        nameBytes := feed symbol.isNamed (·.bump symbol.binding.name symbol.nameBytes)
          survey.nameBytes
        nameLengths := feed symbol.isNamed (symbol.nameLength :: ·) survey.nameLengths
        leaders :=
          let push (concerned : Bool) :=
            feed concerned (Leaders.push · symbol.size symbol.displayName)
          { localFunctions :=
              push (symbol.isFunction && symbol.isLocal) survey.leaders.localFunctions
            globalFunctions :=
              push (symbol.isFunction && !symbol.isLocal) survey.leaders.globalFunctions
            localObjects := push (symbol.isObject && symbol.isLocal) survey.leaders.localObjects
            globalObjects := push (symbol.isObject && !symbol.isLocal) survey.leaders.globalObjects
            rodataObjects := push (symbol.isObjectIn [.rodata]) survey.leaders.rodataObjects
            rwdataObjects := push (symbol.isObjectIn [.rwdata,.common]) survey.leaders.rwdataObjects
            bssObjects := push (symbol.isObjectIn [.bss]) survey.leaders.bssObjects }
        longNames := feed symbol.isNamed
          (·.push (UInt64.ofNat symbol.nameLength) symbol.longName) survey.longNames } := by
  unfold add
  cases hdefined : symbol.isDefined with
  | false =>
    simp [hdefined,Symbol.isNamed,Symbol.isSized,Symbol.isTokened,Symbol.isFunction,
      Symbol.isObject,Symbol.isObjectIn]
  | true =>
    by_cases hsize : symbol.size = 0
    · have hunsized : symbol.isSized = false := by simp [Symbol.isSized,hsize]
      simp [hdefined,hsize,hunsized,addBreakdowns,addName_eq,Symbol.isNamed,Symbol.isTokened,
        Symbol.isFunction,Symbol.isObject,Symbol.isObjectIn,Symbol.kindName]
    · have hsized : symbol.isSized = true := by
        simp [Symbol.isSized,hdefined,UInt64.pos_iff_ne_zero,hsize]
      unfold addSized
      cases htokens : (Namespace.tokens symbol.displayName).isEmpty <;>
        cases hentity : symbol.entity <;>
        simp [hdefined,hsize,hsized,htokens,hentity,addBreakdowns,addName_eq,addNamespace_eq,
          addFunction_eq,addObject_eq,addRegion_eq,Symbol.isNamed,Symbol.isTokened,
          Symbol.isFunction,Symbol.isObject,Symbol.isObjectIn,Symbol.kindName]

/-- A part of a survey that only sees some symbols, and of each of these only its entry, is after a
run the fold over their entries. -/
theorem foldl_add_part {β γ : Type} (part : StaticSurvey → β) (concerned : Symbol → Bool)
    (entry : Symbol → γ) (step : β → γ → β)
    (h : ∀ survey symbol, part (survey.add symbol) =
      feed (concerned symbol) (step · (entry symbol)) (part survey))
    (survey : StaticSurvey) (symbols : List Symbol) :
    part (symbols.foldl add survey) =
      ((symbols.filter concerned).map entry).foldl step (part survey) :=
  foldl_part add part concerned entry step h survey symbols

end StaticSurvey

end SizeSurvey
