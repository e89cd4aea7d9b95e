import Mathlib.Data.List.Forall2
import SizeSurvey.Document.Settings
import SizeSurvey.Proofs.Json.Fields
import SizeSurvey.Proofs.Json.RoundTrip

/-! # Settings with defaults

Settings are read back from their document, whatever their numbers and texts are. A document may leave
out whole sections and members of the other ones, and have members that no section knows: then what is
left out has its default, and everything else is what it was.
-/
namespace SizeSurvey
open Json (Place Reader Fields LeavesOut ofText? toText)

/-! ## What is left out -/

/-- What a document of settings leaves out: sections, and members of the sections that it has. -/
structure Omission where
  sections : String → Bool
  members : String → String → Bool

namespace Omission

/-- A section without the members that are left out, and with any members that it does not know. -/
def IsSection (omission : Omission) (whole part : String × Json) : Prop :=
  ∃ inside, part = (whole.1,.object inside) ∧
    LeavesOut (omission.members whole.1) whole.2.members inside

/-- A document of the sections that are not left out, and of any other members among them. -/
def Applies (omission : Omission) (whole document : Json) : Prop :=
  ∃ sections part, document = .object part ∧ LeavesOut omission.sections sections part ∧
    List.Forall₂ omission.IsSection whole.members sections

end Omission

/-! ## Sections -/

section Members
variable {fields : Fields} {omitted : String → Bool} {whole : List (String × Json)} {name : String}

theorem offers_size (h : fields.Offers omitted whole) (i : Nat) {size : Size}
    (hmember : whole[i]? = some (name,.size size)) (initial : Size) :
    fields.orElse .size name initial = some (if omitted name then initial else size) :=
  h.orElse i hmember (Reader.size_size _ size) initial

theorem offers_text (h : fields.Offers omitted whole) (i : Nat) {text : String}
    (hmember : whole[i]? = some (name,.string text)) (initial : String) :
    fields.orElse .text name initial = some (if omitted name then initial else text) :=
  h.orElse i hmember rfl initial

theorem offers_bool (h : fields.Offers omitted whole) (i : Nat) {value : Bool}
    (hmember : whole[i]? = some (name,.bool value)) (initial : Bool) :
    fields.orElse .bool name initial = some (if omitted name then initial else value) :=
  h.orElse i hmember rfl initial

end Members

section Sections
variable {omitted : String → Bool} {part : List (String × Json)}

namespace KernelSettings

def withDefaults (omitted : String → Bool) (settings : KernelSettings) : KernelSettings :=
  let initial : KernelSettings := {}
  { topLimit := if omitted "top_limit" then initial.topLimit else settings.topLimit
    familyLimit := if omitted "family_limit" then initial.familyLimit else settings.familyLimit
    nameBudget := if omitted "name_budget" then initial.nameBudget else settings.nameBudget
    strictPairing := if omitted "strict_pairing" then initial.strictPairing
      else settings.strictPairing }

theorem read_leavesOut {settings : KernelSettings}
    (h : LeavesOut omitted settings.toJson.members part) (place : Place) :
    reader place (.object part) = some (settings.withDefaults omitted) := by
  refine h.record (by rfl) (by decide) place fun fields _ hoffers => ?_
  simp only [offers_size hoffers 0 rfl,offers_size hoffers 1 rfl,offers_size hoffers 2 rfl,
    offers_bool hoffers 3 rfl]
  rfl

end KernelSettings

namespace SymbolSettings

def withDefaults (omitted : String → Bool) (settings : SymbolSettings) : SymbolSettings :=
  let initial : SymbolSettings := {}
  { topLimit := if omitted "top_limit" then initial.topLimit else settings.topLimit
    dynamicNamespaceLimit := if omitted "dynamic_namespace_limit" then initial.dynamicNamespaceLimit
      else settings.dynamicNamespaceLimit }

theorem read_leavesOut {settings : SymbolSettings}
    (h : LeavesOut omitted settings.toJson.members part) (place : Place) :
    reader place (.object part) = some (settings.withDefaults omitted) := by
  refine h.record (by rfl) (by decide) place fun fields _ hoffers => ?_
  simp only [offers_size hoffers 0 rfl,offers_size hoffers 1 rfl]
  rfl

end SymbolSettings

namespace OverlapSettings

def withDefaults (omitted : String → Bool) (settings : OverlapSettings) : OverlapSettings :=
  let initial : OverlapSettings := {}
  { topSymbols := if omitted "top_symbols" then initial.topSymbols else settings.topSymbols
    topNamespaces := if omitted "top_namespaces" then initial.topNamespaces
      else settings.topNamespaces
    tripleExamples := if omitted "triple_examples" then initial.tripleExamples
      else settings.tripleExamples }

theorem read_leavesOut {settings : OverlapSettings}
    (h : LeavesOut omitted settings.toJson.members part) (place : Place) :
    reader place (.object part) = some (settings.withDefaults omitted) := by
  refine h.record (by rfl) (by decide) place fun fields _ hoffers => ?_
  simp only [offers_size hoffers 0 rfl,offers_size hoffers 1 rfl,offers_size hoffers 2 rfl]
  rfl

end OverlapSettings

theorem DemanglerKind.read_name (place : Place) (kind : DemanglerKind) :
    reader place (.string kind.name) = some kind := by
  cases kind <;> rfl

theorem read_texts (place : Place) (texts : List String) :
    Reader.list .text place (.list .string texts) = some texts := by
  induction texts with
  | nil => rfl
  | cons text rest ih =>
    have hrest : (rest.map Json.string).mapM (Reader.text place.inner) = some rest := ih
    change ((text :: rest).map Json.string).mapM (Reader.text place.inner) = some (text :: rest)
    rw [List.map_cons,List.mapM_cons,hrest]
    rfl

namespace ToolSettings

def withDefaults (omitted : String → Bool) (settings : ToolSettings) : ToolSettings :=
  let initial : ToolSettings := {}
  { timeoutSeconds := if omitted "timeout_seconds" then initial.timeoutSeconds
      else settings.timeoutSeconds
    sectionLister := if omitted "readelf" then initial.sectionLister else settings.sectionLister
    symbolLister := if omitted "nm" then initial.symbolLister else settings.symbolLister
    dependencyLister := if omitted "ldd" then initial.dependencyLister
      else settings.dependencyLister
    abiAuditor := if omitted "auditwheel" then initial.abiAuditor else settings.abiAuditor
    demanglers := if omitted "demangler_candidates" then initial.demanglers else settings.demanglers
    demangler := if omitted "demangler" then initial.demangler else settings.demangler }

theorem read_leavesOut {settings : ToolSettings}
    (h : LeavesOut omitted settings.toJson.members part) (place : Place) :
    reader place (.object part) = some (settings.withDefaults omitted) := by
  refine h.record (by rfl) (by decide) place fun fields _ hoffers => ?_
  have hdemanglers := hoffers.orElse 5 rfl (read_texts fields.place settings.demanglers)
  have hdemangler := hoffers.orElse 6 rfl
    (DemanglerKind.read_name fields.place settings.demangler)
  simp only [offers_size hoffers 0 rfl,offers_text hoffers 1 rfl,offers_text hoffers 2 rfl,
    offers_text hoffers 3 rfl,offers_text hoffers 4 rfl,hdemanglers,hdemangler]
  rfl

end ToolSettings

namespace GateSettings

def withDefaults (omitted : String → Bool) (settings : GateSettings) : GateSettings :=
  let initial : GateSettings := {}
  { maxGrowth := if omitted "max_growth" then initial.maxGrowth else settings.maxGrowth
    reportFloor := if omitted "report_floor_bytes" then initial.reportFloor
      else settings.reportFloor }

theorem read_leavesOut {settings : GateSettings}
    (h : LeavesOut omitted settings.toJson.members part) (place : Place) :
    reader place (.object part) = some (settings.withDefaults omitted) := by
  refine h.record (by rfl) (by decide) place fun fields _ hoffers => ?_
  simp only [offers_text hoffers 0 rfl,offers_size hoffers 1 rfl]
  rfl

end GateSettings

end Sections

/-! ## Whole documents -/

namespace Settings

/-- The settings with the default of everything that is left out. -/
def withDefaults (omission : Omission) (settings : Settings) : Settings where
  kernels := if omission.sections "kernels" then {}
    else settings.kernels.withDefaults (omission.members "kernels")
  symbols := if omission.sections "symbols" then {}
    else settings.symbols.withDefaults (omission.members "symbols")
  overlap := if omission.sections "overlap" then {}
    else settings.overlap.withDefaults (omission.members "overlap")
  tools := if omission.sections "tools" then {}
    else settings.tools.withDefaults (omission.members "tools")
  gate := if omission.sections "gate" then {}
    else settings.gate.withDefaults (omission.members "gate")

theorem read_of_applies {omission : Omission} {settings : Settings} {document : Json}
    (h : omission.Applies settings.toJson document) (place : Place) :
    reader place document = some (settings.withDefaults omission) := by
  obtain ⟨sections,part,rfl,hpart,hsections⟩ := h
  -- One section after the other, in the order in which they are written.
  obtain _ | ⟨⟨_,rfl,hkernels⟩,_ | ⟨⟨_,rfl,hsymbols⟩,_ | ⟨⟨_,rfl,hoverlap⟩,
    _ | ⟨⟨_,rfl,htools⟩,_ | ⟨⟨_,rfl,hgate⟩,_ | _⟩⟩⟩⟩⟩ := hsections
  refine hpart.record (by rfl) (by decide) place fun fields _ hoffers => ?_
  have hkernels := hoffers.orElse 0 rfl (KernelSettings.read_leavesOut hkernels fields.place)
  have hsymbols := hoffers.orElse 1 rfl (SymbolSettings.read_leavesOut hsymbols fields.place)
  have hoverlap := hoffers.orElse 2 rfl (OverlapSettings.read_leavesOut hoverlap fields.place)
  have htools := hoffers.orElse 3 rfl (ToolSettings.read_leavesOut htools fields.place)
  have hgate := hoffers.orElse 4 rfl (GateSettings.read_leavesOut hgate fields.place)
  simp only [hkernels,hsymbols,hoverlap,htools,hgate]
  rfl

/-- Nothing is left out. -/
def nothing : Omission where
  sections _ := false
  members _ _ := false

theorem applies_nothing (settings : Settings) :
    nothing.Applies settings.toJson settings.toJson := by
  refine ⟨settings.toJson.members,settings.toJson.members,rfl,.refl _,?_⟩
  have hsection : ∀ name inside, nothing.IsSection (name,.object inside) (name,.object inside) :=
    fun _ inside => ⟨inside,rfl,.refl inside⟩
  exact .cons (hsection _ _) (.cons (hsection _ _) (.cons (hsection _ _) (.cons (hsection _ _)
    (.cons (hsection _ _) .nil))))

theorem isExact_toJson (settings : Settings) : settings.toJson.isExact = true := by
  have hsize : ∀ size : Size, (Json.size size).isExact = true :=
    fun size => decide_eq_true size.toNat_lt
  have htexts : ∀ texts : List String, (Json.list .string texts).isExact = true := by
    intro texts
    induction texts with
    | nil => rfl
    | cons text rest ih => exact ih
  simp [toJson,KernelSettings.toJson,SymbolSettings.toJson,OverlapSettings.toJson,
    ToolSettings.toJson,GateSettings.toJson,Json.isExact,Json.areMembersExact,hsize,htexts]

/-- **Settings are read back, and a document need not have all of them.** From the text that they are
written as, settings are read as they are. From any text of a document that leaves sections and members
out, and has unknown members among the others, they are read with the defaults of what is missing. -/
theorem reader_with_defaults (settings : Settings) :
    (ofText? (toText settings.toJson)).bind (reader {}) = some settings ∧
    ∀ omission document text, omission.Applies settings.toJson document →
      ofText? text = some document →
      (ofText? text).bind (reader {}) = some (settings.withDefaults omission) := by
  constructor
  · have hread := read_of_applies (applies_nothing settings) {}
    rw [Json.ofText?_toText (isExact_toJson settings)]
    exact hread
  · intro omission document text happlies htext
    rw [htext]
    exact read_of_applies happlies {}

/-- Settings with odd texts. -/
def odd : Settings where
  kernels := { topLimit := 7, strictPairing := true }
  tools := { symbolLister := "n\"m\\", demanglers := ["é\n"], demangler := .builtin }
  gate := { maxGrowth := "", reportFloor := Size.largest }

/-- Two sections are left out, and a member of each of two others. -/
def someOmitted : Omission where
  sections name := name == "symbols" || name == "overlap"
  members space name := (space == "kernels" && name == "top_limit") ||
    (space == "tools" && name == "nm")

def partOfOdd : Json :=
  .object [("top_limit",.null),
    ("kernels",.object [("family_limit",.natural 20),("name_budget",.natural 512),
      ("strict_pairing",.bool true),("nm",.array [])]),
    ("tools",.object [("timeout_seconds",.natural 300),("readelf",.string "readelf"),
      ("ldd",.string "ldd"),("auditwheel",.string "auditwheel"),("top_limit",.string ""),
      ("demangler_candidates",.array [.string "é\n"]),("demangler",.string "builtin")]),
    ("gate",.object [("max_growth",.string ""),
      ("report_floor_bytes",.natural 18446744073709551615)]),
    ("note",.object [("kernels",.null)])]

theorem applies_partOfOdd : someOmitted.Applies odd.toJson partOfOdd := by
  refine ⟨[("kernels",_),("symbols",odd.symbols.toJson),("overlap",odd.overlap.toJson),
    ("tools",_),("gate",odd.gate.toJson)],_,rfl,List.Perm.refl _,?_⟩
  exact .cons ⟨_,rfl,List.Perm.refl _⟩ (.cons ⟨_,rfl,.refl _⟩ (.cons ⟨_,rfl,.refl _⟩
    (.cons ⟨_,rfl,List.Perm.refl _⟩ (.cons ⟨_,rfl,.refl _⟩ .nil))))

/-- Odd settings are read back from a part of their document. -/
theorem reader_with_defaults_odd :
    someOmitted.Applies odd.toJson partOfOdd ∧
    ofText? (toText partOfOdd) = some partOfOdd ∧
    (ofText? (toText partOfOdd)).bind (reader {}) = some { odd with
      kernels := { odd.kernels with topLimit := 25 }
      tools := { odd.tools with symbolLister := "nm" } } := by
  have htext : ofText? (toText partOfOdd) = some partOfOdd := Json.ofText?_toText rfl
  refine ⟨applies_partOfOdd,htext,?_⟩
  exact (reader_with_defaults odd).2 someOmitted partOfOdd _ applies_partOfOdd htext

end Settings

end SizeSurvey
