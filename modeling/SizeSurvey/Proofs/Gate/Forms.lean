import SizeSurvey.Proofs.Gate.Baseline
import SizeSurvey.Proofs.Json.Fields

/-! # The two forms of a baseline document

A baseline document is a plain map from components to sizes, or it carries that map as a member. The
same sizes are loaded from both, whatever the components are called and whatever else the document has,
because no document can be read in both forms.
-/
namespace SizeSurvey
open Json

/-! ## Plain maps -/

namespace Metrics
variable {sizes : Metrics} {document : Json}

/-- A document that gives each component its size, in any order. -/
def IsFlat (sizes : Metrics) (document : Json) : Prop :=
  ∃ entries, entries.Perm sizes.entries ∧ document = .object (members entries)

theorem reader_of_isFlat (h : sizes.IsFlat document) (place : Place) :
    reader place document = some sizes := by
  obtain ⟨entries,hperm,rfl⟩ := h
  have hnodup : (entries.map Prod.fst).Nodup := by
    refine (hperm.map Prod.fst).nodup_iff.mpr (sizes.sorted_names.imp fun {a b} hlt heq => ?_)
    exact String.lt_irrefl b (heq ▸ hlt)
  rw [reader_members,NameMap.ofList_perm hnodup hperm,NameMap.ofList_entries]

theorem isKept_of_isFlat (h : sizes.IsFlat document) :
    (document.isReadable && document.depth ≤ Place.deepest) = true := by
  obtain ⟨entries,-,rfl⟩ := h
  have hreadable := isReadable_of_isExact (.object (members entries))
    (areMembersExact_members entries)
  have hdepth : depth (.object (members entries)) = 1 :=
    congrArg (· + 1) (depthOfMembers_members entries)
  rw [hreadable,hdepth]
  rfl

theorem reader_of_not_object {place : Place} (h : ∀ part, document ≠ .object part) :
    reader place document = none := by
  cases document with
  | object part => exact absurd rfl (h part)
  | _ => rfl

theorem exists_natural_of_reader {place : Place} {part : List (String × Json)}
    (h : reader place (.object part) = some sizes) :
    ∀ member ∈ part, ∃ n, member.2 = .natural n := by
  obtain ⟨entries,hentries,-⟩ := Option.bind_eq_some_iff.mp h
  clear h
  induction part generalizing entries with
  | nil => exact fun _ hmem => nomatch hmem
  | cons member rest ih =>
    rw [List.mapM_cons] at hentries
    obtain ⟨entry,hentry,hentries⟩ := Option.bind_eq_some_iff.mp hentries
    obtain ⟨others,hothers,-⟩ := Option.bind_eq_some_iff.mp hentries
    obtain ⟨size,hsize,-⟩ := Option.map_eq_some_iff.mp hentry
    refine List.forall_mem_cons.mpr ⟨?_,ih others hothers⟩
    cases hvalue : member.2 with
    | natural n => exact ⟨n,rfl⟩
    | _ => rw [hvalue] at hsize; cases hsize

end Metrics

/-! ## Documents with a version -/

/-- A document of totals: an object that has them among its members, or the array of the two. -/
def BaselineTotals.IsWritten (totals : BaselineTotals) (document : Json) : Prop :=
  (∃ part, document = .object part ∧ LeavesOut (fun _ => false) totals.toJson.members part) ∨
    document = .array [.size totals.componentCount,.size totals.totalSize]

theorem BaselineTotals.reader_of_isWritten {totals : BaselineTotals} {document : Json}
    (h : totals.IsWritten document) (place : Place) : reader place document = some totals := by
  rcases h with ⟨part,rfl,hpart⟩ | rfl
  · refine hpart.record (by rfl) (by decide) place fun fields _ hoffers => ?_
    have hcount := hoffers.required 0 rfl rfl (Reader.size_size _ totals.componentCount)
    have htotal := hoffers.required 1 rfl rfl (Reader.size_size _ totals.totalSize)
    simp only [hcount,htotal]
    rfl
  · simp [reader,Reader.record,Fields.ofJson?,Fields.required,Reader.size,Json.size,
      Size.ofNat?_toNat,NameMap.lookup_cons_eq_ite]

namespace Baseline
variable {sizes : Metrics} {document : Json}

/-- A document that carries sizes as a member. Its version and its totals may be missing, and it may have
any other members. -/
def IsVersioned (sizes : Metrics) (document : Json) : Prop :=
  ∃ omitted version flat written part, omitted "sizes" = false ∧ version < UInt32.size ∧
    sizes.IsFlat flat ∧ (∃ totals : BaselineTotals, totals.IsWritten written) ∧
    document = .object part ∧
    LeavesOut omitted [("format_version",.natural version),("sizes",flat),("metadata",written)] part

theorem exists_reader_of_isVersioned (h : IsVersioned sizes document) (place : Place) :
    ∃ baseline, reader place document = some baseline ∧ baseline.sizes = sizes := by
  obtain ⟨omitted,version,flat,written,part,hkept,hversion,hflat,⟨totals,hwritten⟩,rfl,hpart⟩ := h
  refine ⟨⟨if omitted "format_version" then currentVersion else version,sizes,
    if omitted "metadata" then {} else totals⟩,?_,rfl⟩
  refine hpart.record (by rfl) (by decide) place fun fields _ hoffers => ?_
  have hversion : Reader.smallCount fields.place (.natural version) = some version :=
    if_pos hversion
  have hversion := hoffers.orElse 0 rfl hversion currentVersion
  have hsizes := hoffers.required 1 rfl hkept (Metrics.reader_of_isFlat hflat fields.place)
  have htotals := hoffers.orElse 2 rfl (BaselineTotals.reader_of_isWritten hwritten fields.place) {}
  simp only [hversion,hsizes,htotals]
  rfl

/-- A number is no map, so the member that carries the sizes cannot be one. -/
theorem required_sizes_of_naturals {names : List String} {place : Place}
    {part : List (String × Json)} {fields : Fields}
    (hfields : Fields.ofJson? names place (.object part) = some fields)
    (hnatural : ∀ member ∈ part, ∃ n, member.2 = .natural n) (name : String) :
    fields.required Metrics.reader name = none := by
  simp only [Fields.ofJson?,Option.ite_none_right_eq_some,Option.some.injEq] at hfields
  obtain ⟨-,rfl⟩ := hfields
  cases hlookup : part.lookup name with
  | none => simp [Fields.required,hlookup]
  | some value =>
    obtain ⟨front,back,rfl,-⟩ := List.lookup_eq_some_iff.mp hlookup
    obtain ⟨n,rfl⟩ := hnatural (name,value) (by simp)
    simp [Fields.required,hlookup,Metrics.reader_of_not_object]

/-- **No document is read in both forms.** -/
theorem reader_eq_none_or (place : Place) (document : Json) :
    reader place document = none ∨ Metrics.reader place document = none := by
  by_cases hobject : ∃ part, document = .object part
  case neg => exact Or.inr (Metrics.reader_of_not_object fun part heq => hobject ⟨part,heq⟩)
  obtain ⟨part,rfl⟩ := hobject
  cases hflat : Metrics.reader place (.object part) with
  | none => exact Or.inr rfl
  | some sizes =>
    refine Or.inl ?_
    cases hfields : Fields.ofJson? ["format_version","sizes","metadata"] place (.object part) with
    | none => rw [reader,Reader.record,hfields]; rfl
    | some fields =>
      have hnatural := Metrics.exists_natural_of_reader hflat
      have hsizes := required_sizes_of_naturals hfields hnatural "sizes"
      rw [reader,Reader.record,hfields,Option.bind_some,hsizes]
      cases fields.orElse .smallCount "format_version" currentVersion <;> rfl

/-! ## Both forms -/

theorem sizesReader_eq (h : (document.isReadable && document.depth ≤ Place.deepest) = true) :
    sizesReader {} document =
      ((reader { kept := true } document).map (·.sizes)).or
        (Metrics.reader { kept := true } document) := by
  have hkeep : Place.keep? {} document = some { kept := true } := by
    rw [Place.keep?,if_neg (by decide),Nat.zero_add,if_pos h]
  rw [sizesReader,hkeep]
  rfl

theorem sizesReader_of_isFlat (h : sizes.IsFlat document) : sizesReader {} document = some sizes := by
  have hflat := Metrics.reader_of_isFlat h { kept := true }
  have hversioned : reader { kept := true } document = none := by
    have hnone := reader_eq_none_or { kept := true } document
    rw [hflat] at hnone
    exact hnone.resolve_right (Option.some_ne_none _)
  rw [sizesReader_eq (Metrics.isKept_of_isFlat h),hversioned,hflat]
  rfl

theorem sizesReader_of_isVersioned (h : IsVersioned sizes document)
    (hkept : (document.isReadable && document.depth ≤ Place.deepest) = true) :
    sizesReader {} document = some sizes := by
  obtain ⟨baseline,hread,rfl⟩ := exists_reader_of_isVersioned h { kept := true }
  rw [sizesReader_eq hkept,hread]
  rfl

theorem load_eq_ok {tree : Node} {path text : String} (htext : tree.readText path = .ok text)
    (hdocument : ofText? text = some document) (hread : sizesReader {} document = some sizes) :
    load tree path = .ok sizes := by
  rw [load,if_pos (Node.hasFile_of_readText htext)]
  exact Node.readJson_eq_ok_iff.mpr ⟨text,htext,by rw [hdocument]; exact hread⟩

/-- **The same sizes are loaded from both forms.** A file whose text denotes a plain map of sizes is
loaded as these sizes, and so is a file whose text denotes a document that carries them as a member
beside any others, as far as their values can be read at all and are not nested too deep. No document is
taken for the one form where it is the other. -/
theorem load_of_either_form {tree : Node} {path text : String} {document : Json}
    (htext : tree.readText path = .ok text) (hdocument : ofText? text = some document) :
    (∀ sizes : Metrics, sizes.IsFlat document → load tree path = .ok sizes) ∧
    (∀ sizes, IsVersioned sizes document → document.isReadable = true →
      document.depth ≤ Place.deepest → load tree path = .ok sizes) ∧
    ∀ place, reader place document = none ∨ Metrics.reader place document = none := by
  refine ⟨fun sizes h => ?_,fun sizes h hreadable hdepth => ?_,fun place => ?_⟩
  · exact load_eq_ok htext hdocument (sizesReader_of_isFlat h)
  · have hkept : (document.isReadable && document.depth ≤ Place.deepest) = true := by
      rw [hreadable,decide_eq_true hdepth,Bool.and_self]
    exact load_eq_ok htext hdocument (sizesReader_of_isVersioned h hkept)
  · exact reader_eq_none_or place document

/-- A directory with one file, which holds a document. -/
def holding (document : Json) : Node :=
  .directory [("b",.file (Text.Utf8.encode (write 0 document)) false)]

theorem readText_holding (document : Json) :
    (holding document).readText "b" = .ok (toText document) := by
  have hpieces : Path.pieces "b" = ["b"] := by decide +kernel
  have hlocated : (holding document).locate true "b" = .ok ["b"] := by
    simp [Node.locate,hpieces,Node.locateFrom,Node.at?,Node.child?,holding]
  exact Node.readText_eq_ok_iff.mpr
    ⟨["b"],_,⟨hlocated,false,rfl⟩,Text.Utf8.decodeString?_encode _⟩

/-- Components that are called like the members of a document with a version. -/
def oddSizes : Metrics :=
  NameMap.ofList [("format_version",1),("metadata",0),("sizes",Size.largest)]

def oddTotals : List (String × Json) :=
  [("total_size",.size 0),("unit",.null),("component_count",.size 3)]

def oddVersioned : Json :=
  .object [("note",.array [.null,.object [("sizes",.string "")]]),("metadata",.object oddTotals),
    ("sizes",.object (Metrics.members oddSizes.entries.reverse)),("version",.bool true)]

theorem isVersioned_oddVersioned : IsVersioned oddSizes oddVersioned := by
  have htotals : LeavesOut (fun _ => false) (BaselineTotals.toJson ⟨3,0⟩).members oddTotals :=
    List.Perm.swap ..
  exact ⟨fun name => name == "format_version",0,_,.object oddTotals,_,rfl,by decide,
    ⟨_,List.reverse_perm _,rfl⟩,⟨⟨3,0⟩,Or.inl ⟨_,rfl,htotals⟩⟩,rfl,List.Perm.swap ..⟩

/-- Odd sizes are loaded from a plain map and from a document that carries them. -/
theorem load_of_either_form_odd :
    (oddSizes.IsFlat oddSizes.toJson ∧ load (holding oddSizes.toJson) "b" = .ok oddSizes) ∧
    (IsVersioned oddSizes oddVersioned ∧ oddVersioned.isReadable = true ∧
      oddVersioned.depth ≤ Place.deepest ∧
      load (holding oddVersioned) "b" = .ok oddSizes) := by
  have hflat : oddSizes.IsFlat oddSizes.toJson := ⟨_,.refl _,rfl⟩
  have htext : ofText? (toText oddSizes.toJson) = some oddSizes.toJson :=
    ofText?_toText (Metrics.areMembersExact_members _)
  have htext' : ofText? (toText oddVersioned) = some oddVersioned := ofText?_toText rfl
  refine ⟨⟨hflat,?_⟩,isVersioned_oddVersioned,rfl,by decide,?_⟩
  · exact (load_of_either_form (readText_holding _) htext).1 oddSizes hflat
  · exact (load_of_either_form (readText_holding _) htext').2.1 oddSizes isVersioned_oddVersioned rfl
      (by decide)

end Baseline

end SizeSurvey
