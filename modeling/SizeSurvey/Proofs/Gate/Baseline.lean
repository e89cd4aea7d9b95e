import SizeSurvey.Gate.Files
import SizeSurvey.Proofs.Json.RoundTrip
import SizeSurvey.Proofs.NameMap
import SizeSurvey.Proofs.Size
import SizeSurvey.Proofs.Text.Utf8
import SizeSurvey.Proofs.Tree.Keeping

/-! # Baselines read back

The document of a baseline is read as that baseline, whatever the names of its components are, and a
baseline that was saved is loaded with the sizes it was made from.
-/
namespace SizeSurvey
open Json Node
open NameMap (lookup_cons_eq_ite)

/-! ## Documents of sizes -/

namespace Metrics

/-- The members of a document that gives each component its size. -/
def members (entries : List (String × Size)) : List (String × Json) :=
  entries.map fun entry => (entry.1,.size entry.2)

theorem areMembersExact_members (entries : List (String × Size)) :
    areMembersExact (members entries) = true := by
  induction entries with
  | nil => rfl
  | cons entry rest ih =>
    have hfits : (Json.size entry.2).isExact = true := decide_eq_true entry.2.toNat_lt
    simpa [members,areMembersExact,hfits] using ih

theorem depthOfMembers_members (entries : List (String × Size)) :
    depthOfMembers (members entries) = 0 := by
  induction entries with
  | nil => rfl
  | cons entry rest ih => simpa [members,depthOfMembers,Json.size,depth] using ih

theorem reader_members (place : Place) (entries : List (String × Size)) :
    reader place (.object (members entries)) = some (NameMap.ofList entries) := by
  have hmembers : (members entries).mapM (fun member =>
      (Reader.size place.inner member.2).map (member.1,·)) = some entries := by
    induction entries with
    | nil => rfl
    | cons entry rest ih =>
      rw [members,List.map_cons,List.mapM_cons,← members,ih]
      simp [Reader.size,Json.size,Size.ofNat?_toNat]
  change (members entries).mapM _ >>= _ = _
  rw [hmembers]
  rfl

theorem reader_toJson (place : Place) (metrics : Metrics) :
    reader place metrics.toJson = some metrics := by
  have h := reader_members place metrics.entries
  rwa [NameMap.ofList_entries] at h

end Metrics

/-! ## Documents of baselines -/

theorem BaselineTotals.reader_toJson (place : Place) (totals : BaselineTotals) :
    reader place totals.toJson = some totals := by
  simp [reader,Reader.record,Fields.ofJson?,toJson,Fields.required,Reader.size,Json.size,
    Size.ofNat?_toNat,lookup_cons_eq_ite]

namespace Baseline

theorem reader_toJson (place : Place) {baseline : Baseline}
    (hversion : baseline.formatVersion < UInt32.size) :
    reader place baseline.toJson = some baseline := by
  simp [reader,Reader.record,Fields.ofJson?,toJson,Fields.required,Fields.orElse,
    Reader.smallCount,hversion,Metrics.reader_toJson,BaselineTotals.reader_toJson,
    lookup_cons_eq_ite]

theorem isExact_toJson {baseline : Baseline} (hversion : baseline.formatVersion < UInt32.size) :
    baseline.toJson.isExact = true := by
  have hversion : baseline.formatVersion < UInt64.size := Nat.lt_trans hversion (by decide)
  have hsizes : baseline.sizes.toJson.isExact = true := Metrics.areMembersExact_members _
  have htotals : baseline.totals.toJson.isExact = true :=
    Metrics.areMembersExact_members [("component_count",_),("total_size",_)]
  simp [toJson,Json.isExact,areMembersExact,hversion,hsizes,htotals]

theorem depth_toJson (baseline : Baseline) : baseline.toJson.depth = 2 := by
  have hsizes : baseline.sizes.toJson.depth = 1 :=
    congrArg (· + 1) (Metrics.depthOfMembers_members _)
  have htotals : baseline.totals.toJson.depth = 1 := rfl
  simp [toJson,depth,depthOfMembers,hsizes,htotals]

/-- **The sizes of a baseline are read back from its document.** -/
theorem sizesReader_toJson {baseline : Baseline}
    (hversion : baseline.formatVersion < UInt32.size) :
    sizesReader {} baseline.toJson = some baseline.sizes := by
  have hreadable := isReadable_of_isExact _ (isExact_toJson hversion)
  have hkeep : Place.keep? {} baseline.toJson = some { kept := true } := by
    rw [Place.keep?,if_neg (by decide),hreadable,depth_toJson]
    rfl
  simp [sizesReader,hkeep,reader_toJson _ hversion]

end Baseline

/-! ## Files -/

namespace Metrics

/-- A directory in which a survey left a document of these sizes. -/
def LeftIn (tree : Node) (directory : String) (entries : List (String × Size)) : Prop :=
  ∃ text, tree.readText (Path.child directory fileName) = .ok text ∧
    Json.ofText? text = some (.object (members entries))

variable {tree : Node} {directory : String} {entries : List (String × Size)}

/-- The sizes that a survey left are loaded if there are any. -/
theorem load_eq_of_leftIn (h : LeftIn tree directory entries) :
    load tree directory = if (NameMap.ofList entries).isEmpty then .error (.noSizes directory)
      else .ok (NameMap.ofList entries) := by
  obtain ⟨text,hread,hvalue⟩ := h
  have hfile := Node.hasFile_of_readText hread
  have hjson : tree.readJson (Path.child directory fileName) reader =
      .ok (NameMap.ofList entries) :=
    Node.readJson_eq_ok_iff.mpr ⟨text,hread,by rw [hvalue]; exact reader_members {} entries⟩
  simp only [load,hfile,if_true,hjson]
  rfl

theorem load_of_leftIn (h : LeftIn tree directory entries) (hne : entries ≠ []) :
    load tree directory = .ok (NameMap.ofList entries) := by
  rw [load_eq_of_leftIn h,NameMap.isEmpty_ofList hne]
  rfl

end Metrics

/-- A path at which a file can be written once the directories around it have been made, and the place
that it leads to. -/
def Node.WritesTo (tree : Node) (path : String) (place : List String) : Prop :=
  ∃ made, tree.makeDirectories (Path.ofSteps (Path.parentSteps path)) = .ok made ∧
    made.locate true path = .ok place ∧ ∀ node, made.at? place = some node → node.isFile = true

namespace Baseline
variable {tree : Node} {path : String} {place : List String}

/-- The octets of the file of a baseline. -/
def octets (baseline : Baseline) : List UInt8 :=
  Text.Utf8.encode (Json.write 0 baseline.toJson)

/-- **A baseline is saved wherever a file can be written,** and no other file changes. -/
theorem exists_save (htree : tree.isDirectory = true) (hpath : WritesTo tree path place)
    (sizes : Metrics) :
    ∃ after, save tree sizes path = .ok (ofSizes sizes,after) ∧ Keeps (· = place) tree after ∧
      LeadsToFile after path place (ofSizes sizes).octets := by
  obtain ⟨made,hmade,hlocated,hfree⟩ := hpath
  have hdirectories := keeps_makeDirectories htree hmade
  obtain ⟨after,hwritten,hkeeps,hleads⟩ := exists_write (hdirectories.isDirectory htree) hlocated
    hfree (ofSizes sizes).octets
  refine ⟨after,?_,(hdirectories.mono fun _ h => h.elim).trans hkeeps,hleads⟩
  exact bind_eq_ok_iff.mpr ⟨made,mapError_eq_ok_iff.mpr hmade,
    bind_eq_ok_iff.mpr ⟨after,mapError_eq_ok_iff.mpr hwritten,rfl⟩⟩

theorem readText_of_leadsToFile {baseline : Baseline}
    (h : LeadsToFile tree path place baseline.octets) :
    tree.readText path = .ok (Json.toText baseline.toJson) :=
  readText_eq_ok_iff.mpr ⟨place,_,h,Text.Utf8.decodeString?_encode _⟩

/-- **The file of a baseline is loaded as its sizes.** -/
theorem load_of_leadsToFile {baseline : Baseline} (hversion : baseline.formatVersion < UInt32.size)
    (h : LeadsToFile tree path place baseline.octets) : load tree path = .ok baseline.sizes := by
  rw [load,if_pos h.hasFile]
  refine readJson_eq_ok_iff.mpr ⟨_,readText_of_leadsToFile h,?_⟩
  rw [ofText?_toText (isExact_toJson hversion)]
  exact sizesReader_toJson hversion

end Baseline

end SizeSurvey
