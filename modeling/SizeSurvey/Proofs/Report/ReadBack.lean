import SizeSurvey.Proofs.Gate.Baseline
import SizeSurvey.Proofs.Report.Components
import SizeSurvey.Proofs.Report.Documents

/-! # Metrics read back

The metrics are the last document of a survey. Whatever the documents before them did to the tree,
they are there to be read, and so the gate finds the sizes that the survey left.
-/
namespace SizeSurvey

namespace Node
variable {root after : Node} {directory path name : String} {value : Json}

/-- The last of some documents has been written if all of them have. -/
theorem exists_writeJson_last {front : List (String × Json)}
    (h : root.writeAll directory (front ++ [(name,value)]) = (after,none)) :
    ∃ before : Node, before.writeJson (Path.child directory name) value = .ok after := by
  induction front generalizing root with
  | nil =>
    rw [List.nil_append,writeAll] at h
    refine ⟨root,?_⟩
    cases hwrite : root.writeJson (Path.child directory name) value with
    | error fault =>
      rw [hwrite] at h
      cases h
    | ok next =>
      rw [hwrite] at h
      cases h
      rfl
  | cons document rest ih =>
    obtain ⟨first,held⟩ := document
    rw [List.cons_append,writeAll] at h
    cases hwrite : root.writeJson (Path.child directory first) held with
    | error fault =>
      rw [hwrite] at h
      cases h
    | ok next =>
      rw [hwrite] at h
      exact ih h

theorem readText_of_writeJson (h : root.writeJson path value = .ok after) :
    after.readText path = .ok (Json.toText value) := by
  obtain ⟨place,hleads⟩ := exists_leadsToFile_of_write (mapError_eq_ok_iff.mp h)
  exact readText_eq_ok_iff.mpr ⟨place,_,hleads,Text.Utf8.decodeString?_encode _⟩

end Node

namespace PackageReport
variable {report : PackageReport} {tree after : Node} {directory : String}

theorem documents_eq_append (report : PackageReport) :
    ∃ front, report.documents = front ++ [(Metrics.fileName,report.metrics.toJson)] :=
  ⟨_,rfl⟩

theorem leftIn_of_writeTo (h : report.writeTo tree directory = (after,none)) :
    Metrics.LeftIn after directory report.metrics.entries := by
  unfold writeTo at h
  cases hmade : tree.makeDirectories directory with
  | error trouble =>
    rw [hmade] at h
    cases h
  | ok made =>
    obtain ⟨front,hdocuments⟩ := report.documents_eq_append
    rw [hmade] at h
    simp only [hdocuments] at h
    obtain ⟨before,hwritten⟩ := Node.exists_writeJson_last h
    exact ⟨_,Node.readText_of_writeJson hwritten,
      Json.ofText?_toText (Metrics.areMembersExact_members _)⟩

/-- **The metrics are exact and survive the disk.** They have the size of each component that is
reported and nothing else, neither the order of the libraries nor the libraries that failed play a
part, and where a report was written its metrics are loaded, unless there are none. -/
theorem metrics_exact (h : (report.analyzed.map (·.name)).Nodup) :
    Function.Injective Component.key ∧ report.Flattens report.metrics ∧
    (∀ libraries : List LibraryOutcome, libraries.Perm report.libraries →
      { report with libraries := libraries }.metrics = report.metrics) ∧
    { report with libraries := report.libraries.filter (·.report?.isSome) }.metrics =
      report.metrics ∧
    ∀ tree directory after, report.writeTo tree directory = (after,none) →
      Metrics.load after directory =
        if report.metrics.isEmpty then .error (.noSizes directory) else .ok report.metrics := by
  refine ⟨Component.key_injective,flattens_metrics h,fun _ hperm => metrics_perm h hperm,
    metrics_dropFailed report,fun tree directory after hwritten => ?_⟩
  have hload := Metrics.load_eq_of_leftIn (leftIn_of_writeTo hwritten)
  rwa [NameMap.ofList_entries] at hload

/-! ## A report of two libraries -/

/-- A library with sections only. -/
def plainLibrary (name : String) (size : Size) (sections : List Section) : LibraryReport where
  name := name
  path := Path.child "lib" name
  size := size
  sections := .ofSections sections
  kernels := none
  dynamicSymbols := .ofSymbols 0 []
  dynamicDemangling := .demangled
  staticSymbols := .ofSymbols 0 []
  staticDemangling := .demangled
  dependencies := []

def coreLibrary : LibraryReport :=
  plainLibrary "core.so" 120 [⟨".text",70,"AX"⟩,⟨".sycl_offload",50,"A"⟩]

/-- One library with device code, one without bytes, and one that failed between them. -/
def twoLibraries : PackageReport where
  libraries := [
    .analyzed coreLibrary,
    .failed "lost.so" "lib/lost.so" "No such file or directory (os error 2)",
    .analyzed (plainLibrary "side.so" 0 [])]
  overlap := {}
  audit := none
  inventory := none

theorem metrics_exact_twoLibraries :
    ∃ after, twoLibraries.writeTo .empty "." = (after,none) ∧
      (twoLibraries.analyzed.map (·.name)).Nodup ∧
      twoLibraries.metrics.get? (Component.library "core.so").key = some 120 ∧
      twoLibraries.metrics.get? (Component.device "core.so").key = some 50 ∧
      twoLibraries.metrics.get? (Component.total "core.so" .code).key = some 70 ∧
      Metrics.load after "." = .ok twoLibraries.metrics := by
  have hnodup : (twoLibraries.analyzed.map (·.name)).Nodup := by decide
  have hnames : ∀ library ∈ twoLibraries.analyzed, IsLibraryName library.name := by
    refine List.forall_mem_cons.mpr ⟨?_,List.forall_mem_singleton.mpr ?_⟩
    · exact ⟨by decide,'o',by decide,by decide⟩
    · exact ⟨by decide,'o',by decide,by decide⟩
  have hhere : Node.empty.LeadsTo "." [] [] := by
    have hpieces : Path.pieces "." = ["."] := by decide
    refine ⟨?_,rfl,List.Pairwise.nil⟩
    simp [Node.locate,hpieces,Node.locateFrom]
  have hmade : Node.empty.makeDirectories "." = .ok .empty := by
    have hsteps : Path.steps "." = [.here] ∧ Path.ofSteps [.here] = "." := by decide
    have hexists : Node.empty.hasDirectory "." = true := by
      rw [Node.hasDirectory,Node.find,hhere.located]
      rfl
    simp only [Node.makeDirectories,hsteps.1,List.length_singleton,List.range_one,List.foldlM_cons,
      List.foldlM_nil,List.take_succ_cons,List.take_zero,hsteps.2,hexists]
    rfl
  obtain ⟨after,hwritten⟩ := exists_writeTo hnames hmade hhere fun _ _ => Node.isWritable_nil _
  obtain ⟨_,hflattens,_,_,hload⟩ := metrics_exact hnodup
  have hcore : coreLibrary ∈ twoLibraries.analyzed := List.mem_cons_self
  refine ⟨after,hwritten,hnodup,?_,?_,?_,?_⟩
  · exact (hflattens.get?_iff ..).mpr (.library hcore (by decide))
  · exact (hflattens.get?_iff ..).mpr (.device hcore (by decide +kernel))
  · exact (hflattens.get?_iff ..).mpr (.total hcore .code)
  · rw [hload _ _ _ hwritten,if_neg (by decide +kernel)]

end PackageReport

end SizeSurvey
