import SizeSurvey.Proofs.Report.Metrics
import SizeSurvey.Proofs.Tree.Writing
import SizeSurvey.Report.Files

/-! # Documents that stay in the output

The documents of a library are called after the name of its file, and a document of the same name is
overwritten. As many documents as libraries stay exactly if all libraries have distinct names.
-/
namespace SizeSurvey

namespace PackageReport

/-- The files of a survey that are not about one library. -/
def ownFiles : List String :=
  ["sections_summary.json","symbols_summary.json","static_symbols_summary.json",
    "runtime_dependencies.json","symbol_overlap.json","libraries.json","auditwheel_report.json",
    "file_inventory.json",Metrics.fileName]

theorem exists_own_documents (report : PackageReport) :
    ∃ own, report.documents = report.analyzed.flatMap LibraryReport.documents ++ own ∧
      ∀ entry ∈ own, entry.1 ∈ ownFiles := by
  refine ⟨_,by simp only [documents,List.append_assoc]; rfl,?_⟩
  cases report.audit <;> cases report.inventory <;> simp [ownFiles]

end PackageReport

/-- The documents that every library has. -/
inductive LibraryDocument where
  | sections
  | dynamicSymbols
  | staticSymbols
deriving DecidableEq

namespace LibraryDocument

def lead : LibraryDocument → String
  | sections => "sections_"
  | dynamicSymbols => "symbols_"
  | staticSymbols => "static_symbols_"

/-- The file of a document of the library with a name. -/
def fileName (document : LibraryDocument) (name : String) : String :=
  document.lead ++ name ++ ".json"

def value (report : LibraryReport) : LibraryDocument → Json
  | sections => report.part report.sections.members
  | dynamicSymbols => report.part report.dynamicSymbols.members
  | staticSymbols => report.part report.staticSymbols.members

def entry (document : LibraryDocument) (report : LibraryReport) : String × Json :=
  (document.fileName report.name,document.value report)

/-- Whether a file is called like this document of some library. -/
def names (document : LibraryDocument) (file : String) : Bool :=
  document.lead.toList.isPrefixOf file.toList && file ≠ document.lead ++ "summary.json"

theorem fileName_injective (document : LibraryDocument) (a b : String)
    (h : document.fileName a = document.fileName b) : a = b := by
  have h := congrArg String.toList h
  simp only [fileName,String.toList_append] at h
  exact String.toList_injective (List.append_cancel_left (List.append_cancel_right h))

theorem isPrefixOf_append_self (lead rest : String) :
    lead.toList.isPrefixOf (lead ++ rest).toList = true := by
  rw [List.isPrefixOf_iff_prefix,String.toList_append]
  exact List.prefix_append ..

/-- A text does not begin with a lead that differs from its own. -/
theorem isPrefixOf_append_of_differ (lead other : String)
    (h : lead.toList.isPrefixOf other.toList = false)
    (h' : other.toList.isPrefixOf lead.toList = false) (rest : String) :
    lead.toList.isPrefixOf (other ++ rest).toList = false := by
  refine Bool.eq_false_iff.mpr fun htrue => ?_
  rw [List.isPrefixOf_iff_prefix,String.toList_append] at htrue
  rcases List.prefix_or_prefix_of_prefix htrue (List.prefix_append ..) with hlead | hother
  · rw [List.isPrefixOf_iff_prefix.mpr hlead] at h
    cases h
  · rw [List.isPrefixOf_iff_prefix.mpr hother] at h'
    cases h'

theorem names_of_not_lead {document : LibraryDocument} {file : String}
    (h : document.lead.toList.isPrefixOf file.toList = false) : document.names file = false := by
  rw [names,h,Bool.false_and]

/-- A document of a library is called like itself only. -/
theorem names_fileName (document other : LibraryDocument) {name : String} (h : name ≠ "summary") :
    document.names (other.fileName name) = decide (document = other) := by
  by_cases hsame : document = other
  · subst hsame
    have hne : document.fileName name ≠ document.lead ++ "summary.json" := fun he =>
      h (document.fileName_injective name "summary" (he.trans (by cases document <;> rfl)))
    have hlead := isPrefixOf_append_self document.lead (name ++ ".json")
    rw [← String.append_assoc] at hlead
    rw [names,decide_eq_true hne,Bool.and_true,decide_eq_true rfl]
    exact hlead
  · have hlead := isPrefixOf_append_of_differ document.lead other.lead
      (by cases document <;> cases other <;> first | decide | exact absurd rfl hsame)
      (by cases document <;> cases other <;> first | decide | exact absurd rfl hsame)
      (name ++ ".json")
    rw [← String.append_assoc] at hlead
    rw [decide_eq_false hsame]
    exact names_of_not_lead hlead

theorem names_kernels (document : LibraryDocument) (name : String) :
    document.names ("device_kernels_" ++ name ++ ".json") = false := by
  have hlead := isPrefixOf_append_of_differ document.lead "device_kernels_"
    (by cases document <;> decide) (by cases document <;> decide) (name ++ ".json")
  rw [← String.append_assoc] at hlead
  exact names_of_not_lead hlead

theorem filter_libraryDocuments (document : LibraryDocument) {report : LibraryReport}
    (h : report.name ≠ "summary") :
    report.documents.filter (fun entry => document.names entry.1) = [document.entry report] := by
  have hnames := fun other => names_fileName document other h
  have hsections : document.names ("sections_" ++ report.name ++ ".json") =
      decide (document = .sections) := hnames .sections
  have hdynamic : document.names ("symbols_" ++ report.name ++ ".json") =
      decide (document = .dynamicSymbols) := hnames .dynamicSymbols
  have hstatic : document.names ("static_symbols_" ++ report.name ++ ".json") =
      decide (document = .staticSymbols) := hnames .staticSymbols
  have hkernels := names_kernels document report.name
  rw [LibraryReport.documents,List.filter_append,List.filter_append]
  split
  · simp only [List.filter_cons,List.filter_nil,hsections,hdynamic,hstatic,hkernels]
    cases document <;> rfl
  · simp only [List.filter_cons,List.filter_nil,hsections,hdynamic,hstatic]
    cases document <;> rfl

/-- The documents of a package that are called like a document of a library are those of its
libraries. -/
theorem filter_documents (document : LibraryDocument) {report : PackageReport}
    (h : ∀ library ∈ report.analyzed, library.name ≠ "summary") :
    report.documents.filter (fun entry => document.names entry.1) =
      report.analyzed.map document.entry := by
  have hlibraries : (report.analyzed.flatMap LibraryReport.documents).filter
      (fun entry => document.names entry.1) = report.analyzed.map document.entry := by
    rw [List.filter_flatMap]
    generalize report.analyzed = libraries at h ⊢
    induction libraries with
    | nil => rfl
    | cons library rest ih =>
      obtain ⟨hlibrary,hrest⟩ := List.forall_mem_cons.mp h
      rw [List.flatMap_cons,filter_libraryDocuments document hlibrary,ih hrest]
      rfl
  have hfixed : ∀ file ∈ PackageReport.ownFiles, document.names file = false := by
    cases document <;> decide
  obtain ⟨own,hdocuments,hown⟩ := report.exists_own_documents
  have hnone : own.filter (fun entry => document.names entry.1) = [] :=
    List.filter_eq_nil_iff.mpr fun entry hentry =>
      Bool.eq_false_iff.mp (hfixed entry.1 (hown entry hentry))
  rw [hdocuments,List.filter_append,hlibraries,hnone,List.append_nil]

end LibraryDocument

/-! ## Names of files -/

theorem isEntryName_json {stem : String} (h : '/' ∉ stem.toList) :
    Node.IsEntryName (stem ++ ".json") := by
  have hne : ∀ text : String, text.toList.getLast? ≠ some 'n' → stem ++ ".json" ≠ text := by
    rintro text htext rfl
    rw [String.toList_append,List.getLast?_append] at htext
    exact htext rfl
  constructor
  case no_slash =>
    rw [String.toList_append]
    intro hmem
    rcases List.mem_append.mp hmem with hmem | hmem
    · exact h hmem
    · revert hmem
      decide
  case ne_empty => exact hne "" (by decide)
  case ne_here => exact hne "." (by decide)
  case ne_up => exact hne ".." (by decide)

theorem isEntryName_append {lead name : String} (hlead : '/' ∉ lead.toList)
    (hname : '/' ∉ name.toList) : Node.IsEntryName (lead ++ name ++ ".json") := by
  refine isEntryName_json ?_
  rw [String.toList_append]
  exact fun hmem => (List.mem_append.mp hmem).elim hlead hname

theorem LibraryReport.isEntryName_documents {report : LibraryReport} (h : '/' ∉ report.name.toList) :
    ∀ entry ∈ report.documents, Node.IsEntryName entry.1 := by
  intro entry hentry
  rw [documents] at hentry
  rcases List.mem_append.mp hentry with hentry | hentry
  · rcases List.mem_append.mp hentry with hentry | hentry
    · rw [List.mem_singleton.mp hentry]
      exact isEntryName_append (by decide) h
    · split at hentry
      · rw [List.mem_singleton.mp hentry]
        exact isEntryName_append (by decide) h
      · cases hentry
  · rcases List.mem_cons.mp hentry with rfl | hentry
    · exact isEntryName_append (by decide) h
    · rw [List.mem_singleton.mp hentry]
      exact isEntryName_append (by decide) h

theorem PackageReport.isEntryName_documents {report : PackageReport}
    (h : ∀ library ∈ report.analyzed, '/' ∉ library.name.toList) :
    ∀ entry ∈ report.documents, Node.IsEntryName entry.1 := by
  have hfixed : ∀ file ∈ ownFiles, Node.IsEntryName file := by decide
  obtain ⟨own,hdocuments,hown⟩ := report.exists_own_documents
  intro entry hentry
  rw [hdocuments] at hentry
  rcases List.mem_append.mp hentry with hentry | hentry
  · obtain ⟨library,hlibrary,hentry⟩ := List.mem_flatMap.mp hentry
    exact LibraryReport.isEntryName_documents (h library hlibrary) entry hentry
  · exact hfixed entry.1 (hown entry hentry)

/-! ## What is there afterwards -/

namespace LibraryDocument

/-- The last document of its name is the library's own if no other library has its name. -/
theorem lookup_documents (document : LibraryDocument) {report : PackageReport}
    (h : ∀ library ∈ report.analyzed, library.name ≠ "summary")
    (hnodup : (report.analyzed.map (·.name)).Nodup) {library : LibraryReport}
    (hlibrary : library ∈ report.analyzed) :
    report.documents.reverse.lookup (document.fileName library.name) =
      some (document.value library) := by
  have hnames : document.names (document.fileName library.name) = true := by
    rw [names_fileName document document (h library hlibrary)]
    exact decide_eq_true rfl
  have hfiles : (((report.analyzed.map document.entry).reverse).map Prod.fst).Nodup := by
    rw [List.map_reverse,List.map_map]
    have hinjective := (nodup_map_of_injective document.fileName_injective).mpr hnodup
    rw [List.map_map] at hinjective
    exact List.pairwise_reverse.mpr (hinjective.imp Ne.symm)
  rw [← NameMap.lookup_filter hnames,List.filter_reverse,filter_documents document h]
  exact NameMap.lookup_of_mem hfiles (List.mem_reverse.mpr (List.mem_map_of_mem hlibrary))

theorem entry_mem_documents (document : LibraryDocument) {report : PackageReport}
    (h : ∀ library ∈ report.analyzed, library.name ≠ "summary") {library : LibraryReport}
    (hlibrary : library ∈ report.analyzed) : document.entry library ∈ report.documents := by
  have hmem : document.entry library ∈
      report.documents.filter fun entry => document.names entry.1 := by
    rw [filter_documents document h]
    exact List.mem_map_of_mem hlibrary
  exact (List.mem_filter.mp hmem).1

theorem exists_lookup_documents (document : LibraryDocument) {report : PackageReport}
    (h : ∀ library ∈ report.analyzed, library.name ≠ "summary") {library : LibraryReport}
    (hlibrary : library ∈ report.analyzed) :
    ∃ value, report.documents.reverse.lookup (document.fileName library.name) = some value := by
  refine Option.isSome_iff_exists.mp (List.lookup_isSome_iff.mpr ⟨document.entry library,?_,?_⟩)
  · exact List.mem_reverse.mpr (document.entry_mem_documents h hlibrary)
  · exact beq_self_eq_true _

/-- The files of a directory that are this document of a library of a report. -/
def filesIn (document : LibraryDocument) (report : PackageReport)
    (entries : List (String × Node)) : List String :=
  (entries.map Prod.fst).filter fun file =>
    report.analyzed.any fun library => document.fileName library.name = file

/-- There are as many files as libraries if and only if the libraries have distinct names. -/
theorem length_filesIn_eq_iff (document : LibraryDocument) {report : PackageReport}
    {entries : List (String × Node)} (hsorted : entries.Pairwise (·.1 < ·.1))
    (hall : ∀ library ∈ report.analyzed, entries.lookup (document.fileName library.name) ≠ none) :
    (document.filesIn report entries).length = report.analyzed.length ↔
      (report.analyzed.map (·.name)).Nodup := by
  have hnodup : (entries.map Prod.fst).Nodup := by
    rw [List.Nodup,List.pairwise_map]
    refine hsorted.imp fun {a b} hlt he => ?_
    rw [he] at hlt
    exact String.lt_irrefl _ hlt
  have hmem : ∀ file, file ∈ document.filesIn report entries ↔
      file ∈ ((report.analyzed.map (·.name)).map document.fileName).eraseDups := by
    intro file
    rw [List.mem_eraseDups,filesIn,List.mem_filter,List.map_map,List.any_eq_true]
    constructor
    · rintro ⟨_,library,hlibrary,hfile⟩
      exact List.mem_map.mpr ⟨library,hlibrary,of_decide_eq_true hfile⟩
    · intro hfile
      obtain ⟨library,hlibrary,rfl⟩ := List.mem_map.mp hfile
      refine ⟨?_,library,hlibrary,decide_eq_true rfl⟩
      obtain ⟨node,hnode⟩ := Option.ne_none_iff_exists'.mp (hall library hlibrary)
      obtain ⟨entry,hentry,hkey⟩ := List.lookup_isSome_iff.mp (Option.isSome_iff_exists.mpr ⟨node,hnode⟩)
      exact List.mem_map.mpr ⟨entry,hentry,(beq_iff_eq.mp hkey).symm⟩
  have hperm := (List.perm_ext_iff_of_nodup (hnodup.filter _) (nodup_eraseDups _)).mpr hmem
  have hlength : report.analyzed.length =
      ((report.analyzed.map (·.name)).map document.fileName).length := by simp
  rw [filesIn,hperm.length_eq,hlength,length_eraseDups_eq_iff]
  exact nodup_map_of_injective document.fileName_injective

end LibraryDocument

namespace IsLibraryName

theorem ne_summary {name : String} (h : IsLibraryName name) : name ≠ "summary" := by
  obtain ⟨c,hlast,hc⟩ := h.ends_like_library
  rintro rfl
  cases hlast
  rcases hc with hc | hc <;> cases hc

end IsLibraryName

/-- **The documents that a report leaves.** As many of each document as libraries stay if and only if
all libraries have distinct names, and then each library has its own. -/
theorem PackageReport.writeTo_leaves {report : PackageReport}
    (hnames : ∀ library ∈ report.analyzed, IsLibraryName library.name) {disk made after : Node}
    {output : String} {place : List String} {entries : List (String × Node)}
    (hmade : disk.makeDirectories output = .ok made)
    (hdirectory : made.LeadsTo output place entries)
    (hlinks : ∀ document ∈ report.documents, ¬Node.IsLink entries document.1)
    (hwritten : report.writeTo disk output = (after,none)) :
    ∃ left, after.LeadsTo output place left ∧ ∀ document : LibraryDocument,
      ((document.filesIn report left).length = report.analyzed.length ↔
        (report.analyzed.map (·.name)).Nodup) ∧
      ((report.analyzed.map (·.name)).Nodup → ∀ library ∈ report.analyzed,
        after.read (Path.child output (document.fileName library.name)) =
          .ok (Text.Utf8.encode (Json.write 0 (document.value library)))) := by
  have hsummary := fun library hlibrary => (hnames library hlibrary).ne_summary
  have hfiles := isEntryName_documents fun library hlibrary => (hnames library hlibrary).no_slash
  rw [writeTo,hmade] at hwritten
  obtain ⟨left,hleft,hlast⟩ := hdirectory.writeAll hfiles hlinks hwritten
  refine ⟨left,hleft,fun document => ⟨?_,?_⟩⟩
  · refine document.length_filesIn_eq_iff hleft.sorted fun library hlibrary hnone => ?_
    obtain ⟨value,hvalue⟩ := document.exists_lookup_documents hsummary hlibrary
    obtain ⟨executable,hfile⟩ := hlast.written _ value hvalue
    rw [hnone] at hfile
    cases hfile
  · intro hnodup library hlibrary
    obtain ⟨executable,hfile⟩ :=
      hlast.written _ _ (document.lookup_documents hsummary hnodup hlibrary)
    have hentry := document.entry_mem_documents hsummary hlibrary
    exact hleft.read_child (hfiles _ hentry) hfile

/-- A report can be written into a directory where only files have the names of its documents. -/
theorem PackageReport.exists_writeTo {report : PackageReport}
    (hnames : ∀ library ∈ report.analyzed, IsLibraryName library.name) {disk made : Node}
    {output : String} {place : List String} {entries : List (String × Node)}
    (hmade : disk.makeDirectories output = .ok made)
    (hdirectory : made.LeadsTo output place entries)
    (hwritable : ∀ document ∈ report.documents, Node.IsWritable entries document.1) :
    ∃ after, report.writeTo disk output = (after,none) := by
  have hfiles := isEntryName_documents fun library hlibrary => (hnames library hlibrary).no_slash
  rw [writeTo,hmade]
  exact hdirectory.exists_writeAll hfiles hwritable

end SizeSurvey
