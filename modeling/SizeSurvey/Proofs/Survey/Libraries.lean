import SizeSurvey.Proofs.Report.Documents
import SizeSurvey.Proofs.Survey.Outcomes
import SizeSurvey.Proofs.Tree.Walk

/-! # What becomes of each library

A library of a package is surveyed at its path, and its component and its documents are called after
its file. Two libraries of one file name at different paths are therefore both surveyed, and the
output has room for one of them.
-/
namespace SizeSurvey.Survey

theorem isLibraryName_of_package (tree : Node) {report : PackageReport} {root : String}
    (hdiscover : discover tree root = .ok (report.libraries.map LibraryOutcome.path))
    (habout : ∀ library ∈ report.analyzed, library.IsAbout tree) :
    ∀ library ∈ report.analyzed, IsLibraryName library.name := by
  intro library hlibrary
  obtain ⟨outcome,houtcome,hreport⟩ := List.mem_filterMap.mp hlibrary
  rw [(habout library hlibrary).name_eq]
  refine isLibraryName_of_discover hdiscover _ ?_
  cases outcome with
  | analyzed found =>
    cases hreport
    exact List.mem_map_of_mem houtcome
  | failed _ _ _ => cases hreport

/-! ## Two libraries -/

/-- Tools that answer every question with nothing. -/
def silentTools : Toolchain (StateM Unit) where
  run _ _ _ := pure (.ok { success := true, exitCode := some 0, stdout := "", stderr := "" })
  find _ := pure none
  readSection _ _ := pure (.ok none)
  settings := { demangler := .builtin }
  manglings := {}

theorem exists_outcome_silentTools {tree : Node} {path : String} {size : Size}
    (h : tree.size path = .ok size) :
    ∃ report, outcome silentTools {} tree path = fun slot => pure (.analyzed report,slot) := by
  unfold outcome library
  rw [h]
  exact ⟨_,rfl⟩

theorem exists_package_silentTools {tree : Node} {root : String} {paths : List String}
    {inventory : Inventory} (hdiscover : discover tree root = .ok paths)
    (hinventory : Inventory.build tree root none = .ok inventory)
    (hsizes : ∀ path ∈ paths, ∃ size, tree.size path = .ok size) :
    ∃ report, (((package silentTools {} tree root none).run {}).run ()).1.1 = .ok report ∧
      report.analyzed.map (·.path) = paths := by
  have houtcomes : ∃ reports : List LibraryReport, paths.mapM (outcome silentTools {} tree) =
      fun slot => pure (reports.map LibraryOutcome.analyzed,slot) := by
    clear hdiscover
    induction paths with
    | nil => exact ⟨[],rfl⟩
    | cons path rest ih =>
      obtain ⟨⟨size,hsize⟩,hrest⟩ := List.forall_mem_cons.mp hsizes
      obtain ⟨report,hreport⟩ := exists_outcome_silentTools hsize
      obtain ⟨reports,hreports⟩ := ih hrest
      exact ⟨report :: reports,by rw [List.mapM_cons,hreport,hreports]; rfl⟩
  obtain ⟨reports,hreports⟩ := houtcomes
  have hrun : ∃ report, (((package silentTools {} tree root none).run {}).run ()).1.1 =
      .ok report ∧ report.libraries = reports.map LibraryOutcome.analyzed := by
    unfold package
    rw [hdiscover,hinventory]
    simp only [hreports]
    exact ⟨_,rfl,rfl⟩
  obtain ⟨report,hok,hlibraries⟩ := hrun
  refine ⟨report,hok,?_⟩
  have hpaths := (package_ensures silentTools {} tree root none {} () report hok).1
  rw [hdiscover,hlibraries,List.map_map] at hpaths
  have hanalyzed : report.analyzed = reports := by
    rw [PackageReport.analyzed,hlibraries,List.filterMap_map]
    exact List.filterMap_some
  rw [hanalyzed,Except.ok.inj hpaths]
  rfl

/-- A package of two parts that ship one library each. -/
def pairTree (first second : String) : Node :=
  .directory [("p",.directory [("a",.directory [(first,.file [1,2,3] false)]),
    ("b",.directory [(second,.file [4] false)])])]

theorem walk_pairTree (first second : String) :
    (pairTree first second).walk "p" =
      .ok [⟨Path.child "p/a" first,["a",first],[1,2,3]⟩,
        ⟨Path.child "p/b" second,["b",second],[4]⟩] := by
  have hpieces : Path.pieces "p" = ["p"] := by decide
  have hfind : (pairTree first second).find "p" false =
      .ok (.directory [("a",.directory [(first,.file [1,2,3] false)]),
        ("b",.directory [(second,.file [4] false)])]) := by
    simp [Node.find,Node.locate,hpieces,Node.locateFrom,Node.at?,Node.child?,pairTree,bind,
      Except.bind]
  have hsort : ∀ {α : Type} (x y : α),
      ([("a",x),("b",y)] : List (String × α)).mergeSort (fun a b => decide (a.1 ≤ b.1)) =
        [("a",x),("b",y)] :=
    fun x y => List.mergeSort_of_pairwise (by simp)
  simp [Node.walk,hfind,bind,Except.bind,Node.files,Node.filesOfEntries,hsort]
  rfl

theorem leadsTo_pairTree (first second : String) :
    (pairTree first second).LeadsTo "p/a" ["p","a"] [(first,.file [1,2,3] false)] ∧
      (pairTree first second).LeadsTo "p/b" ["p","b"] [(second,.file [4] false)] := by
  have hpieces : Path.pieces "p/a" = ["p","a"] ∧ Path.pieces "p/b" = ["p","b"] := by decide
  constructor
  · refine ⟨?_,rfl,List.pairwise_singleton ..⟩
    simp [Node.locate,hpieces,Node.locateFrom,Node.at?,Node.child?,pairTree]
  · refine ⟨?_,rfl,List.pairwise_singleton ..⟩
    simp [Node.locate,hpieces,Node.locateFrom,Node.at?,Node.child?,pairTree,
      NameMap.lookup_cons_eq_ite]

theorem leadsTo_out :
    ∃ made, Node.empty.makeDirectories "out" = .ok made ∧ made.LeadsTo "out" ["out"] [] := by
  have hpieces : Path.pieces "out" = ["out"] := by decide
  have hsteps : Path.steps "out" = [.name "out"] ∧ Path.ofSteps [.name "out"] = "out" := by decide
  have hlocated : ∀ follow, Node.empty.locate follow "out" = .ok ["out"] := by
    intro follow
    simp [Node.locate,hpieces,Node.locateFrom,Node.at?,Node.child?,Node.empty]
  have hnew : Node.empty.hasDirectory "out" = false := by
    rw [Node.hasDirectory,Node.find,hlocated]
    rfl
  have hmake : Node.empty.makeDirectory "out" = .ok (.directory [("out",.empty)]) := by
    rw [Node.makeDirectory,hlocated]
    rfl
  have hmade : Node.empty.makeDirectories "out" = .ok (.directory [("out",.empty)]) := by
    simp only [Node.makeDirectories,hsteps.1,List.length_singleton,List.range_one,List.foldlM_cons,
      List.foldlM_nil,List.take_succ_cons,List.take_zero,hsteps.2,hnew,hmake]
    rfl
  refine ⟨_,hmade,?_,rfl,List.Pairwise.nil⟩
  simp [Node.locate,hpieces,Node.locateFrom,Node.at?,Node.child?,Node.empty]

/-- Both libraries are analyzed, under the names of their files and with their sizes, and the report
can be written. -/
theorem exists_package_pairTree (first second : String) (hfirst : Node.IsEntryName first)
    (hsecond : Node.IsEntryName second) (hfirstso : hasSharedObjectSuffix first = true)
    (hsecondso : hasSharedObjectSuffix second = true) :
    ∃ report made after,
      (((package silentTools {} (pairTree first second) "p" none).run {}).run ()).1.1 = .ok report ∧
      Node.empty.makeDirectories "out" = .ok made ∧ made.LeadsTo "out" ["out"] [] ∧
      report.writeTo .empty "out" = (after,none) ∧
      ∃ one other, report.analyzed = [one,other] ∧
        one.name = Path.fileName (Path.child "p/a" first) ∧ one.size = 3 ∧
        other.name = Path.fileName (Path.child "p/b" second) ∧ other.size = 1 := by
  have hdiscover : discover (pairTree first second) "p" =
      .ok [Path.child "p/a" first,Path.child "p/b" second] := by
    simp [discover,walk_pairTree,hfirstso,hsecondso]
  obtain ⟨inventory,hinventory⟩ : ∃ inventory,
      Inventory.build (pairTree first second) "p" none = .ok inventory :=
    ⟨_,by rw [Inventory.build,walk_pairTree]; rfl⟩
  obtain ⟨hleada,hleadb⟩ := leadsTo_pairTree first second
  have hsizea := hleada.size_child hfirst (by rw [NameMap.lookup_cons_eq_ite,if_pos rfl])
  have hsizeb := hleadb.size_child hsecond (by rw [NameMap.lookup_cons_eq_ite,if_pos rfl])
  obtain ⟨report,hrun,hpaths⟩ := exists_package_silentTools hdiscover hinventory (by
    rw [List.forall_mem_cons,List.forall_mem_singleton]
    exact ⟨⟨_,hsizea⟩,_,hsizeb⟩)
  obtain ⟨hlibraries,habout⟩ :=
    package_ensures silentTools {} (pairTree first second) "p" none {} () report hrun
  obtain ⟨made,hmade,hdirectory⟩ := leadsTo_out
  obtain ⟨after,hwritten⟩ := PackageReport.exists_writeTo
    (isLibraryName_of_package (pairTree first second) hlibraries habout) hmade hdirectory
    fun _ _ => Node.isWritable_nil _
  refine ⟨report,made,after,hrun,hmade,hdirectory,hwritten,?_⟩
  obtain ⟨one,rest,hanalyzed,hpatha,hrest⟩ := List.map_eq_cons_iff.mp hpaths
  obtain ⟨other,tail,rfl,hpathb,htail⟩ := List.map_eq_cons_iff.mp hrest
  rw [List.map_eq_nil_iff.mp htail] at hanalyzed
  rw [hanalyzed] at habout
  have hone := habout one List.mem_cons_self
  have hother := habout other (List.mem_cons_of_mem _ List.mem_cons_self)
  have hnamea := hone.name_eq
  have hnameb := hother.name_eq
  have hbytesa := hone.size_eq
  have hbytesb := hother.size_eq
  rw [hpatha] at hnamea hbytesa
  rw [hpathb] at hnameb hbytesb
  rw [hsizea] at hbytesa
  rw [hsizeb] at hbytesb
  exact ⟨one,other,hanalyzed,hnamea,(Except.ok.inj hbytesa).symm,hnameb,(Except.ok.inj hbytesb).symm⟩

/-! ## The output -/

/-- **What a survey keeps of its libraries.** There is one outcome for each discovered library. Their
bytes add up in the metrics if and only if those with bytes have distinct names, and as many of each
document as libraries stay if and only if all have distinct names; then each library has its own. -/
theorem package_keeps_libraries_iff {σ : Type} (tools : Toolchain (StateM σ)) (settings : Settings)
    (tree : Node) (root : String) (archive : Option String) (slot : DemanglerSlot) (world : σ)
    {report : PackageReport}
    (hrun : (((package tools settings tree root archive).run slot).run world).1.1 = .ok report)
    {disk made after : Node} {output : String} {place : List String}
    {entries : List (String × Node)} (hmade : disk.makeDirectories output = .ok made)
    (hdirectory : made.LeadsTo output place entries)
    (hlinks : ∀ document ∈ report.documents, ¬Node.IsLink entries document.1)
    (hwritten : report.writeTo disk output = (after,none)) :
    discover tree root = .ok (report.libraries.map LibraryOutcome.path) ∧
      (∀ library ∈ report.analyzed, library.IsAbout tree) ∧
      (report.libraryBytes = (report.analyzed.map fun library => library.size.toNat).sum ↔
        (PackageReport.nonEmptyNames report.analyzed).Nodup) ∧
      ∃ left, after.LeadsTo output place left ∧ ∀ document : LibraryDocument,
        ((document.filesIn report left).length = report.analyzed.length ↔
          (report.analyzed.map (·.name)).Nodup) ∧
        ((report.analyzed.map (·.name)).Nodup → ∀ library ∈ report.analyzed,
          after.read (Path.child output (document.fileName library.name)) =
            .ok (Text.Utf8.encode (Json.write 0 (document.value library)))) := by
  obtain ⟨hdiscover,habout⟩ :=
    package_ensures tools settings tree root archive slot world report hrun
  have hnames := isLibraryName_of_package tree hdiscover habout
  exact ⟨hdiscover,habout,report.libraryBytes_eq_iff,
    report.writeTo_leaves hnames hmade hdirectory hlinks hwritten⟩

/-- Two libraries with different file names keep their bytes and their documents. -/
theorem package_keeps_two_libraries :
    ∃ (report : PackageReport) (made after : Node) (left : List (String × Node)),
      ((((package silentTools {} (pairTree "_core.so" "_side.so") "p" none).run {}).run ()).1.1 =
          .ok report ∧
        Node.empty.makeDirectories "out" = .ok made ∧ made.LeadsTo "out" ["out"] [] ∧
        (∀ document ∈ report.documents, ¬Node.IsLink [] document.1) ∧
        report.writeTo .empty "out" = (after,none)) ∧
      report.libraryBytes = (report.analyzed.map fun library => library.size.toNat).sum ∧
      ∀ document : LibraryDocument, (document.filesIn report left).length = 2 ∧
        ∀ library ∈ report.analyzed, after.read (Path.child "out" (document.fileName library.name)) =
          .ok (Text.Utf8.encode (Json.write 0 (document.value library))) := by
  obtain ⟨report,made,after,hrun,hmade,hdirectory,hwritten,one,other,hanalyzed,hname,hsize,hname',hsize'⟩ :=
    exists_package_pairTree "_core.so" "_side.so" (by decide) (by decide) (by decide) (by decide)
  have hlinks : ∀ document ∈ report.documents, ¬Node.IsLink [] document.1 :=
    fun _ _ => (Node.isWritable_nil _).not_isLink
  have hdiffer : one.name ≠ other.name := by
    rw [hname,hname']
    decide
  have hnodup : (report.analyzed.map (·.name)).Nodup := by
    rw [hanalyzed]
    simp [hdiffer]
  obtain ⟨_,_,hbytes,left,_,hdocuments⟩ := package_keeps_libraries_iff silentTools {}
    (pairTree "_core.so" "_side.so") "p" none {} () hrun hmade hdirectory hlinks hwritten
  refine ⟨report,made,after,left,⟨hrun,hmade,hdirectory,hlinks,hwritten⟩,hbytes.mpr ?_,fun document => ⟨?_,?_⟩⟩
  · rw [hanalyzed]
    simp [PackageReport.nonEmptyNames,hsize,hsize',hdiffer]
  · rw [(hdocuments document).1.mpr hnodup,hanalyzed]
    rfl
  · exact (hdocuments document).2 hnodup

/-- Of two libraries with one file name the output keeps one. -/
theorem package_drops_library :
    ∃ (report : PackageReport) (made after : Node) (left : List (String × Node)),
      ((((package silentTools {} (pairTree "_core.so" "_core.so") "p" none).run {}).run ()).1.1 =
          .ok report ∧
        Node.empty.makeDirectories "out" = .ok made ∧
        report.writeTo .empty "out" = (after,none) ∧ after.LeadsTo "out" ["out"] left) ∧
      report.analyzed.length = 2 ∧
      report.libraryBytes ≠ (report.analyzed.map fun library => library.size.toNat).sum ∧
      ∀ document : LibraryDocument, (document.filesIn report left).length ≠ 2 := by
  obtain ⟨report,made,after,hrun,hmade,hdirectory,hwritten,one,other,hanalyzed,hname,hsize,hname',hsize'⟩ :=
    exists_package_pairTree "_core.so" "_core.so" (by decide) (by decide) (by decide) (by decide)
  have hsame : one.name = other.name := hname.trans ((by decide : _ = _).trans hname'.symm)
  obtain ⟨hlibraries,habout⟩ := package_ensures silentTools {} _ "p" none {} () report hrun
  obtain ⟨left,hleft,hdocuments⟩ := report.writeTo_leaves
    (isLibraryName_of_package _ hlibraries habout) hmade hdirectory
    (fun _ _ => (Node.isWritable_nil _).not_isLink) hwritten
  refine ⟨report,made,after,left,⟨hrun,hmade,hwritten,hleft⟩,by rw [hanalyzed]; rfl,?_,?_⟩
  · rw [Ne,report.libraryBytes_eq_iff,hanalyzed]
    simp [PackageReport.nonEmptyNames,hsize,hsize',hsame]
  · intro document hlength
    have hnodup := (hdocuments document).1.mp (by rw [hlength,hanalyzed]; rfl)
    rw [hanalyzed] at hnodup
    simp [hsame] at hnodup

end SizeSurvey.Survey
