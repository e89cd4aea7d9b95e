import SizeSurvey.Proofs.Survey.Answers
import SizeSurvey.Proofs.Survey.Libraries

/-! # Libraries that do not disturb each other

The libraries of a package share the slot of the demangler and nothing else. With tools that always
answer the same, each gets the outcome that it gets alone: in the order of discovery or in any
other, when they take turns call by call, and whatever becomes of the other libraries.
-/
namespace SizeSurvey

/-- The outcome for a library of which a survey had this result. -/
def LibraryOutcome.ofResult (path : String) : Except Fault LibraryReport → LibraryOutcome
  | .ok report => analyzed report
  | .error fault => failed (Path.fileName path) path fault.message

namespace Inquiry

/-- The inquiry of `Survey.outcome`. -/
def outcome (equipment : Equipment) (settings : Settings) (tree : Node) (path : String) :
    Inquiry LibraryOutcome := do
  return .ofResult path (← library equipment settings tree path)

end Inquiry

namespace Survey
variable {σ : Type} (tools : Toolchain (StateM σ)) (settings : Settings) (tree : Node)

theorem outcome_eq (path : String) :
    outcome tools settings tree path = do
      return LibraryOutcome.ofResult path (← library tools settings tree path) := by
  unfold outcome
  refine congrArg (library tools settings tree path >>= ·) (funext fun result => ?_)
  cases result <;> rfl

theorem perform_outcome (path : String) :
    (Inquiry.outcome tools.toEquipment settings tree path).perform tools =
      outcome tools settings tree path := by
  rw [Inquiry.outcome,Inquiry.perform_bind,Inquiry.perform_library,outcome_eq]
  rfl

theorem about_outcome (path : String) :
    (Inquiry.outcome tools.toEquipment settings tree path).About path :=
  (Inquiry.about_library tools settings tree path).bind fun _ => True.intro

theorem outcome_congr {path : String} {other : Node} (h : tree.size path = other.size path) :
    Inquiry.outcome tools.toEquipment settings tree path =
      Inquiry.outcome tools.toEquipment settings other path := by
  unfold Inquiry.outcome Inquiry.library
  rw [h]

/-- The outcome of a library that is surveyed alone. -/
def alone (slot : DemanglerSlot) (world : σ) (path : String) : LibraryOutcome :=
  .ofResult path (((library tools settings tree path).run slot).run world).1.1

/-- How far the libraries have come that take turns as a schedule has them, call by call. Their turns
are those of `outcome`, by `perform_outcome` and `Inquiry.perform_turn`. -/
def interleaved (paths : List String) (schedule : List Nat) (slot : DemanglerSlot) (world : σ) :
    List (Inquiry LibraryOutcome) :=
  (((Inquiry.takeTurns tools (paths.map (Inquiry.outcome tools.toEquipment settings tree))
    schedule).run slot).run world).1.1

/-! ## Each library by itself -/

/-- The outcome that the answers decide. -/
def entry (answers : Answers) (slot : DemanglerSlot) (path : String) : LibraryOutcome :=
  (Inquiry.outcome tools.toEquipment settings tree path).result answers
    (answers.installed tools.settings.demanglers slot)

/-- Nothing but what concerns a library has a say in its outcome. -/
theorem entry_congr {τ : Type} {others : Toolchain (StateM τ)} {answers other : Answers}
    {path : String} {node : Node} (hequipment : others.toEquipment = tools.toEquipment)
    (hagree : answers.AgreeAt path other) (hsize : tree.size path = node.size path)
    (slot : DemanglerSlot) :
    entry others settings node other slot path = entry tools settings tree answers slot path := by
  rw [entry,entry,hequipment,Answers.installed,Answers.installed,hagree.find,
    ← outcome_congr tools settings tree hsize]
  exact ((about_outcome tools settings tree path).result_congr hagree _).symm

variable {tools} {answers : Answers} (h : tools.Gives answers)
include h

theorem outcome_settles (program : Option String) (path : String) :
    Settles (answers.installed tools.settings.demanglers) program
      (outcome tools settings tree path)
      ((Inquiry.outcome tools.toEquipment settings tree path).result answers program) := by
  rw [← perform_outcome]
  exact Inquiry.perform_settles h program _

theorem alone_eq_entry (slot : DemanglerSlot) (world : σ) (path : String) :
    alone tools settings tree slot world path = entry tools settings tree answers slot path := by
  have hresult := (outcome_settles settings tree h _ path slot rfl world).1
  rw [outcome_eq] at hresult
  exact hresult

theorem interleaved_getElem? (paths : List String) (schedule : List Nat) (slot : DemanglerSlot)
    (world : σ) (i : Nat) :
    (interleaved tools settings tree paths schedule slot world)[i]? =
      paths[i]?.map fun path =>
        (Inquiry.rest answers (answers.installed tools.settings.demanglers slot))^[schedule.count i]
          (Inquiry.outcome tools.toEquipment settings tree path) := by
  have hturns := (Inquiry.takeTurns_settles (answers.installed tools.settings.demanglers slot) h
    (paths.map (Inquiry.outcome tools.toEquipment settings tree)) schedule slot rfl world).1
  rw [interleaved,hturns,Inquiry.getElem?_foldl_restOf,List.getElem?_map,Option.map_map]
  rfl

variable {root : String} {archive : Option String}

theorem exists_package {paths : List String} {inventory : Inventory}
    (hdiscover : discover tree root = .ok paths)
    (hinventory : Inventory.build tree root archive = .ok inventory) (slot : DemanglerSlot)
    (world : σ) :
    ∃ report, (((package tools settings tree root archive).run slot).run world).1.1 = .ok report ∧
      report.libraries = paths.map (entry tools settings tree answers slot) ∧
      report.overlap = .of settings.overlap
        (report.analyzed.map fun library => (library.name,library.dynamicSymbols.sizes)) := by
  have hentries := Settles.mapM (outcome_settles settings tree h _) paths slot rfl world
  unfold package
  rw [hdiscover,hinventory]
  exact ⟨_,rfl,hentries.1,rfl⟩

/-- Every outcome of a report is the one of the library at its path. -/
theorem eq_entry_of_package {slot : DemanglerSlot} {world : σ} {report : PackageReport}
    (hrun : (((package tools settings tree root archive).run slot).run world).1.1 = .ok report) :
    ∀ library ∈ report.libraries,
      library = entry tools settings tree answers slot library.path := by
  have hdiscover := (package_ensures tools settings tree root archive slot world report hrun).1
  cases hinventory : Inventory.build tree root archive with
  | error fault =>
    unfold package at hrun
    rw [hdiscover,hinventory] at hrun
    cases hrun
  | ok inventory =>
    obtain ⟨other,hother,hlibraries,-⟩ :=
      exists_package settings tree h hdiscover hinventory slot world
    cases hrun.symm.trans hother
    rw [List.map_map] at hlibraries
    refine List.map_inj_left.mp ?_
    rw [List.map_id']
    exact hlibraries

omit h in
/-- **Libraries do not disturb each other.** With tools that always answer the same, a survey of a
package has the outcome for each library that the library gets alone. So has every schedule by which
the libraries take turns call by call, whoever fills the slot, and every other survey in which the
tools answer the same about that library. -/
theorem package_isolated (tools : Toolchain (StateM σ)) {answers : Answers}
    (hanswers : tools.Gives answers) (settings : Settings) (tree : Node) (root : String)
    (archive : Option String) {paths : List String} {inventory : Inventory}
    (hdiscover : discover tree root = .ok paths)
    (hinventory : Inventory.build tree root archive = .ok inventory) (slot : DemanglerSlot) :
    ∃ entries : List LibraryOutcome,
      (∀ world, paths.map (alone tools settings tree slot world) = entries) ∧
      (∀ world, ∃ report,
        (((package tools settings tree root archive).run slot).run world).1.1 = .ok report ∧
          report.libraries = entries ∧
          report.overlap = .of settings.overlap
            (report.analyzed.map fun library => (library.name,library.dynamicSymbols.sizes))) ∧
      ∀ i path entry, paths[i]? = some path → entries[i]? = some entry →
        (∃ turns, ∀ schedule world, turns ≤ schedule.count i →
          (interleaved tools settings tree paths schedule slot world)[i]? = some (.done entry)) ∧
        (∀ schedule world other,
          (interleaved tools settings tree paths schedule slot world)[i]? = some (.done other) →
            other = entry) ∧
        ∀ {τ : Type} (others : Toolchain (StateM τ)) (answers' : Answers) (tree' : Node)
          (root' : String) (archive' : Option String) (world : τ) (report : PackageReport),
          others.Gives answers' → others.toEquipment = tools.toEquipment →
          answers.AgreeAt path answers' → tree.size path = tree'.size path →
          (((package others settings tree' root' archive').run slot).run world).1.1 = .ok report →
            ∀ library ∈ report.libraries, library.path = path → library = entry := by
  refine ⟨paths.map (entry tools settings tree answers slot),fun world => ?_,
    exists_package settings tree hanswers hdiscover hinventory slot,?_⟩
  · exact List.map_congr_left fun path _ => alone_eq_entry settings tree hanswers slot world path
  · intro i path found hpath hfound
    rw [List.getElem?_map,hpath] at hfound
    obtain rfl := Option.some.inj hfound
    have hstage := fun schedule world =>
      interleaved_getElem? settings tree hanswers paths schedule slot world i
    simp only [hpath,Option.map_some] at hstage
    refine ⟨?_,fun schedule world other hother => ?_,?_⟩
    · obtain ⟨turns,hturns⟩ := Inquiry.exists_rest_eq_result answers
        (answers.installed tools.settings.demanglers slot)
        (Inquiry.outcome tools.toEquipment settings tree path)
      exact ⟨turns,fun schedule world hcount => by rw [hstage,hturns _ hcount]; rfl⟩
    · -- turns do not change the result of an inquiry, so it is done with no other result
      have hdone := Option.some.inj ((hstage schedule world).symm.trans hother)
      have hresult := Inquiry.result_rest_iterate answers
        (answers.installed tools.settings.demanglers slot)
        (Inquiry.outcome tools.toEquipment settings tree path) (schedule.count i)
      rw [hdone] at hresult
      exact hresult
    · intro τ others answers' tree' root' archive' world report hgives hequipment hagree hsize hrun
        library hlibrary hat
      rw [eq_entry_of_package settings tree' hgives hrun library hlibrary,hat]
      exact entry_congr tools settings tree hequipment hagree hsize slot

end Survey

/-! ## A library that fails -/

namespace Answers

def tools (answers : Answers) : Toolchain (StateM Unit) where
  run program arguments input := pure (answers.run program arguments input)
  find program := pure (answers.find program)
  readSection library name := pure (answers.readSection library name)
  settings := {}
  manglings := {}

theorem gives_tools (answers : Answers) : answers.tools.Gives answers where
  run _ _ _ := .pure rfl
  find _ := .pure rfl
  readSection _ _ := .pure rfl

/-- Answers of tools that have nothing to tell. -/
def silent : Answers where
  run _ _ _ := .ok { success := true, exitCode := some 0, stdout := "", stderr := "" }
  find program := if program = "c++filt" then some "/usr/bin/c++filt" else none
  readSection _ _ := .ok none

/-- The same, but one library cannot be read. -/
def without (path : String) : Answers where
  run program arguments input :=
    if arguments.getLast? = some path then .error (.toolFailed program "no such file")
    else silent.run program arguments input
  find := silent.find
  readSection := silent.readSection

theorem agreeAt_without {path other : String} (h : other ≠ path) :
    silent.AgreeAt other (without path) where
  run program arguments input hlast := by
    have hother : arguments.getLast? ≠ some path := fun hpath => h (hlast path hpath).symm
    exact (if_neg hother).symm
  find := rfl
  readSection _ := rfl

end Answers

namespace Survey
variable {tree : Node} {path other : String} {size : Size}

theorem alone_without (h : tree.size path = .ok size) :
    alone (Answers.without path).tools {} tree {} () path =
      .failed (Path.fileName path) path "Tool 'readelf' failed: no such file" := by
  have htable : (Answers.without path).tools.sectionTable path =
      pure (.error (.toolFailed "readelf" "no such file")) := by
    simp [Toolchain.sectionTable,Toolchain.text,Answers.tools,Answers.without]
  unfold alone library
  rw [h,htable]
  rfl

theorem exists_alone_without (h : tree.size other = .ok size) (hne : other ≠ path) :
    ∃ report, alone (Answers.without path).tools {} tree {} () other = .analyzed report := by
  obtain ⟨report,hreport⟩ :
      ∃ report, alone Answers.silent.tools {} tree {} () other = .analyzed report := by
    unfold alone library
    rw [h]
    exact ⟨_,rfl⟩
  rw [alone_eq_entry {} tree (Answers.gives_tools _)] at hreport
  refine ⟨report,(alone_eq_entry {} tree (Answers.gives_tools _) {} () other).trans ?_⟩
  exact (entry_congr Answers.silent.tools {} tree rfl (Answers.agreeAt_without hne) rfl {}).trans
    hreport

theorem sizes_pairTree :
    (pairTree "_core.so" "_side.so").size "p/a/_core.so" = .ok 3 ∧
      (pairTree "_core.so" "_side.so").size "p/b/_side.so" = .ok 1 := by
  obtain ⟨hleada,hleadb⟩ := leadsTo_pairTree "_core.so" "_side.so"
  have hsizea := hleada.size_child (by decide : Node.IsEntryName "_core.so")
    (by rw [NameMap.lookup_cons_eq_ite,if_pos rfl])
  have hsizeb := hleadb.size_child (by decide : Node.IsEntryName "_side.so")
    (by rw [NameMap.lookup_cons_eq_ite,if_pos rfl])
  have hpaths : Path.child "p/a" "_core.so" = "p/a/_core.so" ∧
      Path.child "p/b" "_side.so" = "p/b/_side.so" := by decide
  rw [hpaths.1] at hsizea
  rw [hpaths.2] at hsizeb
  exact ⟨hsizea,hsizeb⟩

/-- The other library of a package is analyzed, however the two take turns. -/
theorem package_isolated_failure :
    ((Answers.without "p/a/_core.so").tools.Gives (Answers.without "p/a/_core.so") ∧
      discover (pairTree "_core.so" "_side.so") "p" = .ok ["p/a/_core.so","p/b/_side.so"] ∧
      ∃ inventory, Inventory.build (pairTree "_core.so" "_side.so") "p" none = .ok inventory) ∧
    ∃ (report : PackageReport) (side : LibraryReport) (turns : Nat),
      (((package (Answers.without "p/a/_core.so").tools {} (pairTree "_core.so" "_side.so") "p"
        none).run {}).run ()).1.1 = .ok report ∧
      report.libraries = [.failed "_core.so" "p/a/_core.so" "Tool 'readelf' failed: no such file",
        .analyzed side] ∧
      ∀ schedule, turns ≤ schedule.count 1 →
        (interleaved (Answers.without "p/a/_core.so").tools {} (pairTree "_core.so" "_side.so")
          ["p/a/_core.so","p/b/_side.so"] schedule {} ())[1]? = some (.done (.analyzed side)) := by
  have hgives := (Answers.without "p/a/_core.so").gives_tools
  have hdiscover : discover (pairTree "_core.so" "_side.so") "p" =
      .ok ["p/a/_core.so","p/b/_side.so"] := by
    rw [discover,walk_pairTree]
    decide
  obtain ⟨inventory,hinventory⟩ : ∃ inventory,
      Inventory.build (pairTree "_core.so" "_side.so") "p" none = .ok inventory :=
    ⟨_,by rw [Inventory.build,walk_pairTree]; rfl⟩
  obtain ⟨entries,halone,hpackage,hevery⟩ :=
    package_isolated _ hgives {} _ "p" none hdiscover hinventory {}
  obtain ⟨report,hrun,hlibraries,-⟩ := hpackage ()
  obtain ⟨side,hside⟩ := exists_alone_without sizes_pairTree.2
    (by decide : "p/b/_side.so" ≠ "p/a/_core.so")
  have hentries : entries = [.failed "_core.so" "p/a/_core.so"
      "Tool 'readelf' failed: no such file",.analyzed side] := by
    rw [← halone (),List.map_cons,List.map_singleton,hside,alone_without sizes_pairTree.1]
    rfl
  subst hentries
  obtain ⟨⟨turns,hturns⟩,-⟩ := hevery 1 "p/b/_side.so" (.analyzed side) rfl rfl
  exact ⟨⟨hgives,hdiscover,inventory,hinventory⟩,report,side,turns,hrun,hlibraries,
    fun schedule hcount => hturns schedule () hcount⟩

end Survey

end SizeSurvey
