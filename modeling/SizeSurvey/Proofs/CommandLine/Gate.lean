import SizeSurvey.CommandLine.Run
import SizeSurvey.Proofs.CommandLine.Options
import SizeSurvey.Proofs.Gate.Baseline
import SizeSurvey.Proofs.Gate.Verdict

/-! # Comparing with a baseline that was saved

Sizes that are saved as a baseline pass when they are compared with it, for every threshold and every
floor. Nothing is said of any component, and nothing but the baseline is written.
-/
namespace SizeSurvey
open Node
open NameMap (lookup_cons_eq_ite)

theorem Verdict.ofSettings_self (current : Metrics) {growth : String} {threshold : Threshold}
    (h : Threshold.parse growth = .ok threshold) (floor : Size) :
    ofSettings current current ⟨growth,floor⟩ = .ok ⟨true,[],[],[]⟩ := by
  simp only [ofSettings,h,bind,Except.bind,pure,Except.pure,of_self]

namespace Settings
variable {tree after : Node} {path : String} {place : List String}

theorem load_eq_ok_iff {settings : Settings} : load tree path = .ok settings ↔
    tree.readJson path reader = .ok settings ∧ settings.validate = .ok () := by
  simp only [load,bind_eq_ok_iff,pure,Except.pure,Except.ok.injEq]
  constructor
  · rintro ⟨found,hjson,_,hvalid,rfl⟩
    exact ⟨hjson,hvalid⟩
  · rintro ⟨hjson,hvalid⟩
    exact ⟨settings,hjson,(),hvalid,rfl⟩

/-- A configuration that is not asked for or that can be loaded. -/
def CanLoad (tree : Node) (config : Option String) : Prop :=
  ∀ path, config = some path → ∃ settings, load tree path = .ok settings

theorem reader_baseline (baseline : Baseline) : reader {} baseline.toJson = some {} := by
  simp [reader,Json.Reader.record,Json.Fields.ofJson?,Baseline.toJson,Json.Fields.orElse,
    lookup_cons_eq_ite]

theorem validate_usual : validate {} = .ok () := by
  rfl

/-- What could be loaded can be loaded after a baseline was saved, even from the place of the
baseline. -/
theorem CanLoad.of_keeps {baseline : Baseline} (hversion : baseline.formatVersion < UInt32.size)
    (hkeeps : Keeps (· = place) tree after) (hleads : LeadsToFile after path place baseline.octets)
    {config : Option String} (h : CanLoad tree config) : CanLoad after config := by
  intro source hsource
  obtain ⟨settings,hload⟩ := h source hsource
  obtain ⟨hjson,hvalid⟩ := load_eq_ok_iff.mp hload
  obtain ⟨text,hread,hvalue⟩ := readJson_eq_ok_iff.mp hjson
  -- The baseline may have replaced the configuration, which is then read from a baseline.
  by_cases hplace : tree.locate true source = .ok place
  · have hover : LeadsToFile after source place baseline.octets := ⟨hkeeps.locate hplace,hleads.found⟩
    refine ⟨{},load_eq_ok_iff.mpr ⟨readJson_eq_ok_iff.mpr ⟨_,Baseline.readText_of_leadsToFile hover,?_⟩,
      validate_usual⟩⟩
    rw [Json.ofText?_toText (Baseline.isExact_toJson hversion)]
    exact reader_baseline baseline
  · have hstays := hkeeps.readText hread fun other hother heq => hplace (heq ▸ hother)
    exact ⟨settings,load_eq_ok_iff.mpr ⟨readJson_eq_ok_iff.mpr ⟨text,hstays,hvalue⟩,hvalid⟩⟩

end Settings

namespace CommandLine
open Work
variable {before after : Node} {request : GateRequest} {current : Metrics} {path : String}

/-! ## Work that goes on -/

section Work
variable {α β : Type} {work : Work α} {next : α → Work β} {console console' : Console} {value : α}

theorem bind_of_ok (h : work console = (.ok value,console')) :
    (work >>= next) console = next value console' := by
  simp only [bind,ExceptT.bind,ExceptT.mk,StateT.bind,h]
  rfl

theorem tree_bind {next : Node → Work β} : (tree >>= next) console = next console.tree console :=
  rfl

theorem print_bind {line : String} {next : Unit → Work β} :
    (print line >>= next) console =
      next () { console with printed := line :: console.printed } :=
  rfl

theorem orFail_bind {result : Except Fault α} (h : result = .ok value) (context : Option String) :
    (orFail result context >>= next) console = next value console := by
  rw [h]
  rfl

end Work

theorem settings_of_canLoad {config : Option String} (h : Settings.CanLoad before config)
    (printed : List String) :
    ∃ loaded, settings config ⟨before,printed⟩ = (.ok loaded,⟨before,printed⟩) := by
  cases config with
  | none => exact ⟨{},rfl⟩
  | some source =>
    obtain ⟨loaded,hload⟩ := h source rfl
    refine ⟨loaded,?_⟩
    rw [settings,tree_bind,hload]
    rfl

theorem runGate_save (hsaves : request.savesBaseline = true) (hpath : request.baseline = some path)
    (hsettings : Settings.CanLoad before request.config)
    (hcurrent : Metrics.load before request.directory = .ok current)
    (hsaved : Baseline.save before current path = .ok (Baseline.ofSizes current,after)) :
    runGate request { tree := before } =
      (.ok true,⟨after,["Baseline saved to " ++ path,
        "Loaded " ++ Text.decimal current.size ++ " size metrics"]⟩) := by
  obtain ⟨loaded,hloaded⟩ := settings_of_canLoad hsettings []
  rw [runGate,bind_of_ok hloaded,tree_bind,orFail_bind hcurrent,print_bind,if_pos hsaves,hpath]
  rw [saveBaseline,Option.getD_some,tree_bind,orFail_bind hsaved]
  rfl

/-- The verdict on sizes that are compared with themselves is told in one line. -/
theorem runGate_compare (hsaves : request.savesBaseline = false)
    (hpath : request.baseline = some path) (houtput : request.output = none) {growth : String}
    {threshold : Threshold} (hgrowth : request.maxGrowth = some growth)
    (hthreshold : Threshold.parse growth = .ok threshold)
    (hsettings : Settings.CanLoad before request.config)
    (hcurrent : Metrics.load before request.directory = .ok current)
    (hbaseline : Baseline.load before path = .ok current) :
    runGate request { tree := before } =
      (.ok true,⟨before,["Size check PASSED (threshold: " ++ growth ++ ")",
        "Loaded " ++ Text.decimal current.size ++ " size metrics"]⟩) := by
  obtain ⟨loaded,hloaded⟩ := settings_of_canLoad hsettings []
  have hverdict := Verdict.ofSettings_self current hthreshold loaded.gate.reportFloor
  rw [runGate,bind_of_ok hloaded,tree_bind,orFail_bind hcurrent,print_bind,if_neg (by simp [hsaves]),
    hpath,hgrowth]
  simp only [compare,Option.getD_some,tree_bind]
  rw [orFail_bind hbaseline,orFail_bind hverdict,houtput]
  rfl

theorem run_eq {tools : ToolSettings → Toolchain (StateM Node)} {words : List String} {printed : List String} {passed : Bool}
    (hwords : Request.ofWords words = .ok (.gate request))
    (hgate : runGate request { tree := before } = (.ok passed,⟨after,printed⟩)) :
    run tools words before =
      { exitCode := if passed then 0 else 1, output := ofLines printed.reverse, tree := after } := by
  rw [run,hwords]
  simp only [runRequest,ExceptT.run,hgate]

/-! ## Saving and comparing -/

/-- How sizes are saved as a baseline by one run and compared with it by the next one, which leaves
the files as they are. Both runs succeed, and the second one says nothing about any component. -/
structure OpensAfterSave (tools : ToolSettings → Toolchain (StateM Node)) (before after : Node)
    (directory path growth : String) (current : Metrics) (saving comparing : List String) :
    Prop where
  saved : run tools saving before =
    { exitCode := 0
      output := ofLines ["Loaded " ++ Text.decimal current.size ++ " size metrics",
        "Baseline saved to " ++ path]
      tree := after }
  current_loaded : Metrics.load after directory = .ok current
  baseline_loaded : Baseline.load after path = .ok current
  verdict : ∀ floor, Verdict.ofSettings current current ⟨growth,floor⟩ = .ok ⟨true,[],[],[]⟩
  compared : run tools comparing after =
    { exitCode := 0
      output := ofLines ["Loaded " ++ Text.decimal current.size ++ " size metrics",
        "Size check PASSED (threshold: " ++ growth ++ ")"]
      tree := after }

/-- **The gate is open for sizes that were saved.** A directory holds the sizes of some components,
whatever their names are, and a path leads to another place where a file can be written. One run saves
the sizes there as a baseline; any later words that ask for the comparison with it, with any threshold,
find the same sizes in both files and pass. -/
theorem opens_after_save (tools : ToolSettings → Toolchain (StateM Node)) {before : Node} {directory path growth : String}
    {entries : List (String × Size)} {place : List String} {saving rest : List String}
    {request : GateRequest} {config : Option String} {threshold : Threshold}
    (hleft : Metrics.LeftIn before directory entries) (hne : entries ≠ [])
    (hpath : WritesTo before path place)
    (hother : before.locate true (Path.child directory Metrics.fileName) ≠ .ok place)
    (hsaving : Request.ofWords saving =
      .ok (.gate { request with directory, baseline := some path, savesBaseline := true }))
    (hcomparing : Request.ofWords ("gate" :: rest) =
      .ok (.gate { directory, baseline := some path, config }))
    (hsettings : Settings.CanLoad before request.config)
    (hlater : Settings.CanLoad before config) (hgrowth : Threshold.parse growth = .ok threshold) :
    ∃ after, OpensAfterSave tools before after directory path growth (NameMap.ofList entries) saving
      ("gate" :: assignment "max-growth" growth :: rest) := by
  obtain ⟨text,hread,hvalue⟩ := hleft
  obtain ⟨source,octets,hsource,_⟩ := readText_eq_ok_iff.mp hread
  have hroot := isDirectory_of_leadsToFile (by decide) hsource
  obtain ⟨after,hsaved,hkeeps,hbaseline⟩ :=
    Baseline.exists_save hroot hpath (NameMap.ofList entries)
  have hstays := hkeeps.readText hread fun other hlocated heq => hother (heq ▸ hlocated)
  have hcurrent := Metrics.load_of_leftIn ⟨text,hread,hvalue⟩ hne
  have hcurrent' := Metrics.load_of_leftIn ⟨text,hstays,hvalue⟩ hne
  have hversion : (Baseline.ofSizes (NameMap.ofList entries)).formatVersion < UInt32.size :=
    (by decide : Baseline.currentVersion < UInt32.size)
  have hloaded := Baseline.load_of_leadsToFile hversion hbaseline
  have hlater' := hlater.of_keeps hversion hkeeps hbaseline
  refine ⟨after,?_⟩
  constructor
  case saved => exact run_eq hsaving (runGate_save rfl rfl hsettings hcurrent hsaved)
  case current_loaded => exact hcurrent'
  case baseline_loaded => exact hloaded
  case verdict => exact Verdict.ofSettings_self _ hgrowth
  case compared =>
    exact run_eq (ofWords_maxGrowth hcomparing rfl growth)
      (runGate_compare rfl rfl rfl rfl hgrowth hlater' hcurrent' hloaded)

/-- A component whose name has a quote, a backslash, a control character and a letter beyond ASCII. -/
def oddEntries : List (String × Size) := [("\"\\\x01é",5)]

/-- A directory with the sizes of a survey. -/
def surveyed : Node :=
  .directory [("d",.directory [("metrics.json",
    .file (Text.Utf8.encode (Json.write 0 (.object (Metrics.members oddEntries)))) false)])]

theorem leadsToFile_surveyed : LeadsToFile surveyed (Path.child "d" Metrics.fileName)
    ["d","metrics.json"] (Text.Utf8.encode (Json.write 0 (.object (Metrics.members oddEntries)))) := by
  have hpieces : Path.pieces (Path.child "d" Metrics.fileName) = ["d","metrics.json"] := by
    decide +kernel
  have hpath : Path.child "d" Metrics.fileName ≠ "" := by decide +kernel
  refine ⟨?_,false,rfl⟩
  simp [locate,hpath,hpieces,locateFrom,at?,child?,surveyed]

theorem leftIn_surveyed : Metrics.LeftIn surveyed "d" oddEntries :=
  ⟨_,readText_eq_ok_iff.mpr ⟨_,_,leadsToFile_surveyed,Text.Utf8.decodeString?_encode _⟩,
    Json.ofText?_toText (Metrics.areMembersExact_members oddEntries)⟩

theorem writesTo_surveyed : WritesTo surveyed "b/base.json" ["b","base.json"] := by
  have hpieces : Path.pieces "b" = ["b"] ∧ Path.pieces "b/base.json" = ["b","base.json"] := by
    decide +kernel
  have hparent : Path.ofSteps (Path.parentSteps "b/base.json") = "b" ∧
      Path.steps "b" = [.name "b"] ∧ Path.ofSteps [.name "b"] = "b" := by decide +kernel
  have hlocated : ∀ follow, surveyed.locate follow "b" = .ok ["b"] := by
    intro follow
    simp [locate,hpieces,locateFrom,at?,child?,surveyed,NameMap.lookup_cons_eq_ite]
  have hnew : surveyed.hasDirectory "b" = false := by
    rw [hasDirectory,find,hlocated]
    rfl
  have hmake : surveyed.makeDirectory "b" = .ok (surveyed.put ["b"] .empty) := by
    rw [makeDirectory,hlocated]
    rfl
  have hdirectory : (surveyed.put ["b"] .empty).at? ["b"] = some .empty := at?_put_self ..
  have hfree : (surveyed.put ["b"] .empty).at? ["b","base.json"] = none :=
    (at?_concat hdirectory "base.json").trans rfl
  refine ⟨surveyed.put ["b"] .empty,?_,?_,?_⟩
  · simp only [hparent,makeDirectories,List.length_singleton,List.range_one,List.foldlM_cons,
      List.foldlM_nil,List.take_succ_cons,List.take_zero,hnew,hmake]
    rfl
  · rw [empty] at hdirectory hfree ⊢
    simp [locate,hpieces,locateFrom,hdirectory,hfree]
  · simp [hfree]

/-- A toolchain of which nothing is installed. -/
def missingTools (settings : ToolSettings) : Toolchain (StateM Node) where
  settings
  manglings := {}
  run program _ _ := pure (.error (.toolUnavailable program))
  find _ := pure none
  readSection _ _ := pure (.ok none)

/-- The gate is open after sizes with an odd name were saved in a new directory. -/
theorem opens_after_save_surveyed :
    ∃ after,
      (Metrics.LeftIn surveyed "d" oddEntries ∧ oddEntries ≠ [] ∧
        WritesTo surveyed "b/base.json" ["b","base.json"] ∧
        surveyed.locate true (Path.child "d" Metrics.fileName) ≠ .ok ["b","base.json"]) ∧
      OpensAfterSave missingTools surveyed after "d" "b/base.json" "5%" (NameMap.ofList oddEntries)
        ["gate","--analysis-dir=d","--save-baseline","--baseline","b/base.json"]
        ["gate",assignment "max-growth" "5%","--analysis-dir=d","--baseline","b/base.json"] := by
  have hother : surveyed.locate true (Path.child "d" Metrics.fileName) ≠ .ok ["b","base.json"] := by
    rw [leadsToFile_surveyed.located]
    decide
  have hnone : Settings.CanLoad surveyed none := fun _ hpath => nomatch hpath
  obtain ⟨after,hafter⟩ := @opens_after_save missingTools surveyed "d" "b/base.json" "5%"
    oddEntries ["b","base.json"] ["gate","--analysis-dir=d","--save-baseline","--baseline","b/base.json"]
    ["--analysis-dir=d","--baseline","b/base.json"] {} none _ leftIn_surveyed (by decide)
    writesTo_surveyed hother (by decide +kernel) (by decide +kernel) hnone hnone rfl
  exact ⟨after,⟨leftIn_surveyed,by decide,writesTo_surveyed,hother⟩,hafter⟩

end CommandLine

end SizeSurvey
