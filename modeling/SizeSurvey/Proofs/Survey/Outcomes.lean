import SizeSurvey.Survey

/-! # Outcomes of a survey

Whatever the tools answer and however their answers change, a survey of a package has one outcome for
each library that was discovered, in their order, and each report is about the library at its path.
-/
namespace SizeSurvey.Survey
variable {σ α β : Type}

/-! ## What a run ensures -/

/-- Every result of a run has a property, whatever the world is when it starts. -/
def Ensures (run : StateM σ α) (p : α → Prop) : Prop :=
  ∀ world, p (run.run world).1

theorem Ensures.pure {p : α → Prop} {a : α} (h : p a) : Ensures (Pure.pure a : StateM σ α) p :=
  fun _ => h

theorem Ensures.bind {run : StateM σ α} {next : α → StateM σ β} {p : α → Prop} {q : β → Prop}
    (hrun : Ensures run p) (hnext : ∀ a, p a → Ensures (next a) q) : Ensures (run >>= next) q :=
  fun world => hnext _ (hrun world) _

/-- Every result of a run that uses the demangler slot has a property. -/
def EnsuresSlot (run : StateT DemanglerSlot (StateM σ) α) (p : α → Prop) : Prop :=
  ∀ slot, Ensures (run.run slot) fun result => p result.1

theorem EnsuresSlot.pure {p : α → Prop} {a : α} (h : p a) :
    EnsuresSlot (Pure.pure a : StateT DemanglerSlot (StateM σ) α) p :=
  fun _ _ => h

theorem EnsuresSlot.bind {run : StateT DemanglerSlot (StateM σ) α}
    {next : α → StateT DemanglerSlot (StateM σ) β} {p : α → Prop} {q : β → Prop}
    (hrun : EnsuresSlot run p) (hnext : ∀ a, p a → EnsuresSlot (next a) q) :
    EnsuresSlot (run >>= next) q :=
  fun slot world => hnext _ (hrun slot world) _ _

theorem EnsuresSlot.lift {run : StateM σ α} {p : α → Prop} (h : Ensures run p) :
    EnsuresSlot (StateT.lift run) p :=
  fun _ world => h world

theorem Ensures.trivial (run : StateM σ α) : Ensures run fun _ => True := fun _ => True.intro

/-- A run over a list has one result for each element, in their order, which its key tells, and every
result has what each step ensures. -/
theorem EnsuresSlot.mapM {step : α → StateT DemanglerSlot (StateM σ) β} {key : β → α}
    {p : β → Prop} (h : ∀ a, EnsuresSlot (step a) fun b => key b = a ∧ p b) (xs : List α) :
    EnsuresSlot (xs.mapM step) fun results => results.map key = xs ∧ ∀ b ∈ results, p b := by
  induction xs with
  | nil =>
    rw [List.mapM_nil]
    exact .pure ⟨rfl,fun _ hb => absurd hb List.not_mem_nil⟩
  | cons x xs ih =>
    rw [List.mapM_cons]
    refine .bind (h x) fun b hb => .bind ih fun rest hrest => .pure ⟨?_,?_⟩
    · rw [List.map_cons,hb.1,hrest.1]
    · exact List.forall_mem_cons.mpr ⟨hb.2,hrest.2⟩

end SizeSurvey.Survey

namespace SizeSurvey

def LibraryOutcome.path : LibraryOutcome → String
  | analyzed report => report.path
  | failed _ path _ => path

/-- A report that is about the library at its path in a tree. -/
structure LibraryReport.IsAbout (report : LibraryReport) (tree : Node) : Prop where
  name_eq : report.name = Path.fileName report.path
  size_eq : tree.size report.path = .ok report.size

namespace Survey
variable {σ : Type} (tools : Toolchain (StateM σ)) (settings : Settings)

theorem reportOf_ensures (demangle : Demangler (StateM σ)) (path : String) (size : Size)
    (sections : SectionSummary) :
    Ensures (reportOf tools settings demangle path size sections) fun result =>
      ∀ report, result = .ok report →
        report.path = path ∧ report.name = Path.fileName path ∧ report.size = size := by
  unfold reportOf
  refine .bind (Ensures.trivial _) fun kernels _ => .bind (Ensures.trivial _) fun dynamic _ => ?_
  cases dynamic with
  | error fault => exact .pure fun _ h => nomatch h
  | ok dynamic =>
    refine .bind (Ensures.trivial _) fun static _ => ?_
    cases static with
    | error fault => exact .pure fun _ h => nomatch h
    | ok static =>
      refine .bind (Ensures.trivial _) fun dependencies _ => .pure ?_
      rintro report h
      cases h
      exact ⟨rfl,rfl,rfl⟩

variable (tree : Node)

theorem library_ensures (path : String) :
    EnsuresSlot (library tools settings tree path) fun result =>
      ∀ report, result = .ok report → report.path = path ∧ report.IsAbout tree := by
  unfold library
  cases hsize : tree.size path with
  | error trouble => exact .pure fun _ h => nomatch h
  | ok size =>
    refine .bind (.lift (Ensures.trivial _)) fun table _ => ?_
    cases table with
    | error fault => exact .pure fun _ h => nomatch h
    | ok table =>
      refine .bind (p := fun _ => True) (fun _ _ => True.intro) fun demangle _ => .lift ?_
      refine fun world report h => ?_
      obtain ⟨hpath,hname,hreport⟩ := reportOf_ensures tools settings demangle path size
        (SectionSummary.ofSections (Listing.sections table)) world report h
      exact ⟨hpath,by rw [hname,hpath],by rw [hpath,hreport,hsize]⟩

theorem outcome_ensures (path : String) :
    EnsuresSlot (outcome tools settings tree path) fun result =>
      result.path = path ∧ ∀ report, result = .analyzed report → report.IsAbout tree := by
  unfold outcome
  refine .bind (library_ensures tools settings tree path) fun result hresult => ?_
  cases result with
  | ok report =>
    obtain ⟨hpath,habout⟩ := hresult report rfl
    refine .pure ⟨hpath,fun other h => ?_⟩
    cases h
    exact habout
  | error fault => exact .pure ⟨rfl,fun _ h => nomatch h⟩

/-- **A survey that succeeds** has one outcome for each library in the order of discovery. -/
theorem package_ensures (root : String) (archive : Option String) :
    EnsuresSlot (package tools settings tree root archive) fun result =>
      ∀ report, result = .ok report →
        discover tree root = .ok (report.libraries.map LibraryOutcome.path) ∧
          ∀ library ∈ report.analyzed, library.IsAbout tree := by
  unfold package
  cases hdiscover : discover tree root with
  | error fault => exact .pure fun _ h => nomatch h
  | ok libraries =>
    cases hinventory : Inventory.build tree root archive with
    | error fault => exact .pure fun _ h => nomatch h
    | ok inventory =>
      refine .bind (.mapM (outcome_ensures tools settings tree) libraries) fun outcomes houtcomes =>
        .bind (.lift (Ensures.trivial _)) fun audit _ => .pure ?_
      rintro report h
      cases h
      refine ⟨congrArg Except.ok houtcomes.1.symm,fun library hlibrary => ?_⟩
      obtain ⟨found,hfound,hreport⟩ := List.mem_filterMap.mp hlibrary
      cases found with
      | analyzed report =>
        cases hreport
        exact houtcomes.2 _ hfound _ rfl
      | failed _ _ _ => cases hreport

end Survey

end SizeSurvey
