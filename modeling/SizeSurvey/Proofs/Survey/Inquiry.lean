import SizeSurvey.Survey

/-! # Inquiries

A survey of a library asks the tools one call at a time and decides by each answer what it asks
next. Taken as such an inquiry, it can be halted between any two calls, and what it may ask can be
told.
-/
namespace SizeSurvey
variable {α β : Type}

/-- What remains to be asked before there is a result. -/
inductive Inquiry (α : Type) where
  | done (result : α)
  | run (program : String) (arguments : List String) (input : Option String)
    (next : Except Fault ToolOutput → Inquiry α)
  | find (program : String) (next : Option String → Inquiry α)
  | readSection (library name : String)
    (next : Except Fault (Option (List UInt8)) → Inquiry α)
  /-- Asks the slot which demangler is installed. -/
  | demangler (next : Option String → Inquiry α)

namespace Inquiry

def bind (next : α → Inquiry β) : Inquiry α → Inquiry β
  | done result => next result
  | run program arguments input rest =>
    run program arguments input fun answer => (rest answer).bind next
  | find program rest => find program fun answer => (rest answer).bind next
  | readSection library name rest => readSection library name fun answer => (rest answer).bind next
  | demangler rest => demangler fun program => (rest program).bind next

instance : Monad Inquiry where
  pure := done
  bind inquiry next := inquiry.bind next

theorem bind_eq (inquiry : Inquiry α) (next : α → Inquiry β) :
    inquiry >>= next = inquiry.bind next := rfl

/-- The tools that only note down what they are asked. -/
def tools (equipment : Equipment) : Toolchain Inquiry where
  toEquipment := equipment
  run program arguments input := run program arguments input done
  find program := find program done
  readSection library name := readSection library name done

/-! ## Putting an inquiry to the tools -/

section Perform
variable {m : Type → Type} [Monad m] (tools : Toolchain m)

/-- The installed demangler, as the slot tells it. -/
def installed : StateT DemanglerSlot m (Option String) :=
  fun slot => slot.resolve tools.find tools.settings.demanglers

def perform : Inquiry α → StateT DemanglerSlot m α
  | done result => pure result
  | run program arguments input next => do
    (next (← StateT.lift (tools.run program arguments input))).perform
  | find program next => do (next (← StateT.lift (tools.find program))).perform
  | readSection library name next => do
    (next (← StateT.lift (tools.readSection library name))).perform
  | demangler next => do (next (← installed tools)).perform

/-- The next call. -/
def turn : Inquiry α → StateT DemanglerSlot m (Inquiry α)
  | done result => pure (done result)
  | run program arguments input next => do
    return next (← StateT.lift (tools.run program arguments input))
  | find program next => do return next (← StateT.lift (tools.find program))
  | readSection library name next => do
    return next (← StateT.lift (tools.readSection library name))
  | demangler next => do return next (← installed tools)

variable [LawfulMonad m]

theorem perform_bind (inquiry : Inquiry α) (next : α → Inquiry β) :
    (inquiry >>= next).perform tools =
      inquiry.perform tools >>= fun result => (next result).perform tools := by
  rw [bind_eq]
  induction inquiry with
  | done result => simp [bind,perform]
  | run program arguments input rest ih => simp [bind,perform,ih]
  | find program rest ih => simp [bind,perform,ih]
  | readSection library name rest ih => simp [bind,perform,ih]
  | demangler rest ih => simp [bind,perform,ih]

/-- To perform an inquiry is to take its turns until it is done. -/
theorem perform_turn (inquiry : Inquiry α) :
    inquiry.turn tools >>= (fun rest => rest.perform tools) = inquiry.perform tools := by
  cases inquiry <;> simp [turn,perform]

end Perform

/-! ## What an inquiry is about -/

/-- No library but the one at a path is asked about. -/
def About (path : String) : Inquiry α → Prop
  | done _ => True
  | run _ arguments _ next =>
    (∀ last ∈ arguments.getLast?, last = path) ∧ ∀ answer, (next answer).About path
  | find _ next => ∀ answer, (next answer).About path
  | readSection library _ next => library = path ∧ ∀ answer, (next answer).About path
  | demangler next => ∀ program, (next program).About path

theorem About.bind {path : String} {inquiry : Inquiry α} {next : α → Inquiry β}
    (h : inquiry.About path) (hnext : ∀ result, (next result).About path) :
    (inquiry >>= next).About path := by
  rw [bind_eq]
  induction inquiry with
  | done result => exact hnext result
  | run program arguments input rest ih => exact ⟨h.1,fun answer => ih answer (h.2 answer)⟩
  | find program rest ih => exact fun answer => ih answer (h answer)
  | readSection library name rest ih => exact ⟨h.1,fun answer => ih answer (h.2 answer)⟩
  | demangler rest ih => exact fun program => ih program (h program)

/-! ## Surveys as inquiries -/

section Follows
variable {m : Type → Type} [Monad m] (tools : Toolchain m) (path : String)

/-- An inquiry that asks for what a run does, and only about one library. -/
structure Follows (inquiry : Inquiry α) (run : m α) : Prop where
  about : inquiry.About path
  perform_eq : inquiry.perform tools = StateT.lift run

variable {tools path} [LawfulMonad m] {inquiry : Inquiry α} {run : m α}

theorem lift_pure (result : α) :
    (StateT.lift (Pure.pure result) : StateT DemanglerSlot m α) = Pure.pure result :=
  StateT.ext fun slot => by simp

theorem lift_bind (run : m α) (next : α → m β) :
    (StateT.lift (run >>= next) : StateT DemanglerSlot m β) =
      StateT.lift run >>= fun result => StateT.lift (next result) :=
  StateT.ext fun slot => by simp

theorem Follows.pure (result : α) :
    Follows tools path (Pure.pure result : Inquiry α) (Pure.pure result : m α) :=
  ⟨True.intro,(lift_pure result).symm⟩

theorem Follows.bind {next : α → Inquiry β} {other : α → m β} (h : Follows tools path inquiry run)
    (hnext : ∀ result, Follows tools path (next result) (other result)) :
    Follows tools path (inquiry >>= next) (run >>= other) := by
  refine ⟨h.about.bind fun result => (hnext result).about,?_⟩
  rw [perform_bind,h.perform_eq,lift_bind]
  congr 1
  funext result
  exact (hnext result).perform_eq

theorem follows_run (program : String) {arguments : List String} (input : Option String)
    (h : ∀ last ∈ arguments.getLast?, last = path) :
    Follows tools path ((Inquiry.tools tools.toEquipment).run program arguments input)
      (tools.run program arguments input) :=
  ⟨⟨h,fun _ => True.intro⟩,bind_pure _⟩

theorem follows_readSection (name : String) :
    Follows tools path ((Inquiry.tools tools.toEquipment).readSection path name)
      (tools.readSection path name) :=
  ⟨⟨rfl,fun _ => True.intro⟩,bind_pure _⟩

theorem follows_text (program : String) {arguments : List String}
    (h : ∀ last ∈ arguments.getLast?, last = path) :
    Follows tools path ((Inquiry.tools tools.toEquipment).text program arguments)
      (tools.text program arguments) := by
  unfold Toolchain.text
  refine .bind (follows_run program none h) fun answer => ?_
  cases answer with
  | ok output => exact .pure _
  | error fault => exact .pure _

theorem follows_sectionTable :
    Follows tools path ((Inquiry.tools tools.toEquipment).sectionTable path)
      (tools.sectionTable path) :=
  follows_text _ (by simp)

theorem follows_symbolTable (table : SymbolTable) (demangled : Bool) :
    Follows tools path ((Inquiry.tools tools.toEquipment).symbolTable path table demangled)
      (tools.symbolTable path table demangled) := by
  refine follows_text _ fun last hlast => ?_
  rw [Toolchain.symbolArguments,List.getLast?_concat] at hlast
  exact (Option.mem_some.mp hlast).symm

theorem follows_dependencies :
    Follows tools path (Survey.dependencies (Inquiry.tools tools.toEquipment) path)
      (Survey.dependencies tools path) := by
  unfold Survey.dependencies
  refine .bind (follows_text _ (by simp)) fun answer => ?_
  cases answer with
  | ok text => exact .pure _
  | error fault => exact .pure _

/-! ## Demanglers -/

variable {demangle : Demangler Inquiry} {demangler : Demangler m}

theorem follows_builtin (names : List String) :
    Follows tools path (Demangler.builtin tools.manglings names)
      (Demangler.builtin tools.manglings names) :=
  .pure _

theorem follows_external (program : Option String) (names : List String) :
    Follows tools path (Demangler.external (Inquiry.tools tools.toEquipment).run program names)
      (Demangler.external tools.run program names) := by
  unfold Demangler.external
  split
  · exact .pure _
  · cases program with
    | none => exact .pure _
    | some program => exact .bind (follows_run program _ (by simp)) fun answer => .pure _

variable (hdemangle : ∀ names, Follows tools path (demangle names) (demangler names))
include hdemangle

theorem follows_resolve (rows : List Listing.SymbolRow)
    (demangled : Option (List Listing.SymbolRow)) :
    Follows tools path (ResolvedSymbols.resolve demangle rows demangled)
      (ResolvedSymbols.resolve demangler rows demangled) := by
  unfold ResolvedSymbols.resolve
  cases ResolvedSymbols.listedNames? rows demangled with
  | some names => exact .pure _
  | none => exact .bind (hdemangle _) fun batch => .pure _

theorem follows_symbols (table : SymbolTable) :
    Follows tools path (Survey.symbols (Inquiry.tools tools.toEquipment) demangle path table)
      (Survey.symbols tools demangler path table) := by
  unfold Survey.symbols
  refine .bind (follows_symbolTable table false) fun answer => ?_
  cases answer with
  | error fault => exact .pure _
  | ok mangled =>
    exact .bind (follows_symbolTable table true) fun listed =>
      .bind (follows_resolve hdemangle _ _) fun resolved => .pure _

theorem follows_decode (settings : KernelSettings) (image symbols : List UInt8) :
    Follows tools path (KernelSummary.decode demangle settings image symbols)
      (KernelSummary.decode demangler settings image symbols) := by
  unfold KernelSummary.decode
  dsimp only
  split
  · exact .pure _
  · split
    · exact .pure _
    · exact .bind (hdemangle _) fun batch => .pure _

theorem follows_ofSections (settings : KernelSettings)
    (image symbols : Except Fault (Option (List UInt8))) :
    Follows tools path (KernelOutcome.ofSections demangle settings image symbols)
      (KernelOutcome.ofSections demangler settings image symbols) := by
  unfold KernelOutcome.ofSections
  split
  · exact .pure _
  · exact .pure _
  · refine .bind (follows_decode hdemangle settings _ _) fun decoded => ?_
    split <;> exact .pure _
  · exact .pure _

theorem follows_kernels (settings : KernelSettings) (sections : SectionSummary) :
    Follows tools path
      (Survey.kernels (Inquiry.tools tools.toEquipment) demangle settings path sections)
      (Survey.kernels tools demangler settings path sections) := by
  unfold Survey.kernels
  split
  · exact .bind (follows_readSection _) fun image => .bind (follows_readSection _) fun names =>
      .bind (follows_ofSections hdemangle settings image names) fun kernels => .pure _
  · exact .pure _

theorem follows_reportOf (settings : Settings) (size : Size) (sections : SectionSummary) :
    Follows tools path
      (Survey.reportOf (Inquiry.tools tools.toEquipment) settings demangle path size sections)
      (Survey.reportOf tools settings demangler path size sections) := by
  unfold Survey.reportOf
  refine .bind (follows_kernels hdemangle _ _) fun kernels =>
    .bind (follows_symbols hdemangle .dynamic) fun dynamic => ?_
  cases dynamic with
  | error fault => exact .pure _
  | ok dynamic =>
    refine .bind (follows_symbols hdemangle .static) fun static => ?_
    cases static with
    | error fault => exact .pure _
    | ok static => exact .bind follows_dependencies fun dependencies => .pure _

end Follows

/-! ## The survey of a library -/

/-- The demangler that the settings ask for. -/
def demanglerOf (equipment : Equipment) : Inquiry (Demangler Inquiry) :=
  match equipment.settings.demangler with
  | .builtin => return Demangler.builtin equipment.manglings
  | .external =>
    demangler fun program => done (Demangler.external (Inquiry.tools equipment).run program)

/-- The inquiry of `Survey.library`. -/
def library (equipment : Equipment) (settings : Settings) (tree : Node) (path : String) :
    Inquiry (Except Fault LibraryReport) :=
  match tree.size path with
  | .error trouble => return .error trouble.fault
  | .ok size => do
    match ← (Inquiry.tools equipment).sectionTable path with
    | .error fault => return .error fault
    | .ok table =>
      let demangle ← demanglerOf equipment
      Survey.reportOf (Inquiry.tools equipment) settings demangle path size <|
        SectionSummary.ofSections (Listing.sections table)

section Library
variable {m : Type → Type} [Monad m] [LawfulMonad m] (tools : Toolchain m) (settings : Settings)
  (tree : Node) (path : String)

theorem about_library : (library tools.toEquipment settings tree path).About path := by
  unfold library
  cases tree.size path with
  | error trouble => exact True.intro
  | ok size =>
    refine (follows_sectionTable : Follows tools path _ _).about.bind fun table => ?_
    cases table with
    | error fault => exact True.intro
    | ok table =>
      dsimp only [demanglerOf]
      generalize SectionSummary.ofSections (Listing.sections table) = sections
      cases tools.settings.demangler with
      | builtin =>
        have hreport : Follows tools path _ _ :=
          follows_reportOf follows_builtin settings size sections
        exact hreport.about
      | external =>
        intro program
        have hreport : Follows tools path _ _ :=
          follows_reportOf (follows_external program) settings size sections
        exact hreport.about

omit [LawfulMonad m] in
theorem demangler_eq : tools.demangler =
    match tools.settings.demangler with
    | .builtin => pure (Demangler.builtin tools.manglings)
    | .external => do return Demangler.external tools.run (← installed tools) := by
  unfold Toolchain.demangler
  cases tools.settings.demangler <;> rfl

/-- A survey of a library is its inquiry, put to the tools. -/
theorem perform_library :
    (library tools.toEquipment settings tree path).perform tools =
      Survey.library tools settings tree path := by
  unfold library Survey.library
  cases tree.size path with
  | error trouble => rfl
  | ok size =>
    dsimp only
    rw [perform_bind,follows_sectionTable.perform_eq]
    refine congrArg (StateT.lift (tools.sectionTable path) >>= ·) (funext fun table => ?_)
    cases table with
    | error fault => rfl
    | ok table =>
      -- both look the demangler up here, and with it one report follows the other
      rw [demangler_eq]
      dsimp only [demanglerOf]
      cases tools.settings.demangler with
      | builtin =>
        refine Eq.trans ?_ (pure_bind _ _).symm
        exact (follows_reportOf follows_builtin settings _ _).perform_eq
      | external =>
        rw [bind_assoc]
        refine congrArg (installed tools >>= ·) (funext fun program => ?_)
        rw [pure_bind]
        exact (follows_reportOf (follows_external program) settings _ _).perform_eq

end Library

end Inquiry

end SizeSurvey
