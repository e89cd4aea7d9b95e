import SizeSurvey.Tool.Slot

/-! # What a slot remembers

A slot is resolved and reset any number of times, while programs come and go between the steps. The
first answer after the start or after a reset stays until the next reset, and only the resolve that
gave it looks for programs.
-/
namespace SizeSurvey.DemanglerSlot

/-- A step on a slot. What is installed at the time of a resolve is part of the step. -/
inductive Step where
  | resolve (installed : String → Option String) (candidates : List String)
  | reset

/-- A look-up that is taken down. -/
def probe (installed : String → Option String) (name : String) :
    StateM (List String) (Option String) :=
  fun probes => (installed name,probes ++ [name])

structure Sight where
  answer : Option String
  probes : List String
deriving DecidableEq

/-- What is seen of a resolve, and the slot after it. -/
def watch (slot : DemanglerSlot) (installed : String → Option String)
    (candidates : List String) : Sight × DemanglerSlot :=
  let ((answer,next),probes) := (slot.resolve (probe installed) candidates).run []
  (⟨answer,probes⟩,next)

def next (slot : DemanglerSlot) : Step → DemanglerSlot
  | .resolve installed candidates => (slot.watch installed candidates).2
  | .reset => slot.reset

/-- A fresh slot after some steps. -/
def run (steps : List Step) : DemanglerSlot :=
  steps.foldl next {}

/-! ## Looking for programs -/

/-- The candidates are looked up in their order, up to and including the first that is installed. -/
inductive LooksUp (installed : String → Option String) :
    List String → List String → Option String → Prop
  | found {missing rest : List String} {candidate path : String}
      (hmissing : ∀ name ∈ missing, installed name = none)
      (hfound : installed candidate = some path) :
    LooksUp installed (missing ++ candidate :: rest) (missing ++ [candidate]) (some path)
  | absent {candidates : List String} (h : ∀ name ∈ candidates, installed name = none) :
    LooksUp installed candidates candidates none

theorem LooksUp.cons {installed : String → Option String} {name : String}
    {candidates probes : List String} {answer : Option String} (hname : installed name = none)
    (h : LooksUp installed candidates probes answer) :
    LooksUp installed (name :: candidates) (name :: probes) answer := by
  cases h with
  | found hmissing hfound => exact .found (List.forall_mem_cons.mpr ⟨hname,hmissing⟩) hfound
  | absent h => exact .absent (List.forall_mem_cons.mpr ⟨hname,h⟩)

theorem exists_firstFound (installed : String → Option String) (candidates before : List String) :
    ∃ probes answer, (firstFound (probe installed) candidates).run before =
        (answer,before ++ probes) ∧ LooksUp installed candidates probes answer := by
  induction candidates generalizing before with
  | nil => exact ⟨[],none,by rw [List.append_nil]; rfl,.absent nofun⟩
  | cons name rest ih =>
    have hfirst : (firstFound (probe installed) (name :: rest)).run before =
        (installed name).elim ((firstFound (probe installed) rest).run (before ++ [name]))
          fun path => (some path,before ++ [name]) := by
      rw [firstFound,StateT.run_bind]
      unfold probe
      cases installed name <;> rfl
    cases hname : installed name with
    | some path =>
      rw [hname,Option.elim_some] at hfirst
      exact ⟨[name],some path,hfirst,@LooksUp.found installed [] rest name path nofun hname⟩
    | none =>
      obtain ⟨probes,answer,hrest,hlooks⟩ := ih (before ++ [name])
      rw [hname,Option.elim_none] at hfirst
      refine ⟨name :: probes,answer,?_,hlooks.cons hname⟩
      rw [hfirst,hrest,List.append_assoc,List.singleton_append]

/-! ## One step -/

variable {slot : DemanglerSlot} {installed : String → Option String} {candidates : List String}

theorem watch_of_empty (h : slot.answer = none) :
    ∃ probes answer, slot.watch installed candidates = (⟨answer,probes⟩,⟨some answer⟩) ∧
      LooksUp installed candidates probes answer := by
  obtain ⟨probes,answer,hfirst,hlooks⟩ := exists_firstFound installed candidates []
  refine ⟨probes,answer,?_,hlooks⟩
  rw [watch,resolve,h]
  simp only [StateT.run_bind,hfirst]
  rfl

theorem watch_of_answer {answer : Option String} (h : slot.answer = some answer) :
    slot.watch installed candidates = (⟨answer,[]⟩,slot) := by
  rw [watch,resolve,h]
  rfl

/-! ## A run of steps -/

/-- Some step was a resolve, and none after it was a reset. -/
def IsHeld (steps : List Step) : Prop :=
  ∃ front installed candidates between,
    steps = front ++ .resolve installed candidates :: between ∧ Step.reset ∉ between

theorem run_append (before steps : List Step) : run (before ++ steps) = steps.foldl next (run before) :=
  List.foldl_append

theorem answer_next_resolve (slot : DemanglerSlot) (installed : String → Option String)
    (candidates : List String) :
    (slot.next (.resolve installed candidates)).answer =
      some (slot.watch installed candidates).1.answer := by
  cases h : slot.answer with
  | none =>
    obtain ⟨probes,answer,hwatch,-⟩ := @watch_of_empty _ installed candidates h
    rw [next,hwatch]
  | some answer => rw [next,watch_of_answer h,h]

theorem answer_foldl_next {answer : Option String} (h : slot.answer = some answer)
    {steps : List Step} (hreset : Step.reset ∉ steps) :
    (steps.foldl next slot).answer = some answer := by
  induction steps generalizing slot with
  | nil => exact h
  | cons step rest ih =>
    cases step with
    | reset => exact absurd List.mem_cons_self hreset
    | resolve installed candidates =>
      refine ih ?_ fun hrest => hreset (List.mem_cons_of_mem _ hrest)
      rw [next,watch_of_answer h]
      exact h

theorem answer_run_of_held {front between : List Step} (hreset : Step.reset ∉ between) :
    (run (front ++ .resolve installed candidates :: between)).answer =
      some ((run front).watch installed candidates).1.answer := by
  rw [run_append,List.foldl_cons]
  exact answer_foldl_next (answer_next_resolve ..) hreset

theorem answer_run_of_not_held {steps : List Step} (h : ¬IsHeld steps) : (run steps).answer = none := by
  rcases List.eq_nil_or_concat steps with rfl | ⟨front,step,rfl⟩
  · rfl
  · rw [List.concat_eq_append] at h ⊢
    rw [run_append]
    cases step with
    | reset => rfl
    | resolve installed candidates =>
      exact absurd ⟨front,installed,candidates,[],rfl,List.not_mem_nil⟩ h

/-- What a slot makes of the steps that it went through. -/
structure Remembers (steps : List Step) : Prop where
  isResolved_iff : (run steps).isResolved = true ↔ IsHeld steps
  /-- The first resolve since the start or since a reset looks for its candidates. -/
  first : ¬IsHeld steps → ∀ installed candidates,
    let sight := ((run steps).watch installed candidates).1
    LooksUp installed candidates sight.probes sight.answer
  /-- A later one has the answer of every resolve before it since then, and looks for nothing. -/
  later : ∀ front installed candidates between,
    steps = front ++ .resolve installed candidates :: between → Step.reset ∉ between →
    ∀ installed' candidates', ((run steps).watch installed' candidates').1 =
      ⟨((run front).watch installed candidates).1.answer,[]⟩

/-- **A slot remembers the first answer until it is reset,** whatever is asked for and whatever is
installed later. -/
theorem run_remembers (steps : List Step) : Remembers steps := by
  constructor
  case isResolved_iff =>
    constructor
    · intro hresolved
      refine Classical.byContradiction fun hheld => ?_
      rw [isResolved,answer_run_of_not_held hheld] at hresolved
      cases hresolved
    · rintro ⟨front,installed,candidates,between,rfl,hreset⟩
      rw [isResolved,answer_run_of_held hreset]
      rfl
  case first =>
    intro hheld installed candidates
    obtain ⟨probes,answer,hwatch,hlooks⟩ :=
      @watch_of_empty _ installed candidates (answer_run_of_not_held hheld)
    rw [hwatch]
    exact hlooks
  case later =>
    rintro front installed candidates between rfl hreset installed' candidates'
    rw [watch_of_answer (answer_run_of_held hreset)]

/-- That nothing is installed is remembered as well. -/
example : ((run [.resolve (fun _ => none) ["a","b"]]).watch some ["a"]).1 = ⟨none,[]⟩ := by decide

end SizeSurvey.DemanglerSlot
