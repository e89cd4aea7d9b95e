import Mathlib.Data.List.Basic
import Mathlib.Logic.Function.Iterate
import SizeSurvey.Proofs.Survey.Inquiry
import SizeSurvey.Proofs.Survey.Outcomes

/-! # Tools that always answer the same

Tools that answer a question the same way every time fill the slot of the demangler the same way
too, whoever asks first. Inquiries that take turns with such tools therefore come as far as each of
them comes alone.
-/
namespace SizeSurvey
variable {σ α β : Type}

/-! ## Answers -/

/-- Answers that depend on the question only. -/
structure Answers where
  run : String → List String → Option String → Except Fault ToolOutput
  find : String → Option String
  readSection : String → String → Except Fault (Option (List UInt8))

/-- The demangler that a slot tells, now or once it is filled. -/
def Answers.installed (answers : Answers) (candidates : List String) (slot : DemanglerSlot) :
    Option String :=
  slot.answer.getD (candidates.findSome? answers.find)

open Survey (Ensures)

/-- Tools that give these answers, whatever they were asked before. -/
structure Toolchain.Gives (tools : Toolchain (StateM σ)) (answers : Answers) : Prop where
  run : ∀ program arguments input,
    Ensures (tools.run program arguments input) (· = answers.run program arguments input)
  find : ∀ program, Ensures (tools.find program) (· = answers.find program)
  readSection : ∀ library name,
    Ensures (tools.readSection library name) (· = answers.readSection library name)

/-- A run with one result, after which the slot still tells the same. -/
def Settles (tell : DemanglerSlot → Option String) (program : Option String)
    (run : StateT DemanglerSlot (StateM σ) α) (result : α) : Prop :=
  ∀ slot, tell slot = program → Ensures (run.run slot) fun after =>
    after.1 = result ∧ tell after.2 = program

namespace Settles
variable {tell : DemanglerSlot → Option String} {program : Option String}

theorem pure (result : α) :
    Settles tell program (Pure.pure result : StateT DemanglerSlot (StateM σ) α) result :=
  fun _ hslot _ => ⟨rfl,hslot⟩

theorem lift {run : StateM σ α} {result : α} (h : Ensures run (· = result)) :
    Settles tell program (StateT.lift run) result :=
  fun _ hslot world => ⟨h world,hslot⟩

theorem bind {run : StateT DemanglerSlot (StateM σ) α}
    {next : α → StateT DemanglerSlot (StateM σ) β} {first : α} {last : β}
    (h : Settles tell program run first) (hnext : Settles tell program (next first) last) :
    Settles tell program (run >>= next) last := by
  intro slot hslot world
  obtain ⟨hfirst,htell⟩ := h slot hslot world
  have hafter := hnext _ htell ((run.run slot).run world).2
  rw [← hfirst] at hafter
  exact hafter

theorem mapM {step : α → StateT DemanglerSlot (StateM σ) β} {f : α → β}
    (h : ∀ a, Settles tell program (step a) (f a)) (xs : List α) :
    Settles tell program (xs.mapM step) (xs.map f) := by
  induction xs with
  | nil =>
    rw [List.mapM_nil]
    exact pure []
  | cons x xs ih =>
    rw [List.mapM_cons]
    exact (h x).bind (ih.bind (pure (f x :: xs.map f)))

theorem foldlM {step : β → α → StateT DemanglerSlot (StateM σ) β} {f : β → α → β}
    (h : ∀ b a, Settles tell program (step b a) (f b a)) (xs : List α) (b : β) :
    Settles tell program (xs.foldlM step b) (xs.foldl f b) := by
  induction xs generalizing b with
  | nil => exact pure b
  | cons x xs ih =>
    rw [List.foldlM_cons]
    exact (h b x).bind (ih (f b x))

end Settles

/-! ## Inquiries that get such answers -/

namespace Inquiry

/-- What remains after the next answer. -/
def rest (answers : Answers) (installed : Option String) : Inquiry α → Inquiry α
  | done result => done result
  | run program arguments input next => next (answers.run program arguments input)
  | find program next => next (answers.find program)
  | readSection library name next => next (answers.readSection library name)
  | demangler next => next installed

def result (answers : Answers) (installed : Option String) : Inquiry α → α
  | done result => result
  | run program arguments input next =>
    (next (answers.run program arguments input)).result answers installed
  | find program next => (next (answers.find program)).result answers installed
  | readSection library name next =>
    (next (answers.readSection library name)).result answers installed
  | demangler next => (next installed).result answers installed

section Answered
variable (answers : Answers) (installed : Option String)

theorem rest_done_iterate (value : α) (turns : Nat) :
    (rest answers installed)^[turns] (done value) = done value :=
  Function.iterate_fixed rfl turns

theorem result_rest (inquiry : Inquiry α) :
    (inquiry.rest answers installed).result answers installed =
      inquiry.result answers installed := by
  cases inquiry <;> rfl

theorem result_rest_iterate (inquiry : Inquiry α) (turns : Nat) :
    ((rest answers installed)^[turns] inquiry).result answers installed =
      inquiry.result answers installed := by
  induction turns with
  | zero => rfl
  | succ turns ih => rw [Function.iterate_succ_apply',result_rest,ih]

theorem exists_rest_eq_done (inquiry : Inquiry α) :
    ∃ turns value, (rest answers installed)^[turns] inquiry = done value := by
  induction inquiry with
  | done value => exact ⟨0,value,rfl⟩
  | run program arguments input next ih =>
    obtain ⟨turns,value,h⟩ := ih (answers.run program arguments input)
    exact ⟨turns + 1,value,h⟩
  | find program next ih =>
    obtain ⟨turns,value,h⟩ := ih (answers.find program)
    exact ⟨turns + 1,value,h⟩
  | readSection library name next ih =>
    obtain ⟨turns,value,h⟩ := ih (answers.readSection library name)
    exact ⟨turns + 1,value,h⟩
  | demangler next ih =>
    obtain ⟨turns,value,h⟩ := ih installed
    exact ⟨turns + 1,value,h⟩

/-- An inquiry is done after finitely many turns, and more turns leave it at that. -/
theorem exists_rest_eq_result (inquiry : Inquiry α) :
    ∃ turns, ∀ more, turns ≤ more →
      (rest answers installed)^[more] inquiry = done (inquiry.result answers installed) := by
  obtain ⟨turns,value,h⟩ := exists_rest_eq_done answers installed inquiry
  have hvalue : value = inquiry.result answers installed := by
    rw [← result_rest_iterate answers installed inquiry turns,h]
    rfl
  refine ⟨turns,fun more hmore => ?_⟩
  obtain ⟨extra,rfl⟩ := Nat.exists_eq_add_of_le' hmore
  rw [Function.iterate_add_apply,h,rest_done_iterate,hvalue]

end Answered

section Runs
variable {tools : Toolchain (StateM σ)} {answers : Answers} (h : tools.Gives answers)
include h

theorem firstFound_ensures (candidates : List String) :
    Ensures (DemanglerSlot.firstFound tools.find candidates)
      (· = candidates.findSome? answers.find) := by
  induction candidates with
  | nil => exact .pure rfl
  | cons candidate others ih =>
    refine .bind (h.find candidate) fun found hfound => ?_
    subst hfound
    rw [List.findSome?_cons]
    cases answers.find candidate with
    | some path => exact .pure rfl
    | none => exact ih

theorem installed_settles (program : Option String) :
    Settles (answers.installed tools.settings.demanglers) program (installed tools) program := by
  intro slot hslot
  -- a filled slot keeps what it has, and an empty one is filled with what it was going to tell
  change Ensures (slot.resolve tools.find tools.settings.demanglers) _
  obtain ⟨known⟩ := slot
  cases known with
  | some known => exact .pure ⟨hslot,hslot⟩
  | none =>
    refine .bind (firstFound_ensures h tools.settings.demanglers) fun found hfound => .pure ?_
    exact ⟨hfound.trans hslot,hfound.trans hslot⟩

theorem turn_settles (program : Option String) (inquiry : Inquiry α) :
    Settles (answers.installed tools.settings.demanglers) program (inquiry.turn tools)
      (inquiry.rest answers program) := by
  cases inquiry with
  | done value => exact .pure _
  | run name arguments input next => exact (Settles.lift (h.run _ _ _)).bind (.pure _)
  | find name next => exact (Settles.lift (h.find _)).bind (.pure _)
  | readSection library name next => exact (Settles.lift (h.readSection _ _)).bind (.pure _)
  | demangler next => exact (installed_settles h program).bind (.pure _)

theorem perform_settles (program : Option String) (inquiry : Inquiry α) :
    Settles (answers.installed tools.settings.demanglers) program (inquiry.perform tools)
      (inquiry.result answers program) := by
  induction inquiry with
  | done value => exact .pure _
  | run name arguments input next ih => exact (Settles.lift (h.run _ _ _)).bind (ih _)
  | find name next ih => exact (Settles.lift (h.find _)).bind (ih _)
  | readSection library name next ih => exact (Settles.lift (h.readSection _ _)).bind (ih _)
  | demangler next ih => exact (installed_settles h program).bind (ih _)

end Runs

/-! ## Taking turns -/

section Turns
variable {m : Type → Type} [Monad m] (tools : Toolchain m)

/-- One of several inquiries takes its turn. -/
def turnOf (inquiries : List (Inquiry α)) (i : Nat) :
    StateT DemanglerSlot m (List (Inquiry α)) :=
  match inquiries[i]? with
  | some inquiry => do return inquiries.set i (← inquiry.turn tools)
  | none => return inquiries

def takeTurns (inquiries : List (Inquiry α)) (schedule : List Nat) :
    StateT DemanglerSlot m (List (Inquiry α)) :=
  schedule.foldlM (turnOf tools) inquiries

end Turns

section Scheduled
variable (answers : Answers) (program : Option String)

def restOf (inquiries : List (Inquiry α)) (i : Nat) : List (Inquiry α) :=
  inquiries.modify i (rest answers program)

/-- An inquiry is as far as its own turns have taken it. -/
theorem getElem?_foldl_restOf (schedule : List Nat) (inquiries : List (Inquiry α)) (i : Nat) :
    (schedule.foldl (restOf answers program) inquiries)[i]? =
      inquiries[i]?.map (rest answers program)^[schedule.count i] := by
  -- the turn of another inquiry leaves this one as it is, so only its own turns count
  induction schedule generalizing inquiries with
  | nil => simp
  | cons j schedule ih =>
    rw [List.foldl_cons,ih,restOf,List.getElem?_modify,List.count_cons]
    by_cases h : j = i
    · simp [h,Function.comp_def]
    · simp [h]

variable {tools : Toolchain (StateM σ)} {answers}

theorem turnOf_settles (h : tools.Gives answers) (inquiries : List (Inquiry α)) (i : Nat) :
    Settles (answers.installed tools.settings.demanglers) program (turnOf tools inquiries i)
      (restOf answers program inquiries i) := by
  rw [restOf,List.modify_eq_set_getElem?]
  unfold turnOf
  cases inquiries[i]? with
  | none => exact .pure _
  | some inquiry => exact (turn_settles h program inquiry).bind (.pure _)

theorem takeTurns_settles (h : tools.Gives answers) (inquiries : List (Inquiry α))
    (schedule : List Nat) :
    Settles (answers.installed tools.settings.demanglers) program
      (takeTurns tools inquiries schedule)
      (schedule.foldl (restOf answers program) inquiries) :=
  .foldlM (turnOf_settles program h) schedule inquiries

end Scheduled

/-! ## What concerns one library -/

end Inquiry

/-- Answers that agree on all that concerns a library. -/
structure Answers.AgreeAt (path : String) (answers other : Answers) : Prop where
  run : ∀ program arguments input, (∀ last ∈ arguments.getLast?, last = path) →
    answers.run program arguments input = other.run program arguments input
  find : answers.find = other.find
  readSection : ∀ name, answers.readSection path name = other.readSection path name

theorem Inquiry.About.result_congr {path : String} {inquiry : Inquiry α} (h : inquiry.About path)
    {answers other : Answers} (hagree : answers.AgreeAt path other) (program : Option String) :
    inquiry.result answers program = inquiry.result other program := by
  induction inquiry with
  | done value => rfl
  | run name arguments input next ih =>
    rw [Inquiry.result,Inquiry.result,hagree.run name arguments input h.1]
    exact ih _ (h.2 _)
  | find name next ih =>
    rw [Inquiry.result,Inquiry.result,hagree.find]
    exact ih _ (h _)
  | readSection library name next ih =>
    obtain ⟨rfl,hnext⟩ := h
    rw [Inquiry.result,Inquiry.result,hagree.readSection name]
    exact ih _ (hnext _)
  | demangler next ih => exact ih _ (h _)

end SizeSurvey
