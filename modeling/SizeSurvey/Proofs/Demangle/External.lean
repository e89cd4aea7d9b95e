import Mathlib.Algebra.Ring.Nat
import Mathlib.Data.List.Forall2
import SizeSurvey.Demangle.External
import SizeSurvey.Proofs.Text.Cutting

/-! # Batches that a tool demangles

A batch is left as it was unless the tool succeeds with one line for each name, and then each name
has its own line. With a tool that works line by line a name that is no single line never shifts the
names after it: the number of lines gives it away.
-/
namespace SizeSurvey.Demangler
variable {σ : Type}

def linesOf (stdout : String) : List String :=
  (Text.lines stdout.toList).map String.ofList

/-! ## All or nothing -/

/-- Something that runs programs, and whose answers may depend on what it was asked before. -/
abbrev Runner (σ : Type) :=
  String → List String → Option String → StateM σ (Except Fault ToolOutput)

def answer (run : Runner σ) (program : String) (names : List String) (world : σ) :
    Except Fault ToolOutput :=
  ((run program [] (some (inputOf names))).run world).1

def batch (run : Runner σ) (program : Option String) (names : List String) (world : σ) :
    DemangledBatch :=
  ((external run program names).run world).1

theorem batch_nil (run : Runner σ) (program : Option String) (world : σ) :
    batch run program [] world = .complete [] := rfl

theorem batch_none (run : Runner σ) {names : List String} (h : names ≠ []) (world : σ) :
    batch run none names world = .unchanged names .toolUnavailable := by
  rw [batch,external,if_neg (mt List.isEmpty_iff.mp h)]
  rfl

theorem batch_some (run : Runner σ) (program : String) {names : List String} (h : names ≠ [])
    (world : σ) :
    batch run (some program) names world =
      batchOfCall names program (answer run program names world) := by
  rw [batch,external,if_neg (mt List.isEmpty_iff.mp h)]
  rfl

/-- What a batch that was not left alone tells about the answer of the tool. -/
structure IsAnswered (answer : Except Fault ToolOutput) (names : List String)
    (batch : DemangledBatch) : Prop where
  status : batch.status = .demangled
  output : ∃ output, answer = .ok output ∧ output.success = true ∧
    (linesOf output.stdout).length = names.length ∧ batch.names = linesOf output.stdout

theorem batchOfOutput_cases (names : List String) (stdout : String) :
    ((linesOf stdout).length = names.length ∧
      batchOfOutput names stdout = .complete (linesOf stdout)) ∨
    ((linesOf stdout).length ≠ names.length ∧ batchOfOutput names stdout =
      .unchanged names (.countMismatch names.length (linesOf stdout).length)) := by
  unfold batchOfOutput linesOf
  by_cases h : ((Text.lines stdout.toList).map String.ofList).length = names.length
  · exact Or.inl ⟨h,if_pos h⟩
  · exact Or.inr ⟨h,if_neg h⟩

theorem batchOfCall_cases (names : List String) (program : String)
    (answer : Except Fault ToolOutput) :
    (∃ reason, batchOfCall names program answer = .unchanged names reason) ∨
      IsAnswered answer names (batchOfCall names program answer) := by
  cases answer with
  | error fault => exact Or.inl ⟨_,rfl⟩
  | ok output =>
    cases hsuccess : output.success with
    | false =>
      refine Or.inl ⟨.toolFailed (Fault.toolFailed program output.complaint).failureLine,?_⟩
      simp [batchOfCall,ToolOutput.text,hsuccess]
    | true =>
      have hcall : batchOfCall names program (.ok output) = batchOfOutput names output.stdout := by
        simp [batchOfCall,ToolOutput.text,hsuccess]
      rw [hcall]
      rcases batchOfOutput_cases names output.stdout with ⟨hlength,hbatch⟩ | ⟨_,hbatch⟩
      · rw [hbatch]
        exact Or.inr ⟨rfl,output,rfl,hsuccess,hlength,rfl⟩
      · exact Or.inl ⟨_,hbatch⟩

/-! ## Tools that work line by line -/

/-- What `f` makes of a line, or of the line without a carriage return at its end. -/
def IsFiltered (f : String → String) (line result : String) : Prop :=
  result = f line ∨ ∃ front, line = front ++ "\r" ∧ result = f front

/-- A tool that writes, for each line of its input, what `f` makes of it. It may take a carriage
return at the end of a line as a part of the line end. -/
def FiltersLines (run : Runner σ) (program : String) (f : String → String) : Prop :=
  ∀ (lines : List String) (world : σ), (∀ line ∈ lines, '\n' ∉ line.toList) →
    ∃ output written, answer run program lines world = .ok output ∧ output.success = true ∧
      output.stdout = inputOf written ∧
      List.Forall₂ (IsFiltered f) lines written

/-- The line feeds inside of names. -/
def lineFeeds (names : List String) : Nat :=
  (names.map fun name => name.toList.count '\n').sum

/-- The lines that a tool is given for names. -/
def pieces (names : List String) : List String :=
  names.flatMap fun name => (Text.splitAt '\n' name.toList).map String.ofList

theorem toList_inputOf (names : List String) :
    (inputOf names).toList = (names.map String.toList).flatMap (· ++ ['\n']) := by
  rw [inputOf,String.toList_join,List.flatMap_map,List.flatMap_map]
  simp only [String.toList_append]
  rfl

theorem inputOf_pieces (names : List String) : inputOf (pieces names) = inputOf names := by
  rw [← String.toList_inj,toList_inputOf,toList_inputOf]
  induction names with
  | nil => rfl
  | cons name rest ih =>
    have hname : ((Text.splitAt '\n' name.toList).map String.ofList).map String.toList =
        Text.splitAt '\n' name.toList := by
      simp [Function.comp_def]
    rw [pieces,List.flatMap_cons,List.map_append,List.flatMap_append,hname,Text.flatMap_splitAt,
      List.map_cons,List.flatMap_cons]
    exact congrArg (name.toList ++ ['\n'] ++ ·) ih

theorem length_pieces (names : List String) :
    (pieces names).length = names.length + lineFeeds names := by
  induction names with
  | nil => rfl
  | cons name rest ih =>
    rw [pieces,List.flatMap_cons,List.length_append,List.length_map,Text.length_splitAt,
      List.length_cons,lineFeeds,List.map_cons,List.sum_cons]
    rw [pieces,lineFeeds] at ih
    omega

theorem not_mem_pieces {names : List String} : ∀ line ∈ pieces names, '\n' ∉ line.toList := by
  intro line hline
  obtain ⟨name,-,hmem⟩ := List.mem_flatMap.mp hline
  obtain ⟨piece,hpiece,rfl⟩ := List.mem_map.mp hmem
  rw [String.toList_ofList]
  exact Text.not_mem_of_mem_splitAt piece hpiece

theorem linesOf_inputOf {lines : List String} (h : ∀ line ∈ lines, '\n' ∉ line.toList) :
    linesOf (inputOf lines) =
      lines.map fun line => String.ofList (Text.dropReturn line.toList) := by
  have hended : ∀ line ∈ lines.map String.toList, '\n' ∉ line := by
    intro line hline
    obtain ⟨text,htext,rfl⟩ := List.mem_map.mp hline
    exact h text htext
  rw [linesOf,toList_inputOf,Text.lines_ended hended,List.map_map,List.map_map]
  rfl

theorem linesOf_inputOf_of_isLine {lines : List String}
    (h : ∀ line ∈ lines, Text.IsLine line.toList) : linesOf (inputOf lines) = lines := by
  rw [linesOf_inputOf fun line hline => (h line hline).1]
  refine (List.map_congr_left fun line hline => ?_).trans (List.map_id _)
  rw [Text.dropReturn_of_isLine (h line hline),String.ofList_toList]
  rfl

theorem eq_map_of_isFiltered {f : String → String} {lines written : List String}
    (hlines : ∀ line ∈ lines, Text.IsLine line.toList)
    (h : List.Forall₂ (IsFiltered f) lines written) : written = lines.map f := by
  induction h with
  | nil => rfl
  | cons hfirst _ ih =>
    obtain ⟨hline,hrest⟩ := List.forall_mem_cons.mp hlines
    rw [List.map_cons,ih hrest]
    rcases hfirst with rfl | ⟨front,rfl,-⟩
    · rfl
    · refine absurd ?_ hline.2
      rw [String.toList_append]
      exact List.getLast?_concat

/-- What `f` makes of lines are lines. -/
def KeepsLines (f : String → String) : Prop :=
  ∀ line : String, '\n' ∉ line.toList → Text.IsLine (f line).toList

theorem isLine_of_isFiltered {f : String → String} (hf : KeepsLines f) {lines written : List String}
    (hlines : ∀ line ∈ lines, '\n' ∉ line.toList) (h : List.Forall₂ (IsFiltered f) lines written) :
    ∀ line ∈ written, Text.IsLine line.toList := by
  induction h with
  | nil => exact List.forall_mem_nil _
  | cons hfirst _ ih =>
    obtain ⟨hline,hrest⟩ := List.forall_mem_cons.mp hlines
    refine List.forall_mem_cons.mpr ⟨?_,ih hrest⟩
    rcases hfirst with rfl | ⟨front,rfl,rfl⟩
    · exact hf _ hline
    · refine hf front fun hmem => hline ?_
      rw [String.toList_append]
      exact List.mem_append_left _ hmem

theorem exists_written {run : Runner σ} {program : String} {f : String → String}
    (hfilters : FiltersLines run program f) (hf : KeepsLines f)
    {names lines : List String} (hinput : inputOf lines = inputOf names)
    (hlines : ∀ line ∈ lines, '\n' ∉ line.toList) (world : σ) :
    ∃ written, List.Forall₂ (IsFiltered f) lines written ∧
      batchOfCall names program (answer run program names world) =
        if written.length = names.length then .complete written
        else .unchanged names (.countMismatch names.length written.length) := by
  obtain ⟨output,written,hanswer,hsuccess,hstdout,hwritten⟩ := hfilters lines world hlines
  refine ⟨written,hwritten,?_⟩
  have hread := linesOf_inputOf_of_isLine (isLine_of_isFiltered hf hlines hwritten)
  have hcall : answer run program names world = .ok output := by
    rw [answer,← hinput]
    exact hanswer
  rw [← hstdout,linesOf] at hread
  simp only [hcall,batchOfCall,ToolOutput.text,hsuccess,if_true,batchOfOutput,hread]

/-- **A batch is demangled as a whole or not at all.** It comes back from the tool only with one
line for each name. A tool that works line by line demangles each name for itself, unless there are
line feeds inside of names, which its number of lines betrays. -/
theorem batch_all_or_nothing (run : Runner σ) (program : Option String) (names : List String)
    (world : σ) :
    (batch run program names world).names.length = names.length ∧
      ((∃ reason, batch run program names world = .unchanged names reason) ∨
        ((batch run program names world).status = .demangled ∧
          (names ≠ [] → ∃ path, program = some path ∧
            IsAnswered (answer run path names world) names (batch run program names world)))) ∧
      ∀ path f, program = some path → FiltersLines run path f → KeepsLines f →
        ((∀ name ∈ names, Text.IsLine name.toList) →
          batch run program names world = .complete (names.map f)) ∧
        (0 < lineFeeds names → batch run program names world =
          .unchanged names (.countMismatch names.length (names.length + lineFeeds names))) := by
  by_cases hnil : names = []
  · subst hnil
    rw [batch_nil]
    exact ⟨rfl,Or.inr ⟨rfl,absurd rfl⟩,fun _ _ _ _ _ => ⟨fun _ => rfl,fun hfeeds =>
      absurd hfeeds (by decide)⟩⟩
  cases program with
  | none =>
    rw [batch_none run hnil]
    exact ⟨rfl,Or.inl ⟨_,rfl⟩,fun _ _ h => nomatch h⟩
  | some path =>
    rw [batch_some run path hnil]
    have hcases := batchOfCall_cases names path (answer run path names world)
    refine ⟨?_,hcases.imp_right fun h => ⟨h.status,fun _ => ⟨path,rfl,h⟩⟩,?_⟩
    · rcases hcases with ⟨reason,h⟩ | ⟨-,_,-,-,hlength,hnames⟩
      · rw [h]
        rfl
      · rw [hnames,hlength]
    · intro other f hother hfilters hf
      obtain rfl := Option.some.inj hother
      constructor
      · intro hnames
        obtain ⟨written,hwritten,hbatch⟩ :=
          exists_written hfilters hf rfl (fun name hname => (hnames name hname).1) world
        obtain rfl := eq_map_of_isFiltered hnames hwritten
        rw [hbatch,if_pos (List.length_map f)]
      · intro hfeeds
        obtain ⟨written,hwritten,hbatch⟩ :=
          exists_written hfilters hf (inputOf_pieces names) not_mem_pieces world
        have hlength : written.length = names.length + lineFeeds names := by
          rw [← hwritten.length_eq,length_pieces]
        rw [hbatch,hlength,if_neg (by omega)]

/-- A tool that puts each line of its input between brackets. -/
def bracketing : Runner Unit := fun _ _ input =>
  pure (.ok (.ok (inputOf ((linesOf (input.getD "")).map fun line => "<" ++ line ++ ">"))))

theorem isFiltered_dropReturn (f : String → String) (line : String) :
    IsFiltered f line (f (String.ofList (Text.dropReturn line.toList))) := by
  rcases Text.dropReturn_eq_or line.toList with h | h
  · exact Or.inl (by rw [h,String.ofList_toList])
  · refine Or.inr ⟨_,?_,rfl⟩
    rw [← String.toList_inj,String.toList_append,String.toList_ofList]
    exact h

theorem filtersLines_bracketing (program : String) :
    FiltersLines bracketing program fun line => "<" ++ line ++ ">" := by
  intro lines _ hlines
  refine ⟨_,_,rfl,rfl,rfl,?_⟩
  rw [Option.getD_some,linesOf_inputOf hlines,List.map_map,List.forall₂_map_right_iff,
    List.forall₂_same]
  exact fun line _ => isFiltered_dropReturn _ line

/-- Three names that are lines, and two that are three lines together. -/
theorem batch_all_or_nothing_bracketing :
    batch bracketing (some "filt") ["a","","b"] () = .complete ["<a>","<>","<b>"] ∧
      batch bracketing (some "filt") ["a\nb","c"] () =
        .unchanged ["a\nb","c"] (.countMismatch 2 3) := by
  have hlines : KeepsLines fun line => "<" ++ line ++ ">" := by
    intro line hline
    rw [String.toList_append,String.toList_append]
    refine ⟨by simpa using hline,?_⟩
    change (("<".toList ++ line.toList) ++ ['>']).getLast? ≠ _
    rw [List.getLast?_concat]
    decide
  have hthree := batch_all_or_nothing bracketing (some "filt") ["a","","b"] ()
  have htwo := batch_all_or_nothing bracketing (some "filt") ["a\nb","c"] ()
  exact ⟨(hthree.2.2 _ _ rfl (filtersLines_bracketing "filt") hlines).1 (by decide),
    (htwo.2.2 _ _ rfl (filtersLines_bracketing "filt") hlines).2 (by decide)⟩

end SizeSurvey.Demangler
