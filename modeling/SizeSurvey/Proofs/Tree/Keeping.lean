import SizeSurvey.Proofs.Result
import SizeSurvey.Proofs.Tree.Writing

/-! # Files that stay

Making directories and writing a file leave every other file where it is, and every path that led
somewhere leads there still. A path that leads to a free place or to a file can be written to.
-/
namespace SizeSurvey.Node
open NameMap
variable {root root' root'' : Node} {path : String} {place : List String} {octets : List UInt8}

/-! ## What a path leads to -/

/-- A path that leads to a file. -/
structure LeadsToFile (root : Node) (path : String) (place : List String) (octets : List UInt8) :
    Prop where
  located : root.locate true path = .ok place
  found : ∃ executable, root.at? place = some (.file octets executable)

theorem find_eq_ok_iff {follow : Bool} {node : Node} : root.find path follow = .ok node ↔
    ∃ place, root.locate follow path = .ok place ∧ root.at? place = some node := by
  rw [find,bind_eq_ok_iff]
  refine exists_congr fun place => and_congr_right fun _ => ?_
  cases root.at? place <;> simp

theorem read_eq_ok_iff : root.read path = .ok octets ↔
    ∃ place, LeadsToFile root path place octets := by
  rw [read,bind_eq_ok_iff]
  constructor
  · rintro ⟨node,hfind,hoctets⟩
    obtain ⟨place,hlocated,hfound⟩ := find_eq_ok_iff.mp hfind
    cases node with
    | file held executable =>
      cases hoctets
      exact ⟨place,hlocated,executable,hfound⟩
    | directory _ => cases hoctets
    | link _ => cases hoctets
  · rintro ⟨place,hlocated,executable,hfound⟩
    exact ⟨_,find_eq_ok_iff.mpr ⟨place,hlocated,hfound⟩,rfl⟩

theorem LeadsToFile.hasFile (h : LeadsToFile root path place octets) :
    root.hasFile path = true := by
  obtain ⟨executable,hfound⟩ := h.found
  rw [Node.hasFile,find_eq_ok_iff.mpr ⟨place,h.located,hfound⟩]
  rfl

theorem at?_cons_of_not_directory (hroot : root.isDirectory = false) (key : String)
    (rest : List String) : root.at? (key :: rest) = none := by
  cases root with
  | directory _ => cases hroot
  | file _ _ => rfl
  | link _ => rfl

/-- Where there is no directory, no path with a name in it leads to the root. -/
theorem Leads.skips {follow : Bool} {links : Nat} {pieces : List String}
    (hroot : root.isDirectory = false)
    (h : Leads root follow links [] pieces place) :
    place ≠ [] ∨ ∀ piece ∈ pieces, piece = "" ∨ piece = "." ∨ piece = ".." := by
  generalize hhere : [] = here at h
  induction h with
  | here => exact Or.inr fun _ hpiece => absurd hpiece List.not_mem_nil
  | skip hskip _ ih =>
    exact (ih hhere).imp_right fun hrest => List.forall_mem_cons.mpr ⟨hskip.imp_right Or.inl,hrest⟩
  | up _ ih =>
    subst hhere
    exact (ih rfl).imp_right fun hrest => List.forall_mem_cons.mpr ⟨Or.inr (Or.inr rfl),hrest⟩
  | free => exact Or.inl (by simp)
  | enter _ _ hfound | file _ _ hfound | link _ _ hfound | jump _ _ hfound =>
    rw [← hhere,List.nil_append,at?_cons_of_not_directory hroot] at hfound
    cases hfound

/-- Only in a directory does a path that ends with a name lead to a file. -/
theorem isDirectory_of_leadsToFile {directory name : String} (hname : IsEntryName name)
    (h : LeadsToFile root (Path.child directory name) place octets) : root.isDirectory = true := by
  refine Decidable.byContradiction fun hroot => ?_
  rw [Bool.not_eq_true] at hroot
  obtain ⟨front,hfront⟩ := Path.exists_pieces_child directory hname.no_slash
  obtain ⟨_,hleads⟩ := locate_eq_ok_iff.mp h.located
  rcases hleads.skips hroot with hne | hskips
  · obtain ⟨executable,hfound⟩ := h.found
    obtain ⟨key,rest,rfl⟩ := List.exists_cons_of_ne_nil hne
    rw [at?_cons_of_not_directory hroot] at hfound
    cases hfound
  · rw [hfront] at hskips
    rcases hskips name (by simp) with hempty | hhere | hup
    · exact hname.ne_empty hempty
    · exact hname.ne_here hhere
    · exact hname.ne_up hup

/-- A place in a directory. -/
def LiesInDirectory (root : Node) (place : List String) : Prop :=
  ∃ parent name entries, place = parent ++ [name] ∧ root.at? parent = some (.directory entries)

theorem directory_of_at?_append {node : Node} {before after : List String} {found : Node}
    (hne : after ≠ []) (h : node.at? (before ++ after) = some found) :
    ∃ entries, node.at? before = some (.directory entries) := by
  rw [at?_append] at h
  obtain ⟨middle,hmiddle,hafter⟩ := Option.bind_eq_some_iff.mp h
  obtain ⟨name,rest,rfl⟩ := List.exists_cons_of_ne_nil hne
  rw [at?_cons] at hafter
  cases middle with
  | directory entries => exact ⟨entries,hmiddle⟩
  | file _ _ => cases hafter
  | link _ => cases hafter

theorem directory_of_isPrefix {before here : List String} (hbefore : before <+: here)
    (h : ∃ entries, root.at? here = some (.directory entries)) :
    ∃ entries, root.at? before = some (.directory entries) := by
  obtain ⟨after,rfl⟩ := hbefore
  obtain ⟨entries,hentries⟩ := h
  cases after with
  | nil => exact ⟨entries,by simpa using hentries⟩
  | cons name rest => exact directory_of_at?_append (List.cons_ne_nil name rest) hentries

theorem Leads.directory_or_liesIn {follow : Bool} {links : Nat} {here pieces : List String}
    (h : Leads root follow links here pieces place)
    (hhere : ∃ entries, root.at? here = some (.directory entries)) :
    (∃ entries, root.at? place = some (.directory entries)) ∨ LiesInDirectory root place := by
  induction h with
  | here links place => exact Or.inl hhere
  | skip _ _ ih => exact ih hhere
  | up _ ih => exact ih (directory_of_isPrefix (List.dropLast_prefix _) hhere)
  | enter _ _ hfound _ ih => exact ih ⟨_,hfound⟩
  | @free links here name | @file links here name | @link links here name =>
    obtain ⟨entries,hentries⟩ := hhere
    exact Or.inr ⟨here,name,entries,rfl,hentries⟩
  | jump _ _ _ _ _ ih => exact ih (directory_of_isPrefix (linkStart_isPrefix _ _) hhere)

/-! ## What happens elsewhere -/

/-- A tree that may have gained files and directories, where no file has changed but those at some
places. -/
structure Keeps (changed : List String → Prop) (root root' : Node) : Prop where
  gains : ∀ place, Gains (root.at? place) (root'.at? place)
  files : ∀ place octets executable, ¬changed place →
    root.at? place = some (.file octets executable) →
    root'.at? place = some (.file octets executable)

section Keeps
variable {changed : List String → Prop}

theorem Keeps.refl (changed : List String → Prop) (root : Node) : Keeps changed root root :=
  ⟨fun _ => Gains.refl _,fun _ _ _ _ hfound => hfound⟩

theorem Keeps.mono {changed' : List String → Prop} (h : Keeps changed root root')
    (hchanged : ∀ place, changed place → changed' place) : Keeps changed' root root' :=
  ⟨h.gains,fun place octets executable hplace =>
    h.files place octets executable (mt (hchanged place) hplace)⟩

theorem Keeps.trans (h : Keeps changed root root') (h' : Keeps changed root' root'') :
    Keeps changed root root'' :=
  ⟨fun place => (h.gains place).trans (h'.gains place),
    fun place octets executable hplace hfound =>
      h'.files place octets executable hplace (h.files place octets executable hplace hfound)⟩

theorem Keeps.isDirectory (h : Keeps changed root root') (hroot : root.isDirectory = true) :
    root'.isDirectory = true := by
  cases root with
  | directory entries =>
    obtain ⟨entries',hroot'⟩ := Gains.of_directory (h.gains [])
    cases hroot'
    rfl
  | file _ _ => cases hroot
  | link _ => cases hroot

theorem Keeps.locate (h : Keeps changed root root') {follow : Bool}
    (hlocated : root.locate follow path = .ok place) : root'.locate follow path = .ok place := by
  obtain ⟨hpath,hleads⟩ := locate_eq_ok_iff.mp hlocated
  exact locate_eq_ok_iff.mpr ⟨hpath,hleads.of_gains h.gains⟩

theorem Keeps.leadsToFile (h : Keeps changed root root')
    (hfile : LeadsToFile root path place octets) (hplace : ¬changed place) :
    LeadsToFile root' path place octets := by
  obtain ⟨executable,hfound⟩ := hfile.found
  exact ⟨h.locate hfile.located,executable,h.files place octets executable hplace hfound⟩

theorem keeps_put {new : Node} (hin : LiesInDirectory root place)
    (hnew : Takes (root.at? place) new)
    (hchanged : ∀ node, root.at? place = some node → changed place) :
    Keeps changed root (root.put place new) := by
  obtain ⟨parent,name,entries,rfl,hparent⟩ := hin
  rw [at?_concat hparent] at hnew hchanged
  constructor
  case gains => exact gains_put hparent hnew
  case files =>
    intro other octets executable hother hfound
    -- At or below the new entry, at the directory that holds it, or elsewhere.
    rcases at?_put_cases hparent name new other with
      ⟨below,rfl,hbefore,_⟩ | ⟨entries,_,hbefore,_⟩ | hsame
    · rw [hbefore] at hfound
      obtain ⟨found,hlookup,hbelow⟩ := Option.bind_eq_some_iff.mp hfound
      rw [hlookup] at hnew
      cases hnew
      cases below with
      | nil => exact absurd (hchanged _ hlookup) hother
      | cons _ _ => cases hbelow
    · rw [hbefore] at hfound
      cases hfound
    · rw [hsame]
      exact hfound

end Keeps

/-! ## Making directories and writing a file -/

theorem directory_of_isDirectory (h : root.isDirectory = true) :
    ∃ entries, root.at? [] = some (.directory entries) := by
  cases root with
  | directory entries => exact ⟨entries,rfl⟩
  | file _ _ => cases h
  | link _ => cases h

/-- A path leads into a directory unless there is a directory where it leads. -/
theorem liesInDirectory_of_locate (hroot : root.isDirectory = true) {follow : Bool}
    (h : root.locate follow path = .ok place)
    (hplace : ∀ node, root.at? place = some node → node.isDirectory = false) :
    LiesInDirectory root place := by
  rcases (locate_eq_ok_iff.mp h).2.directory_or_liesIn (directory_of_isDirectory hroot) with
    ⟨entries,hentries⟩ | hin
  · cases hplace _ hentries
  · exact hin

theorem keeps_makeDirectory (hroot : root.isDirectory = true)
    (h : root.makeDirectory path = .ok root') : Keeps (fun _ => False) root root' := by
  obtain ⟨place,hlocated,hput⟩ := bind_eq_ok_iff.mp h
  cases hfound : root.at? place with
  | some node =>
    simp only [hfound] at hput
    cases hput
  | none =>
    simp only [hfound] at hput
    cases hput
    refine keeps_put (liesInDirectory_of_locate hroot hlocated ?_) ?_ ?_
    · simp [hfound]
    · rw [hfound]
      exact Takes.directory
    · simp [hfound]

/-- **Making directories keeps all files.** -/
theorem keeps_makeDirectories (hroot : root.isDirectory = true)
    (h : root.makeDirectories path = .ok root') : Keeps (fun _ => False) root root' := by
  simp only [makeDirectories] at h
  -- The steps to be made stay those of the whole path while the tree grows with each of them.
  generalize List.range (Path.steps path).length = counts at h
  induction counts generalizing root with
  | nil =>
    cases h
    exact Keeps.refl _ _
  | cons n counts ih =>
    rw [List.foldlM_cons] at h
    obtain ⟨next,hnext,hrest⟩ := bind_eq_ok_iff.mp h
    split at hnext
    · cases hnext
      exact ih hroot hrest
    · have hkeeps := keeps_makeDirectory hroot hnext
      exact hkeeps.trans (ih (hkeeps.isDirectory hroot) hrest)

/-- **A file is written where a path leads to one or to a free place,** and no other file changes. -/
theorem exists_write (hroot : root.isDirectory = true) (hlocated : root.locate true path = .ok place)
    (hfree : ∀ node, root.at? place = some node → node.isFile = true) (octets : List UInt8) :
    ∃ root', root.write path octets = .ok root' ∧ Keeps (· = place) root root' ∧
      LeadsToFile root' path place octets := by
  have hin : LiesInDirectory root place := by
    refine liesInDirectory_of_locate hroot hlocated fun node hnode => ?_
    cases node with
    | directory _ => cases hfree _ hnode
    | file _ _ => rfl
    | link _ => rfl
  have hput : ∃ executable, root.write path octets = .ok (root.put place (.file octets executable)) ∧
      Takes (root.at? place) (.file octets executable) := by
    unfold write
    cases hfound : root.at? place with
    | none => exact ⟨false,by simp [hlocated,hfound,bind,Except.bind],Takes.file octets false⟩
    | some node =>
      cases node with
      | file held executable =>
        exact ⟨executable,by simp [hlocated,hfound,bind,Except.bind],Takes.over ..⟩
      | directory _ => cases hfree _ hfound
      | link _ => cases hfree _ hfound
  obtain ⟨executable,hwrite,htakes⟩ := hput
  have hkeeps : Keeps (· = place) root (root.put place (.file octets executable)) :=
    keeps_put hin htakes fun _ _ => rfl
  exact ⟨_,hwrite,hkeeps,hkeeps.locate hlocated,executable,at?_put_self ..⟩

/-- A file goes to the place that a path leads to, if it is free or has a file. -/
theorem exists_put_of_write (h : root.write path octets = .ok root') :
    ∃ place executable, root.locate true path = .ok place ∧
      Takes (root.at? place) (.file octets executable) ∧
      root' = root.put place (.file octets executable) := by
  obtain ⟨place,hlocated,hput⟩ := bind_eq_ok_iff.mp h
  cases hfound : root.at? place with
  | none =>
    simp only [hfound] at hput
    cases hput
    exact ⟨place,false,hlocated,by rw [hfound]; exact Takes.file .., rfl⟩
  | some node =>
    cases node with
    | file held executable =>
      simp only [hfound] at hput
      cases hput
      exact ⟨place,executable,hlocated,by rw [hfound]; exact Takes.over .., rfl⟩
    | directory _ => simp only [hfound] at hput; cases hput
    | link _ => simp only [hfound] at hput; cases hput

/-- A path leads to the file that it puts where there is no directory yet. -/
theorem Leads.put_file {follow : Bool} {links : Nat} {pieces : List String}
    (hroot : root.isDirectory = false) (h : Leads root follow links [] pieces place)
    (octets : List UInt8) (executable : Bool) :
    Leads (root.put place (.file octets executable)) follow links [] pieces place := by
  generalize hhere : [] = here at h ⊢
  induction h with
  | here links place => exact Leads.here links place
  | skip hskip _ ih => exact Leads.skip hskip (ih hhere)
  | up _ ih =>
    subst hhere
    exact Leads.up (ih rfl)
  | free hskip hup => exact Leads.file hskip hup (at?_put_self ..)
  | enter _ _ hfound | file _ _ hfound | link _ _ hfound | jump _ _ hfound =>
    rw [← hhere,List.nil_append,at?_cons_of_not_directory hroot] at hfound
    cases hfound

/-- **What was written is there,** whatever the tree was like. -/
theorem exists_leadsToFile_of_write (h : root.write path octets = .ok root') :
    ∃ place, LeadsToFile root' path place octets := by
  obtain ⟨place,executable,hlocated,htakes,rfl⟩ := exists_put_of_write h
  refine ⟨place,?_,executable,at?_put_self ..⟩
  cases hroot : root.isDirectory with
  | false =>
    obtain ⟨hpath,hleads⟩ := locate_eq_ok_iff.mp hlocated
    exact locate_eq_ok_iff.mpr ⟨hpath,hleads.put_file hroot octets executable⟩
  | true =>
    have hin : LiesInDirectory root place := by
      refine liesInDirectory_of_locate hroot hlocated fun node hnode => ?_
      rw [hnode] at htakes
      cases htakes
      rfl
    exact (@keeps_put _ _ (fun _ => True) _ hin htakes fun _ _ => trivial).locate hlocated

/-! ## Texts and documents -/

section Documents
variable {text : String} {α : Type} {reader : Json.Reader α} {value : α}

theorem readText_eq_ok_iff : root.readText path = .ok text ↔
    ∃ place octets, LeadsToFile root path place octets ∧
      Text.Utf8.decodeString? octets = some text := by
  have hoctets : root.readText path = .ok text ↔
      ∃ octets, root.read path = .ok octets ∧ Text.Utf8.decodeString? octets = some text := by
    rw [readText,bind_eq_ok_iff]
    refine exists_congr fun octets => and_congr mapError_eq_ok_iff ?_
    cases Text.Utf8.decodeString? octets <;> simp [pure,Except.pure]
  rw [hoctets,exists_comm]
  refine exists_congr fun octets => ?_
  rw [read_eq_ok_iff,exists_and_right]

theorem hasFile_of_readText (h : root.readText path = .ok text) : root.hasFile path = true := by
  obtain ⟨place,octets,hleads,_⟩ := readText_eq_ok_iff.mp h
  exact hleads.hasFile

theorem Keeps.readText {changed : List String → Prop} (h : Keeps changed root root')
    (hread : root.readText path = .ok text)
    (hplace : ∀ place, root.locate true path = .ok place → ¬changed place) :
    root'.readText path = .ok text := by
  obtain ⟨place,octets,hleads,htext⟩ := readText_eq_ok_iff.mp hread
  exact readText_eq_ok_iff.mpr
    ⟨place,octets,h.leadsToFile hleads (hplace place hleads.located),htext⟩

theorem readJson_eq_ok_iff : root.readJson path reader = .ok value ↔
    ∃ text, root.readText path = .ok text ∧ (Json.ofText? text).bind (reader {}) = some value := by
  rw [readJson,bind_eq_ok_iff]
  refine exists_congr fun text => and_congr_right fun _ => ?_
  cases (Json.ofText? text).bind (reader {}) <;> simp [pure,Except.pure]

end Documents

end SizeSurvey.Node
