import SizeSurvey.Proofs.Inventory.Balance
import SizeSurvey.Proofs.Text.Utf8

/-! # Discovered libraries and the inventory

Discovery walks a directory on its own and finds just the files of the inventory that have names of
shared libraries. It lists them in the order of the walk, which is that of the names on the way.
-/
namespace SizeSurvey
open Node (IsEntryName)

/-! ## Paths of names -/

namespace Path

/-- The step in front of all others, if there is one. -/
def frontSteps : List String → List Step
  | "" :: _ :: _ => [.root]
  | "." :: _ => [.here]
  | _ => []

theorem steps_eq (path : String) :
    steps path = frontSteps (pieces path) ++ ((pieces path).filter isStep).map step :=
  rfl

/-- What comes behind a piece and another one makes no difference to the step in front. -/
theorem frontSteps_cons_cons (first second : String) (rest : List String) :
    frontSteps (first :: second :: rest) =
      if first = "" then [.root] else if first = "." then [.here] else [] := by
  unfold frontSteps
  split <;> simp_all

theorem frontSteps_singleton {piece : String} (h : piece ≠ ".") : frontSteps [piece] = [] := by
  unfold frontSteps
  split <;> simp_all

theorem frontSteps_concat {front : List String} (hne : front ≠ []) (piece : String) :
    frontSteps (front ++ [piece]) = if front = [""] then [.root] else frontSteps front := by
  match front, hne with
  | [first], _ =>
    rw [List.singleton_append,frontSteps_cons_cons]
    by_cases hhere : first = "."
    · rw [hhere]; rfl
    · simp [hhere,frontSteps_singleton hhere]
  | first :: second :: rest, _ =>
    rw [List.cons_append,List.cons_append,frontSteps_cons_cons,frontSteps_cons_cons]
    exact (if_neg (by simp)).symm

theorem eq_empty_of_pieces {path : String} (h : pieces path = [""]) : path = "" := by
  obtain ⟨text,hsplit,htext⟩ := List.map_eq_singleton_iff.mp h
  have hnil : text = [] := by
    rw [← String.toList_ofList (l := text),htext]
    rfl
  have hpath : Text.splitAt '/' path.toList = Text.splitAt '/' [] := by
    rw [hsplit,hnil]
    rfl
  exact String.toList_eq_nil_iff.mp (Text.splitAt_inj hpath)

theorem pieces_ne_nil (path : String) : pieces path ≠ [] :=
  mt List.map_eq_nil_iff.mp (Text.splitAt_ne_nil '/' path.toList)

theorem steps_child {directory name : String} (hdirectory : directory ≠ "")
    (hname : IsEntryName name) : steps (child directory name) = steps directory ++ [.name name] := by
  have hstep : ([name].filter isStep).map step = [.name name] := by
    simp [isStep,step,hname.ne_empty,hname.ne_here,hname.ne_up]
  obtain ⟨front,hchild,hfront⟩ := pieces_child hdirectory hname.no_slash
  have hpieces : frontSteps (front ++ [name]) = frontSteps (pieces directory) ∧
      (pieces directory).filter isStep = front.filter isStep := by
    rcases hfront with hfront | hfront
    · have hroot : front ≠ [""] := fun he => hdirectory (eq_empty_of_pieces (hfront.trans he))
      refine ⟨?_,by rw [hfront]⟩
      rw [frontSteps_concat (hfront ▸ pieces_ne_nil directory),if_neg hroot,hfront]
    · have hne : front ≠ [] := fun he => hdirectory (eq_empty_of_pieces (by rw [hfront,he]; rfl))
      refine ⟨?_,by rw [hfront]; simp [isStep]⟩
      rw [hfront,frontSteps_concat hne,frontSteps_concat hne]
  rw [steps_eq,steps_eq,hchild,hpieces.1,hpieces.2,List.filter_append,List.map_append,hstep,
    List.append_assoc]

theorem steps_foldl_child {root : String} (hroot : root ≠ "") {names : List String}
    (hnames : ∀ name ∈ names, IsEntryName name) :
    steps (names.foldl child root) = steps root ++ names.map .name := by
  induction names generalizing root with
  | nil => simp
  | cons name rest ih =>
    obtain ⟨hname,hrest⟩ := List.forall_mem_cons.mp hnames
    have hchild : child root name ≠ "" := by
      obtain ⟨slash,htext⟩ := exists_toList_child root name
      rw [Ne,← String.toList_eq_nil_iff,htext]
      simp [hroot]
    rw [List.foldl_cons,ih hchild hrest,steps_child hroot hname]
    simp

theorem steps_intercalate {names : List String} (hne : names ≠ [])
    (hnames : ∀ name ∈ names, IsEntryName name) :
    steps ("/".intercalate names) = names.map .name := by
  have hslash : ∀ name ∈ names, '/' ∉ name.toList := fun name hname => (hnames name hname).no_slash
  have hfront : frontSteps names = [] := by
    match names, hne with
    | [name], _ => exact frontSteps_singleton (hnames name List.mem_cons_self).ne_here
    | first :: second :: rest, _ =>
      have hfirst := hnames first List.mem_cons_self
      rw [frontSteps_cons_cons,if_neg hfirst.ne_empty,if_neg hfirst.ne_here]
  have hall : ∀ name ∈ names, isStep name = true := by
    intro name hname
    simp [isStep,(hnames name hname).ne_empty,(hnames name hname).ne_here]
  rw [steps_eq,pieces_intercalate hne hslash,hfront,List.filter_eq_self.mpr hall,List.nil_append]
  exact List.map_congr_left fun name hname => if_neg (hnames name hname).ne_up

theorem fileName_intercalate {names : List String} (hne : names ≠ [])
    (hnames : ∀ name ∈ names, IsEntryName name) :
    fileName ("/".intercalate names) = names.getLast hne := by
  have hlast : (steps ("/".intercalate names)).getLast? = some (.name (names.getLast hne)) := by
    rw [steps_intercalate hne hnames,List.getLast?_map,List.getLast?_eq_some_getLast hne,
      Option.map_some]
  rw [fileName,fileName?,hlast,Option.getD_some]

end Path

/-! ## Agreement -/

/-- A file that is listed under the name of a shared library. -/
def InventoryEntry.IsLibrary (entry : InventoryEntry) : Prop :=
  hasSharedObjectSuffix (Path.fileName entry.path) = true

/-- Paths below a root that are those of the libraries of an inventory. -/
structure Inventory.Discovers (inventory : Inventory) (root : String) (paths : List String)
    (libraries : List (List String)) : Prop where
  /-- From the root the paths go on with the names. -/
  relative : List.Forall₂ (fun path names => Path.steps path = Path.steps root ++ names.map .name)
    paths libraries
  /-- Joined, the names are the path of an entry, and they are its pieces. -/
  joined : ∀ names ∈ libraries, Path.pieces ("/".intercalate names) = names
  entries : ∀ path, path ∈ libraries.map ("/".intercalate ·) ↔
    ∃ entry ∈ inventory.files, entry.path = path ∧ entry.IsLibrary
  once : (libraries.map ("/".intercalate ·)).Nodup
  /-- Name by name, the octets of the names ascend. -/
  ordered : libraries.Pairwise fun a b =>
    a.map Text.Utf8.encodeString < b.map Text.Utf8.encodeString

/-- An answer of discovery that agrees with an inventory of the same root. -/
structure Inventory.AgreesWith (inventory : Inventory) (root : String)
    (answer : Except Fault (List String)) : Prop where
  found : ∀ paths, answer = .ok paths → ∃ libraries, inventory.Discovers root paths libraries
  nothing : answer = .error (.noLibraries root) ↔ ¬∃ entry ∈ inventory.files, entry.IsLibrary
  noOther : ∀ fault, answer = .error fault → fault = .noLibraries root

theorem Inventory.agreesWith_error {inventory : Inventory} (root : String)
    (h : ¬∃ entry ∈ inventory.files, entry.IsLibrary) :
    inventory.AgreesWith root (.error (.noLibraries root)) := by
  constructor
  case found =>
    intro paths hpaths
    cases hpaths
  case nothing => exact iff_of_true rfl h
  case noOther =>
    intro fault hfault
    exact (Except.error.inj hfault).symm

theorem Inventory.agreesWith_ok {inventory : Inventory} {root : String} {paths : List String}
    {libraries : List (List String)} (h : inventory.Discovers root paths libraries)
    (hlibrary : ∃ entry ∈ inventory.files, entry.IsLibrary) :
    inventory.AgreesWith root (.ok paths) := by
  constructor
  case found =>
    intro found hfound
    cases hfound
    exact ⟨libraries,h⟩
  case nothing =>
    refine iff_of_false (fun hfault => ?_) (not_not_intro hlibrary)
    cases hfault
  case noOther =>
    intro fault hfault
    cases hfault

theorem map_encodeString_lt {names others : List String} (h : names < others) :
    names.map Text.Utf8.encodeString < others.map Text.Utf8.encodeString := by
  induction names generalizing others with
  | nil =>
    cases others with
    | nil => exact absurd h (List.lt_irrefl _)
    | cons other rest => exact List.nil_lt_cons ..
  | cons name front ih =>
    cases others with
    | nil => exact absurd h (List.not_lt_nil _)
    | cons other back =>
      rw [List.map_cons,List.map_cons,List.cons_lt_cons_iff]
      rcases List.cons_lt_cons_iff.mp h with hlt | ⟨rfl,hlt⟩
      · exact Or.inl (Text.Utf8.encodeString_lt_iff.mpr hlt)
      · exact Or.inr ⟨rfl,ih hlt⟩

namespace Discovery
variable {entries : List (String × Node)}

/-- The libraries of a walk. -/
def libraries (root : String) (entries : List (String × Node)) : List Visited :=
  (Node.files root [] (.directory entries)).filter fun file =>
    hasSharedObjectSuffix (file.relative.getLast?.getD (Path.fileName root))

theorem discover_eq {tree : Node} {root : String}
    (hroot : tree.find root = .ok (.directory entries)) :
    discover tree root = if libraries root entries = [] then .error (.noLibraries root)
      else .ok ((libraries root entries).map (·.path)) := by
  simp only [discover,Node.walk_eq_of_find hroot,List.isEmpty_iff]
  rfl

variable (hsound : (Node.directory entries).IsSound)
include hsound

/-- A file of a walk is told to be a library by its name in the inventory too. -/
theorem isLibrary_ofVisited_iff {root : String} {file : Visited}
    (hfile : file ∈ Node.files root [] (.directory entries)) :
    (InventoryEntry.ofVisited file).IsLibrary ↔ file ∈ libraries root entries := by
  obtain ⟨below,octets,⟨executable,hfound⟩,rfl⟩ := (Node.mem_files_iff hsound root [] file).mp hfile
  have hne : below ≠ [] := by
    rintro rfl
    cases hfound
  rw [libraries,List.mem_filter,InventoryEntry.IsLibrary,InventoryEntry.path_ofVisited]
  rw [List.nil_append,Path.fileName_intercalate hne (hsound.names hfound),
    List.getLast?_eq_some_getLast hne,Option.getD_some]
  exact (and_iff_right hfile).symm

theorem exists_entry_iff (root : String) (archive : Option (Option String × Size)) (path : String) :
    (∃ entry ∈ (Inventory.ofVisited (Node.files root [] (.directory entries)) archive).files,
        entry.path = path ∧ entry.IsLibrary) ↔
      ∃ file ∈ libraries root entries, "/".intercalate file.relative = path := by
  have hperm : (Inventory.ofVisited (Node.files root [] (.directory entries)) archive).files.Perm
    (Inventory.listing root entries) := List.mergeSort_perm ..
  simp only [hperm.mem_iff,Inventory.listing,List.mem_map]
  constructor
  · rintro ⟨_,⟨file,hfile,rfl⟩,hpath,hlibrary⟩
    exact ⟨file,(isLibrary_ofVisited_iff hsound hfile).mp hlibrary,
      (InventoryEntry.path_ofVisited file).symm.trans hpath⟩
  · rintro ⟨file,hlibrary,hpath⟩
    have hfile := List.mem_of_mem_filter hlibrary
    exact ⟨_,⟨file,hfile,rfl⟩,(InventoryEntry.path_ofVisited file).trans hpath,
      (isLibrary_ofVisited_iff hsound hfile).mpr hlibrary⟩

theorem exists_library_iff (root : String) (archive : Option (Option String × Size)) :
    (∃ entry ∈ (Inventory.ofVisited (Node.files root [] (.directory entries)) archive).files,
        entry.IsLibrary) ↔ libraries root entries ≠ [] := by
  constructor
  · rintro ⟨entry,hentry,hlibrary⟩
    obtain ⟨file,hfile,_⟩ := (exists_entry_iff hsound root archive _).mp ⟨entry,hentry,rfl,hlibrary⟩
    exact List.ne_nil_of_mem hfile
  · intro hne
    obtain ⟨file,hfile⟩ := List.exists_mem_of_ne_nil _ hne
    obtain ⟨entry,hentry,_,hlibrary⟩ := (exists_entry_iff hsound root archive _).mpr ⟨file,hfile,rfl⟩
    exact ⟨entry,hentry,hlibrary⟩

theorem discovers_libraries {root : String} (hroot : root ≠ "")
    (archive : Option (Option String × Size)) :
    (Inventory.ofVisited (Node.files root [] (.directory entries)) archive).Discovers root
      ((libraries root entries).map (·.path)) ((libraries root entries).map (·.relative)) := by
  have hheld : ∀ file ∈ libraries root entries, ∃ below octets,
      (Node.directory entries).HoldsFile below octets ∧
        file = ⟨below.foldl Path.child root,below,octets⟩ := fun file hfile =>
    (Node.mem_files_iff hsound root [] file).mp (List.mem_of_mem_filter hfile)
  constructor
  case relative =>
    rw [List.forall₂_map_left_iff,List.forall₂_map_right_iff,List.forall₂_same]
    intro file hfile
    obtain ⟨below,octets,⟨executable,hfound⟩,rfl⟩ := hheld file hfile
    exact Path.steps_foldl_child hroot (hsound.names hfound)
  case joined =>
    intro names hnames
    obtain ⟨file,hfile,rfl⟩ := List.mem_map.mp hnames
    obtain ⟨below,octets,hholds,rfl⟩ := hheld file hfile
    exact hholds.pieces hsound
  case entries =>
    intro path
    rw [exists_entry_iff hsound]
    simp only [List.map_map,List.mem_map,Function.comp_apply]
  case once =>
    have hpaths := Inventory.nodup_paths_listing hsound root
    simp only [Inventory.listing,List.map_map,Function.comp_def,InventoryEntry.path_ofVisited]
      at hpaths
    rw [List.map_map]
    exact hpaths.sublist (List.filter_sublist.map _)
  case ordered =>
    refine List.pairwise_map.mpr (((Node.pairwise_files hsound root []).filter _).imp ?_)
    exact map_encodeString_lt

end Discovery

/-- **Discovery agrees with the inventory,** for every directory to which a path leads. -/
theorem Inventory.exists_build_agreesWith_discover {tree : Node} {root : String}
    {entries : List (String × Node)} (htree : tree.IsSound)
    (hroot : tree.find root = .ok (.directory entries)) :
    ∃ inventory, Inventory.build tree root none = .ok inventory ∧
      inventory.AgreesWith root (discover tree root) := by
  obtain ⟨place,hlocated,hplace⟩ := Node.find_eq_ok_iff.mp hroot
  have hsound := htree.of_at? hplace
  have hne : root ≠ "" := (Node.locate_eq_ok_iff.mp hlocated).1
  have hanswer := Discovery.discover_eq hroot
  have hlibrary := Discovery.exists_library_iff hsound root none
  refine ⟨.ofVisited (Node.files root [] (.directory entries)) none,?_,?_⟩
  · rw [build,Node.walk_eq_of_find hroot]
    rfl
  by_cases hnone : Discovery.libraries root entries = []
  · rw [hanswer,if_pos hnone]
    exact agreesWith_error root (mt hlibrary.mp (not_not_intro hnone))
  · rw [hanswer,if_neg hnone]
    exact agreesWith_ok (Discovery.discovers_libraries hsound hne none) (hlibrary.mpr hnone)

/-- Two libraries with one name in directories whose names begin alike. -/
theorem Inventory.exists_build_agreesWith_discover_two :
    let entries : List (String × Node) :=
      [("a-b",.directory [("x.so",.file [1] true)]),
        ("a",.directory [("x.so",.file [2] true),("x.py",.file [] false)])]
    let tree : Node := .directory [("p",.directory entries)]
    tree.IsSound ∧ tree.find "p/" = .ok (.directory entries) ∧
      ∃ inventory, Inventory.build tree "p/" none = .ok inventory ∧
        inventory.AgreesWith "p/" (discover tree "p/") := by
  intro entries tree
  have htree : tree.IsSound := by
    simp [tree,entries,Node.isSound_directory_iff,Node.isSound_file]
    decide
  have hroot : tree.find "p/" = .ok (.directory entries) :=
    Node.find_eq_ok_iff.mpr ⟨["p"],Node.locate_eq_ok_iff.mpr ⟨by decide,
      .enter (by decide) (by decide) rfl (.skip (Or.inl rfl) (.here _ _))⟩,rfl⟩
  exact ⟨htree,hroot,Inventory.exists_build_agreesWith_discover htree hroot⟩

/-- Name by name the directories come in the other order than their paths do as texts. -/
example : ["a","x.so"] < ["a-b","x.so"] ∧ "a-b/x.so" < "a/x.so" := by decide

end SizeSurvey
