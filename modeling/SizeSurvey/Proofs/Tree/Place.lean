import SizeSurvey.Proofs.NameMap
import SizeSurvey.Tree.Basic

/-! # Places in a tree

What a tree holds at a place after a node was put somewhere, and which paths still lead where they
led. A tree that only gains files and directories keeps every path that leads anywhere.
-/
namespace SizeSurvey.Node
open NameMap

/-! ## Entries -/

theorem putEntry_eq_insertEntry (name : String) (node : Node) (entries : List (String × Node)) :
    putEntry name node entries = insertEntry name node entries := by
  induction entries with
  | nil => rfl
  | cons entry rest ih => rw [putEntry,insertEntry,ih]

theorem lookup_putEntry (name key : String) (node : Node) (entries : List (String × Node)) :
    (putEntry name node entries).lookup key =
      if key = name then some node else entries.lookup key := by
  rw [putEntry_eq_insertEntry,lookup_insertEntry]

theorem sorted_putEntry {entries : List (String × Node)} (h : entries.Pairwise (·.1 < ·.1))
    (name : String) (node : Node) : (putEntry name node entries).Pairwise (·.1 < ·.1) := by
  rw [putEntry_eq_insertEntry]
  exact sorted_insertEntry name node h

/-! ## Places -/

theorem at?_cons (node : Node) (name : String) (rest : List String) :
    node.at? (name :: rest) = (node.child? name).bind (·.at? rest) := by
  rw [at?]
  cases node.child? name <;> rfl

theorem child?_put_cons (node : Node) (name key : String) (rest : List String) (new : Node) :
    (node.put (name :: rest) new).child? key =
      if key = name then some (((node.child? name).getD empty).put rest new)
      else node.child? key := by
  rw [put,child?,lookup_putEntry]
  cases node <;> rfl

theorem at?_put_self (node : Node) (place : List String) (new : Node) :
    (node.put place new).at? place = some new := by
  induction place generalizing node with
  | nil => rfl
  | cons name rest ih =>
    rw [at?_cons,child?_put_cons,if_pos rfl]
    exact ih _

/-- Putting something into a directory changes the directory and nothing else. -/
theorem put_append {node child : Node} {place : List String} (h : node.at? place = some child)
    (below : List String) (new : Node) :
    node.put (place ++ below) new = node.put place (child.put below new) := by
  induction place generalizing node with
  | nil => rw [Option.some_inj.mp h]; rfl
  | cons name rest ih =>
    rw [at?_cons] at h
    cases hchild : node.child? name with
    | none => rw [hchild] at h; cases h
    | some next =>
      rw [hchild] at h
      rw [List.cons_append,put,put,hchild,Option.getD_some,ih h]

/-- **What is where after a node was put into a directory:** the new node and what is below it,
directories around it, and elsewhere what was there before. -/
theorem at?_put_cases {node : Node} {place : List String} {entries : List (String × Node)}
    (h : node.at? place = some (directory entries)) (name : String) (new : Node)
    (other : List String) :
    (∃ below, other = place ++ name :: below ∧
      node.at? other = (entries.lookup name).bind (·.at? below) ∧
      (node.put (place ++ [name]) new).at? other = new.at? below) ∨
    (∃ entries entries', node.at? other = some (directory entries) ∧
      (node.put (place ++ [name]) new).at? other = some (directory entries')) ∨
    (node.put (place ++ [name]) new).at? other = node.at? other := by
  induction place generalizing node other with
  | nil =>
    cases Option.some_inj.mp h
    cases other with
    | nil => exact Or.inr (Or.inl ⟨entries,_,rfl,rfl⟩)
    | cons key below =>
      rw [List.nil_append,at?_cons,at?_cons,child?_put_cons]
      by_cases hkey : key = name
      · subst hkey
        exact Or.inl ⟨below,rfl,rfl,by rw [if_pos rfl]; rfl⟩
      · exact Or.inr (Or.inr (by rw [if_neg hkey]))
  | cons first rest ih =>
    rw [at?_cons] at h
    obtain ⟨next,hchild,hnext⟩ := Option.bind_eq_some_iff.mp h
    cases other with
    | nil =>
      cases node with
      | directory held => exact Or.inr (Or.inl ⟨held,_,rfl,rfl⟩)
      | file _ _ => cases hchild
      | link _ => cases hchild
    | cons key tail =>
      rw [List.cons_append,at?_cons,at?_cons,child?_put_cons]
      by_cases hkey : key = first
      · subst hkey
        rw [if_pos rfl,hchild,Option.getD_some,Option.bind_some,Option.bind_some]
        refine (ih hnext tail).imp_left ?_
        rintro ⟨below,rfl,hbelow⟩
        exact ⟨below,rfl,hbelow⟩
      · exact Or.inr (Or.inr (by rw [if_neg hkey]))

/-! ## Trees that gain files and directories -/

/-- A place that keeps its directory, file or link, or gains a file or a directory where nothing
was. -/
inductive Gains : Option Node → Option Node → Prop
  | none : Gains none none
  | new (octets : List UInt8) (executable : Bool) : Gains none (some (file octets executable))
  | made (entries : List (String × Node)) : Gains none (some (directory entries))
  | file (octets octets' : List UInt8) (executable executable' : Bool) :
    Gains (some (file octets executable)) (some (file octets' executable'))
  | directory (entries entries' : List (String × Node)) :
    Gains (some (directory entries)) (some (directory entries'))
  | link (target : String) : Gains (some (link target)) (some (link target))

theorem Gains.refl (found : Option Node) : Gains found found := by
  rcases found with _ | ⟨_ | _ | _⟩ <;> constructor

theorem Gains.trans {found found' found'' : Option Node} (h : Gains found found')
    (h' : Gains found' found'') : Gains found found'' := by
  cases h <;> cases h' <;> constructor

theorem Gains.of_none {found : Option Node} (h : Gains .none found) :
    found = .none ∨ (∃ octets executable, found = some (.file octets executable)) ∨
      ∃ entries, found = some (.directory entries) := by
  cases h with
  | none => exact Or.inl rfl
  | new octets executable => exact Or.inr (Or.inl ⟨octets,executable,rfl⟩)
  | made entries => exact Or.inr (Or.inr ⟨entries,rfl⟩)

theorem Gains.of_file {octets : List UInt8} {executable : Bool} {found : Option Node}
    (h : Gains (some (.file octets executable)) found) :
    ∃ octets' executable', found = some (.file octets' executable') := by
  cases h
  exact ⟨_,_,rfl⟩

theorem Gains.of_directory {entries : List (String × Node)} {found : Option Node}
    (h : Gains (some (.directory entries)) found) :
    ∃ entries', found = some (.directory entries') := by
  cases h
  exact ⟨_,rfl⟩

theorem Gains.of_link {target : String} {found : Option Node}
    (h : Gains (some (.link target)) found) : found = some (.link target) := by
  cases h
  rfl

/-- What may come to a place without disturbing any path: a file where a file or nothing was, or an
empty directory where nothing was. -/
inductive Takes : Option Node → Node → Prop
  | file (octets : List UInt8) (executable : Bool) : Takes none (file octets executable)
  | over (octets octets' : List UInt8) (executable executable' : Bool) :
    Takes (some (.file octets executable)) (.file octets' executable')
  | directory : Takes none empty

theorem Takes.gains {found : Option Node} {new : Node} (h : Takes found new) (below : List String) :
    Gains (found.bind (·.at? below)) (new.at? below) := by
  cases h <;> cases below <;> constructor

theorem gains_put {node : Node} {place : List String} {entries : List (String × Node)}
    (h : node.at? place = some (directory entries)) {name : String} {new : Node}
    (hname : Takes (entries.lookup name) new) (other : List String) :
    Gains (node.at? other) ((node.put (place ++ [name]) new).at? other) := by
  rcases at?_put_cases h name new other with
    ⟨below,_,hbefore,hafter⟩ | ⟨entries,entries',hbefore,hafter⟩ | hsame
  · rw [hbefore,hafter]
    exact hname.gains below
  · rw [hbefore,hafter]
    exact Gains.directory entries entries'
  · rw [hsame]
    exact Gains.refl _

end SizeSurvey.Node
