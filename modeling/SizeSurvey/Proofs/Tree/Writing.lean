import SizeSurvey.Document.File
import SizeSurvey.Proofs.Tree.Following
import SizeSurvey.Proofs.Tree.Path

/-! # Writing into a directory

A document that is written under a name in a directory lands there unless the name is a link, and the
other entries stay. Documents that are written one after the other leave the last of each name.
-/
namespace SizeSurvey.Node
open NameMap
variable {root root' : Node} {directory : String} {place : List String}
  {entries : List (String × Node)}

theorem at?_append (node : Node) (before after : List String) :
    node.at? (before ++ after) = (node.at? before).bind (·.at? after) := by
  induction before generalizing node with
  | nil => rfl
  | cons name rest ih =>
    rw [List.cons_append,at?_cons,at?_cons]
    cases node.child? name with
    | none => rfl
    | some child => exact ih child

theorem at?_concat (h : root.at? place = some (.directory entries)) (name : String) :
    root.at? (place ++ [name]) = entries.lookup name := by
  rw [at?_append,h,Option.bind_some,at?_cons,child?]
  cases entries.lookup name <;> rfl

/-- A name that is a step of its own. -/
structure IsEntryName (name : String) : Prop where
  no_slash : '/' ∉ name.toList
  ne_empty : name ≠ ""
  ne_here : name ≠ "."
  ne_up : name ≠ ".."

instance (name : String) : Decidable (IsEntryName name) :=
  decidable_of_iff ('/' ∉ name.toList ∧ name ≠ "" ∧ name ≠ "." ∧ name ≠ "..")
    ⟨fun h => ⟨h.1,h.2.1,h.2.2.1,h.2.2.2⟩,fun h => ⟨h.1,h.2,h.3,h.4⟩⟩

/-- A path that leads to a directory with ordered entries. -/
structure LeadsTo (root : Node) (directory : String) (place : List String)
    (entries : List (String × Node)) : Prop where
  located : root.locate true directory = .ok place
  found : root.at? place = some (.directory entries)
  sorted : entries.Pairwise (·.1 < ·.1)

/-- Whether a name stands for another place. -/
def IsLink (entries : List (String × Node)) (name : String) : Prop :=
  ∃ target, entries.lookup name = some (.link target)

theorem not_isLink_of_lookup {octets : List UInt8} {executable : Bool} {name : String}
    (h : entries.lookup name = some (.file octets executable)) : ¬IsLink entries name := by
  rintro ⟨target,hlink⟩
  rw [h] at hlink
  cases hlink

theorem not_isLink_putEntry {key : String} (h : ¬IsLink entries key) (name : String)
    (octets : List UInt8) (executable : Bool) :
    ¬IsLink (putEntry name (.file octets executable) entries) key := by
  rintro ⟨target,hlink⟩
  rw [lookup_putEntry] at hlink
  split at hlink
  · cases hlink
  · exact h ⟨target,hlink⟩

/-- A name can be written to if it is free or a file has it. -/
def IsWritable (entries : List (String × Node)) (name : String) : Prop :=
  ∀ node, entries.lookup name = some node → node.isFile = true

theorem isWritable_nil (name : String) : IsWritable [] name := by
  intro node hnode
  cases hnode

theorem IsWritable.not_isLink {name : String} (h : IsWritable entries name) :
    ¬IsLink entries name := by
  rintro ⟨target,hlink⟩
  have hfile := h _ hlink
  cases hfile

theorem IsWritable.putEntry {key : String} (h : IsWritable entries key) (name : String)
    (octets : List UInt8) (executable : Bool) :
    IsWritable (putEntry name (.file octets executable) entries) key := by
  intro node hnode
  rw [lookup_putEntry] at hnode
  split at hnode
  · cases hnode
    rfl
  · exact h node hnode

namespace LeadsTo

theorem at?_child (h : LeadsTo root directory place entries) (name : String) :
    root.at? (place ++ [name]) = entries.lookup name :=
  at?_concat h.found name

theorem locate_child (h : LeadsTo root directory place entries) {name : String}
    (hname : IsEntryName name) (hlink : ¬IsLink entries name) :
    root.locate true (Path.child directory name) = .ok (place ++ [name]) := by
  obtain ⟨hne,hleads⟩ := locate_eq_ok_iff.mp h.located
  obtain ⟨front,hchild,hpieces⟩ := Path.pieces_child hne hname.no_slash
  have hslash : Leads root true mostLinks [] (front ++ [""]) place := by
    rcases hpieces with hpieces | hpieces
    · rw [hpieces] at hleads
      exact hleads.slash h.found
    · rwa [hpieces] at hleads
  obtain ⟨left,hleft⟩ := hslash.append
  have hskip : ¬(name = "" ∨ name = ".") := not_or.mpr ⟨hname.ne_empty,hname.ne_here⟩
  have hend : Leads root true left place [name] (place ++ [name]) := by
    have hfound := h.at?_child name
    cases hentry : entries.lookup name with
    | none => exact Leads.free hskip hname.ne_up (hfound.trans hentry)
    | some node =>
      cases node with
      | file _ _ => exact Leads.file hskip hname.ne_up (hfound.trans hentry)
      | directory _ => exact Leads.enter hskip hname.ne_up (hfound.trans hentry) (Leads.here left _)
      | link target => exact absurd ⟨target,hentry⟩ hlink
  have hstart : Path.child directory name ≠ "" := by
    obtain ⟨slash,htext⟩ := Path.exists_toList_child directory name
    rw [ne_eq,← String.toList_eq_nil_iff,htext]
    simp [hname.ne_empty]
  rw [locate_eq_ok_iff,hchild]
  exact ⟨hstart,hleft _ _ hend⟩

theorem read_child (h : LeadsTo root directory place entries) {name : String}
    (hname : IsEntryName name) {octets : List UInt8} {executable : Bool}
    (hfile : entries.lookup name = some (.file octets executable)) :
    root.read (Path.child directory name) = .ok octets := by
  have hlocated := h.locate_child hname (not_isLink_of_lookup hfile)
  simp [read,find,hlocated,h.at?_child,hfile,bind,Except.bind]

theorem size_child (h : LeadsTo root directory place entries) {name : String}
    (hname : IsEntryName name) {octets : List UInt8} {executable : Bool}
    (hfile : entries.lookup name = some (.file octets executable)) :
    root.size (Path.child directory name) = .ok (UInt64.ofNat octets.length) := by
  have hlocated := h.locate_child hname (not_isLink_of_lookup hfile)
  simp [size,find,hlocated,h.at?_child,hfile,bind,Except.bind]

theorem put_file (h : LeadsTo root directory place entries) {name : String}
    {octets : List UInt8} {executable : Bool}
    (hold : Takes (entries.lookup name) (.file octets executable)) :
    LeadsTo (root.put (place ++ [name]) (.file octets executable)) directory place
      (putEntry name (.file octets executable) entries) := by
  constructor
  case located =>
    obtain ⟨hpath,hleads⟩ := locate_eq_ok_iff.mp h.located
    exact locate_eq_ok_iff.mpr ⟨hpath,hleads.of_gains (gains_put h.found hold)⟩
  case found =>
    rw [put_append h.found [name]]
    exact at?_put_self ..
  case sorted => exact sorted_putEntry h.sorted ..

/-- **What a write leaves.** -/
theorem write_child (h : LeadsTo root directory place entries) {name : String}
    (hname : IsEntryName name) (hlink : ¬IsLink entries name) {octets : List UInt8}
    (hwritten : root.write (Path.child directory name) octets = .ok root') :
    ∃ executable, LeadsTo root' directory place
      (putEntry name (.file octets executable) entries) := by
  simp only [write,h.locate_child hname hlink,bind,Except.bind,h.at?_child] at hwritten
  cases hentry : entries.lookup name with
  | none =>
    rw [hentry] at hwritten
    cases hwritten
    exact ⟨false,h.put_file (by rw [hentry]; constructor)⟩
  | some node =>
    rw [hentry] at hwritten
    cases node with
    | file held executable =>
      cases hwritten
      exact ⟨executable,h.put_file (by rw [hentry]; constructor)⟩
    | directory _ => cases hwritten
    | link _ => cases hwritten

/-- What documents that were written into a directory have left there: each name holds its last
document, and what no document was called after is as before. -/
structure Left (documents : List (String × Json)) (before after : List (String × Node)) : Prop where
  written : ∀ name value, documents.reverse.lookup name = some value →
    ∃ executable, after.lookup name =
      some (.file (Text.Utf8.encode (Json.write 0 value)) executable)
  kept : ∀ name, documents.reverse.lookup name = none → after.lookup name = before.lookup name

theorem Left.cons {name : String} {value : Json} {rest : List (String × Json)}
    {before after : List (String × Node)} {executable : Bool}
    (h : Left rest
      (putEntry name (.file (Text.Utf8.encode (Json.write 0 value)) executable) before) after) :
    Left ((name,value) :: rest) before after := by
  have hlookup : ∀ key, ((name,value) :: rest).reverse.lookup key =
      (rest.reverse.lookup key).or (if key = name then some value else none) := by
    intro key
    rw [List.reverse_cons,List.lookup_append,lookup_cons_eq_ite]
    rfl
  constructor
  case written =>
    intro key other hother
    rw [hlookup] at hother
    cases hrest : rest.reverse.lookup key with
    | some last =>
      rw [hrest] at hother
      cases hother
      exact h.written key _ hrest
    | none =>
      rw [hrest,Option.none_or] at hother
      rw [h.kept key hrest,lookup_putEntry]
      split at hother
      next heq => cases hother; exact ⟨executable,if_pos heq⟩
      next => cases hother
  case kept =>
    intro key hnone
    obtain ⟨hrest,hne⟩ := Option.or_eq_none_iff.mp ((hlookup key).symm.trans hnone)
    rw [h.kept key hrest,lookup_putEntry]
    split at hne
    next => cases hne
    next hkey => exact if_neg hkey

/-- **A run of writes leaves the last document of each name.** -/
theorem writeAll (h : LeadsTo root directory place entries) {documents : List (String × Json)}
    (hnames : ∀ document ∈ documents, IsEntryName document.1)
    (hlinks : ∀ document ∈ documents, ¬IsLink entries document.1)
    (hwritten : root.writeAll directory documents = (root',none)) :
    ∃ left, LeadsTo root' directory place left ∧ Left documents entries left := by
  induction documents generalizing root entries with
  | nil =>
    cases hwritten
    exact ⟨entries,h,⟨fun _ _ hvalue => (nomatch hvalue),fun _ _ => rfl⟩⟩
  | cons document rest ih =>
    obtain ⟨name,value⟩ := document
    obtain ⟨hname,hrest⟩ := List.forall_mem_cons.mp hnames
    obtain ⟨hlink,hothers⟩ := List.forall_mem_cons.mp hlinks
    rw [Node.writeAll,writeJson] at hwritten
    cases hfirst : root.write (Path.child directory name) (Text.Utf8.encode (Json.write 0 value)) with
    | error trouble =>
      rw [hfirst] at hwritten
      cases hwritten
    | ok next =>
      rw [hfirst] at hwritten
      obtain ⟨executable,hnext⟩ := h.write_child hname hlink hfirst
      have hnolinks := fun other hother => not_isLink_putEntry (hothers other hother) name
        (Text.Utf8.encode (Json.write 0 value)) executable
      obtain ⟨left,hleft,hlast⟩ := ih hnext hrest hnolinks hwritten
      exact ⟨left,hleft,hlast.cons⟩

theorem exists_write_child (h : LeadsTo root directory place entries) {name : String}
    (hname : IsEntryName name) (hwritable : IsWritable entries name) (octets : List UInt8) :
    ∃ root', root.write (Path.child directory name) octets = .ok root' := by
  simp only [write,h.locate_child hname hwritable.not_isLink,bind,Except.bind,h.at?_child]
  cases hentry : entries.lookup name with
  | none => exact ⟨_,rfl⟩
  | some node =>
    have hfile := hwritable node hentry
    cases node with
    | file _ _ => exact ⟨_,rfl⟩
    | directory _ => cases hfile
    | link _ => cases hfile

/-- Documents can be written into a directory where only files have their names. -/
theorem exists_writeAll (h : LeadsTo root directory place entries)
    {documents : List (String × Json)} (hnames : ∀ document ∈ documents, IsEntryName document.1)
    (hwritable : ∀ document ∈ documents, IsWritable entries document.1) :
    ∃ root', root.writeAll directory documents = (root',none) := by
  induction documents generalizing root entries with
  | nil => exact ⟨root,rfl⟩
  | cons document rest ih =>
    obtain ⟨name,value⟩ := document
    obtain ⟨hname,hrest⟩ := List.forall_mem_cons.mp hnames
    obtain ⟨hfirst,hothers⟩ := List.forall_mem_cons.mp hwritable
    obtain ⟨next,hwritten⟩ :=
      h.exists_write_child hname hfirst (Text.Utf8.encode (Json.write 0 value))
    obtain ⟨executable,hnext⟩ := h.write_child hname hfirst.not_isLink hwritten
    have hstill := fun other hother => (hothers other hother).putEntry name
      (Text.Utf8.encode (Json.write 0 value)) executable
    obtain ⟨root',hroot⟩ := ih hnext hrest hstill
    exact ⟨root',by rw [Node.writeAll,writeJson,hwritten]; exact hroot⟩

end LeadsTo

end SizeSurvey.Node
