import SizeSurvey.Proofs.Tree.Place

/-! # Following paths

The ways in which a path leads somewhere, step by step. A path that leads to a directory leads from
there on, and a path keeps leading where it led when the tree gains files and directories.
-/
namespace SizeSurvey.Node
variable {root root' : Node} {follow : Bool} {links : Nat} {here place : List String}
  {pieces : List String}

theorem locateFrom_name {name : String} (hskip : ¬(name = "" ∨ name = ".")) (hup : ¬name = "..")
    (rest : List String) :
    root.locateFrom follow links here (name :: rest) =
      match root.at? (here ++ [name]) with
      | none => if rest.isEmpty then .ok (here ++ [name]) else .error .notFound
      | some (.directory _) => root.locateFrom follow links (here ++ [name]) rest
      | some (.file _ _) => if rest.isEmpty then .ok (here ++ [name]) else .error .notADirectory
      | some (.link target) =>
        if rest.isEmpty && !follow then .ok (here ++ [name])
        else match links with
          | 0 => .error .tooManyLinks
          | links + 1 =>
            root.locateFrom follow links (linkStart here target) (Path.pieces target ++ rest) := by
  rw [locateFrom]
  exact (if_neg hskip).trans (if_neg hup)

theorem locateFrom_skip {name : String} (hskip : name = "" ∨ name = ".") (rest : List String) :
    root.locateFrom follow links here (name :: rest) = root.locateFrom follow links here rest := by
  rw [locateFrom,if_pos hskip]

theorem locateFrom_up (rest : List String) :
    root.locateFrom follow links here (".." :: rest) =
      root.locateFrom follow links here.dropLast rest := by
  rw [locateFrom,if_neg (by decide),if_pos rfl]

theorem linkStart_isPrefix (here : List String) (target : String) :
    linkStart here target <+: here := by
  unfold linkStart
  split
  · exact List.nil_prefix
  · exact List.prefix_refl here

/-- The steps by which the pieces of a path lead from one place to another. -/
inductive Leads (root : Node) (follow : Bool) :
    Nat → List String → List String → List String → Prop
  | here (links : Nat) (place : List String) : Leads root follow links place [] place
  | skip {links : Nat} {here rest place : List String} {name : String}
      (hskip : name = "" ∨ name = ".") (h : Leads root follow links here rest place) :
    Leads root follow links here (name :: rest) place
  | up {links : Nat} {here rest place : List String}
      (h : Leads root follow links here.dropLast rest place) :
    Leads root follow links here (".." :: rest) place
  | enter {links : Nat} {here rest place : List String} {name : String}
      (hskip : ¬(name = "" ∨ name = ".")) (hup : ¬name = "..") {entries : List (String × Node)}
      (hfound : root.at? (here ++ [name]) = some (directory entries))
      (h : Leads root follow links (here ++ [name]) rest place) :
    Leads root follow links here (name :: rest) place
  | free {links : Nat} {here : List String} {name : String}
      (hskip : ¬(name = "" ∨ name = ".")) (hup : ¬name = "..")
      (hfound : root.at? (here ++ [name]) = none) :
    Leads root follow links here [name] (here ++ [name])
  | file {links : Nat} {here : List String} {name : String}
      (hskip : ¬(name = "" ∨ name = ".")) (hup : ¬name = "..") {octets : List UInt8}
      {executable : Bool} (hfound : root.at? (here ++ [name]) = some (file octets executable)) :
    Leads root follow links here [name] (here ++ [name])
  | link {links : Nat} {here : List String} {name : String}
      (hskip : ¬(name = "" ∨ name = ".")) (hup : ¬name = "..") {target : String}
      (hfound : root.at? (here ++ [name]) = some (link target)) (hfollow : follow = false) :
    Leads root follow links here [name] (here ++ [name])
  | jump {links : Nat} {here rest place : List String} {name : String}
      (hskip : ¬(name = "" ∨ name = ".")) (hup : ¬name = "..") {target : String}
      (hfound : root.at? (here ++ [name]) = some (link target))
      (hgoes : ¬(rest.isEmpty && !follow) = true)
      (h : Leads root follow links (linkStart here target) (Path.pieces target ++ rest) place) :
    Leads root follow (links + 1) here (name :: rest) place

theorem Leads.locateFrom (h : Leads root follow links here pieces place) :
    root.locateFrom follow links here pieces = .ok place := by
  induction h with
  | here links place => rw [Node.locateFrom]
  | skip hskip _ ih => rwa [locateFrom_skip hskip]
  | up _ ih => rwa [locateFrom_up]
  | enter hskip hup hfound _ ih => rwa [locateFrom_name hskip hup,hfound]
  | free hskip hup hfound => rw [locateFrom_name hskip hup,hfound]; rfl
  | file hskip hup hfound => rw [locateFrom_name hskip hup,hfound]; rfl
  | link hskip hup hfound hfollow => rw [locateFrom_name hskip hup,hfound,hfollow]; rfl
  | jump hskip hup hfound hgoes _ ih =>
    rw [locateFrom_name hskip hup,hfound]
    simp only [if_neg hgoes]
    exact ih

theorem leads_of_locateFrom (h : root.locateFrom follow links here pieces = .ok place) :
    Leads root follow links here pieces place := by
  induction links,here,pieces using locateFrom.induct root follow with
  | case1 links here =>
    rw [locateFrom] at h
    cases h
    exact Leads.here links _
  | case2 links here name rest hskip ih =>
    rw [locateFrom_skip hskip] at h
    exact Leads.skip hskip (ih h)
  | case3 links here rest _ ih =>
    rw [locateFrom_up] at h
    exact Leads.up (ih h)
  | case4 links here name rest hskip hup _ hfound hlast =>
    rw [locateFrom_name hskip hup,hfound] at h
    simp only [if_pos hlast] at h
    cases h
    rw [List.isEmpty_iff.mp hlast]
    exact Leads.free hskip hup hfound
  | case6 links here name rest hskip hup _ entries hfound ih =>
    rw [locateFrom_name hskip hup,hfound] at h
    exact Leads.enter hskip hup hfound (ih h)
  | case7 links here name rest hskip hup _ octets executable hfound hlast =>
    rw [locateFrom_name hskip hup,hfound] at h
    simp only [if_pos hlast] at h
    cases h
    rw [List.isEmpty_iff.mp hlast]
    exact Leads.file hskip hup hfound
  | case9 links here name rest hskip hup _ target hfound hlast =>
    rw [locateFrom_name hskip hup,hfound] at h
    simp only [if_pos hlast] at h
    cases h
    obtain ⟨hrest,hfollow⟩ := Bool.and_eq_true_iff.mp hlast
    rw [List.isEmpty_iff.mp hrest]
    exact Leads.link hskip hup hfound (by simpa using hfollow)
  | case5 links here name rest hskip hup _ hfound hlast
  | case8 links here name rest hskip hup _ octets executable hfound hlast
  | case10 here name rest hskip hup _ target hfound hlast =>
    rw [locateFrom_name hskip hup,hfound] at h
    simp only [if_neg hlast] at h
    cases h
  | case11 here name rest hskip hup _ target hfound hlast links ih =>
    rw [locateFrom_name hskip hup,hfound] at h
    simp only [if_neg hlast] at h
    exact Leads.jump hskip hup hfound hlast (ih h)

/-- **A path leads somewhere if and only if there is one and its steps lead there.** -/
theorem locate_eq_ok_iff {path : String} : root.locate follow path = .ok place ↔
    path ≠ "" ∧ Leads root follow mostLinks [] (Path.pieces path) place := by
  unfold locate
  split
  next h => simp [h]
  next h => exact ⟨fun hlocated => ⟨h,leads_of_locateFrom hlocated⟩,fun hleads => hleads.2.locateFrom⟩

/-- **Following a path is not disturbed by new files and directories.** -/
theorem Leads.of_gains (hgains : ∀ other, Gains (root.at? other) (root'.at? other))
    (h : Leads root follow links here pieces place) :
    Leads root' follow links here pieces place := by
  induction h with
  | here links place => exact Leads.here links place
  | skip hskip _ ih => exact Leads.skip hskip ih
  | up _ ih => exact Leads.up ih
  | enter hskip hup hfound _ ih =>
    obtain ⟨entries',hfound'⟩ := Gains.of_directory (hfound ▸ hgains _)
    exact Leads.enter hskip hup hfound' ih
  | free hskip hup hfound =>
    rcases Gains.of_none (hfound ▸ hgains _) with
      hnone | ⟨octets,executable,hfile⟩ | ⟨entries,hdirectory⟩
    · exact Leads.free hskip hup hnone
    · exact Leads.file hskip hup hfile
    · exact Leads.enter hskip hup hdirectory (Leads.here _ _)
  | file hskip hup hfound =>
    obtain ⟨octets',executable',hfound'⟩ := Gains.of_file (hfound ▸ hgains _)
    exact Leads.file hskip hup hfound'
  | link hskip hup hfound hfollow =>
    exact Leads.link hskip hup (Gains.of_link (hfound ▸ hgains _)) hfollow
  | jump hskip hup hfound hgoes _ ih =>
    exact Leads.jump hskip hup (Gains.of_link (hfound ▸ hgains _)) hgoes ih

/-- A path to a directory may end with a slash. -/
theorem Leads.slash {entries : List (String × Node)} (h : Leads root follow links here pieces place)
    (hdirectory : root.at? place = some (directory entries)) :
    Leads root follow links here (pieces ++ [""]) place := by
  induction h with
  | here links place => exact Leads.skip (Or.inl rfl) (Leads.here links place)
  | skip hskip _ ih => exact Leads.skip hskip (ih hdirectory)
  | up _ ih => exact Leads.up (ih hdirectory)
  | enter hskip hup hfound _ ih => exact Leads.enter hskip hup hfound (ih hdirectory)
  | free hskip hup hfound => rw [hfound] at hdirectory; cases hdirectory
  | file hskip hup hfound => rw [hfound] at hdirectory; cases hdirectory
  | link hskip hup hfound hfollow => rw [hfound] at hdirectory; cases hdirectory
  | jump hskip hup hfound hgoes _ ih =>
    refine Leads.jump hskip hup hfound (by simp) ?_
    have hslash := ih hdirectory
    rwa [List.append_assoc] at hslash

theorem exists_of_append_blank {name : String} {rest : List String} (hname : name ≠ "")
    (h : pieces ++ [""] = name :: rest) : ∃ more, pieces = name :: more ∧ more ++ [""] = rest := by
  cases pieces with
  | nil => exact absurd (List.cons.inj h).1.symm hname
  | cons piece more =>
    obtain ⟨rfl,hrest⟩ := List.cons.inj h
    exact ⟨more,rfl,hrest⟩

/-- What follows a path to a directory is followed from that directory. -/
theorem Leads.append (h : Leads root true links here (pieces ++ [""]) place) :
    ∃ left, ∀ rest last, Leads root true left place rest last →
      Leads root true links here (pieces ++ rest) last := by
  generalize hall : pieces ++ [""] = all at h
  induction h generalizing pieces with
  | here links place => simp at hall
  | @skip links here rest place name hskip h ih =>
    -- The piece that is skipped may be the blank one at the end.
    rcases pieces with _ | ⟨piece,pieces⟩
    · cases hall
      cases h
      exact ⟨links,fun _ _ hrest => hrest⟩
    · obtain ⟨rfl,hrest⟩ := List.cons.inj hall
      obtain ⟨left,hleft⟩ := ih hrest
      exact ⟨left,fun rest last hlast => Leads.skip hskip (hleft rest last hlast)⟩
  | up _ ih =>
    obtain ⟨more,rfl,hrest⟩ := exists_of_append_blank (by decide) hall
    obtain ⟨left,hleft⟩ := ih hrest
    exact ⟨left,fun rest last hlast => Leads.up (hleft rest last hlast)⟩
  | enter hskip hup hfound _ ih =>
    obtain ⟨more,rfl,hrest⟩ := exists_of_append_blank (not_or.mp hskip).1 hall
    obtain ⟨left,hleft⟩ := ih hrest
    exact ⟨left,fun rest last hlast => Leads.enter hskip hup hfound (hleft rest last hlast)⟩
  | free hskip | file hskip | link hskip =>
    obtain ⟨more,_,hrest⟩ := exists_of_append_blank (not_or.mp hskip).1 hall
    simp at hrest
  | @jump links here rest place name hskip hup target hfound _ _ ih =>
    obtain ⟨more,rfl,hrest⟩ := exists_of_append_blank (not_or.mp hskip).1 hall
    have htarget : Path.pieces target ++ more ++ [""] = Path.pieces target ++ rest := by
      rw [List.append_assoc,hrest]
    obtain ⟨left,hleft⟩ := ih htarget
    refine ⟨left,fun after last hlast => Leads.jump hskip hup hfound (by simp) ?_⟩
    have hafter := hleft after last hlast
    rwa [List.append_assoc] at hafter

end SizeSurvey.Node
