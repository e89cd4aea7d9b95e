import SizeSurvey.Proofs.Listing.AbiAudit

/-! # System libraries of an audit

The list of libraries goes up to the first blank line. Its pieces between commas are a library with its
first version and then the other versions; only the first of them names a library.
-/
namespace SizeSurvey
open Text AbiAudit

/-! ## Pieces between commas -/

/-- Pieces that name these libraries, in whatever way they are wrapped. -/
def ListsLibraries (pieces names : List (List Char)) : Prop :=
  ∀ wrapped, List.Forall₂ Wraps pieces wrapped →
    wrapped.filterMap (fun piece => library? (withoutBraces piece)) = names

namespace ListsLibraries
variable {pieces pieces' names names' : List (List Char)}

theorem append (h : ListsLibraries pieces names) (h' : ListsLibraries pieces' names') :
    ListsLibraries (pieces ++ pieces') (names ++ names') := by
  intro wrapped hwrapped
  have hfront := List.forall₂_take_append wrapped pieces pieces' hwrapped.flip |>.flip
  have hback := List.forall₂_drop_append wrapped pieces pieces' hwrapped.flip |>.flip
  rw [← h _ hfront,← h' _ hback,← List.filterMap_append,List.take_append_drop]

theorem singleton {piece : List Char}
    (h : ∀ wrapped, Wraps piece wrapped → (library? (withoutBraces wrapped)).toList = names) :
    ListsLibraries [piece] names := by
  rintro _ (_ | ⟨hpiece,_ | _⟩)
  rw [← h _ hpiece,List.filterMap_cons]
  cases library? (withoutBraces _) <;> rfl

end ListsLibraries

theorem withoutBraces_append (text text' : List Char) :
    withoutBraces (text ++ text') = withoutBraces text ++ withoutBraces text' :=
  List.map_append

theorem withoutBraces_of_not_mem {text : List Char} (h : '\x7b' ∉ text) (h' : '\x7d' ∉ text) :
    withoutBraces text = text := by
  have hsame : ∀ c ∈ text, (if c = '\x7b' ∨ c = '\x7d' then ' ' else c) = c := by
    intro c hc
    rw [if_neg]
    rintro (rfl | rfl)
    · exact h hc
    · exact h' hc
  exact (List.map_congr_left hsame).trans (List.map_id' text)

theorem withoutBraces_of_blank {text : List Char} (h : ∀ c ∈ text, isBlank c = true) :
    withoutBraces text = text :=
  withoutBraces_of_not_mem (fun hmem => nomatch h _ hmem) fun hmem => nomatch h _ hmem

theorem trimEnd_isPrefix (text : List Char) : trimEnd text <+: text := by
  have hsuffix := List.dropWhile_suffix isBlank (l := text.reverse)
  rwa [← List.reverse_prefix,List.reverse_reverse] at hsuffix

theorem library?_of_quote {gap : Char} (hgap : isBlank gap = true) (rest : List Char) :
    library? (gap :: '\'' :: rest) = none := by
  have hstart : trimStart (gap :: '\'' :: rest) = '\'' :: rest :=
    (List.dropWhile_cons_of_pos hgap).trans (List.dropWhile_cons_of_neg (by decide))
  have hopens : "lib".toList.isPrefixOf (trim (gap :: '\'' :: rest)) = false := by
    rw [Bool.eq_false_iff,ne_eq,List.isPrefixOf_iff_prefix,trim,hstart]
    intro hlib
    obtain ⟨tail,htail⟩ := hlib.trans (trimEnd_isPrefix _)
    exact absurd (List.cons.inj htail).1 (by decide)
  rw [library?,hopens]
  rfl

theorem library?_of_name {name rest after : List Char} {gap gap' : Char} (hlib : "lib".toList <+: name)
    (hname : IsWord name) (hgap : isBlank gap = true) (hgap' : IsGap [gap']) (hspace : ' ' ∈ rest)
    (hafter : ∀ c ∈ after, isBlank c = true) :
    library? (gap :: (name ++ gap' :: (rest ++ '\'' :: after))) = some name := by
  obtain ⟨c,tail,hcons⟩ := List.exists_cons_of_ne_nil hname.1
  have htrim : trim ([gap] ++ ((name ++ ([gap'] ++ (rest ++ ['\'']))) ++ after)) =
      name ++ ([gap'] ++ (rest ++ ['\''])) := by
    refine trim_pad (by simpa using hgap) hafter ?_ ?_
    · intro d hd
      rw [hcons] at hd
      obtain rfl := Option.some_inj.mp hd
      exact hname.2 c (hcons ▸ List.mem_cons_self)
    · rw [← List.append_assoc,← List.append_assoc,List.getLast?_concat]
      rintro d ⟨⟩
      rfl
  have htext : gap :: (name ++ gap' :: (rest ++ '\'' :: after)) =
      [gap] ++ ((name ++ ([gap'] ++ (rest ++ ['\'']))) ++ after) := by
    simp
  have hopens : "lib".toList.isPrefixOf (name ++ ([gap'] ++ (rest ++ ['\'']))) = true :=
    List.isPrefixOf_iff_prefix.mpr (hlib.trans (List.prefix_append ..))
  rw [library?,htext,htrim,hopens,words_append hname hgap']
  simp [hspace]

namespace UsedLibrary
variable (library : UsedLibrary)

theorem name_isWord : IsWord library.name.toList := by
  refine ⟨?_,fun c hc => (library.name_isName c hc).1⟩
  intro hnil
  have hlength := library.name_isLibrary.length_le
  rw [hnil] at hlength
  exact absurd hlength (by decide)

theorem library?_of_mention {ends wrapped : List Char} (hends : ends = [] ∨ ends = ['\x7d'])
    (h : Wraps (' ' :: library.mention ++ ends) wrapped) :
    library? (withoutBraces wrapped) = some library.name.toList := by
  have hname : ' ' ∉ library.name.toList := name_not_mem library.name_isName (by decide)
  have hversion : ' ' ∉ library.version.toList := name_not_mem library.version_isName (by decide)
  have hspelled : ' ' :: library.mention ++ ends = ' ' :: (library.name.toList ++ ' ' ::
      ("with versions \x7b'".toList ++ (library.version.toList ++ '\'' :: ends))) := by
    simp [mention]
  rw [hspelled] at h
  obtain ⟨gap,named,rfl,hgap,hnamed⟩ := h.exists_gap
  obtain ⟨spaced,rfl,hspaced⟩ := hnamed.exists_word hname
  obtain ⟨gap',rest,rfl,hgap',hrest⟩ := hspaced.exists_gap
  obtain ⟨words,version,rfl,hwords,hversions⟩ := hrest.exists_append
  obtain rfl := hversions.eq_of_not_mem (by rcases hends with rfl | rfl <;> simp [hversion])
  have hparts : gap :: (library.name.toList ++ gap' ::
      (words ++ (library.version.toList ++ '\'' :: ends))) = [gap] ++ (library.name.toList ++
        ([gap'] ++ (words ++ (library.version.toList ++ (['\''] ++ ends))))) := rfl
  have hplain : withoutBraces library.name.toList = library.name.toList := withoutBraces_of_not_mem
    (name_not_mem library.name_isName (by decide)) (name_not_mem library.name_isName (by decide))
  have hquote : withoutBraces ['\''] = ['\''] := rfl
  rw [hparts]
  simp only [withoutBraces_append,withoutBraces_of_blank hgap.2,withoutBraces_of_blank hgap'.2,hplain,
    hquote]
  have hblank : ∀ c ∈ withoutBraces ends, isBlank c = true := by
    intro c hc
    rcases hends with rfl | rfl
    · cases hc
    · rw [List.mem_singleton.mp hc]
      rfl
  have hspace : ' ' ∈ withoutBraces words ++ withoutBraces library.version.toList :=
    List.mem_append_left _ (List.mem_map.mpr ⟨'\x7b',hwords.mem (by decide) (by decide),rfl⟩)
  have hnamed := library?_of_name library.name_isLibrary library.name_isWord
    (hgap.2 gap List.mem_cons_self) hgap' hspace hblank
  rwa [List.append_assoc] at hnamed

theorem lists_of_quote (rest : List Char) : ListsLibraries [' ' :: '\'' :: rest] [] := by
  refine ListsLibraries.singleton fun wrapped h => ?_
  obtain ⟨gap,quoted,rfl,hgap,hquoted⟩ := h.exists_gap
  have hword : Wraps (['\''] ++ rest) quoted := hquoted
  obtain ⟨after,rfl,-⟩ := hword.exists_word (by decide)
  have hplain : withoutBraces ([gap] ++ (['\''] ++ after)) = gap :: '\'' :: withoutBraces after := by
    rw [withoutBraces_append,withoutBraces_of_blank hgap.2]
    rfl
  have hnone := (congrArg library? hplain).trans (library?_of_quote (hgap.2 gap List.mem_cons_self) _)
  exact congrArg Option.toList hnone

theorem lists_versionList {versions : List String} {start : List Char} {names : List (List Char)}
    (h : ∀ version ∈ versions, ∀ c ∈ version.toList, IsNameChar c) (hcomma : ',' ∉ start)
    (hstart : ∀ ends, ends = [] ∨ ends = ['\x7d'] → ListsLibraries [start ++ ends] names) :
    ListsLibraries (splitAt ',' (start ++ (versionList versions ++ ['\x7d']))) names := by
  induction versions generalizing start names with
  | nil =>
    have hfree : ',' ∉ start ++ ['\x7d'] := by simp [hcomma]
    have hone := hstart ['\x7d'] (Or.inr rfl)
    rwa [← splitAt_of_not_mem hfree] at hone
  | cons version versions ih =>
    obtain ⟨hversion,hversions⟩ := List.forall_mem_cons.mp h
    have hfree : ',' ∉ version.toList := name_not_mem hversion (by decide)
    have hspelled : start ++ (versionList (version :: versions) ++ ['\x7d']) =
        start ++ ',' :: ((' ' :: '\'' :: (version.toList ++ ['\''])) ++
          (versionList versions ++ ['\x7d'])) := by
      simp [versionList]
    have hquoted : ',' ∉ ' ' :: '\'' :: (version.toList ++ ['\'']) := by simp [hfree]
    have hrest := ih hversions hquoted fun ends _ => lists_of_quote _
    have hfirst := hstart [] (Or.inl rfl)
    rw [List.append_nil] at hfirst
    have hboth := hfirst.append hrest
    rwa [List.append_nil,← splitAt_of_not_mem hcomma,← splitAt_append,← hspelled] at hboth

theorem lists_description :
    ListsLibraries (splitAt ',' (' ' :: library.description)) [library.name.toList] := by
  have hname : ',' ∉ library.name.toList := name_not_mem library.name_isName (by decide)
  have hversion : ',' ∉ library.version.toList := name_not_mem library.version_isName (by decide)
  have hcomma : ',' ∉ ' ' :: library.mention := by simp [mention,hname,hversion]
  have hlists := lists_versionList library.otherVersions_areNames hcomma fun ends hends =>
    ListsLibraries.singleton fun wrapped h => congrArg Option.toList (library.library?_of_mention hends h)
  exact hlists

theorem lists_descriptions (others : List UsedLibrary) :
    ListsLibraries (splitAt ',' (' ' :: join ", ".toList ((library :: others).map description)))
      ((library :: others).map (·.name.toList)) := by
  induction others generalizing library with
  | nil => exact library.lists_description
  | cons next others ih =>
    have hspelled : ' ' :: join ", ".toList ((library :: next :: others).map description) =
        ' ' :: library.description ++ ',' :: (' ' :: join ", ".toList ((next :: others).map description)) := by
      simp [join]
    have hboth := library.lists_description.append (ih next)
    rwa [← splitAt_append,← hspelled] at hboth

/-! ## Pieces between spaces -/

/-- What can stand between two spaces of the list. -/
def IsPiece (piece : List Char) : Prop :=
  '\'' ∈ piece ∨ "lib".toList <+: piece ∨ piece = "with".toList ∨ piece = "versions".toList

theorem not_isPiece_nil : ¬IsPiece [] := by
  rintro (h | h | h | h)
  · cases h
  · exact absurd (List.prefix_nil.mp h) (by decide)
  · exact absurd h (by decide)
  · exact absurd h (by decide)

theorem not_isPiece_shared : ¬IsPiece "shared".toList := by
  rintro (h | ⟨rest,h⟩ | h | h)
  · exact absurd h (by decide)
  · exact absurd (List.cons.inj h).1 (by decide)
  · exact absurd h (by decide)
  · exact absurd h (by decide)

/-- A text that can stand behind a version of the list, which its first piece goes on with. -/
def EndsVersion (after : List Char) : Prop :=
  ∀ start, ' ' ∉ start → '\'' ∈ start → ∀ piece ∈ splitAt ' ' (start ++ after), IsPiece piece

theorem endsVersion_of_not_mem {after : List Char} (h : ' ' ∉ after) : EndsVersion after := by
  intro start hstart hquote
  rw [splitAt_of_not_mem (by simp [hstart,h]),List.forall_mem_singleton]
  exact Or.inl (List.mem_append_left after hquote)

theorem endsVersion_append {front after : List Char} (hfront : ' ' ∉ front)
    (hafter : ∀ piece ∈ splitAt ' ' after, IsPiece piece) : EndsVersion (front ++ ' ' :: after) := by
  intro start hstart hquote
  rw [← List.append_assoc,splitAt_append,splitAt_of_not_mem (by simp [hstart,hfront])]
  exact List.forall_mem_cons.mpr ⟨Or.inl (List.mem_append_left front hquote),hafter⟩

theorem endsVersion_versionList {versions : List String} {after : List Char}
    (h : ∀ version ∈ versions, ∀ c ∈ version.toList, IsNameChar c) (hafter : EndsVersion after) :
    EndsVersion (versionList versions ++ after) := by
  induction versions with
  | nil => exact hafter
  | cons version versions ih =>
    obtain ⟨hversion,hversions⟩ := List.forall_mem_cons.mp h
    have hspace : ' ' ∉ version.toList := name_not_mem hversion (by decide)
    have hspelled : versionList (version :: versions) ++ after = [','] ++ ' ' ::
        ('\'' :: (version.toList ++ ['\'']) ++ (versionList versions ++ after)) := by
      simp [versionList]
    rw [hspelled]
    exact endsVersion_append (by decide) (ih hversions _ (by simp [hspace]) List.mem_cons_self)

theorem isPiece_description {after : List Char} (hafter : EndsVersion ('\x7d' :: after)) :
    ∀ piece ∈ splitAt ' ' (library.description ++ after), IsPiece piece := by
  have hname : ' ' ∉ library.name.toList := name_not_mem library.name_isName (by decide)
  have hversion : ' ' ∉ library.version.toList := name_not_mem library.version_isName (by decide)
  have hspelled : library.description ++ after = library.name.toList ++ ' ' :: ("with".toList ++ ' ' ::
      ("versions".toList ++ ' ' :: ('\x7b' :: '\'' :: (library.version.toList ++ ['\'']) ++
        (versionList library.otherVersions ++ '\x7d' :: after)))) := by
    simp [description,mention]
  have hwith : ' ' ∉ "with".toList := by decide
  have hplural : ' ' ∉ "versions".toList := by decide
  have hversions := endsVersion_versionList library.otherVersions_areNames hafter
    ('\x7b' :: '\'' :: (library.version.toList ++ ['\''])) (by simp [hversion]) (by simp)
  rw [hspelled,splitAt_append,splitAt_append,splitAt_append,splitAt_of_not_mem hname,
    splitAt_of_not_mem hwith,splitAt_of_not_mem hplural]
  refine List.forall_mem_cons.mpr ⟨Or.inr (Or.inl library.name_isLibrary),?_⟩
  refine List.forall_mem_cons.mpr ⟨Or.inr (Or.inr (Or.inl rfl)),?_⟩
  exact List.forall_mem_cons.mpr ⟨Or.inr (Or.inr (Or.inr rfl)),hversions⟩

theorem isPiece_descriptions (others : List UsedLibrary) {after : List Char} (hspace : ' ' ∉ after) :
    ∀ piece ∈ splitAt ' ' (join ", ".toList ((library :: others).map description) ++ after),
      IsPiece piece := by
  induction others generalizing library with
  | nil => exact library.isPiece_description (endsVersion_of_not_mem (by simp [hspace]))
  | cons next others ih =>
    have hspelled : join ", ".toList ((library :: next :: others).map description) ++ after =
        library.description ++ ([','] ++ ' ' :: (join ", ".toList ((next :: others).map description) ++
          after)) := by
      simp [join]
    rw [hspelled]
    have hfront : ' ' ∉ ['\x7d',','] := by decide
    exact library.isPiece_description (endsVersion_append hfront (ih next))

end UsedLibrary

/-! ## The place of the list -/

namespace AuditedPackage
variable (package : AuditedPackage) {text : String}

theorem isPiece_listing {after : List Char} (hafter : ' ' ∉ after) :
    ∀ piece ∈ splitAt ' ' (package.listing ++ after), UsedLibrary.IsPiece piece ∨ piece = after := by
  rw [listing]
  cases package.libraries with
  | nil =>
    rw [List.map_nil,join,List.nil_append,splitAt_of_not_mem hafter,List.forall_mem_singleton]
    exact Or.inr rfl
  | cons library others => exact fun piece h => Or.inl (library.isPiece_descriptions others hafter piece h)

/-- What stands between the file and the word `shared`. -/
def beforeShared : List Char :=
  "is consistent with the following platform tag:".toList ++ ' ' ::
    ((quoted package.platformTag ++ '.' :: '\n' :: '\n' :: "The".toList) ++ ' ' ::
      "wheel references external versioned symbols in these system-provided".toList)

/-- What stands between the list and the advice. -/
def closing : List Char :=
  '\n' :: '\n' :: "This".toList ++ ' ' :: ("constrains the platform tag to".toList ++ ' ' ::
    (quoted package.constrainedTag ++ ['.']))

theorem compatibility_eq :
    package.compatibility = package.file.toList ++ ' ' ::
      ("is consistent with the following platform tag:".toList ++ [' ']) ++
        (quoted package.platformTag ++ ['.']) :=
  congrArg (package.file.toList ++ · ++ (quoted package.platformTag ++ ['.'])) (by decide)

theorem references_eq :
    package.references =
      "The".toList ++ ' ' :: ("wheel references external versioned symbols in these system-provided".toList ++
        ' ' :: ("shared".toList ++ ' ' :: ("libraries:".toList ++ [' ']))) ++ package.listing :=
  congrArg (· ++ package.listing) (by decide)

theorem constraint_eq :
    package.constraint = "This".toList ++ ' ' :: ("constrains the platform tag to".toList ++ [' ']) ++
      (quoted package.constrainedTag ++ '.' :: package.advice.toList) :=
  congrArg (· ++ (quoted package.constrainedTag ++ '.' :: package.advice.toList)) (by decide)

theorem paragraphs_eq_around :
    package.paragraphs = (package.file.toList ++ ' ' :: (package.beforeShared ++ ' ' :: ("shared".toList ++
      ' ' :: ("libraries:".toList ++ ' ' :: (package.listing ++ package.closing))))) ++
        package.advice.toList := by
  rw [paragraphs_eq,compatibility_eq,references_eq,constraint_eq]
  delta beforeShared closing
  simp only [List.append_assoc,List.cons_append,List.nil_append]

theorem shared_not_mem_before : "shared".toList ∉ splitAt ' ' package.beforeShared := by
  have hquoted : ' ' ∉ quoted package.platformTag ++ '.' :: '\n' :: '\n' :: "The".toList := by
    have htag := (tag_not_mem package.platformTag_isTag).2
    simp [quoted,htag]
  have hne : "shared".toList ≠ quoted package.platformTag ++ '.' :: '\n' :: '\n' :: "The".toList :=
    fun h => absurd (List.cons.inj h).1 (by decide)
  exact not_mem_splitAt_append (by decide)
    (not_mem_splitAt_append (not_mem_splitAt_of_ne hquoted hne) (by decide))

theorem shared_not_mem_after :
    "shared".toList ∉ splitAt ' ' ("libraries:".toList ++ ' ' :: (package.listing ++ package.closing)) := by
  have hquoted : ' ' ∉ quoted package.constrainedTag ++ ['.'] := by
    have htag := (tag_not_mem package.constrainedTag_isTag).2
    simp [quoted,htag]
  have hne : "shared".toList ≠ quoted package.constrainedTag ++ ['.'] :=
    fun h => absurd (List.cons.inj h).1 (by decide)
  have hlisting : "shared".toList ∉ splitAt ' ' (package.listing ++ '\n' :: '\n' :: "This".toList) := by
    intro h
    rcases package.isPiece_listing (by decide) _ h with hpiece | hpiece
    · exact UsedLibrary.not_isPiece_shared hpiece
    · exact absurd hpiece (by decide)
  rw [closing,← List.append_assoc]
  exact not_mem_splitAt_append (by decide) (not_mem_splitAt_append hlisting
    (not_mem_splitAt_append (by decide) (not_mem_splitAt_of_ne hquoted hne)))

/-- The advice does not go on with the words in front of the list. -/
theorem exists_rest {front before after : List Char} (h : front ++ package.advice.toList =
      before ++ ("system-provided shared libraries:".toList ++ after)) :
    ∃ rest, front = before ++ ("system-provided shared libraries:".toList ++ rest) ∧
      after = rest ++ package.advice.toList := by
  have hends : "system-provided shared libraries:".toList =
    "system-provided shared libraries".toList ++ [':'] := by decide
  rw [← List.append_assoc] at h
  rcases List.append_eq_append_iff.mp h with ⟨rest,hlonger,hadvice⟩ | ⟨rest,hfront,hafter⟩
  · rcases List.eq_nil_or_concat rest with rfl | ⟨rest,c,rfl⟩
    · rw [List.append_nil] at hlonger
      exact ⟨[],by rw [List.append_nil,hlonger],hadvice.symm⟩
    · have hcolon := congrArg List.getLast? ((congrArg (before ++ ·) hends).symm.trans hlonger)
      rw [List.concat_eq_append,← List.append_assoc,List.getLast?_concat,← List.append_assoc,
        List.getLast?_concat] at hcolon
      obtain rfl := Option.some_inj.mp hcolon
      have hmem : ':' ∈ package.advice.toList := by simp [hadvice]
      exact absurd rfl (package.advice_isPlain _ hmem).2
  · exact ⟨rest,hfront.trans (List.append_assoc ..),hafter⟩

/-- The words in front of the list stand nowhere else. -/
theorem after_eq {before after : List Char}
    (h : package.paragraphs = before ++ ("system-provided shared libraries:".toList ++ after)) :
    after = ' ' :: package.listing ++ (['\n','\n'] ++ package.constraint) := by
  obtain ⟨rest,hrest,rfl⟩ := package.exists_rest (package.paragraphs_eq_around.symm.trans h)
  have hwords : "system-provided shared libraries:".toList =
    "system-provided".toList ++ ' ' :: ("shared".toList ++ ' ' :: "libraries:".toList) := by decide
  have hsplit : before ++ (("system-provided".toList ++ ' ' :: ("shared".toList ++ ' ' ::
      "libraries:".toList)) ++ rest) = (before ++ "system-provided".toList) ++ ' ' ::
        ("shared".toList ++ ' ' :: ("libraries:".toList ++ rest)) := by
    simp only [List.append_assoc,List.cons_append]
  have haround := hrest.trans ((congrArg (fun words => before ++ (words ++ rest)) hwords).trans hsplit)
  have hback := eq_of_around (by decide) (tag_not_mem package.file_isTag).2 package.shared_not_mem_before
    package.shared_not_mem_after haround
  rw [List.append_cancel_left hback,closing,constraint_eq]
  simp only [List.append_assoc,List.cons_append,List.nil_append]

/-! ## What is read off a wrapped audit -/

theorem paragraph_listing {library : UsedLibrary} {others : List UsedLibrary} {wrapped : List Char}
    (hlibraries : package.libraries = library :: others) (h : Wraps (' ' :: package.listing) wrapped)
    (rest : List Char) : paragraph (wrapped ++ (['\n','\n'] ++ rest)) = wrapped := by
  have hpieces : [] ∉ splitAt ' ' package.listing := by
    intro hmem
    rw [← List.append_nil package.listing,listing,hlibraries] at hmem
    exact UsedLibrary.not_isPiece_nil (library.isPiece_descriptions others List.not_mem_nil [] hmem)
  rw [paragraph,cutAt?_append (h.no_blank_line (package.not_mem_listing (Or.inr rfl)) hpieces)]

theorem filterMap_library? {wrapped : List Char} (h : Wraps (' ' :: package.listing) wrapped)
    (rest : List Char) :
    (splitAt ',' (withoutBraces (paragraph (wrapped ++ (['\n','\n'] ++ rest))))).filterMap library? =
      package.libraries.map (·.name.toList) := by
  cases hlibraries : package.libraries with
  | nil =>
    rw [listing,hlibraries] at h
    obtain ⟨gap,after,hgap,hafter,rfl⟩ := List.forall₂_cons_left_iff.mp h
    cases hafter
    rcases hgap with rfl | ⟨-,rfl⟩ <;> rfl
  | cons library others =>
    have hbraces : ∀ c, (if c = '\x7b' ∨ c = '\x7d' then ' ' else c) = ',' ↔ c = ',' := by
      intro c
      by_cases hc : c = '\x7b' ∨ c = '\x7d'
      · rw [if_pos hc]
        rcases hc with rfl | rfl <;> decide
      · rw [if_neg hc]
    rw [package.paragraph_listing hlibraries h,withoutBraces,splitAt_map hbraces,List.filterMap_map]
    rw [listing,hlibraries] at h
    exact library.lists_descriptions others _ (h.pieces (by decide) (by decide))

theorem libraries_of_contains (h : package.Prints text)
    (hlead : contains "system-provided shared libraries:".toList text.toList = true) :
    AbiAudit.libraries text.toList = package.libraries.map (·.name.toList) := by
  obtain ⟨⟨before,after⟩,hcut⟩ := Option.isSome_iff_exists.mp hlead
  have hwraps : Wraps package.paragraphs (before ++ ("system-provided shared libraries:".toList ++ after)) :=
    append_of_cutAt? hcut ▸ h
  obtain ⟨before',rest,hparagraphs,-,hrest⟩ := hwraps.exists_of_append
  obtain ⟨lead,after',rfl,hlead,hafter⟩ := hrest.exists_of_append
  obtain rfl := hlead.eq_of_no_feed (by decide)
  obtain rfl := package.after_eq hparagraphs
  obtain ⟨wrapped,rest,rfl,hlisting,hrest⟩ := hafter.exists_append
  obtain ⟨third,rfl,-⟩ := hrest.exists_word (by decide)
  rw [AbiAudit.libraries,hcut]
  exact package.filterMap_library? hlisting third

theorem libraries_of_not_contains
    (hlead : contains "system-provided shared libraries:".toList text.toList = false) :
    AbiAudit.libraries text.toList = [] := by
  rw [AbiAudit.libraries,Option.not_isSome_iff_eq_none.mp (Bool.eq_false_iff.mp hlead)]

end AuditedPackage

/-- An audit tells each fact if and only if the words in front of it stand on one line. -/
theorem AbiAudit.ofText_wrapped (package : AuditedPackage) {text : String} (h : package.Prints text) :
    AbiAudit.ofText text = {
      platformTag :=
        if contains "platform tag: \"".toList text.toList then some package.platformTag else none
      constrainedTag :=
        if contains "This constrains the platform tag to \"".toList text.toList
          then some package.constrainedTag else none
      externalLibraries :=
        if contains "system-provided shared libraries:".toList text.toList
          then package.libraries.map (·.name) else []
      text := text } := by
  have hlibraries : (AbiAudit.libraries text.toList).map String.ofList =
      if contains "system-provided shared libraries:".toList text.toList
        then package.libraries.map (·.name) else [] := by
    split
    next hlead =>
      rw [package.libraries_of_contains h hlead,List.map_map]
      exact List.map_congr_left fun library _ => String.ofList_toList
    next hlead => rw [AuditedPackage.libraries_of_not_contains (Bool.eq_false_iff.mpr hlead),List.map_nil]
  rw [ofText,Tells.map_quotedAfter? (by decide) (package.tells_platformTag h),
    Tells.map_quotedAfter? (by decide) (package.tells_constrainedTag h),hlibraries]

theorem isName_of_all {text : String}
    (h : text.toList.all (fun c => !isBlank c && !List.contains [',','\x7b','\x7d','"'] c) = true) :
    ∀ c ∈ text.toList, IsNameChar c := by
  intro c hc
  have hboth := List.all_eq_true.mp h c hc
  rw [Bool.and_eq_true,Bool.not_eq_true',Bool.not_eq_true'] at hboth
  exact ⟨hboth.1,fun hmem => Bool.false_ne_true (hboth.2.symm.trans (List.contains_iff_mem.mpr hmem))⟩

theorem isTag_of_all {text : String} (h : text.toList.all (fun c => !isBlank c && c != '"') = true) :
    ∀ c ∈ text.toList, IsTagChar c := by
  intro c hc
  have hboth := List.all_eq_true.mp h c hc
  rw [Bool.and_eq_true,Bool.not_eq_true',bne_iff_ne] at hboth
  exact hboth

def UsedLibrary.mathematics : UsedLibrary where
  name := "libm.so.6"
  version := "G_2.2"
  otherVersions := ["G_2.9"]
  name_isLibrary := ⟨"m.so.6".toList,rfl⟩
  name_isName := isName_of_all (by decide)
  version_isName := isName_of_all (by decide)
  otherVersions_areNames := List.forall_mem_singleton.mpr (isName_of_all (by decide))

def AuditedPackage.numerics : AuditedPackage where
  file := "numerics.whl"
  platformTag := "linux_28"
  constrainedTag := "linux_17"
  libraries := [UsedLibrary.mathematics]
  advice := " You could recompile."
  file_isTag := isTag_of_all (by decide)
  platformTag_ne_nil := by decide
  platformTag_isTag := isTag_of_all (by decide)
  constrainedTag_ne_nil := by decide
  constrainedTag_isTag := isTag_of_all (by decide)
  advice_isPlain := by
    have h : " You could recompile.".toList.all (fun c => c != '"' && c != ':') = true := by decide
    intro c hc
    have hboth := List.all_eq_true.mp h c hc
    rwa [Bool.and_eq_true,bne_iff_ne,bne_iff_ne] at hboth

/-- The audit in which only the list is wrapped, at each of its spaces. -/
def AuditedPackage.numericsListing : String :=
  String.ofList (AuditedPackage.numerics.compatibility ++ (['\n','\n'] ++
    (("The wheel references external versioned symbols in these system-provided shared " ++
      "libraries: ").toList ++ breakSpaces AuditedPackage.numerics.listing ++
        (['\n','\n'] ++ AuditedPackage.numerics.constraint))))

theorem AbiAudit.ofText_wrapped_listing :
    AuditedPackage.numerics.Prints AuditedPackage.numericsListing ∧
      AbiAudit.ofText AuditedPackage.numericsListing = {
        platformTag := some "linux_28"
        constrainedTag := some "linux_17"
        externalLibraries := ["libm.so.6"]
        text := AuditedPackage.numericsListing } := by
  have hprints : AuditedPackage.numerics.Prints AuditedPackage.numericsListing := by
    rw [AuditedPackage.Prints,AuditedPackage.numericsListing,String.toList_ofList,AuditedPackage.paragraphs_eq]
    exact .append (.refl _) (.append (.refl _) (.append (.append (.refl _) (.breakSpaces _)) (.refl _)))
  have htext : AuditedPackage.numericsListing.toList = _ := String.toList_ofList
  have htag : contains "platform tag: \"".toList AuditedPackage.numericsListing.toList = true := by
    rw [htext]
    decide +kernel
  have hconstrained : contains "This constrains the platform tag to \"".toList
      AuditedPackage.numericsListing.toList = true := by
    rw [htext]
    decide +kernel
  have hlead : contains "system-provided shared libraries:".toList
      AuditedPackage.numericsListing.toList = true := by
    rw [htext]
    decide +kernel
  have haudit := AbiAudit.ofText_wrapped AuditedPackage.numerics hprints
  rw [htag,hconstrained,hlead] at haudit
  exact ⟨hprints,haudit⟩

/-- The audit in which each paragraph is wrapped once, between the words in front of its fact. -/
def AuditedPackage.numericsWords : String :=
  String.ofList (AuditedPackage.numerics.file.toList ++
    (" is consistent with the following platform".toList ++ '\n' :: "tag: ".toList) ++
      (quoted AuditedPackage.numerics.platformTag ++ ['.']) ++
    (['\n','\n'] ++
      ("The wheel references external versioned symbols in these system-provided".toList ++
        '\n' :: "shared libraries: ".toList ++ AuditedPackage.numerics.listing ++
      (['\n','\n'] ++ ("This constrains the".toList ++ '\n' :: "platform tag to ".toList ++
        (quoted AuditedPackage.numerics.constrainedTag ++
          '.' :: AuditedPackage.numerics.advice.toList))))))

theorem AbiAudit.ofText_wrapped_words :
    AuditedPackage.numerics.Prints AuditedPackage.numericsWords ∧
      AbiAudit.ofText AuditedPackage.numericsWords = {
        platformTag := none
        constrainedTag := none
        externalLibraries := []
        text := AuditedPackage.numericsWords } := by
  have htext : AuditedPackage.numericsWords.toList = _ := String.toList_ofList
  have htag : quotedAfter? "platform tag: \"".toList AuditedPackage.numericsWords.toList = none := by
    rw [htext]
    decide +kernel
  have hconstrained : quotedAfter? "This constrains the platform tag to \"".toList
      AuditedPackage.numericsWords.toList = none := by
    rw [htext]
    decide +kernel
  have hlibraries : AbiAudit.libraries AuditedPackage.numericsWords.toList = [] := by
    rw [htext]
    decide +kernel
  constructor
  · have hfirst : " is consistent with the following platform tag: ".toList =
      " is consistent with the following platform".toList ++ ' ' :: "tag: ".toList := by decide
    have hsecond : ("The wheel references external versioned symbols in these system-provided shared " ++
      "libraries: ").toList = "The wheel references external versioned symbols in these system-provided".toList ++
        ' ' :: "shared libraries: ".toList := by decide
    have hthird : "This constrains the platform tag to ".toList =
      "This constrains the".toList ++ ' ' :: "platform tag to ".toList := by decide
    rw [AuditedPackage.Prints,htext,AuditedPackage.paragraphs_eq]
    refine .append (.append (.append (.refl _) (.of_eq_append hfirst)) (.refl _)) (.append (.refl _) ?_)
    refine .append (.append (.of_eq_append hsecond) (.refl _)) (.append (.refl _) ?_)
    exact .append (.of_eq_append hthird) (.refl _)
  · rw [AbiAudit.ofText,htag,hconstrained,hlibraries]
    rfl

end SizeSurvey
