import SizeSurvey.Listing.AbiAudit
import SizeSurvey.Proofs.Text.Wrapping

/-! # Audits of wrapped texts

An auditor wraps its three paragraphs. A fact stands behind fixed words, and it is found if and only if
no line feed has come between these words; where the line feeds are otherwise plays no part.
-/
namespace SizeSurvey
open Text

/-! ## Quoted facts -/

namespace AbiAudit
variable {lead before after text tag : List Char}

theorem quotedAfter?_cons {c : Char} (h : ¬lead <+: c :: text) :
    quotedAfter? lead (c :: text) = quotedAfter? lead text := by
  have hstart : afterStart? lead (c :: text) = none := by
    refine Option.eq_none_iff_forall_ne_some.mpr fun rest heq => h ⟨rest,?_⟩
    exact (afterStart?_eq_some_iff.mp heq).symm
  rw [quotedAfter?,hstart]
  rfl

theorem quotedAfter?_append (hne : lead ≠ []) (htag : upToQuote? after = some tag) :
    quotedAfter? lead (lead ++ after) = some tag := by
  have hstart : afterStart? lead (lead ++ after) = some after := afterStart?_eq_some_iff.mpr rfl
  obtain ⟨c,tail,rfl⟩ := List.exists_cons_of_ne_nil hne
  rw [List.cons_append] at hstart ⊢
  rw [quotedAfter?,hstart,Option.bind_some,htag,Option.some_or]

theorem quotedAfter?_of_not_mem (htext : '"' ∉ text) : quotedAfter? (lead ++ ['"']) text = none := by
  induction text with
  | nil => rfl
  | cons c text ih =>
    have hopens : ¬lead ++ ['"'] <+: c :: text := fun h => htext (h.subset (by simp))
    rw [quotedAfter?_cons hopens,ih fun h => htext (List.mem_cons_of_mem c h)]

theorem upToQuote?_append (hne : tag ≠ []) (htag : '"' ∉ tag) (rest : List Char) :
    upToQuote? (tag ++ '"' :: rest) = some tag := by
  have hall : ∀ c ∈ tag, decide (c ≠ '"') = true := by
    intro c hc
    exact decide_eq_true fun heq => htag (heq ▸ hc)
  have hend : ∀ c ∈ ('"' :: rest).head?, decide (c ≠ '"') = false := by
    rintro c ⟨⟩
    rfl
  rw [upToQuote?,Text.takeWhile_run hall hend,Text.dropWhile_run hall hend]
  obtain ⟨c,tail,rfl⟩ := List.exists_cons_of_ne_nil hne
  rfl

section Lead
variable (hlead : '"' ∉ lead) (hbefore : '"' ∉ before)
include hlead hbefore

theorem prefix_quote_iff : lead ++ ['"'] <+: before ++ '"' :: after ↔ lead = before := by
  induction lead generalizing before with
  | nil =>
    cases before with
    | nil => simp
    | cons b before => simpa using fun h : '"' = b => hbefore (h ▸ List.mem_cons_self)
  | cons s lead ih =>
    obtain ⟨hs,hlead⟩ := not_or.mp fun hor => hlead (List.mem_cons.mpr hor)
    cases before with
    | nil => simp [Ne.symm hs]
    | cons b before =>
      rw [List.cons_append,List.cons_append,List.cons_prefix_cons,List.cons.injEq,
        ih hlead fun h => hbefore (List.mem_cons_of_mem b h)]

theorem infix_quote_iff :
    lead ++ ['"'] <:+: before ++ '"' :: after ↔ lead <:+ before ∨ lead ++ ['"'] <:+: after := by
  induction before with
  | nil =>
    have hopens : lead ++ ['"'] <+: '"' :: after ↔ lead = [] := prefix_quote_iff hlead hbefore
    rw [List.nil_append,List.infix_cons_iff,hopens,List.suffix_nil]
  | cons b before ih =>
    have hopens : lead ++ ['"'] <+: b :: (before ++ '"' :: after) ↔ lead = b :: before :=
      prefix_quote_iff hlead hbefore
    rw [List.cons_append,List.infix_cons_iff,hopens,ih fun h => hbefore (List.mem_cons_of_mem b h),
      List.suffix_cons_iff,or_assoc]

/-- A quote is passed over where the words of the lead do not stand right before it. -/
theorem quotedAfter?_of_not_suffix (h : ¬lead <:+ before) :
    quotedAfter? (lead ++ ['"']) (before ++ '"' :: after) = quotedAfter? (lead ++ ['"']) after := by
  induction before with
  | nil =>
    refine quotedAfter?_cons fun hstart => h ?_
    exact (prefix_quote_iff hlead hbefore).mp hstart ▸ List.suffix_rfl
  | cons b before ih =>
    have hrest := ih (fun hmem => hbefore (List.mem_cons_of_mem b hmem))
      fun hsuffix => h (hsuffix.trans (List.suffix_cons b before))
    rw [List.cons_append,← hrest]
    refine quotedAfter?_cons fun hstart => h ?_
    exact (prefix_quote_iff hlead hbefore).mp hstart ▸ List.suffix_rfl

/-- The words of the lead right before a quote tell what is quoted. -/
theorem quotedAfter?_of_suffix (h : lead <:+ before) (htag : upToQuote? after = some tag) :
    quotedAfter? (lead ++ ['"']) (before ++ '"' :: after) = some tag := by
  obtain ⟨front,rfl⟩ := h
  induction front with
  | nil =>
    have hne : lead ++ ['"'] ≠ [] := by simp
    have hfound := quotedAfter?_append hne htag
    rwa [List.append_assoc] at hfound
  | cons b front ih =>
    have hlonger : lead ≠ b :: front ++ lead := by
      intro heq
      have hlength := congrArg List.length heq
      rw [List.length_append,List.length_cons] at hlength
      omega
    rw [← ih fun hmem => hbefore (List.mem_cons_of_mem b hmem)]
    refine quotedAfter?_cons fun hstart => hlonger ?_
    exact (prefix_quote_iff hlead hbefore).mp hstart

end Lead

/-- What is quoted behind the words of the lead, and that it is there if they are. -/
def Tells (lead text : List Char) (fact : Option (List Char)) : Prop :=
  quotedAfter? (lead ++ ['"']) text = fact ∧ contains (lead ++ ['"']) text = fact.isSome

namespace Tells
variable {fact : Option (List Char)} {rest : List Char}

theorem of_not_mem (htext : '"' ∉ text) : Tells lead text none := by
  refine ⟨quotedAfter?_of_not_mem htext,Bool.eq_false_iff.mpr fun h => htext ?_⟩
  exact (contains_iff.mp h).subset (by simp)

theorem of_suffix (hlead : '"' ∉ lead) (hbefore : '"' ∉ before) (hne : tag ≠ []) (htag : '"' ∉ tag)
    (h : lead <:+ before) : Tells lead (before ++ '"' :: (tag ++ '"' :: rest)) (some tag) :=
  ⟨quotedAfter?_of_suffix hlead hbefore h (upToQuote?_append hne htag rest),
    contains_iff.mpr ((infix_quote_iff hlead hbefore).mpr (Or.inl h))⟩

theorem of_not_suffix (hlead : '"' ∉ lead) (hbefore : '"' ∉ before) (h : ¬lead <:+ before)
    (hrest : Tells lead rest fact) : Tells lead (before ++ '"' :: rest) fact := by
  obtain ⟨hfact,hcontains⟩ := hrest
  refine ⟨(quotedAfter?_of_not_suffix hlead hbefore h).trans hfact,?_⟩
  rw [← hcontains,Bool.eq_iff_iff,contains_iff,contains_iff,infix_quote_iff hlead hbefore]
  exact or_iff_right h

theorem map_quotedAfter? {words : List Char} {tag : String} (hwords : words = lead ++ ['"'])
    (h : Tells lead text none ∨ Tells lead text (some tag.toList)) :
    (quotedAfter? words text).map String.ofList = if contains words text then some tag else none := by
  subst hwords
  rcases h with ⟨hfact,hcontains⟩ | ⟨hfact,hcontains⟩
  · rw [hfact,hcontains]
    rfl
  · rw [hfact,hcontains,Option.map_some,String.ofList_toList]
    rfl

end Tells

end AbiAudit

/-! ## What an auditor prints -/

/-- A character of the name of a library or of a version. -/
def IsNameChar (c : Char) : Prop :=
  isBlank c = false ∧ c ∉ [',','\x7b','\x7d','"']

/-- A character of the name of a package or of a platform tag. -/
def IsTagChar (c : Char) : Prop :=
  isBlank c = false ∧ c ≠ '"'

/-- A library of the system, with the versions that a package uses of it. -/
structure UsedLibrary where
  name : String
  version : String
  otherVersions : List String
  name_isLibrary : "lib".toList <+: name.toList
  name_isName : ∀ c ∈ name.toList, IsNameChar c
  version_isName : ∀ c ∈ version.toList, IsNameChar c
  otherVersions_areNames : ∀ other ∈ otherVersions, ∀ c ∈ other.toList, IsNameChar c

/-- A package as an auditor sees it. The last paragraph ends with some advice. -/
structure AuditedPackage where
  file : String
  platformTag : String
  constrainedTag : String
  libraries : List UsedLibrary
  advice : String
  file_isTag : ∀ c ∈ file.toList, IsTagChar c
  platformTag_ne_nil : platformTag.toList ≠ []
  platformTag_isTag : ∀ c ∈ platformTag.toList, IsTagChar c
  constrainedTag_ne_nil : constrainedTag.toList ≠ []
  constrainedTag_isTag : ∀ c ∈ constrainedTag.toList, IsTagChar c
  advice_isPlain : ∀ c ∈ advice.toList, c ≠ '"' ∧ c ≠ ':'

namespace UsedLibrary

def versionList (versions : List String) : List Char :=
  versions.flatMap fun version => ", '".toList ++ (version.toList ++ ['\''])

/-- A library with its first version. -/
def mention (library : UsedLibrary) : List Char :=
  library.name.toList ++ ' ' :: ("with versions \x7b'".toList ++ (library.version.toList ++ ['\'']))

/-- A library with its versions between braces. -/
def description (library : UsedLibrary) : List Char :=
  library.mention ++ (versionList library.otherVersions ++ ['\x7d'])

theorem name_not_mem {name : List Char} (h : ∀ c ∈ name, IsNameChar c) {c : Char}
    (hc : c ∈ [' ','\n',',','\x7b','\x7d','"']) : c ∉ name := by
  intro hmem
  obtain ⟨hblank,hsign⟩ := h c hmem
  simp only [List.mem_cons,List.not_mem_nil,or_false] at hc hsign
  rcases hc with rfl | rfl | hc
  · cases hblank
  · cases hblank
  · exact hsign hc

theorem not_mem_versionList {versions : List String} {c : Char} (hc : c = '"' ∨ c = '\n')
    (h : ∀ version ∈ versions, ∀ c ∈ version.toList, IsNameChar c) : c ∉ versionList versions := by
  intro hmem
  obtain ⟨version,hversion,hmem⟩ := List.mem_flatMap.mp hmem
  have hfree : c ∉ version.toList := name_not_mem (h version hversion) (by rcases hc with rfl | rfl <;> decide)
  rcases hc with rfl | rfl <;> simp [hfree] at hmem

theorem not_mem_description (library : UsedLibrary) {c : Char} (hc : c = '"' ∨ c = '\n') :
    c ∉ library.description := by
  have hname : c ∉ library.name.toList :=
    name_not_mem library.name_isName (by rcases hc with rfl | rfl <;> decide)
  have hversion : c ∉ library.version.toList :=
    name_not_mem library.version_isName (by rcases hc with rfl | rfl <;> decide)
  have hothers := not_mem_versionList hc library.otherVersions_areNames
  rcases hc with rfl | rfl <;> simp [description,mention,hname,hversion,hothers]

end UsedLibrary

def quoted (tag : String) : List Char :=
  '"' :: (tag.toList ++ ['"'])

namespace AuditedPackage
open AbiAudit
variable (package : AuditedPackage)

def compatibility : List Char :=
  package.file.toList ++ " is consistent with the following platform tag: ".toList ++
    (quoted package.platformTag ++ ['.'])

def listing : List Char :=
  join ", ".toList (package.libraries.map UsedLibrary.description)

def references : List Char :=
  ("The wheel references external versioned symbols in these system-provided shared " ++
    "libraries: ").toList ++ package.listing

def constraint : List Char :=
  "This constrains the platform tag to ".toList ++
    (quoted package.constrainedTag ++ '.' :: package.advice.toList)

/-- The three paragraphs with a blank line between two of them. -/
def paragraphs : List Char :=
  join ['\n','\n'] [package.compatibility,package.references,package.constraint]

/-- A text in which an auditor has wrapped the paragraphs in some way. -/
def Prints (text : String) : Prop :=
  Wraps package.paragraphs text.toList

theorem paragraphs_eq :
    package.paragraphs = package.compatibility ++
      (['\n','\n'] ++ (package.references ++ (['\n','\n'] ++ package.constraint))) := by
  simp [paragraphs,join]

theorem exists_paragraphs {text : String} (h : package.Prints text) :
    ∃ first second third, Wraps package.compatibility first ∧ Wraps package.references second ∧
      Wraps package.constraint third ∧
        text.toList = first ++ (['\n','\n'] ++ (second ++ (['\n','\n'] ++ third))) := by
  rw [Prints,paragraphs_eq] at h
  obtain ⟨first,rest,htext,hfirst,hrest⟩ := h.exists_append
  obtain ⟨others,rfl,hothers⟩ := hrest.exists_word (by decide)
  obtain ⟨second,rest,rfl,hsecond,hrest⟩ := hothers.exists_append
  obtain ⟨third,rfl,hthird⟩ := hrest.exists_word (by decide)
  exact ⟨first,second,third,hfirst,hsecond,hthird,htext⟩

/-! ## Where the quotes stand -/

theorem tag_not_mem {tag : List Char} (h : ∀ c ∈ tag, IsTagChar c) : '"' ∉ tag ∧ ' ' ∉ tag :=
  ⟨fun hmem => (h _ hmem).2 rfl,fun hmem => nomatch (h _ hmem).1⟩

theorem not_mem_listing {c : Char} (hc : c = '"' ∨ c = '\n') : c ∉ package.listing := by
  intro hmem
  obtain ⟨piece,hpiece,hmem⟩ := mem_of_mem_join (by rcases hc with rfl | rfl <;> decide) hmem
  obtain ⟨library,-,rfl⟩ := List.mem_map.mp hpiece
  exact library.not_mem_description hc hmem

theorem quote_not_mem_references : '"' ∉ package.references := by
  intro hmem
  rcases List.mem_append.mp hmem with hmem | hmem
  · revert hmem
    decide
  · exact package.not_mem_listing (Or.inl rfl) hmem

/-- The four quotes of a wrapped audit, and what stands before the first and the third of them. -/
theorem exists_quotes {text : String} (h : package.Prints text) :
    ∃ before between after, text.toList = before ++ '"' :: (package.platformTag.toList ++ '"' ::
        (between ++ '"' :: (package.constrainedTag.toList ++ '"' :: after))) ∧
      '"' ∉ before ∧ '"' ∉ between ∧ '"' ∉ after ∧ (∃ gap, [':',gap] <:+ before) ∧
      ∃ gap, ['o',gap] <:+ between := by
  obtain ⟨first,second,third,hfirst,hsecond,hthird,htext⟩ := package.exists_paragraphs h
  have htag := tag_not_mem package.platformTag_isTag
  have hconstrained := tag_not_mem package.constrainedTag_isTag
  have hfile := tag_not_mem package.file_isTag
  have hplain : '"' ∉ package.advice.toList := fun hmem => (package.advice_isPlain _ hmem).1 rfl
  obtain ⟨before,rest,rfl,hbefore,hrest⟩ := hfirst.exists_append
  obtain ⟨front,back,rfl,hfront,hback⟩ := hthird.exists_append
  obtain ⟨advice,rfl,hadvice⟩ := hback.exists_word (by simp [quoted,hconstrained.2])
  obtain rfl := hrest.eq_of_not_mem (by simp [quoted,htag.2])
  have hcolon : [':',' '] <:+ " is consistent with the following platform tag: ".toList :=
    ⟨" is consistent with the following platform tag".toList,rfl⟩
  have hto : ['o',' '] <:+ "This constrains the platform tag to ".toList :=
    ⟨"This constrains the platform tag t".toList,rfl⟩
  obtain ⟨gap,hgap⟩ := hfront.exists_suffix (by decide) hto
  refine ⟨before,['.','\n','\n'] ++ second ++ ['\n','\n'] ++ front,advice,?_,?_,?_,?_,
    hbefore.exists_suffix (by decide) (List.suffix_append_of_suffix hcolon),gap,hgap.trans (List.suffix_append ..)⟩
  · simp [htext,quoted]
  · exact hbefore.not_mem (by decide) (by simp [hfile.1])
  · have hreferences := hsecond.not_mem (by decide) package.quote_not_mem_references
    have hfree := hfront.not_mem (c := '"') (by decide) (by decide)
    simp [hreferences,hfree]
  · exact hadvice.not_mem (by decide) (by simp [hplain])

theorem eq_of_suffix {lead before : List Char} {c d gap : Char} (hlead : [c,' '] <:+ lead)
    (hbefore : [d,gap] <:+ before) (h : lead <:+ before) : c = d := by
  have hends := List.suffix_of_suffix_length_le (hlead.trans h) hbefore (Nat.le_refl _)
  exact (List.cons.inj (hends.eq_of_length rfl)).1

/-- What stands before its last space tells which of the tags a lead may find. -/
theorem tells_tag {text : String} (h : package.Prints text) {lead : List Char} {c : Char}
    (hlead : '"' ∉ lead) (hends : [c,' '] <:+ lead) :
    Tells lead text.toList none ∨
      c = ':' ∧ Tells lead text.toList (some package.platformTag.toList) ∨
        c = 'o' ∧ Tells lead text.toList (some package.constrainedTag.toList) := by
  obtain ⟨before,between,after,htext,hbefore,hbetween,hafter,⟨colon,hcolon⟩,gap,hgap⟩ :=
    package.exists_quotes h
  have htag := tag_not_mem package.platformTag_isTag
  have hconstrained := tag_not_mem package.constrainedTag_isTag
  have hblank {tag : List Char} (htag : ' ' ∉ tag) : ¬lead <:+ tag :=
    fun h => htag ((hends.trans h).subset (by simp))
  rw [htext]
  by_cases hfirst : lead <:+ before
  · refine Or.inr (Or.inl ⟨eq_of_suffix hends hcolon hfirst,?_⟩)
    exact .of_suffix hlead hbefore package.platformTag_ne_nil htag.1 hfirst
  have hskip {rest : List Char} {fact : Option (List Char)} (hrest : Tells lead rest fact) :
      Tells lead (before ++ '"' :: (package.platformTag.toList ++ '"' :: rest)) fact :=
    .of_not_suffix hlead hbefore hfirst (.of_not_suffix hlead htag.1 (hblank htag.2) hrest)
  by_cases hsecond : lead <:+ between
  · refine Or.inr (Or.inr ⟨eq_of_suffix hends hgap hsecond,hskip ?_⟩)
    exact .of_suffix hlead hbetween package.constrainedTag_ne_nil hconstrained.1 hsecond
  · refine Or.inl (hskip (.of_not_suffix hlead hbetween hsecond ?_))
    exact .of_not_suffix hlead hconstrained.1 (hblank hconstrained.2) (.of_not_mem hafter)

theorem tells_platformTag {text : String} (h : package.Prints text) :
    Tells "platform tag: ".toList text.toList none ∨
      Tells "platform tag: ".toList text.toList (some package.platformTag.toList) := by
  have hends : [':',' '] <:+ "platform tag: ".toList := ⟨"platform tag".toList,rfl⟩
  rcases package.tells_tag h (by decide) hends with hnone | ⟨-,hsome⟩ | ⟨hc,-⟩
  · exact Or.inl hnone
  · exact Or.inr hsome
  · exact absurd hc (by decide)

theorem tells_constrainedTag {text : String} (h : package.Prints text) :
    Tells "This constrains the platform tag to ".toList text.toList none ∨
      Tells "This constrains the platform tag to ".toList text.toList
        (some package.constrainedTag.toList) := by
  have hends : ['o',' '] <:+ "This constrains the platform tag to ".toList :=
    ⟨"This constrains the platform tag t".toList,rfl⟩
  rcases package.tells_tag h (by decide) hends with hnone | ⟨hc,-⟩ | ⟨-,hsome⟩
  · exact Or.inl hnone
  · exact absurd hc (by decide)
  · exact Or.inr hsome

end AuditedPackage

end SizeSurvey
