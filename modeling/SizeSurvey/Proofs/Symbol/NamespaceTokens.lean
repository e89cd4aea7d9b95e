import Mathlib.Data.List.Chain
import SizeSurvey.Overlap
import SizeSurvey.Proofs.Text.Occurrence

/-! # Tokens of namespaces

A name is cut at its leftmost double colons, so a token may begin with a colon, but only the last one may
end with a colon. Tokens that are joined again are therefore cut at the same places, and a key made of
leading tokens is its own key.
-/
namespace SizeSurvey.Namespace

/-- No two colons side by side. -/
def IsPiece (piece : List Char) : Prop :=
  piece.IsChain fun c d => ¬(c = ':' ∧ d = ':')

/-- Not even with a colon behind it. -/
def IsClosed (piece : List Char) : Prop :=
  IsPiece (piece ++ [':'])

variable {piece text : List Char} {others : List (List Char)} {c : Char}

theorem isPiece_cons : IsPiece (c :: piece) ↔ ¬(c = ':' ∧ piece.head? = some ':') ∧ IsPiece piece := by
  rw [IsPiece,List.isChain_cons]
  refine and_congr_left' ⟨?_,?_⟩
  · rintro h ⟨rfl,hhead⟩
    exact h ':' hhead ⟨rfl,rfl⟩
  · rintro h d hhead ⟨rfl,rfl⟩
    exact h ⟨rfl,hhead⟩

theorem isClosed_cons :
    IsClosed (c :: piece) ↔ ¬(c = ':' ∧ (piece ++ [':']).head? = some ':') ∧ IsClosed piece :=
  isPiece_cons

/-! ## Cutting -/

/-- Double colons are taken leftmost first, and then all other characters one by one. -/
theorem pieces_induction {motive : List Char → Prop} (nil : motive [])
    (pair : ∀ text, motive text → motive (':' :: ':' :: text))
    (cons : ∀ c text, ¬(c = ':' ∧ text.head? = some ':') → motive text → motive (c :: text))
    (text : List Char) : motive text := by
  have hcons : ∀ c text, (∀ rest, c = ':' → text = ':' :: rest → False) → motive text →
      motive (c :: text) := by
    intro c text h
    refine cons c text ?_
    rintro ⟨hc,hhead⟩
    obtain ⟨rest,hrest⟩ := List.head?_eq_some_iff.mp hhead
    exact h rest hc hrest
  induction text using pieces.induct with
  | case1 => exact nil
  | case2 rest ih => exact pair rest ih
  | case3 c rest h hnone ih => exact hcons c rest h ih
  | case4 c rest h piece others hpieces ih => exact hcons c rest h ih

theorem pieces_pair (text : List Char) : pieces (':' :: ':' :: text) = [] :: pieces text := by
  rw [pieces]

theorem exists_pieces (text : List Char) : ∃ piece others, pieces text = piece :: others := by
  induction text using pieces.induct with
  | case1 => exact ⟨[],[],rfl⟩
  | case2 rest ih => exact ⟨[],pieces rest,pieces_pair rest⟩
  | case3 c rest h hnone ih =>
    obtain ⟨piece,others,hpieces⟩ := ih
    cases hnone.symm.trans hpieces
  | case4 c rest h piece others hpieces ih => exact ⟨c :: piece,others,by simp [pieces,hpieces]⟩

/-- A character that does not begin a double colon belongs to the first piece. -/
theorem pieces_cons (h : ¬(c = ':' ∧ text.head? = some ':')) (hpieces : pieces text = piece :: others) :
    pieces (c :: text) = (c :: piece) :: others := by
  rw [pieces]
  · rw [hpieces]
  · rintro rest rfl rfl
    exact h ⟨rfl,rfl⟩

theorem pieces_of_isPiece (h : IsPiece piece) : pieces piece = [piece] := by
  induction piece with
  | nil => rfl
  | cons c piece ih =>
    obtain ⟨hc,hpiece⟩ := isPiece_cons.mp h
    exact pieces_cons hc (ih hpiece)

/-- A closed piece is cut off in front of the double colon that follows it. -/
theorem pieces_append (h : IsClosed piece) (text : List Char) :
    pieces (piece ++ ':' :: ':' :: text) = piece :: pieces text := by
  induction piece with
  | nil => exact pieces_pair text
  | cons c piece ih =>
    obtain ⟨hc,hpiece⟩ := isClosed_cons.mp h
    have hhead : (piece ++ ':' :: ':' :: text).head? = (piece ++ [':']).head? := by
      cases piece <;> rfl
    rw [← hhead] at hc
    exact pieces_cons hc (ih hpiece)

theorem join_cons_cons (token next : List Char) (rest : List (List Char)) :
    Text.join [':',':'] (token :: next :: rest) =
      token ++ ':' :: ':' :: Text.join [':',':'] (next :: rest) := by
  simp [Text.join]

theorem pieces_join {tokens : List (List Char)} (hne : tokens ≠ [])
    (hpiece : ∀ token ∈ tokens, IsPiece token) (hclosed : tokens.Pairwise fun a _ => IsClosed a) :
    pieces (Text.join [':',':'] tokens) = tokens := by
  induction tokens with
  | nil => exact absurd rfl hne
  | cons token rest ih =>
    obtain ⟨hfirst,hrest⟩ := List.pairwise_cons.mp hclosed
    cases rest with
    | nil => exact pieces_of_isPiece (hpiece token List.mem_cons_self)
    | cons next rest =>
      have htail := ih (by simp) (fun t ht => hpiece t (List.mem_cons_of_mem _ ht)) hrest
      rw [join_cons_cons,pieces_append (hfirst next List.mem_cons_self),htail]

/-! ## The pieces of a text -/

theorem join_pieces (text : List Char) : Text.join [':',':'] (pieces text) = text := by
  induction text using pieces_induction with
  | nil => rfl
  | pair text ih =>
    obtain ⟨piece,others,hpieces⟩ := exists_pieces text
    rw [hpieces] at ih
    rw [pieces_pair,hpieces,join_cons_cons,ih]
    rfl
  | cons c text h ih =>
    obtain ⟨piece,others,hpieces⟩ := exists_pieces text
    rw [hpieces,Text.join_cons] at ih
    rw [pieces_cons h hpieces,Text.join_cons,List.cons_append,ih]

/-- Each piece but the last is closed. -/
theorem isPiece_of_pieces (text : List Char) :
    (∀ piece ∈ pieces text, IsPiece piece) ∧ (pieces text).Pairwise fun a _ => IsClosed a := by
  induction text using pieces_induction with
  | nil => simp [pieces,IsPiece]
  | pair text ih =>
    rw [pieces_pair]
    refine ⟨?_,List.pairwise_cons.mpr ⟨fun _ _ => List.isChain_singleton _,ih.2⟩⟩
    intro piece hpiece
    rcases List.mem_cons.mp hpiece with rfl | hpiece
    · exact List.isChain_nil
    · exact ih.1 piece hpiece
  | cons c text h ih =>
    obtain ⟨piece,others,hpieces⟩ := exists_pieces text
    have hjoin := join_pieces text
    rw [hpieces,Text.join_cons] at hjoin
    rw [hpieces] at ih
    obtain ⟨hall,hclosed⟩ := ih
    obtain ⟨hfirst,hrest⟩ := List.pairwise_cons.mp hclosed
    rw [pieces_cons h hpieces]
    constructor
    · intro p hp
      rcases List.mem_cons.mp hp with rfl | hp
      · refine isPiece_cons.mpr ⟨?_,hall piece List.mem_cons_self⟩
        rintro ⟨hc,hhead⟩
        refine h ⟨hc,?_⟩
        rw [← hjoin,List.head?_append,hhead]
        rfl
      · exact hall p (List.mem_cons_of_mem _ hp)
    · refine List.pairwise_cons.mpr ⟨?_,hrest⟩
      intro next hnext
      refine isClosed_cons.mpr ⟨?_,hfirst next hnext⟩
      rintro ⟨hc,hhead⟩
      refine h ⟨hc,?_⟩
      obtain ⟨second,more,rfl⟩ := List.exists_cons_of_ne_nil (List.ne_nil_of_mem hnext)
      rw [← hjoin,← hhead]
      cases piece <;> rfl

theorem tokens_joined {name : String} {tokens' : List (List Char)}
    (h : tokens'.Sublist (tokens name)) : tokens (joined tokens') = tokens' := by
  have hsub : tokens'.Sublist (pieces name.toList) := h.trans List.filter_sublist
  obtain ⟨hpiece,hclosed⟩ := isPiece_of_pieces name.toList
  by_cases hne : tokens' = []
  · subst hne
    rfl
  · have hcut := pieces_join hne (fun t ht => hpiece t (hsub.subset ht)) (hclosed.sublist hsub)
    have hfilled : ∀ token ∈ tokens', (!token.isEmpty) = true := fun token ht =>
      (List.mem_filter.mp (h.subset ht)).2
    rw [tokens,joined,String.toList_ofList,hcut,List.filter_eq_self.mpr hfilled]

/-! ## Keys -/

theorem leading?_of_leading? {name key : String} {depths : List Nat}
    (h : leading? depths (tokens name) = some key) : leading? depths (tokens key) = some key := by
  obtain ⟨depth,hfound,rfl⟩ := Option.map_eq_some_iff.mp h
  obtain ⟨hdepth,before,after,hsplit,hbefore⟩ := List.find?_eq_some_iff_append.mp hfound
  have htokens := tokens_joined (List.take_sublist depth (tokens name))
  simp only [Bool.and_eq_true,decide_eq_true_eq] at hdepth
  have hlength : ((tokens name).take depth).length = depth := by
    rw [List.length_take]
    omega
  have hagain : depths.find? (fun d => 0 < d && d ≤ ((tokens name).take depth).length) = some depth := by
    rw [hlength]
    refine List.find?_eq_some_iff_append.mpr ⟨by simp [hdepth.1],before,after,hsplit,?_⟩
    -- A depth that is too large for all tokens is too large for the leading ones.
    intro d hd
    have hlarge := hbefore d hd
    simp only [Bool.not_eq_true',Bool.and_eq_false_iff,decide_eq_false_iff_not] at hlarge ⊢
    omega
  rw [htokens,leading?,hagain,Option.map_some,List.take_take,Nat.min_self]

theorem getD_leading?_idem (depths : List Nat) (name : String) :
    let key := (leading? depths (tokens name)).getD name
    (leading? depths (tokens key)).getD key = key := by
  intro key
  cases h : leading? depths (tokens name) with
  | none =>
    have hkey : key = name := by simp [key,h]
    rw [hkey,h]
    rfl
  | some found =>
    have hkey : key = found := by simp [key,h]
    rw [hkey,leading?_of_leading? h]
    rfl

theorem leading?_singleton {depth : Nat} {tokens : List (List Char)} (hpos : 0 < depth)
    (h : depth ≤ tokens.length) : leading? [depth] tokens = some (joined (tokens.take depth)) := by
  simp [leading?,hpos,h]

/-- **Keys of namespaces are canonical.** -/
theorem tokens_canonical (name : String) :
    (∀ depth, 1 ≤ depth → depth ≤ (tokens name).length →
      tokens (joined ((tokens name).take depth)) = (tokens name).take depth) ∧
    key (key name) = key name ∧
    PairOverlap.namespaceOf (PairOverlap.namespaceOf name) = PairOverlap.namespaceOf name ∧
    ∀ other depth, 1 ≤ depth → depth ≤ (tokens name).length → depth ≤ (tokens other).length →
      (leading? [depth] (tokens name) = leading? [depth] (tokens other) ↔
        (tokens name).take depth = (tokens other).take depth) := by
  refine ⟨?_,getD_leading?_idem [3,1] name,getD_leading?_idem [4,3,2,1] name,?_⟩
  · intro depth _ _
    exact tokens_joined (List.take_sublist ..)
  · intro other depth hpos hname hother
    rw [leading?_singleton hpos hname,leading?_singleton hpos hother,Option.some_inj]
    constructor
    · intro h
      have hsame := congrArg tokens h
      rwa [tokens_joined (List.take_sublist ..),tokens_joined (List.take_sublist ..)] at hsame
    · intro h
      rw [h]

/-- Runs of three colons, and colons at both ends. -/
theorem tokens_canonical_colons :
    let name := ":::a:::b::c:"
    let other := ":a:::b"
    (1 ≤ 2 ∧ 2 ≤ (tokens name).length ∧ 2 ≤ (tokens other).length) ∧
      tokens name = [[':','a'],[':','b'],['c',':']] ∧
      tokens (joined ((tokens name).take 2)) = [[':','a'],[':','b']] ∧
      key (key name) = key name ∧ leading? [2] (tokens name) = leading? [2] (tokens other) := by
  intro name other
  have hname : tokens name = [[':','a'],[':','b'],['c',':']] := by decide
  have hother : tokens other = [[':','a'],[':','b']] := by decide
  have hdepth : 1 ≤ 2 ∧ 2 ≤ (tokens name).length ∧ 2 ≤ (tokens other).length := by
    rw [hname,hother]
    decide
  obtain ⟨hcut,hkey,-,hdeep⟩ := tokens_canonical name
  refine ⟨hdepth,hname,?_,hkey,?_⟩
  · rw [hcut 2 hdepth.1 hdepth.2.1,hname]
    rfl
  · rw [hdeep other 2 hdepth.1 hdepth.2.1 hdepth.2.2,hname,hother]
    rfl

end SizeSurvey.Namespace
