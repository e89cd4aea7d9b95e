import SizeSurvey.CommandLine.Request
import SizeSurvey.Proofs.NameMap
import SizeSurvey.Proofs.Result

/-! # Options in front of others

What the next words mean does not depend on the options before them, except that no option may be
given twice. An option can therefore be put in front of words that do not have it.
-/
namespace SizeSurvey.CommandLine
open NameMap (lookup_cons_eq_ite)
variable {topic : Topic} {rules : List OptionRule} {found values : List (String × String)}

theorem given_eq_ok_iff {rule : OptionRule} {value : String} :
    given rule value found = .ok values ↔
      rule.name ∉ found.map Prod.fst ∧ ¬(rule.kind = .path ∧ value = "") ∧
        values = found ++ [(rule.name,value)] := by
  have hany : found.any (·.1 = rule.name) = true ↔ rule.name ∈ found.map Prod.fst := by
    simp only [List.any_eq_true,decide_eq_true_eq,List.mem_map]
  unfold given
  split
  next h => simp [hany.mp h]
  next h =>
    split
    next hempty => simp [hempty]
    next hfull =>
      rw [Except.ok.injEq,eq_comm]
      exact ⟨fun hvalues => ⟨mt hany.mpr h,hfull,hvalues⟩,fun hvalues => hvalues.2.2⟩

/-- What the next words do to the options found so far: nothing, if they are the last ones; or they
are refused; or they give one option its value. -/
def TakesStep (topic : Topic) (rules : List OptionRule) (words : List String) : Prop :=
  (∀ found, optionValues topic rules found words = .ok found) ∨
    (∃ refusal, ∀ found, optionValues topic rules found words = .error refusal) ∨
    ∃ rule value rest, rest.length < words.length ∧ ∀ found,
      optionValues topic rules found words =
        given rule value found >>= (optionValues topic rules · rest)

theorem takesStep_rule {word name : String} {value : Option String} {rest : List String}
    {rule : OptionRule} (hlast : word = "--" → rest = [] → False)
    (hother : name = "help" → value = none → False) (hword : longName? word = some (name,value))
    (hrule : rules.find? (·.name = name) = some rule) : TakesStep topic rules (word :: rest) := by
  refine Or.inr ?_
  by_cases hflag : rule.kind = .flag
  · cases value with
    | none =>
      refine Or.inr ⟨rule,"",rest,Nat.lt_succ_self _,fun found => ?_⟩
      simp only [optionValues,hword,hrule,if_pos hflag]
    | some value =>
      refine Or.inl ⟨.misuse ("unexpected value '" ++ value ++ "' for '--" ++ name ++ "' found"),
        fun found => ?_⟩
      simp only [optionValues,hword,hrule,if_pos hflag]
  · cases value with
    | none =>
      rcases rest with _ | ⟨value,rest⟩
      · refine Or.inl ⟨withoutValue name,fun found => ?_⟩
        simp only [optionValues,hword,hrule,if_neg hflag]
      by_cases hvalue : isValue value = true
      · refine Or.inr ⟨rule,value,rest,Nat.lt_succ_of_lt (Nat.lt_succ_self _),fun found => ?_⟩
        simp only [optionValues,hword,hrule,if_neg hflag,if_pos hvalue]
      · refine Or.inl ⟨withoutValue name,fun found => ?_⟩
        simp only [optionValues,hword,hrule,if_neg hflag,if_neg hvalue]
    | some value =>
      refine Or.inr ⟨rule,value,rest,Nat.lt_succ_self _,fun found => ?_⟩
      simp only [optionValues,hword,hrule,if_neg hflag]

/-- **Words are taken step by step,** and what a step is does not depend on the options before it. -/
theorem takesStep (topic : Topic) (rules : List OptionRule) (words : List String) :
    TakesStep topic rules words := by
  rcases words with _ | ⟨word,rest⟩
  · exact Or.inl fun _ => rfl
  by_cases hend : word = "--" ∧ rest = []
  · obtain ⟨rfl,rfl⟩ := hend
    exact Or.inl fun _ => rfl
  have hlast : word = "--" → rest = [] → False := fun hword hrest => hend ⟨hword,hrest⟩
  cases hword : longName? word with
  | none =>
    refine Or.inr (Or.inl
      ⟨if letter? word = some 'h' then .help topic else unexpected word,fun found => ?_⟩)
    simp only [optionValues,hword]
  | some option =>
    obtain ⟨name,value⟩ := option
    by_cases hhelp : name = "help" ∧ value = none
    · obtain ⟨rfl,rfl⟩ := hhelp
      exact Or.inr (Or.inl ⟨.help topic,fun found => by simp only [optionValues,hword]⟩)
    have hother : name = "help" → value = none → False := fun hn hv => hhelp ⟨hn,hv⟩
    cases hrule : rules.find? (·.name = name) with
    | none =>
      refine Or.inr (Or.inl ⟨unexpected word,fun found => ?_⟩)
      simp only [optionValues,hword,hrule]
    | some rule => exact takesStep_rule hlast hother hword hrule

/-- Options that other words do not have may be given in front of those words. -/
theorem optionValues_append {words : List String} {found values : List (String × String)}
    (h : optionValues topic rules found words = .ok values) :
    ∃ more, values = found ++ more ∧
      ∀ front, (∀ option ∈ front, option.1 ∉ more.map Prod.fst) →
        optionValues topic rules (front ++ found) words = .ok (front ++ values) := by
  induction hlength : words.length using Nat.strongRecOn generalizing words found with
  | ind n ih =>
    rcases takesStep topic rules words with
      hdone | ⟨refusal,hrefused⟩ | ⟨rule,value,rest,hshorter,hnext⟩
    · rw [hdone] at h
      cases h
      exact ⟨[],by simp,fun front _ => hdone _⟩
    · rw [hrefused] at h
      cases h
    · rw [hnext] at h
      obtain ⟨_,hgiven,hrest⟩ := bind_eq_ok_iff.mp h
      obtain ⟨hfresh,hvalue,rfl⟩ := given_eq_ok_iff.mp hgiven
      obtain ⟨more,rfl,hfront⟩ := ih rest.length (hlength ▸ hshorter) hrest rfl
      refine ⟨(rule.name,value) :: more,by simp,fun front hdisjoint => ?_⟩
      have hname : rule.name ∉ (front ++ found).map Prod.fst := by
        rw [List.map_append,List.mem_append]
        rintro (hmem | hmem)
        · obtain ⟨option,hoption,hname⟩ := List.mem_map.mp hmem
          exact hdisjoint option hoption (hname ▸ List.mem_cons_self)
        · exact hfresh hmem
      have hlater := hfront front fun option hoption hmem =>
        hdisjoint option hoption (List.mem_cons_of_mem _ hmem)
      rw [← List.append_assoc] at hlater
      rw [hnext]
      exact bind_eq_ok_iff.mpr ⟨_,given_eq_ok_iff.mpr ⟨hname,hvalue,rfl⟩,hlater⟩

/-- A word that names an option and gives it a value. -/
def assignment (name value : String) : String :=
  "--" ++ name ++ "=" ++ value

theorem longName?_assignment {name : String} (h : '=' ∉ name.toList) (value : String) :
    longName? (assignment name value) = some (name,some value) := by
  have hword : (assignment name value).toList = '-' :: '-' :: (name.toList ++ '=' :: value.toList) := by
    simp [assignment]
  have hname : (name.toList ++ '=' :: value.toList).takeWhile (· ≠ '=') = name.toList := by
    have hall : ∀ c ∈ name.toList, decide (c ≠ '=') = true :=
      fun c hc => decide_eq_true (ne_of_mem_of_not_mem hc h)
    rw [List.takeWhile_append_of_pos hall]
    simp
  simp only [longName?,hword,hname,List.drop_left,String.ofList_toList]

/-- The request that the values of the options make. -/
def gateOf (values : List (String × String)) : GateRequest :=
  let initial : GateRequest := {}
  { directory := (values.lookup "analysis-dir").getD initial.directory
    baseline := values.lookup "baseline"
    maxGrowth := values.lookup "max-growth"
    config := values.lookup "config"
    output := values.lookup "output"
    savesBaseline := (values.lookup "save-baseline").isSome }

theorem ofWords_gate_eq_ok_iff {words : List String} {request : GateRequest} :
    Request.ofWords ("gate" :: words) = .ok (.gate request) ↔
      ∃ values, optionValues .gate gateRules [] words = .ok values ∧ gateOf values = request := by
  have hgate : Request.ofWords ("gate" :: words) = (gateRequest words).map .gate := rfl
  rw [hgate,gateRequest]
  cases optionValues .gate gateRules [] words with
  | error refusal => simp [bind,Except.bind,Except.map]
  | ok values => simp [bind,Except.bind,Except.map,pure,Except.pure,gateOf]

/-- **A threshold may be put in front of words that have none.** -/
theorem ofWords_maxGrowth {rest : List String} {request : GateRequest}
    (h : Request.ofWords ("gate" :: rest) = .ok (.gate request)) (hnone : request.maxGrowth = none)
    (growth : String) :
    Request.ofWords ("gate" :: assignment "max-growth" growth :: rest) =
      .ok (.gate { request with maxGrowth := some growth }) := by
  obtain ⟨values,hvalues,rfl⟩ := ofWords_gate_eq_ok_iff.mp h
  obtain ⟨_,rfl,hfront⟩ := optionValues_append hvalues
  have habsent : "max-growth" ∉ values.map Prod.fst := by
    intro hmem
    obtain ⟨option,hoption,hname⟩ := List.mem_map.mp hmem
    have hne := List.lookup_eq_none_iff.mp hnone option hoption
    rw [hname] at hne
    cases hne
  have hword := longName?_assignment (by decide : '=' ∉ "max-growth".toList) growth
  refine ofWords_gate_eq_ok_iff.mpr ⟨("max-growth",growth) :: values,?_,?_⟩
  · have hrest := hfront [("max-growth",growth)] (by simpa using habsent)
    have hlast : assignment "max-growth" growth = "--" → rest = [] → False := by
      intro heq
      rw [heq,show longName? "--" = some ("",none) from rfl] at hword
      simp at hword
    simp only [optionValues,hword]
    exact hrest
  · simp [gateOf,lookup_cons_eq_ite]

end SizeSurvey.CommandLine
