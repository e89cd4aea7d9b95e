import SizeSurvey.Text.Split
/-!
# Requests of the command line

There are two commands: one surveys a package, the other compares the sizes that a survey left with
those of a baseline. Words are read from the left, and the first thing that is wrong with them, or
that asks for help, decides.
-/
namespace SizeSurvey.CommandLine

structure SurveyRequest where
  root : String
  output : String
  archive : Option String := none
  config : Option String := none
deriving DecidableEq, Repr

structure GateRequest where
  directory : String := "build/wheel_analysis/analysis"
  baseline : Option String := none
  maxGrowth : Option String := none
  config : Option String := none
  output : Option String := none
  /-- Whether the current sizes become the baseline. -/
  savesBaseline : Bool := false
deriving DecidableEq, Repr

inductive Request where
  | survey (request : SurveyRequest)
  | gate (request : GateRequest)
deriving DecidableEq, Repr

inductive Topic where
  | program
  | survey
  | gate
  | help
deriving DecidableEq, Repr

inductive Refusal where
  | help (topic : Topic)
  | version
  | misuse (reason : String)
deriving DecidableEq, Repr

/-- What may follow the name of an option. -/
inductive OptionKind where
  | flag
  | text
  /-- A text that is not empty. -/
  | path
deriving DecidableEq, Repr

structure OptionRule where
  name : String
  kind : OptionKind

def jsonLogs : OptionRule := ⟨"json-logs", .flag⟩

def surveyRules : List OptionRule :=
  [jsonLogs, ⟨"root", .path⟩, ⟨"output", .path⟩, ⟨"archive", .path⟩, ⟨"config", .path⟩]

def gateRules : List OptionRule :=
  [jsonLogs, ⟨"analysis-dir", .path⟩, ⟨"baseline", .path⟩, ⟨"max-growth", .text⟩,
    ⟨"config", .path⟩, ⟨"output", .path⟩, ⟨"save-baseline", .flag⟩]

/-- A word that names an option: its name, and the value after the sign of equality. -/
def longName? (word : String) : Option (String × Option String) :=
  match word.toList with
  | '-' :: '-' :: rest =>
    let name := rest.takeWhile (· ≠ '=')
    let value := match rest.drop name.length with
      | _ :: value => some (String.ofList value)
      | [] => none
    some (String.ofList name, value)
  | _ => none

/-- The letter of a word of letters with one hyphen in front. -/
def letter? (word : String) : Option Char :=
  match word.toList with
  | '-' :: c :: _ => if c = '-' then none else some c
  | _ => none

/-- Whether a word can be the value of an option. -/
def isValue (word : String) : Bool :=
  word.toList.head? ≠ some '-' || word = "-"

def withoutValue (name : String) : Refusal :=
  .misuse ("a value is required for '--" ++ name ++ "' but none was supplied")

/-- Adds the value of an option that has none so far. -/
def given (rule : OptionRule) (value : String) (found : List (String × String)) :
    Except Refusal (List (String × String)) :=
  if found.any (·.1 = rule.name) then
    .error (.misuse ("the argument '--" ++ rule.name ++ "' cannot be used multiple times"))
  else if rule.kind = .path ∧ value = "" then .error (withoutValue rule.name)
  else .ok (found ++ [(rule.name, value)])

def unexpected (word : String) : Refusal :=
  .misuse ("unexpected argument '" ++ word ++ "' found")

def optionValues (topic : Topic) (rules : List OptionRule) (found : List (String × String)) :
    List String → Except Refusal (List (String × String))
  | [] => .ok found
  | ["--"] => .ok found
  | word :: rest =>
    match longName? word with
    | some ("help", none) => .error (.help topic)
    | some (name, value) =>
      match rules.find? (·.name = name), value, rest with
      | none, _, _ => .error (unexpected word)
      | some rule, none, rest =>
        if rule.kind = .flag then do optionValues topic rules (← given rule "" found) rest
        else
          match rest with
          | value :: rest =>
            if isValue value then do optionValues topic rules (← given rule value found) rest
            else .error (withoutValue name)
          | [] => .error (withoutValue name)
      | some rule, some value, rest =>
        if rule.kind = .flag then
          .error (.misuse ("unexpected value '" ++ value ++ "' for '--" ++ name ++ "' found"))
        else do optionValues topic rules (← given rule value found) rest
    | none => .error (if letter? word = some 'h' then .help topic else unexpected word)

def needed (values : List (String × String)) (name : String) : Except Refusal String :=
  match values.lookup name with
  | some value => .ok value
  | none => .error (.misuse ("the required argument '--" ++ name ++ "' was not provided"))

def surveyRequest (words : List String) : Except Refusal SurveyRequest := do
  let values ← optionValues .survey surveyRules [] words
  return {
    root := ← needed values "root"
    output := ← needed values "output"
    archive := values.lookup "archive"
    config := values.lookup "config" }

def gateRequest (words : List String) : Except Refusal GateRequest := do
  let values ← optionValues .gate gateRules [] words
  let initial : GateRequest := {}
  return {
    directory := (values.lookup "analysis-dir").getD initial.directory
    baseline := values.lookup "baseline"
    maxGrowth := values.lookup "max-growth"
    config := values.lookup "config"
    output := values.lookup "output"
    savesBaseline := (values.lookup "save-baseline").isSome }

def helpTopic (words : List String) : Refusal :=
  match words with
  | [] => .help .program
  | ["analyze"] => .help .survey
  | ["gate"] => .help .gate
  | ["help"] => .help .help
  | word :: _ => .misuse ("unrecognized subcommand '" ++ word ++ "'")

/-- The request that words make after `logged` told whether the logs were asked for. Logs are
written nowhere, so how they would look is not kept. -/
def requestFrom (logged : Bool) : List String → Except Refusal Request
  | [] => .error (.misuse "a subcommand is required but one was not provided")
  | "--json-logs" :: rest =>
    if logged then .error (.misuse "the argument '--json-logs' cannot be used multiple times")
    else requestFrom true rest
  | "--help" :: _ => .error (.help .program)
  | "--version" :: _ => .error .version
  | "analyze" :: rest => (surveyRequest rest).map .survey
  | "gate" :: rest => (gateRequest rest).map .gate
  | "help" :: rest => .error (helpTopic rest)
  | word :: _ =>
    match letter? word with
    | some 'h' => .error (.help .program)
    | some 'V' => .error .version
    | _ => .error (unexpected word)

def Request.ofWords (words : List String) : Except Refusal Request :=
  requestFrom false words

end SizeSurvey.CommandLine
