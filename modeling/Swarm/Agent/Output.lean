import Swarm.Domain.Task
import Swarm.Lib.Lines

namespace Swarm

/-- What the code takes from its libraries to read a model's answer:
`serde_json::from_str` and the Unicode `to_lowercase`. -/
structure TextTools where
  fromStr : String → Except String Json
  toLowercase : String → String

def trim (text : List Char) : List Char :=
  ((text.dropWhile isWhitespace).reverse.dropWhile isWhitespace).reverse

/-- The number of words: each starts where a character follows white space or the beginning. -/
def wordCount : Bool → List Char → Nat
  | _, [] => 0
  | inWord, c :: rest =>
    if isWhitespace c then wordCount false rest else (if inWord then 0 else 1) + wordCount true rest

namespace Json

def get (value : Json) (key : String) : Option Json :=
  match value with
  | object fields => fields.lookup key
  | _ => none

def asStr : Json → Option String
  | string text => some text
  | _ => none

def asArray : Json → Option (List Json)
  | array items => some items
  | _ => none

def asF64 : Json → Option Rat
  | number value => some value
  | _ => none

end Json

def clampUnit (value : Rat) : Rat := max 0 (min 1 value)

namespace ValidationRule
variable (tools : TextTools)

/-- What is wrong with `output`, or nothing. -/
def check (rule : ValidationRule) (output : String) : Option String :=
  match rule with
  | nonEmpty => if isBlank output.toList then some "output is empty" else none
  | minWords minimum =>
    let words := wordCount false output.toList
    if words < minimum then some s!"output has {words} words, needs {minimum}" else none
  | mustMention needle =>
    if (tools.toLowercase needle).toList <:+: (tools.toLowercase output).toList then none
    else some s!"output does not mention `{needle}`"
  | requiredJsonKeys keys =>
    match tools.fromStr output with
    | .ok (.object fields) =>
      let missing := keys.filter (fun key => (fields.lookup key).isNone)
      if missing.isEmpty then none else some ("JSON output is missing keys: " ++ String.intercalate ", " missing)
    | .ok _ => some "output is JSON but not an object"
    | .error e => some s!"output is not valid JSON: {e}"

end ValidationRule

def validateOutput (tools : TextTools) (output : String) (rules : List ValidationRule) : List String :=
  rules.filterMap (fun rule => rule.check tools output)

def parseEvidence (value : Json) : Option Evidence := do
  let source ← (← value.get "source").asStr
  some {
    source := source
    claim := ((value.get "claim").bind Json.asStr).getD ""
    support := clampUnit (((value.get "support").bind Json.asF64).getD (1 / 2))
    locator := (value.get "locator").bind Json.asStr }

/-- The shape agents are asked to produce, with fallbacks for providers that ignore it. -/
structure ParsedOutput where
  summary : String
  findings : List String
  structured : Json
  evidence : List Evidence
  reasoningSummary : String
  confidence : Rat

namespace ParsedOutput

def fromText (tools : TextTools) (text : String) : ParsedOutput :=
  match tools.fromStr text with
  | .error _ => ⟨String.ofList (trim text.toList), [], .object [("text", .string text)], [], "", 1 / 2⟩
  | .ok value =>
    { summary := ((value.get "summary").bind Json.asStr).getD (String.ofList (trim text.toList))
      findings := (((value.get "findings").bind Json.asArray).map (List.filterMap Json.asStr)).getD []
      structured := value
      evidence := (((value.get "evidence").bind Json.asArray).map (List.filterMap parseEvidence)).getD []
      reasoningSummary := ((value.get "reasoning_summary").bind Json.asStr).getD ""
      confidence := clampUnit (((value.get "confidence").bind Json.asF64).getD (1 / 2)) }

def displayText (parsed : ParsedOutput) : String :=
  if parsed.findings.isEmpty then parsed.summary
  else parsed.findings.foldl (fun text finding => text ++ "\n- " ++ finding) (parsed.summary ++ "\n")

end ParsedOutput

end Swarm
