import WebAudit.Files.Path
import WebAudit.Json.Basic
import WebAudit.Upgrade.Pattern

/-!
# Advice on legacy idioms

Old idioms that have a modern replacement, looked for line by line. Every piece of advice has a
level of confidence, and only advice of a wanted level or above is given.
-/

namespace WebAudit.Upgrade

/-- How sure advice is. -/
inductive Confidence where
  | high
  | medium
  | low
deriving DecidableEq, Repr

namespace Confidence

def name : Confidence → String
  | high => "high"
  | medium => "medium"
  | low => "low"

/-- All levels, the surest first. -/
def all : List Confidence :=
  [high, medium, low]

/-- The level with a name. -/
def ofName? (n : String) : Option Confidence :=
  all.find? (·.name == n)

/-- The place of a level in the order, the surest first. -/
def rank : Confidence → Nat
  | high => 0
  | medium => 1
  | low => 2

/-- Whether a level is at least as sure as another. -/
def atLeast (c wanted : Confidence) : Bool :=
  c.rank ≤ wanted.rank

end Confidence

/-- What is said of a name that is no level. -/
def unknownLevelMessage (name : String) : String :=
  s!"Unknown confidence level '{name}' (expected one of high, medium, low)"

/-- The level with a name, or what is said if there is none. -/
def levelNamed (name : String) : Except String Confidence :=
  match Confidence.ofName? name with
  | some c => .ok c
  | none => .error (unknownLevelMessage name)

/-- An old idiom and its replacement. -/
structure Idiom where
  pattern : Pattern
  reason : String
  replacement : String
  confidence : Confidence

/-- The old idioms. -/
def idioms : List Idiom :=
  [{ pattern := word "float" ++ [blanks, .char ':', blanks, .oneOf ["left".toList, "right".toList]]
     reason := "Consider using CSS Grid or Flexbox instead of float"
     replacement := "display: flex; /* or display: grid; */"
     confidence := .high },
    { pattern := word "XMLHttpRequest"
      reason := "Use fetch() API instead of XMLHttpRequest"
      replacement := "fetch()"
      confidence := .high },
    { pattern := word "document.getElementById"
      reason := "Consider using document.querySelector() for consistency"
      replacement := "document.querySelector()"
      confidence := .medium },
    { pattern := word ".indexOf(" ++ [blanks, .run (fun c => c != '\n') 1 none, blanks, .char ')',
        blanks, .run (fun c => c == '>' || c == '!' || c == '=') 1 (some 1), .char '=',
        .run (· == '=') 0 (some 1), blanks, .char '-', .char '1']
      reason := "Use .includes() instead of .indexOf()"
      replacement := ".includes()"
      confidence := .high }]

/-- A piece of advice: what was found where, and what to write instead. -/
structure Suggestion where
  file : String
  line : Nat
  column : Nat
  found : String
  idiom : Idiom

/-- The confidence of a piece of advice. -/
def Suggestion.confidence (s : Suggestion) : Confidence :=
  s.idiom.confidence

/-- The idioms that are looked for at a level. -/
def idiomsAt (level : Confidence) : List Idiom :=
  idioms.filter (·.confidence.atLeast level)

/-- The advice on one idiom in a line. -/
def suggestIdiom (file : String) (line : Nat) (text : List Char) (i : Idiom) : List Suggestion :=
  (findAll i.pattern 0 text).map fun m => ⟨file, line, m.1 + 1, String.ofList m.2, i⟩

/-- The advice on lines, of which the first has a number. -/
def suggestLines (file : String) (is : List Idiom) (line : Nat) : List (List Char) → List Suggestion
  | [] => []
  | t :: ts => is.flatMap (suggestIdiom file line t) ++ suggestLines file is (line + 1) ts

/-- The advice on a text at a level: by line, then by idiom, then by column. -/
def suggest (content file : String) (level : Confidence) : List Suggestion :=
  suggestLines file (idiomsAt level) 1 (Text.splitAt '\n' content.toList)

/-- A piece of advice as it is written. -/
def Suggestion.toJson (s : Suggestion) : Json :=
  .obj [("file", .str s.file), ("line", .int s.line), ("column", .int s.column),
    ("from", .str s.found), ("to", .str s.idiom.replacement), ("reason", .str s.idiom.reason),
    ("confidence", .str s.confidence.name)]

end WebAudit.Upgrade
