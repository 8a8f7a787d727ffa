import WebAudit.Scan.Summary
import WebAudit.Upgrade.Advice

/-!
# Advice on projects

Every file that is found is looked through for old idioms. That a file is found but cannot be opened,
and is passed over with a warning, is left out: all files of a tree can be read.
-/

namespace WebAudit.Upgrade

open Files (Tree)

/-- The suffixes of files that are looked through. -/
def defaultExtensions : List String :=
  [".css", ".js", ".jsx", ".scss", ".ts", ".tsx"]

/-- The advice on a project. -/
structure Advice where
  totalFiles : Nat
  suggestions : List Suggestion

/-- The advice of one level of confidence. -/
def Advice.ofConfidence (a : Advice) (c : Confidence) : List Suggestion :=
  a.suggestions.filter (·.confidence == c)

/-! ## Groups -/

/-- Pieces of advice under names, in the order of the names. -/
abbrev Groups := List (String × List Suggestion)

/-- Puts a piece of advice at the end of the group that has the name of its level, if there is one. -/
def Groups.put? (s : Suggestion) : Groups → Option Groups
  | [] => none
  | (name, group) :: rest =>
    if name == s.confidence.name then some ((name, group ++ [s]) :: rest)
    else (put? s rest).map ((name, group) :: ·)

/-- Puts pieces of advice into their groups, one after the other. -/
def Groups.putAll? (gs : Groups) : List Suggestion → Option Groups
  | [] => some gs
  | s :: ss => (gs.put? s).bind fun gs => putAll? gs ss

/-- The advice in groups, one for each level, the surest first. -/
def Advice.byConfidence? (a : Advice) : Option Groups :=
  Groups.putAll? (Confidence.all.map fun c => (c.name, [])) a.suggestions

/-! ## Scans -/

/-- The advice on a file, with its name relative to a directory. -/
def suggestFile (files : Tree) (base : List String) (level : Confidence) (names : List String) :
    List Suggestion :=
  match files.text? names with
  | some text => suggest (String.ofList text) (Files.relativeText base names) level
  | none => []

/-- The advice on the files that some paths name or contain. -/
def scan (files : Tree) (working : List String) (base : Option String) (f : Scan.Filter)
    (level : Confidence) (paths : List String) : Warned Advice :=
  let found := Scan.discover files working f paths
  ⟨⟨found.value.length,
    found.value.flatMap (suggestFile files (Scan.baseDirectory working base) level)⟩,
    found.warnings⟩

/-- The advice at the level with a name. A name that is no level ends the scan before any path is
looked at. -/
def scanAt (files : Tree) (working : List String) (base : Option String) (f : Scan.Filter)
    (level : String) (paths : List String) : Warned (Except String Advice) :=
  match levelNamed level with
  | .ok c => (scan files working base f c paths).map .ok
  | .error e => ⟨.error e, 0⟩

/-- The advice on a project as it is written. -/
def Advice.toJson (a : Advice) : Json :=
  .obj [("totalFiles", .int a.totalFiles), ("totalSuggestions", .int a.suggestions.length),
    ("suggestions", .arr (a.suggestions.map Suggestion.toJson))]

end WebAudit.Upgrade
