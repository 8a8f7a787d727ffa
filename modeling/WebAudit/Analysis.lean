import WebAudit.Config.Validate
import WebAudit.Files.Path
import WebAudit.Markup.Detect
import WebAudit.Report
import WebAudit.Warned

/-!
# Analysing texts

The kind of a text decides how features are found in it; the kind of a file follows from the suffix
of its name.
-/

namespace WebAudit

/-- The kinds of texts. -/
inductive ContentType where
  | style
  | markup
  | script
deriving DecidableEq, Repr

namespace ContentType

/-- The name of a kind. -/
def name : ContentType → String
  | style => "css"
  | markup => "html"
  | script => "js"

/-- The kind that a name stands for; any other name stands for scripts. -/
def ofName (n : String) : ContentType :=
  if n == "css" then style else if n == "html" then markup else script

/-- The suffixes of files of each kind. -/
def suffixes : ContentType → List String
  | style => [".css", ".scss", ".sass", ".less"]
  | markup => [".html", ".htm", ".vue", ".svelte"]
  | script => [".js", ".mjs", ".cjs", ".jsx", ".ts", ".mts", ".cts", ".tsx"]

/-- The kind of a file with a suffix in lower case. -/
def ofSuffix? (s : String) : Option ContentType :=
  [style, markup, script].find? (·.suffixes.contains s)

/-- The kind of a file, if it is one that can be analysed. -/
def ofPath? (path : String) : Option ContentType :=
  ofSuffix? (Text.lower (Files.Path.parse path).suffix)

end ContentType

/-- The suffixes of typed scripts, with their dialects. -/
def dialectSuffixes : List (String × Script.Dialect) :=
  [(".ts", .typescript), (".mts", .typescript), (".cts", .typescript), (".tsx", .tsx)]

/-- The dialect of a script by the end of its path, in any case. -/
def dialectOfPath (path : String) : Script.Dialect :=
  let cs := (Text.lower path).toList
  match dialectSuffixes.find? (fun e => e.1.toList.isSuffixOf cs) with
  | some e => e.2
  | none => .javascript

/-- The features in a text of some kind. The path of a script decides on its dialect. -/
def detect (content : String) (type : ContentType) (path : Option String) : Findings :=
  match type with
  | .style => Style.detect content
  | .markup => Markup.detect content
  | .script => Script.detect ((path.map dialectOfPath).getD .javascript) content

open Dataset (Fault Resolver)

/-- Reports on a text under a configuration. -/
def analyze (resolve : Resolver) (c : Config) (content : String) (type : ContentType)
    (path : Option String) : Warned (Except Fault Report) :=
  let f := detect content type path
  ⟨Report.create c resolve f.detections, f.warnings⟩

/-- Reports on a text under the default configuration with an override. -/
def analyzeWith (resolve : Resolver) (override : Config.Override) (content : String)
    (type : ContentType) (path : Option String) : Warned (Except Fault Report) :=
  let (c, n) := Config.merge override .default
  (analyze resolve c content type path).after n

/-- Why the cached dataset gives no report. -/
inductive CacheFault where
  /-- The cache file cannot be read. -/
  | unreadable (e : Json.Unreadable)
  /-- A record in it breaks a lookup. -/
  | lookup (e : Fault)
deriving DecidableEq, Repr

/-- Reports on a text under the default configuration, by the dataset in the usual cache file. -/
def analyzeText (files : Files.Tree) (working : List String) (env : Dataset.Environment)
    (content : String) (type : ContentType) : Warned (Except CacheFault Report) :=
  match Dataset.cachedResolver files working env with
  | .error e => ⟨.error (.unreadable e), (detect content type none).warnings⟩
  | .ok (resolve, n) =>
    ((analyze resolve .default content type none).after n).map (·.mapError .lookup)

end WebAudit
