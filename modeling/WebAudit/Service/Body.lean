import WebAudit.Analysis
import WebAudit.Checked
import WebAudit.Decimal.Reader
import WebAudit.Scan.Gate
import WebAudit.Service.Message
import WebAudit.Upgrade.Scan

/-!
# Bodies of requests

What the requests ask for, read from their bodies. A body that cannot be used is answered with all
that is wrong with it, field by field, each with its place and the value found there.
-/

namespace WebAudit.Service

/-! ## Problems -/

/-- What is wrong with a value. -/
inductive Issue where
  | setting (k : Config.ProblemKind)
  | missing
  | notObject
  | notMapping
  | notAmong (choices : List String)
  | notNumber
  | noNumberText
  /-- The body is no JSON. -/
  | notJson (cause : Json.Cause)
deriving DecidableEq, Repr

/-- Some choices in words. -/
def choiceText : List String → String
  | [] => ""
  | [a] => "'" ++ a ++ "'"
  | [a, b] => "'" ++ a ++ "' or '" ++ b ++ "'"
  | a :: rest => "'" ++ a ++ "', " ++ choiceText rest

/-- The name of an issue. -/
def Issue.name : Issue → String
  | .setting k => k.name
  | .missing => "missing"
  | .notObject => "model_attributes_type"
  | .notMapping => "dict_type"
  | .notAmong _ => "literal_error"
  | .notNumber => "float_type"
  | .noNumberText => "float_parsing"
  | .notJson _ => "json_invalid"

/-- An issue in words. -/
def Issue.message : Issue → String
  | .setting k => k.message
  | .missing => "Field required"
  | .notObject => "Input should be a valid dictionary or object to extract fields from"
  | .notMapping => "Input should be a valid dictionary"
  | .notAmong choices => "Input should be " ++ choiceText choices
  | .notNumber => "Input should be a valid number"
  | .noNumberText => "Input should be a valid number, unable to parse string as a number"
  | .notJson _ => "JSON decode error"

/-- What else is said of an issue. -/
def Issue.context : Issue → List (String × Json)
  | .notAmong choices => [("ctx", .obj [("expected", .str (choiceText choices))])]
  | .notJson cause => [("ctx", .obj [("error", .str cause.text)])]
  | _ => []

/-- A problem: where it is, what it is, and the value that has it. -/
structure Problem where
  place : List Json
  issue : Issue
  input : Json

/-- A problem as it is written. -/
def Problem.toJson (p : Problem) : Json :=
  .obj ([("type", .str p.issue.name), ("loc", .arr (.str "body" :: p.place)),
    ("msg", .str p.issue.message), ("input", p.input)] ++ p.issue.context)

/-! ## Values -/

/-- Reads a value at a place. -/
abbrev Reader (α : Type) := List Json → Json → Checked Problem α

/-- A value that is wrong. -/
def wrong {α : Type} (place : List Json) (issue : Issue) (v : Json) : Checked Problem α :=
  .error [⟨place, issue, v⟩]

/-- A text. -/
def text : Reader String
  | _, .str s => .ok s
  | place, v => wrong place (.setting .stringType) v

/-- The texts of a list, from an index on. -/
def textsFrom (place : List Json) : Nat → List Json → Checked Problem (List String)
  | _, [] => .ok []
  | i, v :: vs =>
    (both (text (place ++ [.int i]) v) (textsFrom place (i + 1) vs)).map fun p => p.1 :: p.2

/-- A list of texts. -/
def texts : Reader (List String)
  | place, .arr vs => textsFrom place 0 vs
  | place, v => wrong place (.setting .listType) v

/-- An object, as the value it is. -/
def mapping : Reader Json
  | _, .obj fs => .ok (.obj fs)
  | place, v => wrong place .notMapping v

/-- A truth value, or what stands for one. -/
def truth : Reader Bool
  | place, v =>
    match Config.truthValue v with
    | .ok b => .ok b
    | .error k => wrong place (.setting k) v

/-- The number that a text spells: with blanks at its ends, or with single underscores inside. -/
def numberOfText? (s : String) : Option Double :=
  let cs := s.toList
  (Decimal.plainDouble? (Decimal.strip cs)).or <|
    if cs.head? == some '_' || cs.getLast? == some '_' || Text.occursIn "__".toList cs then none
    else Decimal.plainDouble? (cs.filter (· != '_'))

/-- A number, or what stands for one. Whole numbers beyond the range are none. -/
def number : Reader Double
  | _, .float x => .ok x
  | _, .bool b => .ok (Double.ofInt (if b then 1 else 0))
  | place, .int n =>
    match Double.ofInt n with
    | .infinite _ => wrong place .notNumber (.int n)
    | x => .ok x
  | place, .str s => (numberOfText? s).elim (wrong place .noNumberText (.str s)) .ok
  | place, v => wrong place .notNumber v

/-- One of some words, each with what it stands for. -/
def choice {α : Type} (words : List (String × α)) : Reader α
  | place, v =>
    match v.str?.bind fun w => words.lookup w with
    | some a => .ok a
    | none => wrong place (.notAmong (words.map (·.1))) v

/-- A value or null. -/
def nullable {α : Type} (read : Reader α) : Reader (Option α)
  | _, .null => .ok none
  | place, v => (read place v).map some

/-! ## Fields -/

/-- A field that has to be there. -/
def required {α : Type} (fs : Json.Fields) (key : String) (read : Reader α) : Checked Problem α :=
  match Json.Fields.get? fs key with
  | some v => read [.str key] v
  | none => wrong [.str key] .missing (.obj fs)

/-- A field that may be left out. -/
def optional {α : Type} (fs : Json.Fields) (key : String) (otherwise : α) (read : Reader α) :
    Checked Problem α :=
  match Json.Fields.get? fs key with
  | some v => read [.str key] v
  | none => .ok otherwise

/-- A text that may be left out or null. -/
def optionalText (fs : Json.Fields) (key : String) : Checked Problem (Option String) :=
  optional fs key none (nullable text)

/-- A list of texts that may be left out or null. -/
def optionalTexts (fs : Json.Fields) (key : String) : Checked Problem (Option (List String)) :=
  optional fs key none (nullable texts)

/-! ## Requests -/

/-- A text to be analysed. -/
structure AnalyzeRequest where
  content : String
  type : ContentType
  path : Option String
  /-- An override of the configuration, or null. -/
  config : Json

/-- The kinds of texts by name. -/
def contentTypes : List (String × ContentType) :=
  [ContentType.style, .script, .markup].map fun t => (t.name, t)

/-- What a request for an analysis asks for. -/
def AnalyzeRequest.ofFields (fs : Json.Fields) : Checked Problem AnalyzeRequest :=
  (both (required fs "content" text)
    (both (optional fs "type" .script (choice contentTypes))
      (both (optionalText fs "file_path")
        (optional fs "config" none (nullable mapping))))).map
    fun (content, type, path, config) => ⟨content, type, path, config.getD .null⟩

/-- Which files are looked at. -/
structure FileRequest where
  paths : List String
  extensions : Option (List String)
  excluded : Option (List String)
deriving DecidableEq, Repr

/-- Which files below a directory are taken, with the suffixes that are usual. -/
def FileRequest.filter (r : FileRequest) (usual : List String) : Scan.Filter where
  extensions :=
    match r.extensions with
    | none => usual
    | some [] => usual
    | some es => Scan.extensions es
  excluded := r.excluded.getD Scan.defaultExcluded

/-- A scan. -/
structure ScanRequest where
  files : FileRequest
  config : Option String
deriving DecidableEq, Repr

/-- What a request for a scan asks for. -/
def ScanRequest.ofFields (fs : Json.Fields) : Checked Problem ScanRequest :=
  (both (required fs "paths" texts)
    (both (optionalText fs "config_path")
      (both (optionalTexts fs "include") (optionalTexts fs "exclude")))).map
    fun (paths, config, extensions, excluded) => ⟨⟨paths, extensions, excluded⟩, config⟩

/-- A scan that has to pass a gate. -/
structure CheckRequest where
  scan : ScanRequest
  gate : Scan.Gate
deriving DecidableEq, Repr

/-- What a request for a check asks for. -/
def CheckRequest.ofFields (fs : Json.Fields) : Checked Problem CheckRequest :=
  (both (ScanRequest.ofFields fs)
    (both (optional fs "min_safety_score" (Double.ofInt 0) number)
      (optional fs "fail_on_risky" true truth))).map
    fun (scan, minScore, failOnRisky) => ⟨scan, ⟨.float minScore, failOnRisky⟩⟩

/-- A search for upgrades. -/
structure UpgradeRequest where
  files : FileRequest
  confidence : Upgrade.Confidence
deriving DecidableEq, Repr

/-- The levels of confidence by name. -/
def confidences : List (String × Upgrade.Confidence) :=
  Upgrade.Confidence.all.map fun c => (c.name, c)

/-- What a request for upgrades asks for. -/
def UpgradeRequest.ofFields (fs : Json.Fields) : Checked Problem UpgradeRequest :=
  (both (required fs "paths" texts)
    (both (optional fs "confidence" .medium (choice confidences))
      (both (optionalTexts fs "include") (optionalTexts fs "exclude")))).map
    fun (paths, confidence, extensions, excluded) => ⟨⟨paths, extensions, excluded⟩, confidence⟩

/-! ## Bodies -/

/-- A text without the byte order mark at its start. -/
def withoutMark : List Char → List Char
  | '\ufeff' :: r => r
  | cs => cs

/-- The fields of a body, or the response to a body that has none. -/
def fieldsOf (body : String) : Except Response Json.Fields :=
  let refuse (p : Problem) : Except Response Json.Fields := .error (detail 422 (.arr [p.toJson]))
  if body == "" then refuse ⟨[], .missing, .null⟩
  else
    match Json.parseUnmarked (withoutMark body.toList) with
    | .error e =>
      if e.isDigitLimit then .error (complaint 400 "There was an error parsing the body")
      else refuse ⟨[.int e.place], .notJson e.cause, .obj []⟩
    | .ok .null => refuse ⟨[], .missing, .null⟩
    | .ok (.obj fs) => .ok fs
    | .ok v => refuse ⟨[], .notObject, v⟩

/-- What a body asks for, or the response to a body that cannot be used. -/
def readBody {α : Type} (read : Json.Fields → Checked Problem α) (body : String) :
    Except Response α := do
  match read (← fieldsOf body) with
  | .ok a => return a
  | .error ps => .error (detail 422 (.arr (ps.map Problem.toJson)))

end WebAudit.Service
