import WebAudit.Dataset.Baseline
import WebAudit.Dataset.Lookup

/-!
# Resolving statuses

The status of a use of a feature comes from the most precise source that states one: the status of
the use itself, then that of the whole feature, and else the feature counts as limited. What else is
known about the feature is taken from its record alone.
-/

namespace WebAudit.Dataset

/-- Where records come from. A lookup that fails counts as one that finds nothing. -/
structure Sources where
  /-- The record of a feature, null if there is none. -/
  feature : String → Except Fault Json
  /-- The status of one use of a feature, by feature and key. -/
  status : String → String → Except Fault Json

/-- The recorded features as a source. -/
def Features.sources (fs : Features) : Sources where
  feature := fs.record
  status := fs.status

/-- The browser versions from which on a feature is supported; null where none is recorded. -/
structure Support where
  chrome : Json := .null
  firefox : Json := .null
  safari : Json := .null
  edge : Json := .null
deriving Repr

/-- The support that a record states. -/
def Support.ofJson (v : Json) : Except Fault Support :=
  if v.isTruthy then do
    return { chrome := ← field "chrome" v
             firefox := ← field "firefox" v
             safari := ← field "safari" v
             edge := ← field "edge" v }
  else .ok {}

/-- Fields without those that are null. -/
def withoutNulls (fs : Json.Fields) : Json.Fields :=
  fs.filter fun f => !f.2.isNull

/-- The support that is recorded, by browser. -/
def Support.toJson (s : Support) : Json :=
  .obj (withoutNulls [("chrome", s.chrome), ("firefox", s.firefox), ("safari", s.safari),
    ("edge", s.edge)])

/-- Which source a status comes from. -/
inductive Source where
  | supportKey
  | feature
  | default
deriving DecidableEq, Repr

def Source.text : Source → String
  | .supportKey => "support-key"
  | .feature => "feature"
  | .default => "default"

/-- A resolved status with what is known about the feature; null where nothing is. -/
structure Resolution where
  baseline : Baseline
  support : Support := {}
  source : Source := .default
  name : Json := .null
  spec : Json := .null
  mdn : Json := .null
  lowDate : Json := .null
  highDate : Json := .null
deriving Repr

/-- What gives the status of a feature, or of one use of it by its key. -/
abbrev Resolver := String → Option String → Except Fault Resolution

/-- What a lookup finds; a failure finds nothing. -/
def found (r : Except Fault Json) : Json :=
  match r with
  | .ok v => v
  | .error _ => .null

/-- The status of a use and its support, if the key is not empty and the status is definite. -/
def keyStatus (s : Sources) (id : String) (key : Option String) :
    Except Fault (Option (Baseline × Json)) :=
  match key with
  | none => .ok none
  | some k =>
    if k == "" then .ok none
    else
      match found (s.status id k) with
      | .null => .ok none
      | v => do
        match Baseline.ofJson? (← field "baseline" v) with
        | some b => return some (b, ← field "support" v)
        | none => return none

/-- The status that counts, where it comes from, and the support that goes with it: those of the use
if it has a definite status, and else those of the feature. -/
def pick (status : Json) : Option (Baseline × Json) → Except Fault (Baseline × Source × Json)
  | some (b, support) => .ok (b, .supportKey, support)
  | none => do
    match Baseline.ofJson? (← field "baseline" status) with
    | some b => return (b, .feature, .null)
    | none => return (.limited, .default, .null)

/-- A support map, or that of the feature if there is none. -/
def supportOr (status support : Json) : Except Fault Json :=
  if support.isNull then field "support" status else .ok support

/-- Resolves the status of a feature, or of one use of it. -/
def resolve (s : Sources) (id : String) (key : Option String) : Except Fault Resolution := do
  let feature := orEmpty (found (s.feature id))
  let status := orEmpty (← field "status" feature)
  let picked ← pick status (← keyStatus s id key)
  return { baseline := picked.1
           support := ← Support.ofJson (← supportOr status picked.2.2)
           source := picked.2.1
           name := ← field "name" feature
           spec := first (← field "spec" feature)
           mdn := first (← field "mdn_url" feature)
           lowDate := ← field "baseline_low_date" status
           highDate := ← field "baseline_high_date" status }

/-- What resolves statuses by the dataset in the usual cache file, and the number of warnings that
opening the file raises. -/
def cachedResolver (files : Files.Tree) (working : List String) (env : Environment) :
    Except Json.Unreadable (Resolver × Nat) :=
  ((Store.empty env none none).openCache files working).map fun r =>
    (resolve r.1.features.sources, r.2)

end WebAudit.Dataset
