import WebAudit.Dataset.Record
import WebAudit.Files.Tree
import WebAudit.Json.Bytes
import WebAudit.Json.Writer
import WebAudit.Time.Timestamp

/-!
# The dataset store

The recorded features with the time of their last update, kept in a cache file. A store is opened on
a cache file, filled from a payload, refreshed by a download, and saved. Data that cannot be used
are left out and counted as warnings. The client that downloads is not part of this: it hands over the
status and the body of an answer, and a `Decoder` for the body.
-/

namespace WebAudit.Dataset

/-- The recorded features by id, in the order in which they came. -/
abbrev Features := List (String × Json.Fields)

/-- A store with the places it reads from. -/
structure Store where
  cachePath : String
  dataUrl : String
  features : Features := []
  lastUpdate : Option Time.Timestamp := none
deriving Repr

/-- The address from which features are downloaded. -/
def defaultDataUrl : String :=
  "https://unpkg.com/web-features/data.json"

/-- The name of the cache file. -/
def defaultCachePath : String :=
  "web_features_cache.json"

/-- Names of places that take the place of the usual ones. -/
structure Environment where
  cachePath : Option String := none
  dataUrl : Option String := none
deriving DecidableEq, Repr

/-- The first text that is not empty, or the last one. -/
def orElse (given : Option String) (otherwise : String) : String :=
  match given with
  | some s => if s == "" then otherwise else s
  | none => otherwise

/-- A store without data. -/
def Store.empty (env : Environment) (cachePath dataUrl : Option String) : Store where
  cachePath := orElse cachePath (env.cachePath.getD defaultCachePath)
  dataUrl := orElse dataUrl (env.dataUrl.getD defaultDataUrl)

/-! ## Payloads -/

/-- The entries of an object that are objects themselves. -/
def objectEntries (fs : Json.Fields) : Features :=
  fs.filterMap fun f => f.2.fields?.map fun r => (f.1, r)

/-- The features of a payload, and the number of warnings: the payload's `features`, or the payload
itself if it has no such key. -/
def featuresOf (payload : Json) : Features × Nat :=
  match payload with
  | .obj fs =>
    match Json.Fields.get? fs "features" with
    | none => (objectEntries fs, 0)
    | some (.obj features) => (objectEntries features, 0)
    | some _ => ([], 1)
  | _ => ([], 0)

/-- A store with the features of a payload in place of its own. -/
def Store.load (s : Store) (payload : Json) : Store × Nat :=
  let (features, warnings) := featuresOf payload
  ({ s with features := features }, warnings)

/-! ## The cache file -/

/-- The content of the cache file. -/
def Store.cacheContent (s : Store) : Json :=
  .obj [("last_update", (s.lastUpdate.map fun t => Json.str t.text).getD .null),
    ("features", .obj (s.features.map fun f => (f.1, .obj f.2)))]

/-- Writes the cache file. If it cannot be written the files stay as they are, with a warning. -/
def Store.save (s : Store) (files : Files.Tree) (working : List String) : Files.Tree × Nat :=
  match files.write working s.cachePath s.cacheContent.compact with
  | .ok files => (files, 0)
  | .error _ => (files, 1)

/-- The time of the last update that a cache file states, and the number of warnings. -/
def lastUpdateOf (value : Json) : Option Time.Timestamp × Nat :=
  if value.isTruthy then
    match value with
    | .str s =>
      match Time.parse? s with
      | some t => (some t, 0)
      | none => (none, 1)
    | _ => (none, 1)
  else (none, 0)

/-- Fills a store from the content of its cache file. -/
def Store.restore (s : Store) (content : Json) : Store × Nat :=
  match content with
  | .obj fs =>
    let (s, n) := s.load content
    let (t, m) := lastUpdateOf ((Json.Fields.get? fs "last_update").getD .null)
    ({ s with lastUpdate := t }, n + m)
  | _ => (s, 1)

/-- Opens a store on its cache file. A missing file is no fault. -/
def Store.openCache (s : Store) (files : Files.Tree) (working : List String) :
    Except Json.Unreadable (Store × Nat) :=
  match files.read working s.cachePath with
  | .error .notFound => .ok (s, 0)
  | .error _ => .ok (s, 1)
  | .ok bytes => do
    match ← Json.ofBytes bytes with
    | .error _ => .ok (s, 1)
    | .ok content => .ok (s.restore content)

/-! ## Downloads -/

/-- How a client takes the JSON text from the body of an answer, if it can. -/
abbrev Decoder := List UInt8 → Option String

/-- What a download gives. An answer comes with its decoder, since the encoding that it states has a
part in how its body is decoded. -/
inductive Download where
  | failed
  | answered (status : Nat) (body : List UInt8) (decode : Decoder)

/-- Why downloaded data are not used. -/
inductive Refusal where
  /-- No answer, or one that cannot be read. -/
  | noAnswer
  | badStatus (status : Nat)
  | notObject
deriving DecidableEq, Repr

/-- The payload of a download. -/
def Download.payload : Download → Except Refusal Json
  | .failed => .error .noAnswer
  | .answered status body decode =>
    if status != 200 then .error (.badStatus status)
    else
      match decode body with
      | none => .error .noAnswer
      | some text =>
        match Json.parse text with
        | .error _ => .error .noAnswer
        | .ok (.obj fs) => .ok (.obj fs)
        | .ok _ => .error .notObject

/-- What a refresh leads to. -/
structure Refreshed where
  store : Store
  files : Files.Tree
  /-- Why the download was refused. -/
  refusal : Option Refusal
  warnings : Nat

/-- Refreshes a store from a download at a point in time. A refused download changes nothing. -/
def Store.refresh (s : Store) (files : Files.Tree) (working : List String) (now : Time.Timestamp)
    (d : Download) : Refreshed :=
  match d.payload with
  | .error r => ⟨s, files, some r, 1⟩
  | .ok payload =>
    let (s, n) := s.load payload
    let s := { s with lastUpdate := some now }
    let (files, m) := s.save files working
    ⟨s, files, none, n + m⟩

end WebAudit.Dataset
