import WebAudit.Command.Options
import WebAudit.Config.Load
import WebAudit.Service.Body
import WebAudit.Session

/-!
# The service

How requests are answered. Every path leads to one route and every route has one method. What a user
can mend is answered with what is wrong; a breakdown is answered with status 500.
-/

namespace WebAudit.Service

open Dataset (Fault Resolution)
open Files (Path)

/-! ## Routes -/

/-- Where a request goes. -/
inductive Route where
  | index
  | health
  | analyze
  | scan
  | check
  | upgrade
  | feature (id : String)
deriving DecidableEq, Repr

/-- The routes without parameters, with their paths. -/
def fixedRoutes : List (String × Route) :=
  [("/", .index), ("/health", .health), ("/analyze", .analyze), ("/scan", .scan),
    ("/ci/check", .check), ("/upgrade", .upgrade)]

/-- The method of a route. -/
def Route.method : Route → String
  | .analyze => "POST"
  | .scan => "POST"
  | .check => "POST"
  | .upgrade => "POST"
  | _ => "GET"

/-- What comes before the id of a feature. -/
def featurePath : List Char :=
  "/features/".toList

/-- The route of a path. A line feed at the end of a path without parameters is passed over. -/
def routeAt? (path : List Char) : Option Route :=
  let fixed := if path.getLast? == some '\n' then path.dropLast else path
  match fixedRoutes.lookup (String.ofList fixed) with
  | some r => some r
  | none =>
    let id := path.drop featurePath.length
    if featurePath.isPrefixOf path && !id.isEmpty && !id.contains '/' then
      some (.feature (String.ofList id))
    else none

/-- A path without slashes at its end. -/
def withoutSlashes (path : List Char) : List Char :=
  (path.reverse.dropWhile (· == '/')).reverse

/-- The route to which a path leads, with or without slashes at its end. -/
def route? (path : String) : Option Route :=
  let cs := (percentDecode path).toList
  (routeAt? cs).or (if cs.getLast? == some '/' then routeAt? (withoutSlashes cs) else none)

/-! ## Answers -/

/-- An answer without warnings. -/
def plainly (r : Response) : Warned Response :=
  ⟨r, 0⟩

/-- The answer on what the service is. -/
def index : Response :=
  respond 200 (.obj [("message", .str "Baseline Engine API"), ("version", .str Command.version),
    ("endpoints", .obj [("analyze", .str "/analyze"), ("scan", .str "/scan"),
      ("ci", .str "/ci/check"), ("upgrade", .str "/upgrade"),
      ("feature", .str "/features/\x7bfeature_id\x7d"), ("health", .str "/health")])])

/-- The answer on how the service is. -/
def health (s : Session) : Response :=
  respond 200 (.obj [("status", .str "healthy"),
    ("features_loaded", .int s.store.features.length),
    ("last_update", (s.store.lastUpdate.map fun t => Json.str t.text).getD .null)])

/-- What is known of a feature, as it is written. -/
def resolutionJson (id : String) (r : Resolution) : Json :=
  .obj [("baseline", r.baseline.toJson), ("support", r.support.toJson),
    ("source", .str r.source.text), ("name", r.name), ("spec", r.spec), ("mdn", r.mdn),
    ("baseline_low_date", r.lowDate), ("baseline_high_date", r.highDate), ("id", .str id)]

/-- The answer on a feature. -/
def feature (s : Session) (id : String) (key : Option String) : Response :=
  match s.sources.feature id with
  | .error _ => brokenDown
  | .ok .null => complaint 404 ("Feature '" ++ id ++ "' not found")
  | .ok _ =>
    match s.resolver id key with
    | .error _ => brokenDown
    | .ok r => respond 200 (resolutionJson id r)

/-- The answer on a text to be analysed. -/
def analyzeAnswer (s : Session) (r : AnalyzeRequest) : Warned Response :=
  (analyzeWith s.resolver (.json r.config) r.content r.type r.path).map fun
    | .ok report => respond 200 report.toJson
    | .error _ => brokenDown

/-- Goes on if there are paths and all of them lead somewhere. -/
def withPaths (s : Session) (paths : List String) (next : Warned Response) : Warned Response :=
  if paths.isEmpty then plainly (complaint 400 "No paths given")
  else
    match s.missing paths with
    | [] => next
    | missing =>
      plainly (complaint 400 ("Path does not exist: " ++ ", ".intercalate missing))

/-- The directory from which a configuration is looked for: the first path, if it is one. -/
def startDirectory (s : Session) (paths : List String) : Option String :=
  paths.head?.filter fun p => (s.files.locateDirectory? s.working (Path.parse p)).isSome

/-- Scans and answers with the summary. -/
def scanAnswer (s : Session) (r : ScanRequest) (answer : Scan.Summary → Json) : Warned Response :=
  withPaths s r.files.paths <|
    let c := Config.load s.files s.working r.config (startDirectory s r.files.paths)
    Warned.after c.warnings <|
      match c.value with
      | .error (.unreadable _) => plainly brokenDown
      | .error (.file e) => plainly (complaint 400 e.message)
      | .ok config =>
        (Scan.scan s.files s.working none config (r.files.filter Scan.defaultExtensions) s.resolver
          r.files.paths).map fun
          | .ok summary => respond 200 (answer summary)
          | .error _ => brokenDown

/-- The result of a check, as it is written. -/
def checkJson (g : Scan.Gate) (summary : Scan.Summary) : Json :=
  let (passed, message) := g.check summary
  .obj [("passed", .bool passed), ("message", .str message), ("safetyScore", .int summary.score),
    ("summary", summary.toJson)]

/-- The answer on a search for upgrades. -/
def upgradeAnswer (s : Session) (r : UpgradeRequest) : Warned Response :=
  withPaths s r.files.paths <|
    (Upgrade.scan s.files s.working none (r.files.filter Upgrade.defaultExtensions) r.confidence
      r.files.paths).map fun a => respond 200 a.toJson

/-- Reads a body and answers what it asks for. -/
def withBody {α : Type} (read : Json.Fields → Checked Problem α) (body : String)
    (answer : α → Warned Response) : Warned Response :=
  match readBody read body with
  | .ok a => answer a
  | .error r => plainly r

/-- The answer of a route. -/
def answerAt (s : Session) (r : Request) : Route → Warned Response
  | .index => plainly index
  | .health => plainly (health s)
  | .feature id => plainly (feature s id (r.query.lookup "support_key"))
  | .analyze => withBody AnalyzeRequest.ofFields r.body (analyzeAnswer s)
  | .scan => withBody ScanRequest.ofFields r.body fun q => scanAnswer s q Scan.Summary.toJson
  | .check => withBody CheckRequest.ofFields r.body fun q => scanAnswer s q.scan (checkJson q.gate)
  | .upgrade => withBody UpgradeRequest.ofFields r.body (upgradeAnswer s)

/-- Answers a request. -/
def handle (s : Session) (r : Request) : Warned Response :=
  match route? r.path with
  | none => plainly (complaint 404 "Not Found")
  | some route =>
    if r.method == route.method then answerAt s r route
    else plainly (complaint 405 "Method Not Allowed")

/-! ## Start -/

/-- What starting the service leads to. -/
structure Started where
  session : Session
  printed : String
  warnings : Nat

/-- Starts the service. A dataset without features is refreshed. -/
def start (s : Session) : Started :=
  let opening := "🚀 Starting Baseline Engine API...\n"
  let ready := "✓ Ready to accept requests\n"
  if s.store.features.isEmpty then
    let r := s.refresh
    ⟨r.session, opening ++ r.printed ++ ready, r.warnings⟩
  else ⟨s, opening ++ ready, 0⟩

end WebAudit.Service
