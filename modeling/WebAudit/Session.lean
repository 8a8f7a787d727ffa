import WebAudit.Dataset.Resolution
import WebAudit.Files.Tree

/-!
# Sessions

What the commands and the service work on: the files, the working directory, the dataset, and the
download and the time that a refresh of the dataset would meet.
-/

namespace WebAudit

open Dataset (Download Refusal Resolver Sources Store)
open Files (Path Tree)

/-- What the commands and the service work on. -/
structure Session where
  files : Tree
  working : List String
  store : Store
  download : Download
  now : Time.Timestamp

namespace Session

/-- The sources of the session's dataset. -/
def sources (s : Session) : Sources :=
  s.store.features.sources

/-- What resolves statuses by the session's dataset. -/
def resolver (s : Session) : Resolver :=
  Dataset.resolve s.sources

/-- The paths that lead nowhere. -/
def missing (s : Session) (paths : List String) : List String :=
  paths.filter fun p => (s.files.locate? s.working (Path.parse p)).isNone

/-- What a refresh leads to: the session after it, what is printed, whether the data are new, and
the number of warnings. -/
structure Refreshed where
  session : Session
  printed : String
  renewed : Bool
  warnings : Nat

/-- What is printed once a download has been looked at. -/
def refreshNote (features : Nat) : Option Refusal → String
  | none => s!"✓ Loaded {features} features\n"
  | some .noAnswer => "Falling back to cached data...\n"
  | some _ => ""

/-- Refreshes the dataset. -/
def refresh (s : Session) : Refreshed :=
  let r := s.store.refresh s.files s.working s.now s.download
  { session := { s with store := r.store, files := r.files }
    printed := s!"📥 Fetching web-features data from {s.store.dataUrl}...\n"
      ++ refreshNote r.store.features.length r.refusal
    renewed := r.refusal.isNone
    warnings := r.warnings }

end Session

end WebAudit
