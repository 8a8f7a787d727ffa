import WebAudit.Command.Options
import WebAudit.Config.Load
import WebAudit.Session

/-!
# Running commands

What a command line leads to: what is printed, the exit code, and the files afterwards. A command
line that is refused, a configuration that cannot be used and a path that leads nowhere give the
code 2; a scan that finds no files or fails its gate gives 1.
-/

namespace WebAudit.Command

open Dataset (Fault)
open Files (Tree)
open Files.Tree (OpenError)

/-- Why a command breaks off. -/
inductive Failure where
  /-- A configuration file that cannot be read at all. -/
  | config (e : Json.Unreadable)
  /-- A record of the dataset that cannot be used. -/
  | dataset (e : Fault)
  /-- A result that cannot be written to its file. -/
  | output (e : OpenError)
deriving DecidableEq, Repr

/-- How a command ends. -/
inductive Finish where
  | exit (code : Nat)
  | failed (f : Failure)
deriving DecidableEq, Repr

/-- What a command line leads to. -/
structure Outcome where
  finish : Finish
  stdout : String := ""
  stderr : String := ""
  session : Session
  /-- Where the service is started. -/
  started : Option ServerSettings := none
  warnings : Nat := 0

/-- An outcome after some more warnings. -/
def Outcome.after (n : Nat) (o : Outcome) : Outcome :=
  { o with warnings := n + o.warnings }

/-! ## Results -/

/-- Prints a result and writes it to a file, if one is named, then goes on. -/
def deliver (s : Session) (result : Json) (path : Option String) (code : Nat) (note : String) :
    Outcome :=
  let text := result.indented
  match path.filter (· != "") with
  | none => { finish := .exit code, stdout := text ++ "\n", stderr := note, session := s }
  | some path =>
    match s.files.write s.working path text with
    | .error e => { finish := .failed (.output e), stdout := text ++ "\n", session := s }
    | .ok files =>
      { finish := .exit code
        stdout := text ++ "\n"
        stderr := "✓ Report saved to " ++ path ++ "\n" ++ note
        session := { s with files := files } }

/-- Goes on if all paths lead somewhere. -/
def withPaths (s : Session) (paths : List String) (next : Outcome) : Outcome :=
  match s.missing paths with
  | [] => next
  | missing =>
    { finish := .exit 2
      stderr := "Error: path does not exist: " ++ ", ".intercalate missing ++ "\n"
      session := s }

/-- What is said if no files are found. -/
def noFiles (s : Session) : Outcome :=
  { finish := .exit 1, stderr := "No files found to analyze\n", session := s }

/-! ## Commands -/

/-- Scans under a configuration. -/
def scanWith (s : Session) (o : ScanSettings) (c : Config) : Outcome :=
  let r := Scan.scan s.files s.working none c o.files.filter s.resolver o.files.paths
  Outcome.after r.warnings <|
    match r.value with
    | .error e => { finish := .failed (.dataset e), session := s }
    | .ok summary =>
      if summary.totalFiles == 0 then noFiles s
      else
        let (passed, message) := o.gate.check summary
        deliver s summary.toJson o.files.output (if passed then 0 else 1) (message ++ "\n")

/-- Scans. -/
def runScan (s : Session) (o : ScanSettings) : Outcome :=
  let c := Config.load s.files s.working o.config none
  Outcome.after c.warnings <|
    match c.value with
    | .error (.unreadable e) => { finish := .failed (.config e), session := s }
    | .error (.file e) =>
      { finish := .exit 2, stderr := "Error: " ++ e.message ++ "\n", session := s }
    | .ok config => withPaths s o.files.paths (scanWith s o config)

/-- How many upgrades there are of a level, unless there are none. -/
def levelNote (a : Upgrade.Advice) (c : Upgrade.Confidence) : String :=
  match (a.ofConfidence c).length with
  | 0 => ""
  | n => s!"{c.name.toUpper} CONFIDENCE: {n} suggestions\n"

/-- What is said of upgrades. -/
def upgradeNote (a : Upgrade.Advice) : String :=
  if a.suggestions.isEmpty then "✅ No upgrade suggestions found. Your code looks modern!\n"
  else
    String.join (Upgrade.Confidence.all.map (levelNote a))
      ++ s!"📈 Summary: Found {a.suggestions.length} upgrade opportunities\n"

/-- Looks for upgrades. -/
def runUpgrade (s : Session) (o : UpgradeSettings) : Outcome :=
  withPaths s o.files.paths <|
    let r := Upgrade.scan s.files s.working none o.files.filter o.confidence o.files.paths
    Outcome.after r.warnings <|
      if r.value.totalFiles == 0 then noFiles s
      else deliver s r.value.toJson o.files.output 0 (upgradeNote r.value)

/-- Updates the dataset. -/
def runUpdate (s : Session) : Outcome :=
  let r := s.refresh
  { finish := .exit (if r.renewed then 0 else 1)
    stdout := r.printed
    session := r.session
    warnings := r.warnings }

/-- Runs a command. -/
def runTask (s : Session) : Task → Outcome
  | .scan o => runScan s o
  | .upgrade o => runUpgrade s o
  | .server o => { finish := .exit 0, session := s, started := some o }
  | .updateData => runUpdate s

/-- How a program is used, in one line. -/
def usage (program : String) : String :=
  "usage: " ++ program
    ++ (if program == programName then " \x7bscan,upgrade,server,update-data\x7d ..." else " [options]")
    ++ "\n"

/-- What a command line that runs no command leads to. -/
def stopped (s : Session) : Stop → Outcome
  | .help program => { finish := .exit 0, stdout := usage program, session := s }
  | .version => { finish := .exit 0, stdout := version ++ "\n", session := s }
  | .refused program r =>
    { finish := .exit 2
      stderr := usage program ++ program ++ ": error: " ++ r.message ++ "\n"
      session := s }

/-- Runs a command line. -/
def run (s : Session) (words : List String) : Outcome :=
  match parse words with
  | .ok t => runTask s t
  | .error stop => stopped s stop

end WebAudit.Command
