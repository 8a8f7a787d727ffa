import WebAudit.Command.Parse
import WebAudit.Decimal.Reader
import WebAudit.Scan.Gate
import WebAudit.Upgrade.Scan

/-!
# The commands

What the commands are, which flags they take, and how a command line is read into a command.
-/

namespace WebAudit.Command

/-- The name of the program. -/
def programName : String :=
  "baseline-engine"

/-- The version of the program. -/
def version : String :=
  "1.0.0"

/-- The items of a list with commas, without blanks around them; blank items are dropped. -/
def commaList (s : String) : List String :=
  ((Text.splitAt ',' s.toList).map fun item => String.ofList (Text.stripList item)).filter (· != "")

/-! ## Settings -/

/-- Settings that a scan and a search for upgrades share. -/
structure FileSettings where
  paths : List String := ["src/"]
  output : Option String := none
  extensions : List String
  excluded : List String := Scan.defaultExcluded
deriving DecidableEq, Repr

/-- Which files below a directory are taken. -/
def FileSettings.filter (s : FileSettings) : Scan.Filter :=
  ⟨Scan.extensions s.extensions, s.excluded⟩

/-- Settings of a scan. -/
structure ScanSettings where
  files : FileSettings := { extensions := Scan.defaultExtensions }
  config : Option String := none
  minScore : Double := Double.ofInt 0
  failOnRisky : Bool := true
deriving DecidableEq, Repr

/-- The gate that a scan has to pass. -/
def ScanSettings.gate (s : ScanSettings) : Scan.Gate :=
  ⟨.float s.minScore, s.failOnRisky⟩

/-- Settings of a search for upgrades. -/
structure UpgradeSettings where
  files : FileSettings := { extensions := Upgrade.defaultExtensions }
  confidence : Upgrade.Confidence := .medium
deriving DecidableEq, Repr

/-- Where the service listens. -/
structure ServerSettings where
  host : String := "0.0.0.0"
  port : Int := 8000
deriving DecidableEq, Repr

/-- What a command does, with its settings. -/
inductive Task where
  | scan (s : ScanSettings)
  | upgrade (s : UpgradeSettings)
  | server (s : ServerSettings)
  | updateData
deriving DecidableEq, Repr

/-! ## Flags -/

/-- The flag that shows how a command is used. -/
def helpFlag {σ : Type} : Flag σ :=
  ⟨["-h", "--help"], .help⟩

/-- A flag whose value is taken as it is. -/
def textFlag {σ : Type} (names : List String) (set : String → σ → σ) : Flag σ :=
  ⟨names, .value fun v s => .ok (set v s)⟩

/-- The flag for the file to which the result is written. -/
def outputFlag {σ : Type} (on : (FileSettings → FileSettings) → σ → σ) : Flag σ :=
  textFlag ["-o", "--output"] fun v => on fun s => { s with output := some v }

/-- The flags that choose files. -/
def filterFlags {σ : Type} (on : (FileSettings → FileSettings) → σ → σ) : List (Flag σ) :=
  [textFlag ["--include"] fun v => on fun s => { s with extensions := commaList v },
    textFlag ["--exclude"] fun v => on fun s => { s with excluded := commaList v }]

/-- What plain words do: they are the paths, unless there are none. -/
def takePaths {σ : Type} (on : (FileSettings → FileSettings) → σ → σ) (words : List String) :
    σ → σ :=
  on fun s => if words.isEmpty then s else { s with paths := words }

/-- Changes the file settings of a scan. -/
def ScanSettings.onFiles (change : FileSettings → FileSettings) (s : ScanSettings) :
    ScanSettings :=
  { s with files := change s.files }

/-- Changes the file settings of a search for upgrades. -/
def UpgradeSettings.onFiles (change : FileSettings → FileSettings) (s : UpgradeSettings) :
    UpgradeSettings :=
  { s with files := change s.files }

/-- The flag for the score that a scan has to reach. -/
def minScoreFlag : Flag ScanSettings :=
  ⟨["--min-score"], .value fun v s =>
    match Decimal.typedDouble? v with
    | some x => .ok { s with minScore := x }
    | none => .error .notFloat⟩

/-- The flag that decides whether risky features make a scan fail, and its opposite. -/
def failOnRiskyFlag : Flag ScanSettings :=
  ⟨["--fail-on-risky", "--no-fail-on-risky"], .switch fun name s =>
    { s with failOnRisky := name == "--fail-on-risky" }⟩

/-- The flag for the least confidence of upgrades. -/
def confidenceFlag : Flag UpgradeSettings :=
  ⟨["--confidence"], .value fun v s =>
    match Upgrade.Confidence.ofName? v with
    | some c => .ok { s with confidence := c }
    | none => .error (.notAmong (Upgrade.Confidence.all.map Upgrade.Confidence.name))⟩

/-- The flag for the port of the service. -/
def portFlag : Flag ServerSettings :=
  ⟨["--port"], .value fun v s =>
    match Decimal.typedInt? v with
    | some n => .ok { s with port := n }
    | none => .error .notInt⟩

/-! ## Grammars -/

/-- The program's name followed by that of a command. -/
def commandName (name : String) : String :=
  programName ++ " " ++ name

/-- What a scan takes. -/
def scanGrammar : Grammar ScanSettings where
  program := commandName "scan"
  flags :=
    [helpFlag, textFlag ["-c", "--config"] fun v s => { s with config := some v },
      outputFlag ScanSettings.onFiles, minScoreFlag, failOnRiskyFlag]
      ++ filterFlags ScanSettings.onFiles
  plain := some (takePaths ScanSettings.onFiles)

/-- What a search for upgrades takes. -/
def upgradeGrammar : Grammar UpgradeSettings where
  program := commandName "upgrade"
  flags := [helpFlag, confidenceFlag, outputFlag UpgradeSettings.onFiles]
    ++ filterFlags UpgradeSettings.onFiles
  plain := some (takePaths UpgradeSettings.onFiles)

/-- What the service takes. -/
def serverGrammar : Grammar ServerSettings where
  program := commandName "server"
  flags := [helpFlag, textFlag ["--host"] fun v s => { s with host := v }, portFlag]
  plain := none

/-- What the update of the dataset takes. -/
def updateGrammar : Grammar Unit where
  program := commandName "update-data"
  flags := [helpFlag]
  plain := none

/-- What the program takes before the name of a command. -/
def programGrammar : Grammar Unit where
  program := programName
  flags := [helpFlag, ⟨["--version"], .version⟩]
  plain := none

/-- A command and the words that are left over. -/
abbrev Reading := Except Stop (Task × List String)

/-- Reads the settings of a command. -/
def readInto {σ : Type} (g : Grammar σ) (settings : σ) (make : σ → Task) (words : List String) :
    Reading := do
  let r ← g.read settings words
  return (make r.settings, r.leftOver)

/-- The commands by name. -/
def commands : List (String × (List String → Reading)) :=
  [("scan", readInto scanGrammar {} .scan), ("upgrade", readInto upgradeGrammar {} .upgrade),
    ("server", readInto serverGrammar {} .server),
    ("update-data", readInto updateGrammar () fun _ => .updateData)]

/-- The command of a command line. -/
def parse (words : List String) : Except Stop Task := do
  let call ← callOf programGrammar () words
  match commands.lookup call.name with
  | none =>
    .error (.refused programName (.unfit "command" call.name (.notAmong (commands.map (·.1)))))
  | some read =>
    let (task, leftOver) ← read call.words
    match call.leftOver ++ leftOver with
    | [] => return task
    | words => .error (.refused programName (.unrecognized words))

end WebAudit.Command
