import WebAudit.Config.Validate
import WebAudit.Files.Tree
import WebAudit.Json.Bytes
import WebAudit.Warned

/-!
# Configuration files

A configuration is read from a file that is named, or found by looking through a directory and all
directories above it. A file found by looking that cannot be used is passed over with a warning;
bytes that are no text stop the search all the same.
-/

namespace WebAudit.Config

open Files (Tree Path)

/-- The file that holds a configuration under one of its keys. -/
def packageFile : String :=
  "package.json"

/-- The files in which a configuration is looked for, in this order. -/
def fileNames : List String :=
  ["baseline.config.json", ".baseline.json", packageFile]

/-- Why a configuration file cannot be used. -/
inductive FileError where
  | notFound (path : String)
  | notJson (path : String) (e : Json.Error)
  | notObject (path : String)
  | invalid (e : ConfigError)
deriving DecidableEq, Repr

/-- The error in words. -/
def FileError.message : FileError → String
  | .notFound path => "Config file not found: " ++ path
  | .notJson path e => "Failed to read config file " ++ path ++ ": " ++ e.message
  | .notObject path => path ++ " does not contain a JSON object"
  | .invalid e => e.message

/-- Why loading stops. -/
inductive LoadError where
  | file (e : FileError)
  /-- A file whose bytes are no text, or that has a number that is too long. -/
  | unreadable (e : Json.Unreadable)
deriving DecidableEq, Repr

/-- How a file is read: as a configuration, if it holds one. -/
def readFile (name text : String) (bytes : List UInt8) :
    Except LoadError (Except FileError (Option Config)) := do
  match ← (Json.ofBytes bytes).mapError LoadError.unreadable with
  | .error e => return .error (.notJson text e)
  | .ok v =>
    let settings : Option Json := if name == packageFile then v.field? "baseline" else some v
    match settings with
    | none => return .ok none
    | some (.obj fs) =>
      match validate (.obj fs) with
      | .ok c => return .ok (some (c.overlaying default))
      | .error e => return .error (.invalid e)
    | some _ => return .error (.notObject text)

/-- The configuration in a named file. -/
def loadFile (files : Tree) (working : List String) (path : String) : Except LoadError Config :=
  let p := Path.parse path
  match files.locateFile? working p with
  | none => .error (.file (.notFound path))
  | some names => do
    match ← readFile p.fileName p.text ((files.file? names).getD []) with
    | .ok c => return c.getD default
    | .error (.notJson _ e) => .error (.file (.notJson path e))
    | .error e => .error (.file e)

/-- A directory and all above it, given its names from the last to the first. -/
def upward : List String → List (List String)
  | [] => [[]]
  | n :: ns => (n :: ns).reverse :: upward ns

/-- The files in which a configuration is looked for, from a directory upward. -/
def candidates (directory : List String) : List (List String) :=
  (upward directory.reverse).flatMap fun d => fileNames.map fun n => d ++ [n]

/-- The first configuration among some files, and the number of warnings before it. -/
def search (files : Tree) (warnings : Nat) : List (List String) → Warned (Except LoadError Config)
  | [] => ⟨.ok default, warnings⟩
  | names :: rest =>
    match files.file? names with
    | none => search files warnings rest
    | some bytes =>
      match readFile (names.getLastD "") (Files.absoluteText names) bytes with
      | .error e => ⟨.error e, warnings⟩
      | .ok (.error _) => search files (warnings + 1) rest
      | .ok (.ok none) => search files warnings rest
      | .ok (.ok (some c)) => ⟨.ok c, warnings⟩

/-- Loads the configuration from a file, or looks for one from a directory upward. Empty names count
as none; the directory is by default the working directory. -/
def load (files : Tree) (working : List String) (path start : Option String) :
    Warned (Except LoadError Config) :=
  match path.filter (· != "") with
  | some path => ⟨loadFile files working path, 0⟩
  | none =>
    let directory := match start.filter (· != "") with
      | some s => (Path.parse s).absolute working
      | none => working
    search files 0 (candidates directory)

end WebAudit.Config
