import WebAudit.Scan.Discover

/-!
# Scanning projects

Every file that is found is analysed on its own, and its report is added to a summary that counts
the features as the scan goes on. That a file is found but cannot be opened, and is passed over with a
warning, is left out: all files of a tree can be read.
-/

namespace WebAudit.Scan

open Dataset (Fault Resolver)
open Files (Tree)

/-- The report on a file. -/
structure FileReport where
  file : String
  report : Report
deriving Repr

/-- What a scan found: the numbers of features in all files, and the reports on files that have
any. -/
structure Summary where
  totalFiles : Nat
  /-- How many features there are. -/
  total : Nat := 0
  /-- How many safe features there are. -/
  safe : Nat := 0
  /-- How many risky features there are. -/
  risky : Nat := 0
  reports : List FileReport := []
deriving Repr

namespace Summary

/-- The summary after the report on one more file. A file without any feature is not listed. -/
def add (s : Summary) (file : String) (r : Report) : Summary :=
  { s with
    total := s.total + r.total
    safe := s.safe + r.safe
    risky := s.risky + r.risky.length
    reports := if 0 < r.total then s.reports ++ [⟨file, r⟩] else s.reports }

/-- The safety score of all features together. -/
def score (s : Summary) : Int :=
  safetyScore s.safe s.total

/-- The ids of all risky features, file by file. -/
def riskyIds (s : Summary) : List String :=
  s.reports.flatMap fun r => r.report.risky.map (·.id)

end Summary

/-- The text and the kind of a file, if it can be analysed. -/
def analysable? (files : Tree) (names : List String) : Option (String × ContentType) := do
  let type ← ContentType.ofPath? (Files.absoluteText names)
  let text ← files.text? names
  return (String.ofList text, type)

/-- Adds the report on a file to a summary, with its name relative to a directory. A file that cannot
be analysed changes nothing. -/
def addFile (files : Tree) (base : List String) (c : Config) (resolve : Resolver) (s : Summary)
    (names : List String) : Warned (Except Fault Summary) :=
  match analysable? files names with
  | none => ⟨.ok s, 0⟩
  | some (content, type) =>
    (analyzeWith resolve (.config c) content type (some (Files.absoluteText names))).map
      fun r => r.map (s.add (Files.relativeText base names))

/-- Adds the reports on some files to a summary. The first fault ends the scan. -/
def addFiles (files : Tree) (base : List String) (c : Config) (resolve : Resolver) (s : Summary) :
    List (List String) → Warned (Except Fault Summary)
  | [] => ⟨.ok s, 0⟩
  | names :: rest =>
    (addFile files base c resolve s names).andThen fun s => addFiles files base c resolve s rest

/-- The directory to which names are relative; by default the working directory. -/
def baseDirectory (working : List String) (base : Option String) : List String :=
  match base.filter (· != "") with
  | some b => (Files.Path.parse b).absolute working
  | none => working

/-- Scans the files that some paths name or contain. -/
def scan (files : Tree) (working : List String) (base : Option String) (c : Config) (f : Filter)
    (resolve : Resolver) (paths : List String) : Warned (Except Fault Summary) :=
  let found := discover files working f paths
  (addFiles files (baseDirectory working base) c resolve { totalFiles := found.value.length }
    found.value).after found.warnings

/-! ## Written form -/

/-- The report on a file as it is written. -/
def FileReport.toJson (r : FileReport) : Json :=
  .obj [("file", .str r.file), ("report", r.report.toJson)]

/-- A summary as it is written. -/
def Summary.toJson (s : Summary) : Json :=
  .obj [("totalFiles", .int s.totalFiles), ("totalFeatures", .int s.total),
    ("safeFeatures", .int s.safe), ("riskyFeatures", .int s.risky),
    ("safetyScore", .int s.score), ("reports", .arr (s.reports.map FileReport.toJson))]

end WebAudit.Scan
