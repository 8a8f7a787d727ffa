import WebAudit.Command.Run

/-!
# The program

The command line. The names of the project's files come from standard input, one a line, relative to
the working directory; everything else is done by `Command.run`. The program does not reach the
network: downloads fail, and the service is not started.
-/

namespace WebAudit.Program

open Dataset (Environment Store)
open Files (Node Path Tree)

/-- The lines of a stream, without blanks at their ends. -/
partial def readNames (stdin : IO.FS.Stream) : IO (List String) := do
  let line ← stdin.getLine
  if line.isEmpty then return []
  return Text.strip line :: (← readNames stdin)

/-- The entry of a file, if it can be read. -/
def readEntry (name : String) : IO (Option (List String × Node)) :=
  try
    let bytes ← IO.FS.readBinFile name
    return some ((Path.parse name).names, .file bytes.toList)
  catch _ => return none

/-- The files with some names. -/
def readTree (names : List String) : IO Tree := do
  let entries ← names.mapM readEntry
  return ⟨entries.filterMap id⟩

/-- Writes the files that are in one tree and not in another. -/
def writeChanges (before after : Tree) : IO Unit := do
  for (names, node) in after.entries do
    match node with
    | .file content =>
      if before.file? names != some content then
        IO.FS.writeBinFile ("/".intercalate names) ⟨content.toArray⟩
    | .directory => pure ()

/-- The places that the environment names. -/
def environment : IO Environment := do
  return ⟨← IO.getEnv "BASELINE_DATA_PATH", ← IO.getEnv "BASELINE_DATA_URL"⟩

/-- Runs a command line on some files. -/
def run (files : Tree) (store : Store) (args : List String) : IO UInt32 := do
  let outcome := Command.run ⟨files, [], store, .failed, ⟨1970, 1, 1, 0, 0, 0, 0, none⟩⟩ args
  (← IO.getStdout).putStr outcome.stdout
  (← IO.getStderr).putStr outcome.stderr
  writeChanges files outcome.session.files
  match outcome.finish, outcome.started with
  | .exit _, some s =>
    IO.eprintln s!"Error: cannot listen on {s.host}:{s.port}"
    return 1
  | .exit code, none => return code.toUInt32
  | .failed _, _ =>
    IO.eprintln "Error: the command broke off"
    return 1

end WebAudit.Program

def main (args : List String) : IO UInt32 := do
  let names ← WebAudit.Program.readNames (← IO.getStdin)
  let empty := WebAudit.Dataset.Store.empty (← WebAudit.Program.environment) none none
  let files ← WebAudit.Program.readTree (empty.cachePath :: names.filter (· != empty.cachePath))
  match empty.openCache files [] with
  | .ok (store, _) => WebAudit.Program.run files store args
  | .error _ =>
    IO.eprintln s!"Error: cannot read {empty.cachePath}"
    return 1
