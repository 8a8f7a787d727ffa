import WebAudit.Analysis
import WebAudit.Files.Tree

/-!
# Finding files

The files that some paths name or contain. A file that is named is always taken; below a directory
that is named, a file is taken if its suffix is wanted and none of the directories between is
excluded. The result is sorted and has no file twice.
-/

namespace WebAudit.Scan

open Files (Tree Path)

/-- The suffixes of all files that can be analysed, sorted. -/
def defaultExtensions : List String :=
  [".cjs", ".css", ".cts", ".htm", ".html", ".js", ".jsx", ".less", ".mjs", ".mts", ".sass",
    ".scss", ".svelte", ".ts", ".tsx", ".vue"]

/-- The directories that are left out, sorted. -/
def defaultExcluded : List String :=
  [".git", "build", "coverage", "dist", "node_modules"]

/-- The suffix that one spelling stands for: with or without a dot, perhaps after stars. -/
def extension? (value : String) : Option String :=
  let cs := (Text.lower (String.ofList ((Text.stripList value.toList).dropWhile (· == '*')))).toList
  match cs with
  | [] => none
  | '.' :: _ => some (String.ofList cs)
  | _ => some (String.ofList ('.' :: cs))

/-- The suffixes that some spellings stand for. -/
def extensions (values : List String) : List String :=
  values.filterMap extension?

/-- Which files below a directory are taken. -/
structure Filter where
  extensions : List String := defaultExtensions
  excluded : List String := defaultExcluded
deriving DecidableEq, Repr

/-- Whether a file is taken, by its names after those of the directory. -/
def Filter.accepts (f : Filter) (names : List String) : Bool :=
  (f.extensions.map Text.lower).contains (Text.lower (Files.suffix (names.getLastD "")))
    && !names.dropLast.any f.excluded.contains

/-- The files that one path names or contains, or nothing if the path leads nowhere. -/
def filesAt? (files : Tree) (working : List String) (f : Filter) (path : String) :
    Option (List (List String)) :=
  let p := Path.parse path
  match files.locate? working p with
  | none => none
  | some place =>
    if files.isFile place then some [place]
    else some (((files.filesBelow place).filter f.accepts).map (place ++ ·))

/-- The files that some paths name or contain, sorted, and a warning for each path that leads
nowhere. -/
def discover (files : Tree) (working : List String) (f : Filter) (paths : List String) :
    Warned (List (List String)) :=
  let found := paths.map (filesAt? files working f)
  ⟨Files.sortPaths (found.flatMap fun r => r.getD []), found.countP (·.isNone)⟩

end WebAudit.Scan
