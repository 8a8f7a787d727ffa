import WebAudit.Text.Split

/-!
# Paths

Paths as they are written: a root and the names after it. Empty names and single dots are dropped
when a path is read; double dots stay, because what they lead to depends on the files. `absolute`
takes them away for a path whose directories all exist.
-/

namespace WebAudit.Files

/-- A path. The root is empty for a relative path. -/
structure Path where
  root : String := ""
  names : List String
deriving DecidableEq, Repr

namespace Path

/-- Reads a path. Exactly two slashes at the start are a root of their own. -/
def parse (text : String) : Path where
  root :=
    match text.toList with
    | '/' :: '/' :: '/' :: _ => "/"
    | '/' :: '/' :: _ => "//"
    | '/' :: _ => "/"
    | _ => ""
  names := ((Text.splitAt '/' text.toList).map String.ofList).filter fun n => n != "" && n != "."

/-- The text of a path. -/
def text (p : Path) : String :=
  if p.root == "" && p.names.isEmpty then "." else p.root ++ "/".intercalate p.names

/-- The last name, empty if there is none. -/
def fileName (p : Path) : String :=
  p.names.getLastD ""

end Path

/-- The part of a name from its last dot on. A dot at the start or the end does not count. -/
def suffix (name : String) : String :=
  let cs := name.toList
  let after := (cs.reverse.takeWhile (· != '.')).length
  let before := cs.length - after - 1
  if after == 0 || before == 0 || cs.length ≤ after then "" else String.ofList (cs.drop before)

/-- The suffix of the last name of a path. -/
def Path.suffix (p : Path) : String :=
  Files.suffix p.fileName

/-- Names without double dots, each of which takes the name before it away. `kept` holds the names
so far, latest first. -/
def withoutDots (kept : List String) : List String → List String
  | [] => kept.reverse
  | n :: ns => if n == ".." then withoutDots kept.tail ns else withoutDots (n :: kept) ns

/-- The names of a path from the root of all files. -/
def Path.absolute (working : List String) (p : Path) : List String :=
  withoutDots [] (if p.root == "" then working ++ p.names else p.names)

/-- The text of an absolute path. -/
def absoluteText (names : List String) : String :=
  "/" ++ "/".intercalate names

/-- The names that two lists start with alike are taken away from both. -/
def withoutCommon : List String → List String → List String × List String
  | a :: as, b :: bs => if a == b then withoutCommon as bs else (a :: as, b :: bs)
  | as, bs => (as, bs)

/-- The text of the relative path that leads from one directory to a file. -/
def relativeText (base file : List String) : String :=
  let (up, down) := withoutCommon base file
  match up.map (fun _ => "..") ++ down with
  | [] => "."
  | names => "/".intercalate names

/-- The order of paths: name by name. -/
def namesLt : List String → List String → Bool
  | _, [] => false
  | [], _ :: _ => true
  | a :: as, b :: bs => a < b || (a == b && namesLt as bs)

/-- Puts a path into an ascending list, unless it is there. -/
def insertPath (p : List String) : List (List String) → List (List String)
  | [] => [p]
  | q :: qs => if namesLt p q then p :: q :: qs else if p == q then q :: qs else q :: insertPath p qs

/-- The paths of a list in ascending order, each once. -/
def sortPaths (ps : List (List String)) : List (List String) :=
  ps.foldr insertPath []

end WebAudit.Files
