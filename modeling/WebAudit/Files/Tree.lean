import WebAudit.Files.Path
import WebAudit.Text.Utf8

/-!
# File trees

The files below a root directory, as a list of entries with their names from the root on. Every
beginning of an entry's names is a directory. `Tree.locate?` follows a path the way the file system
does: every name but the last has to be a directory that exists, also before a double dot. Every file
of a tree can be read. A file that is there and cannot be opened, for want of permission or for
another reason, has no place in a tree.
-/

namespace WebAudit.Files

/-- What stands at a place in a tree. -/
inductive Node where
  | file (content : List UInt8)
  | directory
deriving DecidableEq, Repr

/-- A file tree. -/
structure Tree where
  entries : List (List String × Node)
deriving DecidableEq, Repr

namespace Tree

/-- The content of a file. -/
def file? (t : Tree) (names : List String) : Option (List UInt8) :=
  match t.entries.lookup names with
  | some (.file content) => some content
  | _ => none

/-- Whether there is a file. -/
def isFile (t : Tree) (names : List String) : Bool :=
  (t.file? names).isSome

/-- Whether there is a directory: the root, an entry, or a beginning of an entry's names. -/
def isDirectory (t : Tree) (names : List String) : Bool :=
  names.isEmpty || t.entries.any fun e =>
    (e.1 == names && e.2 == .directory) || (names.isPrefixOf e.1 && names.length < e.1.length)

/-- Whether there is a file or a directory. -/
def has (t : Tree) (names : List String) : Bool :=
  t.isFile names || t.isDirectory names

/-- Follows names from a directory. -/
def follow? (t : Tree) (place : List String) : List String → Option (List String)
  | [] => if t.has place then some place else none
  | n :: ns =>
    if t.isDirectory place then
      t.follow? (if n == ".." then place.dropLast else place ++ [n]) ns
    else none

/-- Where a path leads, if it leads somewhere. -/
def locate? (t : Tree) (working : List String) (p : Path) : Option (List String) :=
  if p.root == "" then t.follow? working p.names else t.follow? [] p.names

/-- Where a path leads if that is a file. -/
def locateFile? (t : Tree) (working : List String) (p : Path) : Option (List String) :=
  (t.locate? working p).filter t.isFile

/-- Where a path leads if that is a directory. -/
def locateDirectory? (t : Tree) (working : List String) (p : Path) : Option (List String) :=
  (t.locate? working p).filter t.isDirectory

/-- The files below a directory, each as its names after those of the directory. -/
def filesBelow (t : Tree) (directory : List String) : List (List String) :=
  t.entries.filterMap fun e =>
    match e.2 with
    | .directory => none
    | .file _ =>
      if directory.isPrefixOf e.1 && directory.length < e.1.length then
        some (e.1.drop directory.length)
      else none

/-- The text of a file with the bytes that are no text dropped. -/
def text? (t : Tree) (names : List String) : Option (List Char) :=
  (t.file? names).map fun bs => Text.unifyLineEnds (Text.decodeLenient bs)

/-! ## Opening files by name -/

/-- Why a file cannot be opened. -/
inductive OpenError where
  | notFound
  | isDirectory
  | notDirectory
deriving DecidableEq, Repr

/-- The place to which a written name leads, with the last name not followed yet; with a slash at
the end it has to be a directory. -/
structure Target where
  place : List String
  wantsDirectory : Bool

/-- Why names cannot be followed: a file in the way, or nothing there. -/
def blame (t : Tree) (place : List String) : List String → OpenError
  | [] => .notFound
  | n :: ns =>
    if t.isFile place then .notDirectory
    else if t.isDirectory place then
      t.blame (if n == ".." then place.dropLast else place ++ [n]) ns
    else .notFound

/-- Follows all names of a written path but the last. -/
def target (t : Tree) (working : List String) (text : String) : Except OpenError Target :=
  let p := Path.parse text
  if text == "" then .error .notFound
  else
    let start := if p.root == "" then working else []
    match p.names.getLast? with
    | none => .ok ⟨start, true⟩
    | some n =>
      let parent := p.names.dropLast
      match t.follow? start parent with
      | none => .error (t.blame start parent)
      | some d =>
        if t.isDirectory d then
          .ok ⟨if n == ".." then d.dropLast else d ++ [n],
            text.endsWith "/" || text.endsWith "/."⟩
        else .error .notDirectory

/-- The bytes of the file that a written path names. -/
def read (t : Tree) (working : List String) (text : String) : Except OpenError (List UInt8) := do
  let g ← t.target working text
  match t.file? g.place with
  | some bs => if g.wantsDirectory then .error .notDirectory else .ok bs
  | none => .error (if t.isDirectory g.place then .isDirectory else .notFound)

/-- Sets the content of a file. -/
def set (t : Tree) (names : List String) (content : List UInt8) : Tree :=
  ⟨t.entries.filter (fun e => e.1 != names) ++ [(names, .file content)]⟩

/-- The tree after a text is written to the file that a written path names. -/
def write (t : Tree) (working : List String) (text : String) (content : String) :
    Except OpenError Tree := do
  let g ← t.target working text
  if t.isDirectory g.place then .error .isDirectory
  else if g.wantsDirectory then
    .error (if t.isFile g.place then .notDirectory else .isDirectory)
  else .ok (t.set g.place (Text.encode content))

end Tree

end WebAudit.Files
