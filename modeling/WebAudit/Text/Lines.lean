/-!
# Lines and columns

Places in a text, counted three ways: as an offset in code points, as a line and column (both from
one, columns in code points), and as a row and a number of UTF-8 bytes into it (both from zero), the
form in which syntax trees exchange places. Lines end at a line feed and at nothing else.
-/

namespace WebAudit.Text

/-- A line and a column, both counted from one. -/
structure Position where
  line : Nat
  column : Nat
deriving DecidableEq, Repr

/-- A row counted from zero and a number of UTF-8 bytes into it. -/
structure Point where
  row : Nat
  bytes : Nat
deriving DecidableEq, Repr

/-- The part of a text after its last line feed. -/
def lastLine (cs : List Char) : List Char :=
  (cs.reverse.takeWhile (· != '\n')).reverse

/-- The line and column of an offset. -/
def position (text : List Char) (offset : Nat) : Position :=
  let before := text.take offset
  ⟨before.count '\n' + 1, (lastLine before).length + 1⟩

/-- The offset at which a line starts. Lines are counted from one. -/
def lineStart : List Char → Nat → Nat
  | _, 0 => 0
  | _, 1 => 0
  | [], _ => 0
  | c :: r, n + 2 => if c == '\n' then lineStart r (n + 1) + 1 else lineStart r (n + 2) + 1

/-- The offset of a line and a number of characters into it. -/
def offset (text : List Char) (line : Nat) (characters : Nat) : Nat :=
  lineStart text line + characters

/-- The number of UTF-8 bytes of a text. -/
def byteLength : List Char → Nat
  | [] => 0
  | c :: cs => c.utf8Size + byteLength cs

/-- The row of an offset and the bytes into it. -/
def point (text : List Char) (offset : Nat) : Point :=
  let before := text.take offset
  ⟨before.count '\n', byteLength (lastLine before)⟩

/-- The text of a row, without its line feed. -/
def rowText (text : List Char) (n : Nat) : List Char :=
  (text.drop (lineStart text (n + 1))).takeWhile (· != '\n')

/-- How many characters start within the first bytes of a text. -/
def charactersWithin : List Char → Nat → Nat
  | _, 0 => 0
  | [], _ => 0
  | c :: r, n => charactersWithin r (n - c.utf8Size) + 1

/-- The line and column of a row and the bytes into it. -/
def Point.position (text : List Char) (p : Point) : Position :=
  ⟨p.row + 1, charactersWithin (rowText text p.row) p.bytes + 1⟩

end WebAudit.Text
