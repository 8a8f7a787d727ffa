/-!
# Locations

Where something stands in a source text: a line and a column, and perhaps where it ends. All numbers
count from one. A location found in a part of a document is carried over to the document by
`shifted`.
-/

namespace WebAudit

/-- A place in a source text. -/
structure Location where
  line : Int
  column : Int
  endLine : Option Int := none
  endColumn : Option Int := none
deriving DecidableEq, Repr

/-- The location after the text is put below `lines` more lines, with `columns` more characters
before its first line. -/
def Location.shifted (l : Location) (lines columns : Int) : Location where
  line := l.line + lines
  column := if l.line = 1 then l.column + columns else l.column
  endLine := l.endLine.map (· + lines)
  endColumn := l.endColumn.map fun c => if l.endLine = some 1 then c + columns else c

end WebAudit
