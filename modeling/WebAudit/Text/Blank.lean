/-!
# Blanks of text

The characters that count as white space in text, and cutting them off at the ends.
-/

namespace WebAudit.Text

/-- A white space character. -/
def isBlank (c : Char) : Bool :=
  let n := c.toNat
  (0x09 ≤ n && n ≤ 0x0D) || (0x1C ≤ n && n ≤ 0x20) || n == 0x85 || n == 0xA0 || n == 0x1680
    || (0x2000 ≤ n && n ≤ 0x200A) || n == 0x2028 || n == 0x2029 || n == 0x202F || n == 0x205F
    || n == 0x3000

/-- A text without the blanks at its end. -/
def stripEnd (cs : List Char) : List Char :=
  (cs.reverse.dropWhile isBlank).reverse

/-- A text without the blanks at its ends. -/
def stripList (cs : List Char) : List Char :=
  stripEnd (cs.dropWhile isBlank)

/-- A text without the blanks at its ends. -/
def strip (s : String) : String :=
  String.ofList (stripList s.toList)

/-- Whether a text has nothing but blanks. -/
def isBlankText (s : String) : Bool :=
  s.toList.all isBlank

end WebAudit.Text
