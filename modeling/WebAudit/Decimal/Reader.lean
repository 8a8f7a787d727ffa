import WebAudit.Decimal.Double
import WebAudit.Text.Blank
import WebAudit.Text.Digit
import WebAudit.Text.Lowercase

/-!
# Reading numbers

Numbers as they are typed. `plainDouble?` reads a sign and decimal digits, with a point and an
exponent, or one of the words for infinity and for what is not a number, and nothing else.
`typedDouble?` and `typedInt?` also take blanks at the ends, digits of any script and underscores
between digits.
-/

namespace WebAudit.Decimal

/-- An ASCII digit. -/
def isDigit (c : Char) : Bool :=
  '0' ≤ c && c ≤ '9'

/-- The value of ASCII digits. -/
def digitsValue (ds : List Char) : Nat :=
  ds.foldl (fun n c => n * 10 + (c.toNat - '0'.toNat)) 0

/-- A sign, if there is one, and what follows it. -/
def sign : List Char → Bool × List Char
  | '-' :: r => (true, r)
  | '+' :: r => (false, r)
  | cs => (false, cs)

/-- Digits and what follows them. -/
def digits (cs : List Char) : List Char × List Char :=
  (cs.takeWhile isDigit, cs.dropWhile isDigit)

/-- The exponent that is all of a text; no text at all stands for zero. -/
def exponent? : List Char → Option Int
  | [] => some 0
  | e :: r =>
    if e == 'e' || e == 'E' then
      let (negative, r) := sign r
      if r.isEmpty || !r.all isDigit then none
      else some (if negative then -(digitsValue r : Int) else digitsValue r)
    else none

/-- The digits after a point, and what follows them. -/
def fraction : List Char → List Char × List Char
  | '.' :: r => digits r
  | cs => ([], cs)

/-- The number that a text without sign spells by digits. -/
def decimal? (negative : Bool) (cs : List Char) : Option Double :=
  let (whole, r) := digits cs
  let (part, r) := fraction r
  if whole.isEmpty && part.isEmpty then none
  else
    (exponent? r).map fun e =>
      Double.ofDecimal negative (digitsValue (whole ++ part)) (e - part.length)

/-- The number that a word stands for, in any case. -/
def ofWord? (negative : Bool) (cs : List Char) : Option Double :=
  let w := String.ofList (cs.map Text.asciiLower)
  if w == "inf" || w == "infinity" then some (.infinite negative)
  else if w == "nan" then some .nan
  else none

/-- The number that a text spells. -/
def plainDouble? (cs : List Char) : Option Double :=
  let (negative, r) := sign cs
  (ofWord? negative r).or (decimal? negative r)

/-! ## Typed numbers -/

/-- A blank around a typed number. The separators among the controls are none. -/
def isNumberBlank (c : Char) : Bool :=
  Text.isBlank c && !('\x1c' ≤ c && c ≤ '\x1f')

/-- A text without the blanks at its ends. -/
def strip (cs : List Char) : List Char :=
  ((cs.dropWhile isNumberBlank).reverse.dropWhile isNumberBlank).reverse

/-- A digit of any script as an ASCII digit. -/
def plainDigit (c : Char) : Char :=
  match Text.digitValue? c with
  | some n => Char.ofNat ('0'.toNat + n)
  | none => c

/-- A text without its underscores, if each of them stands between two digits. `before` says whether
a digit stands before the text. -/
def joinDigits? (before : Bool) : List Char → Option (List Char)
  | [] => some []
  | '_' :: d :: r =>
    if before && isDigit d then (joinDigits? true r).map (d :: ·) else none
  | c :: r => if c == '_' then none else (joinDigits? (isDigit c) r).map (c :: ·)

/-- A typed number in its plain form. -/
def plain? (s : String) : Option (List Char) :=
  joinDigits? false (strip (s.toList.map plainDigit))

/-- The floating point number that a typed text spells. -/
def typedDouble? (s : String) : Option Double :=
  (plain? s).bind plainDouble?

/-- The most digits that a typed whole number may have. -/
def typedDigitLimit : Nat :=
  4300

/-- The whole number that a typed text spells. -/
def typedInt? (s : String) : Option Int := do
  let (negative, r) := sign (← plain? s)
  if r.isEmpty || !r.all isDigit || typedDigitLimit < r.length then none
  else some (if negative then -(digitsValue r : Int) else digitsValue r)

end WebAudit.Decimal
