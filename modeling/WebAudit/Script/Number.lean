import WebAudit.Script.Lexical

/-!
# Number literals

Number tokens of scripts: hexadecimal, octal and binary literals, decimal literals with fraction and
exponent, digits with single underscores between them, and the integer forms followed by `n`. The
token taken is the longest one that fits. `isBigInt` is the test on a token's text.
-/

namespace WebAudit.Script.Number

/-! ## Digits -/

/-- The length of further digits, each with at most one underscore before it. -/
def digitTail (p : Char → Bool) : List Char → Nat
  | [] => 0
  | '_' :: c :: r => if p c then 2 + digitTail p r else 0
  | c :: r => if p c then 1 + digitTail p r else 0

/-- The length of a run of digits with single underscores between them, or zero. -/
def digits (p : Char → Bool) : List Char → Nat
  | [] => 0
  | c :: r => if p c then 1 + digitTail p r else 0

def isBinaryDigit (c : Char) : Bool :=
  c == '0' || c == '1'

def isOctalDigit (c : Char) : Bool :=
  '0' ≤ c && c ≤ '7'

/-! ## Forms of literals -/

/-- A positive length goes on with a mark `n` if there is one. -/
def withBigIntMark (cs : List Char) (n : Nat) : Nat :=
  match n, cs.drop n with
  | 0, _ => 0
  | n, 'n' :: _ => n + 1
  | n, _ => n

/-- The length of digits after a two-character radix mark, the mark included. -/
def afterRadix (p : Char → Bool) (r : List Char) : Nat :=
  match digits p r with
  | 0 => 0
  | n + 1 => n + 3

/-- A literal with a radix mark, with or without `n`. -/
def radixLength (cs : List Char) : Nat :=
  match cs with
  | '0' :: x :: r =>
    let n :=
      if x == 'x' || x == 'X' then afterRadix isHexDigit r
      else if x == 'b' || x == 'B' then afterRadix isBinaryDigit r
      else if x == 'o' || x == 'O' then afterRadix isOctalDigit r
      else 0
    withBigIntMark cs n
  | _ => 0

/-- Decimal digits, with or without `n`. -/
def integerLength (cs : List Char) : Nat :=
  withBigIntMark cs (digits isDigit cs)

/-- The exponent of a decimal literal, or zero. -/
def exponentLength : List Char → Nat
  | e :: r =>
    if e == 'e' || e == 'E' then
      match r with
      | s :: r' =>
        if s == '+' || s == '-' then
          match digits isDigit r' with
          | 0 => 0
          | n + 1 => n + 3
        else
          match digits isDigit r with
          | 0 => 0
          | n + 1 => n + 2
      | [] => 0
    else 0
  | [] => 0

/-- The whole part of a literal with a fraction or an exponent: at most one leading zero. -/
def wholeLength : List Char → Nat
  | '0' :: c :: r => if '1' ≤ c && c ≤ '9' then 2 + digitTail isDigit r else 1
  | c :: r => if isDigit c then 1 + digitTail isDigit r else 0
  | [] => 0

/-- A literal with a point. -/
def pointLength (cs : List Char) : Nat :=
  let w := wholeLength cs
  match cs.drop w with
  | '.' :: r =>
    let f := digits isDigit r
    if w == 0 && f == 0 then 0 else w + 1 + f + exponentLength (r.drop f)
  | _ => 0

/-- A literal with an exponent and no point. -/
def scaledLength (cs : List Char) : Nat :=
  match wholeLength cs with
  | 0 => 0
  | w + 1 =>
    match exponentLength (cs.drop (w + 1)) with
    | 0 => 0
    | e + 1 => w + 1 + (e + 1)

/-- The length of the number token at the start of a text, or zero. -/
def length (cs : List Char) : Nat :=
  max (max (radixLength cs) (integerLength cs)) (max (pointLength cs) (scaledLength cs))

/-- Whether a text as a whole is a number token. -/
def isToken (cs : List Char) : Bool :=
  0 < cs.length && length cs == cs.length

/-! ## Big integers -/

/-- A hexadecimal digit or an underscore. -/
def isBigIntBody (c : Char) : Bool :=
  isHexDigit c || c == '_'

/-- One or more body characters and a final `n`, behind which one line feed is passed over. -/
def isBigIntTail (cs : List Char) : Bool :=
  let body := cs.takeWhile isBigIntBody
  !body.isEmpty && [['n'], ['n', '\n']].contains (cs.drop body.length)

/-- Whether a text is written as a big integer: an optional radix mark, body characters, and `n`. -/
def isBigInt (cs : List Char) : Bool :=
  isBigIntTail cs || match cs with
    | '0' :: x :: r => ['x', 'X', 'o', 'O', 'b', 'B'].contains x && isBigIntTail r
    | _ => false

end WebAudit.Script.Number
