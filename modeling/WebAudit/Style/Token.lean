import WebAudit.Text.Lines
import WebAudit.Text.Lowercase

/-!
# Tokens of style sheets

The tokens of a style sheet with their places. `next` reads one token and says how many characters
it takes; `tokens` goes through the whole text, which gets shorter with every token. Text is
normalised first: line ends of every kind become line feeds, and the null character is replaced.
-/

namespace WebAudit.Style

open Text (Position)

/-- The three kinds of brackets. -/
inductive Bracket where
  | round
  | square
  | curly
deriving DecidableEq, Repr

/-- A token of a style sheet. -/
inductive Token where
  | space (text : List Char)
  | comment
  /-- A delimiter or an operator. -/
  | literal (text : List Char)
  | ident (name : List Char)
  | atKeyword (name : List Char)
  | hash (name : List Char) (isIdent : Bool)
  | string (value : List Char) (closed : Bool)
  | badString
  | url (value : List Char) (closed : Bool)
  | badUrl
  | unicodeRange (first last : Nat)
  | number (text : List Char)
  | percentage (text : List Char)
  | dimension (text : List Char) (unit : List Char)
  /-- A name with the parenthesis that opens its arguments. -/
  | function (name : List Char)
  | opening (b : Bracket)
  | closing (b : Bracket)
deriving DecidableEq, Repr

/-! ## Normalised text -/

/-- Line ends become line feeds, and null becomes the replacement character. -/
def normalize : List Char → List Char
  | [] => []
  | '\r' :: '\n' :: r => '\n' :: normalize r
  | c :: r =>
    (if c == '\r' || c == '\x0c' then '\n' else if c == '\x00' then '\ufffd' else c) :: normalize r

/-! ## Character classes -/

def isSpace (c : Char) : Bool :=
  c == ' ' || c == '\n' || c == '\t'

def isDigit (c : Char) : Bool :=
  '0' ≤ c && c ≤ '9'

def isHexDigit (c : Char) : Bool :=
  isDigit c || ('a' ≤ c && c ≤ 'f') || ('A' ≤ c && c ≤ 'F')

def isNameStart (c : Char) : Bool :=
  ('a' ≤ c && c ≤ 'z') || ('A' ≤ c && c ≤ 'Z') || c == '_' || 0x80 ≤ c.toNat

def isNamePart (c : Char) : Bool :=
  isNameStart c || isDigit c || c == '-'

/-- Whether a backslash before this text is an escape. -/
def isEscape (r : List Char) : Bool :=
  r.head? != some '\n'

/-- Whether a name starts here. -/
def startsName : List Char → Bool
  | [] => false
  | '-' :: r =>
    match r with
    | [] => false
    | '\\' :: r' => isEscape r'
    | c :: _ => isNameStart c || c == '-'
  | '\\' :: r => isEscape r
  | c :: _ => isNameStart c

/-! ## Names and strings -/

/-- The value of hexadecimal digits. -/
def hexValue (ds : List Char) : Nat :=
  ds.foldl (fun n c =>
    n * 16 + (if isDigit c then c.toNat - 48 else if 'a' ≤ c then c.toNat - 87 else c.toNat - 55)) 0

/-- What an escape stands for, given the text after its backslash, and how many characters of that
text it takes. -/
def escape (r : List Char) : Char × Nat :=
  let ds := (r.take 6).takeWhile isHexDigit
  match ds, r with
  | _ :: _, _ =>
    let n := hexValue ds
    let c := if 0 < n && n < 0x110000 && !(0xD800 ≤ n && n < 0xE000) then Char.ofNat n else '\ufffd'
    (c, ds.length + (if ((r.drop ds.length).head?.any isSpace) then 1 else 0))
  | [], c :: _ => (c, 1)
  | [], [] => ('\ufffd', 0)

/-- Reads a name: its characters and how much of the text it takes. -/
def name : Nat → List Char → List Char × Nat
  | 0, _ => ([], 0)
  | _, [] => ([], 0)
  | fuel + 1, c :: r =>
    if isNamePart c then
      let (cs, n) := name fuel r
      (c :: cs, n + 1)
    else if c == '\\' && isEscape r then
      let (c', k) := escape r
      let (cs, n) := name fuel (r.drop k)
      (c' :: cs, n + k + 1)
    else ([], 0)

/-- Reads the name at the start of a text. -/
def readName (cs : List Char) : List Char × Nat :=
  name cs.length cs

/-- How a string ends. -/
inductive StringEnd where
  | closed
  | endOfText
  | lineEnd
deriving DecidableEq, Repr

/-- Reads a string after its quote: its value, its length, and how it ends. A line end that is not
escaped is left unread. -/
def stringBody (quote : Char) : Nat → List Char → List Char × Nat × StringEnd
  | 0, _ => ([], 0, .endOfText)
  | _, [] => ([], 0, .endOfText)
  | fuel + 1, c :: r =>
    if c == quote then ([], 1, .closed)
    else if c == '\\' then
      match r with
      | [] => ([], 1, .endOfText)
      | '\n' :: r' =>
        let (cs, n, e) := stringBody quote fuel r'
        (cs, n + 2, e)
      | _ =>
        let (c', k) := escape r
        let (cs, n, e) := stringBody quote fuel (r.drop k)
        (c' :: cs, n + k + 1, e)
    else if c == '\n' then ([], 0, .lineEnd)
    else
      let (cs, n, e) := stringBody quote fuel r
      (c :: cs, n + 1, e)

/-- Reads a string from its quote on. -/
def readString (quote : Char) (r : List Char) : Token × Nat :=
  let (cs, n, e) := stringBody quote r.length r
  match e with
  | .closed => (.string cs true, n + 1)
  | .endOfText => (.string cs false, n + 1)
  | .lineEnd => (.badString, n + 1)

/-! ## Addresses -/

/-- Characters that an unquoted address cannot hold. -/
def isBadInUrl (c : Char) : Bool :=
  c == '"' || c == '\'' || c == '(' || c.toNat ≤ 0x08 || c.toNat == 0x0B
    || (0x0E ≤ c.toNat && c.toNat ≤ 0x1F) || c.toNat == 0x7F

/-- How much of a broken address is skipped: up to and with the next parenthesis that is not
escaped. -/
def badUrlLength : List Char → Nat
  | [] => 0
  | '\\' :: ')' :: r => badUrlLength r + 2
  | ')' :: _ => 1
  | _ :: r => badUrlLength r + 1

/-- How the body of an address ends. -/
inductive UrlEnd where
  | closed
  | endOfText
  | bad
deriving DecidableEq, Repr

/-- Reads an unquoted address up to its closing parenthesis: value, length and end. -/
def urlBody : Nat → List Char → List Char × Nat × UrlEnd
  | 0, _ => ([], 0, .endOfText)
  | _, [] => ([], 0, .endOfText)
  | fuel + 1, c :: r =>
    if c == ')' then ([], 1, .closed)
    else if isSpace c then
      let blanks := (r.takeWhile isSpace).length
      match r.drop blanks with
      | [] => ([], blanks + 1, .endOfText)
      | ')' :: _ => ([], blanks + 2, .closed)
      | rest => ([], blanks + 1 + badUrlLength rest, .bad)
    else if c == '\\' && isEscape r then
      let (c', k) := escape r
      let (cs, n, e) := urlBody fuel (r.drop k)
      (c' :: cs, n + k + 1, e)
    else if isBadInUrl c then ([], 1 + badUrlLength r, .bad)
    else
      let (cs, n, e) := urlBody fuel r
      (c :: cs, n + 1, e)

/-- Reads an unquoted address after its parenthesis. -/
def readUrl (r : List Char) : Token × Nat :=
  let blanks := (r.takeWhile isSpace).length
  let (cs, n, e) := urlBody r.length (r.drop blanks)
  match e with
  | .closed => (.url cs true, blanks + n)
  | .endOfText => (.url cs false, blanks + n)
  | .bad => (.badUrl, blanks + n)

/-- Whether the argument of an address function is a quoted string. -/
def isQuoted (r : List Char) : Bool :=
  match r.dropWhile isSpace with
  | c :: _ => c == '"' || c == '\''
  | [] => false

/-- Reads what starts with a name: a name, a function, or an address. -/
def readNamed (cs : List Char) : Token × Nat :=
  let (value, n) := readName cs
  match cs.drop n with
  | '(' :: r =>
    if value.map Text.asciiLower == "url".toList && !isQuoted r then
      let (t, k) := readUrl r
      (t, n + 1 + k)
    else (.function value, n + 1)
  | _ => (.ident value, n)

/-! ## Numbers -/

/-- The length of an exponent, or zero. -/
def exponentLength : List Char → Nat
  | e :: r =>
    if e == 'e' || e == 'E' then
      let sign := if r.head? == some '+' || r.head? == some '-' then 1 else 0
      match ((r.drop sign).takeWhile isDigit).length with
      | 0 => 0
      | n + 1 => 1 + sign + (n + 1)
    else 0
  | [] => 0

/-- The length of the number at the start of a text, or zero. -/
def numberLength (cs : List Char) : Nat :=
  let sign := if cs.head? == some '+' || cs.head? == some '-' then 1 else 0
  let body := cs.drop sign
  let whole := (body.takeWhile isDigit).length
  let fraction := match body.drop whole with
    | '.' :: r => (r.takeWhile isDigit).length
    | _ => 0
  let size := if 0 < fraction then whole + 1 + fraction else whole
  if size == 0 then 0
  else sign + size + exponentLength (body.drop size)

/-- Reads a number with its unit. -/
def readNumber (cs : List Char) (n : Nat) : Token × Nat :=
  let text := cs.take n
  let rest := cs.drop n
  if startsName rest then
    let (unit, k) := readName rest
    (.dimension text unit, n + k)
  else if rest.head? == some '%' then (.percentage text, n + 1)
  else (.number text, n)

/-- Reads a range of code points after its mark. -/
def readUnicodeRange (r : List Char) : Token × Nat :=
  let ds := (r.take 6).takeWhile isHexDigit
  let rest := r.drop ds.length
  let marks := (rest.take (6 - ds.length)).takeWhile (· == '?')
  if !marks.isEmpty then
    let k := marks.length
    (.unicodeRange (hexValue (ds ++ List.replicate k '0')) (hexValue (ds ++ List.replicate k 'F')),
      2 + ds.length + k)
  else
    match rest with
    | '-' :: c :: r' =>
      if isHexDigit c then
        let es := ((c :: r').take 6).takeWhile isHexDigit
        (.unicodeRange (hexValue ds) (hexValue es), 2 + ds.length + 1 + es.length)
      else (.unicodeRange (hexValue ds) (hexValue ds), 2 + ds.length)
    | _ => (.unicodeRange (hexValue ds) (hexValue ds), 2 + ds.length)

/-! ## One token -/

/-- The length of a comment after its first two characters; without an end it takes all. -/
def commentLength : List Char → Nat
  | [] => 0
  | '*' :: '/' :: _ => 2
  | _ :: r => commentLength r + 1

/-- Whether a range of code points starts here. -/
def startsUnicodeRange : List Char → Bool
  | u :: '+' :: c :: _ => (u == 'u' || u == 'U') && (isHexDigit c || c == '?')
  | _ => false

/-- Reads a delimiter or an operator. -/
def readLiteral (c : Char) (r : List Char) : Token × Nat :=
  if c == '|' && r.head? == some '|' then (.literal ['|', '|'], 2)
  else if ['~', '|', '^', '$', '*'].contains c && r.head? == some '=' then (.literal [c, '='], 2)
  else (.literal [c], 1)

/-- Reads what starts with a hash. -/
def readHash (r : List Char) : Token × Nat :=
  match r with
  | c :: r' =>
    if isNamePart c || (c == '\\' && isEscape r') then
      let (value, n) := readName r
      (.hash value (startsName r), n + 1)
    else (.literal ['#'], 1)
  | [] => (.literal ['#'], 1)

/-- Reads what starts with an at sign. -/
def readAt (r : List Char) : Token × Nat :=
  if startsName r then
    let (value, n) := readName r
    (.atKeyword value, n + 1)
  else (.literal ['@'], 1)

/-- Reads one token from a text that starts with `c`: the token and how many characters it takes. -/
def next (c : Char) (r : List Char) : Token × Nat :=
  let cs := c :: r
  if isSpace c then
    let ws := cs.takeWhile isSpace
    (.space ws, ws.length)
  else if startsUnicodeRange cs then readUnicodeRange (r.drop 1)
  else if "-->".toList.isPrefixOf cs then (.literal "-->".toList, 3)
  else if startsName cs then readNamed cs
  else if 0 < numberLength cs then readNumber cs (numberLength cs)
  else if c == '@' then readAt r
  else if c == '#' then readHash r
  else if c == '(' then (.opening .round, 1)
  else if c == '[' then (.opening .square, 1)
  else if c == '\x7b' then (.opening .curly, 1)
  else if c == ')' then (.closing .round, 1)
  else if c == ']' then (.closing .square, 1)
  else if c == '\x7d' then (.closing .curly, 1)
  else if c == '"' || c == '\'' then readString c r
  else if c == '/' && r.head? == some '*' then (.comment, 2 + commentLength (r.drop 1))
  else if "<!--".toList.isPrefixOf cs then (.literal "<!--".toList, 4)
  else readLiteral c r

/-! ## All tokens -/

/-- A token and where it starts. -/
structure Placed where
  place : Position
  token : Token
deriving DecidableEq, Repr

/-- The place after some more characters. -/
def advance (p : Position) : List Char → Position
  | [] => p
  | c :: r => advance (if c == '\n' then ⟨p.line + 1, 1⟩ else ⟨p.line, p.column + 1⟩) r

/-- The tokens of a text that starts at a place. -/
def tokensFrom (p : Position) (cs : List Char) : List Placed :=
  match cs with
  | [] => []
  | c :: r =>
    let (t, n) := next c r
    let n := max n 1
    ⟨p, t⟩ :: tokensFrom (advance p ((c :: r).take n)) ((c :: r).drop n)
termination_by cs.length
decreasing_by simp only [List.length_drop, List.length_cons]; omega

/-- The tokens of a style sheet. -/
def tokens (text : List Char) : List Placed :=
  tokensFrom ⟨1, 1⟩ (normalize text)

end WebAudit.Style
