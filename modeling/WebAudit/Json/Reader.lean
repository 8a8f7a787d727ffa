import WebAudit.Json.Basic

/-!
# Reading JSON

A reader for JSON text that says what is wrong and where. Beyond the standard it takes the words
`NaN`, `Infinity` and `-Infinity`, and the last of several values under one key wins. The place of a
fault is kept as the number of characters from it to the end of the text, so that no reader has to
count; `Fault.place` turns it into an offset. `value` and its companions carry a bound that the
wrapper `parse` takes from the length of the text. Values may be nested to any depth: a limit on the
depth of recursion, at which a reader would give up, is left out.
-/

namespace WebAudit.Json

/-! ## Faults -/

/-- What can be wrong with a text. -/
inductive Cause where
  | value
  | extra
  | unterminated
  | control
  | escape
  | unicodeEscape
  | propertyName
  | colon
  | comma
  | byteOrderMark
  /-- A whole number with more digits than are read. -/
  | digits (count : Nat)
deriving DecidableEq, Repr

/-- A fault and how much of the text is left at its place. -/
structure Fault where
  cause : Cause
  left : Nat
deriving DecidableEq, Repr

/-- Why a text is no JSON: what is wrong, and the offset at which it is. -/
structure Error where
  cause : Cause
  place : Nat
  line : Nat
  column : Nat
deriving DecidableEq, Repr

/-- What a fault is called. -/
def Cause.text : Cause → String
  | value => "Expecting value"
  | extra => "Extra data"
  | unterminated => "Unterminated string starting at"
  | control => "Invalid control character at"
  | escape => "Invalid \\escape"
  | unicodeEscape => "Invalid \\uXXXX escape"
  | propertyName => "Expecting property name enclosed in double quotes"
  | colon => "Expecting ':' delimiter"
  | comma => "Expecting ',' delimiter"
  | byteOrderMark => "Unexpected UTF-8 BOM (decode using utf-8-sig)"
  | digits n =>
    s!"Exceeds the limit (4300 digits) for integer string conversion: value has {n} digits; use sys.set_int_max_str_digits() to increase the limit"

/-- The fault and its place in words. -/
def Error.message (e : Error) : String :=
  s!"{e.cause.text}: line {e.line} column {e.column} (char {e.place})"

/-- Whether the text is well formed and only a number in it is too long. -/
def Error.isDigitLimit (e : Error) : Bool :=
  match e.cause with
  | .digits _ => true
  | _ => false

/-! ## Strings -/

/-- White space between tokens. -/
def isSpace (c : Char) : Bool :=
  c == ' ' || c == '\t' || c == '\n' || c == '\r'

def skip (cs : List Char) : List Char :=
  cs.dropWhile isSpace

/-- The value of a hexadecimal digit. -/
def hexValue? (c : Char) : Option Nat :=
  if '0' ≤ c && c ≤ '9' then some (c.toNat - '0'.toNat)
  else if 'a' ≤ c && c ≤ 'f' then some (c.toNat - 'a'.toNat + 10)
  else if 'A' ≤ c && c ≤ 'F' then some (c.toNat - 'A'.toNat + 10)
  else none

/-- The value of four hexadecimal digits. -/
def hex4? (a b c d : Char) : Option Nat := do
  pure (((← hexValue? a) * 16 + (← hexValue? b)) * 256 + (← hexValue? c) * 16 + (← hexValue? d))

def isHighSurrogate (n : Nat) : Bool :=
  0xD800 ≤ n && n ≤ 0xDBFF

def isLowSurrogate (n : Nat) : Bool :=
  0xDC00 ≤ n && n ≤ 0xDFFF

/-- The character of a code point; half of a pair on its own is replaced. -/
def codePoint (n : Nat) : Char :=
  if 0xD800 ≤ n && n ≤ 0xDFFF then '\ufffd' else Char.ofNat n

/-- The character of a pair. -/
def joinSurrogates (high low : Nat) : Char :=
  Char.ofNat (0x10000 + (high - 0xD800) * 0x400 + (low - 0xDC00))

/-- The character that a backslash and a letter stand for. -/
def simpleEscape? (c : Char) : Option Char :=
  if c == '"' then some '"'
  else if c == '\\' then some '\\'
  else if c == '/' then some '/'
  else if c == 'b' then some '\x08'
  else if c == 'f' then some '\x0c'
  else if c == 'n' then some '\n'
  else if c == 'r' then some '\r'
  else if c == 't' then some '\t'
  else none

/-- The value of four hexadecimal digits at the start of a text that does not end with them. -/
def code? : List Char → Option Nat
  | a :: b :: c :: d :: _ :: _ => hex4? a b c d
  | _ => none

/-- The character of the first half of a pair and how many characters the escape takes, given the
text after it. The second half may be missing. -/
def pairFrom (high : Nat) : List Char → Except Fault (Char × Nat)
  | '\\' :: 'u' :: r =>
    if r.length < 5 then .ok (codePoint high, 5)
    else
      match code? r with
      | none => .error ⟨.unicodeEscape, r.length + 1⟩
      | some low =>
        if isLowSurrogate low then .ok (joinSurrogates high low, 11) else .ok (codePoint high, 5)
  | _ => .ok (codePoint high, 5)

/-- What an escape stands for, given the text after its backslash: the character and how many
characters the escape takes. -/
def escape (start : Nat) : List Char → Except Fault (Char × Nat)
  | [] => .error ⟨.unterminated, start⟩
  | 'u' :: r =>
    match code? r with
    | none => .error ⟨.unicodeEscape, r.length + 1⟩
    | some n => if isHighSurrogate n then pairFrom n (r.drop 4) else .ok (codePoint n, 5)
  | c :: r =>
    match simpleEscape? c with
    | some c' => .ok (c', 1)
    | none => .error ⟨.escape, r.length + 2⟩

/-- Reads a string after its opening quote: its characters and the text after it. -/
def string (start : Nat) : Nat → List Char → Except Fault (List Char × List Char)
  | 0, _ => .error ⟨.unterminated, start⟩
  | _, [] => .error ⟨.unterminated, start⟩
  | fuel + 1, c :: r =>
    if c == '"' then .ok ([], r)
    else if c == '\\' then
      match escape start r with
      | .error e => .error e
      | .ok (c', n) =>
        match string start fuel (r.drop n) with
        | .error e => .error e
        | .ok (cs, rest) => .ok (c' :: cs, rest)
    else if c.toNat ≤ 0x1F then .error ⟨.control, r.length + 1⟩
    else
      match string start fuel r with
      | .error e => .error e
      | .ok (cs, rest) => .ok (c :: cs, rest)

/-! ## Numbers -/

def isDigit (c : Char) : Bool :=
  '0' ≤ c && c ≤ '9'

/-- The value of decimal digits. -/
def digitsValue (ds : List Char) : Nat :=
  ds.foldl (fun n c => n * 10 + (c.toNat - '0'.toNat)) 0

/-- The fraction of a number: its digits and the text after it. -/
def fraction : List Char → List Char × List Char
  | '.' :: r =>
    let ds := r.takeWhile isDigit
    if ds.isEmpty then ([], '.' :: r) else (ds, r.drop ds.length)
  | cs => ([], cs)

/-- A sign, if there is one, and the text after it. -/
def sign : List Char → Bool × List Char
  | '-' :: r => (true, r)
  | '+' :: r => (false, r)
  | cs => (false, cs)

/-- A whole number by its sign and its size. -/
def signed (negative : Bool) (n : Nat) : Int :=
  if negative then -n else n

/-- The exponent of a number and the text after it. -/
def exponent : List Char → Option (Int × List Char)
  | e :: r =>
    if e == 'e' || e == 'E' then
      let s := sign r
      let ds := s.2.takeWhile isDigit
      if ds.isEmpty then none
      else some (signed s.1 (digitsValue ds), s.2.drop ds.length)
    else none
  | [] => none

/-- The digits before a point or an exponent. A zero stands alone. -/
def leading : List Char → List Char
  | '0' :: _ => ['0']
  | cs => cs.takeWhile isDigit

/-- The most digits a whole number may have. -/
def digitLimit : Nat := 4300

/-- The number that digits before and after a point and an exponent spell. With neither a point nor
an exponent it is a whole number. -/
def numeral (negative : Bool) (whole frac : List Char) (exponent : Option Int) :
    Except Cause Json :=
  match frac, exponent with
  | [], none =>
    if digitLimit < whole.length then .error (.digits whole.length)
    else .ok (.int (signed negative (digitsValue whole)))
  | frac, e =>
    .ok (.float (.ofDecimal negative (digitsValue (whole ++ frac)) (e.getD 0 - frac.length)))

/-- Reads a number after its sign. -/
def number (negative : Bool) (cs : List Char) : Except Fault (Json × List Char) :=
  let whole := leading cs
  if whole.isEmpty then .error ⟨.value, cs.length + (if negative then 1 else 0)⟩
  else
    let frac := fraction (cs.drop whole.length)
    let e := exponent frac.2
    match numeral negative whole frac.1 (e.map Prod.fst) with
    | .ok v => .ok (v, (e.map Prod.snd).getD frac.2)
    | .error cause => .error ⟨cause, cs.length⟩

/-! ## Values -/

/-- The words that stand for values. -/
def words : List (String × Json) :=
  [("null", .null), ("true", .bool true), ("false", .bool false), ("NaN", .float .nan),
    ("Infinity", .float (.infinite false)), ("-Infinity", .float (.infinite true))]

mutual

/-- Reads a value. -/
def value : Nat → List Char → Except Fault (Json × List Char)
  | 0, cs => .error ⟨.value, cs.length⟩
  | fuel + 1, cs =>
    match words.find? (fun w => w.1.toList.isPrefixOf cs) with
    | some (w, v) => .ok (v, cs.drop w.length)
    | none =>
      match cs with
      | [] => .error ⟨.value, 0⟩
      | '"' :: r =>
        match string cs.length (r.length + 1) r with
        | .error e => .error e
        | .ok (s, rest) => .ok (.str (String.ofList s), rest)
      | '[' :: r =>
        match skip r with
        | ']' :: rest => .ok (.arr [], rest)
        | rest =>
          match items fuel rest with
          | .error e => .error e
          | .ok (xs, rest) => .ok (.arr xs, rest)
      | '\x7b' :: r =>
        match skip r with
        | '\x7d' :: rest => .ok (.obj [], rest)
        | rest =>
          match members fuel [] rest with
          | .error e => .error e
          | .ok (fs, rest) => .ok (.obj fs, rest)
      | '-' :: r => number true r
      | cs => number false cs

/-- Reads the items of an array from its first one on. -/
def items : Nat → List Char → Except Fault (List Json × List Char)
  | 0, cs => .error ⟨.value, cs.length⟩
  | fuel + 1, cs =>
    match value fuel cs with
    | .error e => .error e
    | .ok (x, rest) =>
      match skip rest with
      | ']' :: rest => .ok ([x], rest)
      | ',' :: rest =>
        match items fuel (skip rest) with
        | .error e => .error e
        | .ok (xs, rest) => .ok (x :: xs, rest)
      | rest => .error ⟨.comma, rest.length⟩

/-- Reads the members of an object from one of them on, after the fields already read. -/
def members : Nat → Fields → List Char → Except Fault (Fields × List Char)
  | 0, _, cs => .error ⟨.value, cs.length⟩
  | fuel + 1, fs, cs =>
    match cs with
    | '"' :: r =>
      match string cs.length (r.length + 1) r with
      | .error e => .error e
      | .ok (k, rest) =>
        match skip rest with
        | ':' :: rest =>
          match value fuel (skip rest) with
          | .error e => .error e
          | .ok (v, rest) =>
            let fs := fs.set (String.ofList k) v
            match skip rest with
            | '\x7d' :: rest => .ok (fs, rest)
            | ',' :: rest => members fuel fs (skip rest)
            | rest => .error ⟨.comma, rest.length⟩
        | rest => .error ⟨.colon, rest.length⟩
    | _ => .error ⟨.propertyName, cs.length⟩

end

/-- The line and column, both from one, of an offset. -/
def Fault.toError (text : List Char) (f : Fault) : Error :=
  let place := text.length - f.left
  let before := text.take place
  ⟨f.cause, place, before.count '\n' + 1, (before.reverse.takeWhile (· != '\n')).length + 1⟩

/-- Reads a text that is one JSON value, whatever its first character is. -/
def parseUnmarked (text : List Char) : Except Error Json :=
  let run : Except Fault Json :=
    match value (2 * text.length + 2) (skip text) with
    | .error e => .error e
    | .ok (v, rest) =>
      match skip rest with
      | [] => .ok v
      | rest => .error ⟨.extra, rest.length⟩
  run.mapError (·.toError text)

/-- Reads a text that is one JSON value. A byte order mark at its start is refused. -/
def parseList (text : List Char) : Except Error Json :=
  if text.head? == some '\ufeff' then
    .error (Fault.toError text ⟨.byteOrderMark, text.length⟩)
  else parseUnmarked text

/-- Reads a text that is one JSON value. -/
def parse (s : String) : Except Error Json :=
  parseList s.toList

end WebAudit.Json
