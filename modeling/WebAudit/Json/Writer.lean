import WebAudit.Decimal.Shortest
import WebAudit.Json.Basic

/-!
# Writing JSON

JSON text in ASCII. `compact` puts everything on one line, with a blank after each comma and colon;
`indented` gives every item a line of its own.
-/

namespace WebAudit.Json

/-- A hexadecimal digit. -/
def hexDigit (n : Nat) : Char :=
  if n < 10 then Char.ofNat ('0'.toNat + n) else Char.ofNat ('a'.toNat + (n - 10))

/-- Four hexadecimal digits after a backslash and a letter. -/
def unicodeEscape (n : Nat) : List Char :=
  ['\\', 'u', hexDigit (n / 4096 % 16), hexDigit (n / 256 % 16), hexDigit (n / 16 % 16),
    hexDigit (n % 16)]

/-- The text of a character inside a string. -/
def escapeChar (c : Char) : List Char :=
  if c == '"' then ['\\', '"']
  else if c == '\\' then ['\\', '\\']
  else if c == '\n' then ['\\', 'n']
  else if c == '\r' then ['\\', 'r']
  else if c == '\t' then ['\\', 't']
  else if c == '\x0c' then ['\\', 'f']
  else if c == '\x08' then ['\\', 'b']
  else
    let n := c.toNat
    if 0x20 ≤ n && n ≤ 0x7E then [c]
    else if n < 0x10000 then unicodeEscape n
    else
      unicodeEscape (0xD800 + (n - 0x10000) / 0x400) ++ unicodeEscape (0xDC00 + (n - 0x10000) % 0x400)

/-- The text of a string with its quotes. -/
def quoted (s : String) : List Char :=
  '"' :: s.toList.flatMap escapeChar ++ ['"']

/-- The text of a floating point number. -/
def floatText : Double → String
  | .nan => "NaN"
  | .infinite negative => if negative then "-Infinity" else "Infinity"
  | x => x.text

mutual

/-- The text of a value on one line. -/
def compactList : Json → List Char
  | .null => "null".toList
  | .bool b => (if b then "true" else "false").toList
  | .int n => (toString n).toList
  | .float x => (floatText x).toList
  | .str s => quoted s
  | .arr xs => '[' :: compactItems xs ++ [']']
  | .obj fs => '\x7b' :: compactFields fs ++ ['\x7d']

def compactItems : List Json → List Char
  | [] => []
  | [x] => compactList x
  | x :: xs => compactList x ++ ',' :: ' ' :: compactItems xs

def compactFields : List (String × Json) → List Char
  | [] => []
  | [(k, v)] => quoted k ++ ':' :: ' ' :: compactList v
  | (k, v) :: fs => quoted k ++ ':' :: ' ' :: compactList v ++ ',' :: ' ' :: compactFields fs

end

/-- The text of a value on one line. -/
def compact (v : Json) : String :=
  String.ofList (compactList v)

/-- A new line with its indentation. -/
def newLine (depth : Nat) : List Char :=
  '\n' :: List.replicate (2 * depth) ' '

mutual

/-- The text of a value with a line for every item, from a depth on. -/
def indentedList (depth : Nat) : Json → List Char
  | .arr [] => ['[', ']']
  | .arr (x :: xs) =>
    '[' :: newLine (depth + 1) ++ indentedList (depth + 1) x ++ indentedItems (depth + 1) xs
      ++ newLine depth ++ [']']
  | .obj [] => ['\x7b', '\x7d']
  | .obj ((k, v) :: fs) =>
    '\x7b' :: newLine (depth + 1) ++ quoted k ++ ':' :: ' ' :: indentedList (depth + 1) v
      ++ indentedFields (depth + 1) fs ++ newLine depth ++ ['\x7d']
  | v => compactList v

def indentedItems (depth : Nat) : List Json → List Char
  | [] => []
  | x :: xs => ',' :: newLine depth ++ indentedList depth x ++ indentedItems depth xs

def indentedFields (depth : Nat) : List (String × Json) → List Char
  | [] => []
  | (k, v) :: fs =>
    ',' :: newLine depth ++ quoted k ++ ':' :: ' ' :: indentedList depth v
      ++ indentedFields depth fs

end

/-- The text of a value with a line for every item. -/
def indented (v : Json) : String :=
  String.ofList (indentedList 0 v)

example : (Json.obj [("a", .arr [.int 1, .null]), ("b", .obj [])]).indented
    = "\x7b\n  \"a\": [\n    1,\n    null\n  ],\n  \"b\": \x7b\x7d\n\x7d" := by
  decide +kernel

end WebAudit.Json
