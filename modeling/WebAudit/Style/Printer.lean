import WebAudit.Style.Component

/-!
# Writing components

The text of components, such that reading it again gives the same tokens: names and strings are
escaped, and an empty comment is put between two tokens that would otherwise run together.
-/

namespace WebAudit.Style

/-! ## Names and strings -/

/-- A number in hexadecimal, in upper case. -/
def upperHex (n : Nat) : List Char :=
  ((Nat.toDigits 16 n).map fun c => if 'a' ≤ c && c ≤ 'f' then Char.ofNat (c.toNat - 32) else c)

/-- A character inside a name. -/
def nameChar (c : Char) : List Char :=
  if isNamePart c then [c]
  else if c == '\n' then "\\A ".toList
  else if c == '\r' then "\\D ".toList
  else if c == '\x0c' then "\\C ".toList
  else ['\\', c]

/-- The text of a name that need not be an identifier. -/
def nameText (cs : List Char) : List Char :=
  cs.flatMap nameChar

/-- The first character of an identifier. -/
def firstChar (c : Char) : List Char :=
  if isNameStart c then [c]
  else if isDigit c then '\\' :: upperHex c.toNat ++ [' ']
  else if c == '\n' then "\\A ".toList
  else if c == '\r' then "\\D ".toList
  else if c == '\x0c' then "\\C ".toList
  else ['\\', c]

/-- The text of an identifier. -/
def identText : List Char → List Char
  | ['-'] => ['\\', '-']
  | '-' :: '-' :: r => '-' :: '-' :: nameText r
  | '-' :: c :: r => '-' :: firstChar c ++ nameText r
  | c :: r => firstChar c ++ nameText r
  | [] => []

/-- A character inside a string. -/
def stringChar (c : Char) : List Char :=
  if c == '"' then ['\\', '"']
  else if c == '\\' then ['\\', '\\']
  else if c == '\n' then "\\A ".toList
  else if c == '\r' then "\\D ".toList
  else if c == '\x0c' then "\\C ".toList
  else [c]

/-- A character inside an address. -/
def urlChar (c : Char) : List Char :=
  if c == '\'' || c == '"' || c == '\\' || c == ' ' || c == '(' || c == ')' then ['\\', c]
  else if c == '\t' then "\\9 ".toList
  else if c == '\n' then "\\A ".toList
  else if c == '\r' then "\\D ".toList
  else if c == '\x0c' then "\\C ".toList
  else [c]

/-- The text of a unit. A leading `e` that could be read as an exponent is escaped. -/
def unitText (u : List Char) : List Char :=
  match u with
  | [] => []
  | [c] => if c == 'e' || c == 'E' then "\\65 ".toList else identText u
  | c :: d :: r =>
    if (c == 'e' || c == 'E') && d == '-' then "\\65 ".toList ++ nameText (d :: r)
    else identText u

/-! ## Tokens -/

/-- The text of a token. -/
def tokenText : Token → List Char
  | .space text => text
  | .comment => []
  | .literal text => text
  | .ident n => identText n
  | .atKeyword n => '@' :: identText n
  | .hash n isIdent => '#' :: (if isIdent then identText n else nameText n)
  | .string v closed => '"' :: v.flatMap stringChar ++ (if closed then ['"'] else [])
  | .badString => "\"[bad string]\n".toList
  | .url v closed => "url(".toList ++ v.flatMap urlChar ++ (if closed then [')'] else [])
  | .badUrl => "url([bad url])".toList
  | .unicodeRange a b =>
    "U+".toList ++ upperHex a ++ (if a == b then [] else '-' :: upperHex b)
  | .number text => text
  | .percentage text => text ++ ['%']
  | .dimension text unit => text ++ unitText unit
  | .function n => identText n ++ ['(']
  | .opening .round => ['(']
  | .opening .square => ['[']
  | .opening .curly => ['\x7b']
  | .closing .round => [')']
  | .closing .square => [']']
  | .closing .curly => ['\x7d']

/-! ## Neighbours -/

/-- What matters of a component for its neighbours. -/
inductive Shape where
  | ident
  | atKeyword
  | hash
  | dimension
  | number
  | percentage
  | function
  | url
  | unicodeRange
  | parentheses
  | literal (text : List Char)
  | other
deriving DecidableEq, Repr

/-- The shape of a component. -/
def Component.shape : Component → Shape
  | .block _ .round _ => .parentheses
  | .block _ _ _ => .other
  | .function _ _ _ => .function
  | .token _ t =>
    match t with
    | .ident _ => .ident
    | .atKeyword _ => .atKeyword
    | .hash _ _ => .hash
    | .dimension _ _ => .dimension
    | .number _ => .number
    | .percentage _ => .percentage
    | .url _ _ => .url
    | .unicodeRange _ _ => .unicodeRange
    | .literal text => .literal text
    | _ => .other

/-- Shapes that start with a name. -/
def Shape.isNamed (s : Shape) : Bool :=
  s == .ident || s == .function || s == .url

/-- Shapes that start with a number. -/
def Shape.isNumeric (s : Shape) : Bool :=
  s == .number || s == .percentage || s == .dimension

/-- Shapes that end with a name. -/
def Shape.endsName (s : Shape) : Bool :=
  s == .ident || s == .atKeyword || s == .hash || s == .dimension

/-- A delimiter of one character. -/
def Shape.delimiter (c : Char) : Shape :=
  .literal [c]

/-- Whether two neighbours would run together. -/
def clash (a b : Shape) : Bool :=
  ((a.endsName || a == .delimiter '#' || a == .delimiter '-' || a == .number)
    && (b.isNamed || b.isNumeric || b == .unicodeRange))
  || (a.endsName && (b == .delimiter '-' || b == .literal "-->".toList))
  || (a == .delimiter '@' && (b.isNamed || b == .unicodeRange || b == .delimiter '-'))
  || ((a == .unicodeRange || a == .delimiter '.' || a == .delimiter '+') && b.isNumeric)
  || (a == .unicodeRange && (b == .ident || b == .function || b == .delimiter '?'))
  || (['$', '*', '^', '~', '|'].any (fun c => a == .delimiter c) && b == .delimiter '=')
  || (a == .ident && b == .parentheses)
  || (a == .delimiter '|' && b == .delimiter '|')
  || (a == .delimiter '/' && b == .delimiter '*')

/-- Whether a component is a blank that starts with a line end. -/
def Component.startsLine : Component → Bool
  | .token _ (.space ('\n' :: _)) => true
  | _ => false

/-- What is put between two neighbours: a comment where they would run together, a line end after a
backslash. -/
def separator (previous : Option Shape) (c : Component) : List Char :=
  match previous with
  | none => []
  | some p =>
    if clash p c.shape then "/**/".toList
    else if p == .delimiter '\\' && !c.startsLine then ['\n']
    else []

/-! ## Components -/

mutual

/-- Whether the last thing inside a function is a string that the text does not close. -/
def endsInString : List Component → Bool
  | [] => false
  | [c] => c.endsOpen
  | _ :: c :: r => endsInString (c :: r)

def Component.endsOpen : Component → Bool
  | .token _ (.string _ closed) => !closed
  | .function _ _ args => endsInString args
  | _ => false

end

mutual

/-- The text of a component. -/
def Component.text : Component → List Char
  | .token _ t => tokenText t
  | .block _ .round cs => '(' :: textFrom none cs ++ [')']
  | .block _ .square cs => '[' :: textFrom none cs ++ [']']
  | .block _ .curly cs => '\x7b' :: textFrom none cs ++ ['\x7d']
  | .function _ n args =>
    identText n ++ '(' :: textFrom none args ++ (if endsInString args then [] else [')'])

/-- The text of components after a neighbour. -/
def textFrom (previous : Option Shape) : List Component → List Char
  | [] => []
  | c :: cs => separator previous c ++ c.text ++ textFrom (some c.shape) cs

end

/-- The text of components. -/
def print (cs : List Component) : List Char :=
  textFrom none cs

end WebAudit.Style
