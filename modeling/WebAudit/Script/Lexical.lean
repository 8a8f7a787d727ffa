import WebAudit.Script.Dialect
import WebAudit.Script.Rule

/-!
# Words, blanks and line ends of scripts

What stands between tokens (blanks and comments), what words are made of, and where a line end
closes a statement. All of it reads `List Char` and counts characters; the rules at the end wrap
the counting functions. `skipTrivia` and `autoSemicolon?` stop because the text that is left gets
shorter; the two scanners of `endsStatement` carry the length of the text as their bound.
-/

namespace WebAudit.Script

/-! ## Character classes -/

/-- A line end for comments and statements. -/
def isLineEnd (c : Char) : Bool :=
  c == '\n' || c == '\u2028' || c == '\u2029'

/-- A blank between tokens. -/
def isBlank (c : Char) : Bool :=
  let n := c.toNat
  n == 0x20 || (0x09 ≤ n && n ≤ 0x0D) || n == 0xA0 || n == 0x1680 || (0x2000 ≤ n && n ≤ 0x200B)
    || n == 0x2028 || n == 0x2029 || n == 0x202F || n == 0x205F || n == 0x2060 || n == 0x3000
    || n == 0xFEFF

/-- A blank for the search for a line end: no-break spaces and zero-width characters are none. -/
def isPlainSpace (c : Char) : Bool :=
  let n := c.toNat
  n == 0x20 || (0x09 ≤ n && n ≤ 0x0D) || n == 0x1680 || (0x2000 ≤ n && n ≤ 0x2006)
    || (0x2008 ≤ n && n ≤ 0x200A) || n == 0x2028 || n == 0x2029 || n == 0x205F || n == 0x3000

def isDigit (c : Char) : Bool :=
  '0' ≤ c && c ≤ '9'

def isHexDigit (c : Char) : Bool :=
  isDigit c || ('a' ≤ c && c ≤ 'f') || ('A' ≤ c && c ≤ 'F')

/-- A letter, where a word such as `in` has to be told from a longer one. -/
def isLetter (c : Char) : Bool :=
  ('a' ≤ c && c ≤ 'z') || ('A' ≤ c && c ≤ 'Z') || 0x80 ≤ c.toNat

/-- The ASCII punctuation that no word contains. -/
def punctuation : List Char :=
  [':', ';', '\x60', '"', '\'', '@', '#', '.', ',', '|', '^', '&', '<', '=', '>', '+', '-', '*',
    '/', '\\', '%', '?', '!', '~', '(', ')', '[', ']', '\x7b', '\x7d']

/-- A character inside a word. Every character outside ASCII that is not a blank is one. -/
def isWordPart (c : Char) : Bool :=
  0x20 ≤ c.toNat && !isBlank c && !punctuation.contains c

/-- A character at the start of a word. -/
def isWordStart (c : Char) : Bool :=
  isWordPart c && !isDigit c

/-! ## Words -/

/-- The length of a code point escape after its backslash and `u`, or zero. -/
def unicodeEscapeLength : List Char → Nat
  | '\x7b' :: r =>
    let ds := r.takeWhile isHexDigit
    match r.drop ds.length with
    | '\x7d' :: _ => if ds.isEmpty then 0 else ds.length + 2
    | _ => 0
  | a :: b :: c :: d :: _ =>
    if isHexDigit a && isHexDigit b && isHexDigit c && isHexDigit d then 4 else 0
  | _ => 0

/-- The length of the next piece of a word: a character or an escape. Zero if there is none. -/
def wordPieceLength (first : Bool) : List Char → Nat
  | '\\' :: 'u' :: r =>
    match unicodeEscapeLength r with
    | 0 => 0
    | n + 1 => n + 3
  | c :: _ => if (if first then isWordStart c else isWordPart c) then 1 else 0
  | [] => 0

/-- The length of the rest of a word, with the length of the text as bound. -/
def wordTailLength : Nat → List Char → Nat
  | 0, _ => 0
  | fuel + 1, cs =>
    match wordPieceLength false cs with
    | 0 => 0
    | n + 1 => n + 1 + wordTailLength fuel (cs.drop (n + 1))

/-- The length of the word at the start of a text, or zero. -/
def wordLength (cs : List Char) : Nat :=
  match wordPieceLength true cs with
  | 0 => 0
  | n + 1 => n + 1 + wordTailLength cs.length (cs.drop (n + 1))

/-! ## Comments -/

/-- The length of a block comment after its first two characters, if it is closed. -/
def blockCommentTail? : List Char → Option Nat
  | [] => none
  | '*' :: '/' :: _ => some 2
  | _ :: r => (blockCommentTail? r).map (· + 1)

/-- The length of the comment at the start of a text. -/
def commentLength? : List Char → Option Nat
  | '/' :: '/' :: r => some (2 + (r.takeWhile (fun c => !isLineEnd c && c != '\r')).length)
  | '/' :: '*' :: r => (blockCommentTail? r).map (· + 2)
  | _ => none

/-- The length of a comment in the style of markup (to the end of the line), or zero. -/
def markupCommentLength : List Char → Nat
  | '<' :: '!' :: '-' :: '-' :: r => 4 + (r.takeWhile (fun c => !isLineEnd c)).length
  | '-' :: '-' :: '>' :: r => 3 + (r.takeWhile (fun c => !isLineEnd c)).length
  | _ => 0

/-- The length of the next stretch of blanks or the next comment, or zero. Comments in the style of
markup count only where no operand has just been read. -/
def triviaLength (afterOperand : Bool) (cs : List Char) : Nat :=
  match (cs.takeWhile isBlank).length with
  | 0 => (commentLength? cs).getD (if afterOperand then 0 else markupCommentLength cs)
  | n + 1 => n + 1

/-- The cursor after blanks and comments. -/
def Cursor.skipTrivia (afterOperand : Bool) (c : Cursor) : Cursor :=
  match _h : c.rest with
  | [] => c
  | _ :: _ =>
    match triviaLength afterOperand c.rest with
    | 0 => c
    | n + 1 => (c.advance (n + 1)).skipTrivia afterOperand
termination_by c.rest.length
decreasing_by rw [Cursor.advance_rest_length, _h, List.length_cons]; omega

/-! ## Line ends that close a statement -/

/-- What a stretch of blanks and comments says about a line end. -/
inductive Gap where
  /-- It runs into a slash that opens no comment. -/
  | slash
  /-- A block comment without a line end, and what follows it. -/
  | sameLine (rest : List Char)
  /-- Anything else, and what follows it. -/
  | passed (rest : List Char)

/-- The text after a block comment's opening: whether it is closed, whether a line ends inside, and
what follows it. -/
def closeBlock : Bool → List Char → Bool × Bool × List Char
  | nl, [] => (false, nl, [])
  | nl, '*' :: '/' :: r => (true, nl, r)
  | nl, c :: r => closeBlock (nl || isLineEnd c) r

/-- Looks over blanks and comments. Unless `whole`, it stops after the first block comment. -/
def scanGap (whole : Bool) : Nat → Bool → List Char → Gap
  | 0, _, cs => .passed cs
  | fuel + 1, nl, cs =>
    match cs.dropWhile isPlainSpace with
    | '/' :: '/' :: r => scanGap whole fuel nl (r.dropWhile (fun c => !isLineEnd c))
    | '/' :: '*' :: r =>
      let (closed, nl', rest) := closeBlock nl r
      if closed && rest.head? != some '/' && !whole then
        if nl' then .passed rest else .sameLine rest
      else scanGap whole fuel nl' rest
    | '/' :: _ => .slash
    | rest => .passed rest

/-- Whether a word that starts with `i` is the operator `in` or `instanceof`, given what follows
the `i`. -/
def isWordOperatorTail : List Char → Bool
  | 'n' :: r =>
    if !(r.head?.any isLetter) then true
    else "stanceof".toList.isPrefixOf r && !((r.drop 8).head?.any isLetter)
  | _ => false

/-- Whether a line that starts with this text cannot go on the statement before it. -/
def opensStatement (d : Dialect) (afterOperand : Bool) : List Char → Bool
  | [] => true
  | c :: r =>
    if ['\x60', ',', ':', ';', '*', '%', '>', '<', '=', '?', '^', '|', '&', '/'].contains c then
      false
    else if c == '(' || c == '[' then d.typed && !afterOperand
    else if c == '.' then !d.typed && r.head?.any isDigit
    else if c == '+' then r.head? == some '+'
    else if c == '-' then r.head? == some '-'
    else if c == '!' then r.head? != some '='
    else if c == 'i' then !isWordOperatorTail r
    else true

/-- What a closing brace says: it ends the statement, except before the colon of a typed pattern. -/
def braceEnds (d : Dialect) (afterOperand : Bool) (r : List Char) : Bool :=
  if d.typed && (r.dropWhile isPlainSpace).head? == some ':' then afterOperand else true

/-- Whether a statement may end here without a semicolon, judged up to the first comment that has
to be stepped over. -/
def endsStatement (d : Dialect) (afterOperand : Bool) : Nat → List Char → Bool
  | 0, _ => true
  | _ + 1, [] => true
  | fuel + 1, c :: r =>
    let go (cs : List Char) : Bool :=
      match cs with
      | [] => false
      | '\x7d' :: r => braceEnds d afterOperand r
      | c :: r =>
        if isLineEnd c then
          match scanGap true (r.length + 1) false r with
          | .slash => false
          | .sameLine rest => opensStatement d afterOperand rest
          | .passed rest => opensStatement d afterOperand rest
        else if isPlainSpace c then endsStatement d afterOperand fuel r
        else false
    if c == '/' then
      match scanGap false (r.length + 2) false (c :: r) with
      | .slash => false
      | .sameLine rest => go rest
      | .passed rest =>
        if !afterOperand && rest.head? != some ',' && rest.head? != some '=' then true
        else go rest
    else go (c :: r)

/-- The place of a semicolon that the text leaves out, if a statement may end here. It stands before
the line end, after the comments on the same line. -/
def Cursor.autoSemicolon? (d : Dialect) (afterOperand : Bool) (c : Cursor) : Option Cursor :=
  if endsStatement d afterOperand (c.rest.length + 1) c.rest then some c
  else
    let blanks := (c.rest.takeWhile isBlank).length
    match _h : c.rest with
    | [] => none
    | _ :: _ =>
      match commentLength? (c.rest.drop blanks) with
      | some (n + 1) => (c.advance (blanks + (n + 1))).autoSemicolon? d afterOperand
      | _ => none
termination_by c.rest.length
decreasing_by rw [Cursor.advance_rest_length, _h, List.length_cons]; omega

/-! ## Escapes, strings and patterns -/

/-- The length of an escape after its backslash, or zero if there is none. -/
def escapeLength : List Char → Nat
  | [] => 0
  | 'x' :: r =>
    match r with
    | a :: b :: _ => if isHexDigit a && isHexDigit b then 3 else 0
    | _ => 0
  | 'u' :: r =>
    match unicodeEscapeLength r with
    | 0 => 0
    | n + 1 => n + 2
  | c :: r =>
    if '0' ≤ c && c ≤ '7' then
      1 + ((r.take 2).takeWhile (fun c => '0' ≤ c && c ≤ '7')).length
    else if (c == '\r' || c == '?') && r.head?.any isLineEnd then 2
    else 1

/-- The length of a string after its opening quote. A line end inside is allowed only if blanks or
comments alone separate it from what closes the string. -/
def stringTail? (quote : Char) : Nat → List Char → Option Nat
  | 0, _ => none
  | _, [] => none
  | fuel + 1, c :: r =>
    if c == quote then some 1
    else if c == '\\' then
      match escapeLength r with
      | 0 => none
      | n + 1 => (stringTail? quote fuel (r.drop (n + 1))).map (· + (n + 2))
    else if c == '\n' || c == '\r' then
      let n := (r.takeWhile isBlank).length
      let after := r.drop n
      if after.head? == some quote then some (n + 2)
      else match commentLength? after with
        | none => none
        | some m => (stringTail? quote fuel (after.drop m)).map (· + (n + 1 + m))
    else (stringTail? quote fuel r).map (· + 1)

/-- The length of a quoted string, or zero. -/
def stringLength (cs : List Char) : Nat :=
  match cs with
  | '"' :: r => ((stringTail? '"' (r.length + 1) r).map (· + 1)).getD 0
  | '\'' :: r => ((stringTail? '\'' (r.length + 1) r).map (· + 1)).getD 0
  | _ => 0

/-- The length of a pattern after its opening slash, closing slash included. `inClass` tells whether
a bracketed class is open, where a slash is an ordinary character. -/
def patternTail? : Bool → List Char → Option Nat
  | _, [] => none
  | inClass, '\\' :: c :: r => if c == '\n' then none else (patternTail? inClass r).map (· + 2)
  | inClass, c :: r =>
    if c == '\n' || c == '\\' then none
    else if inClass then (patternTail? (c != ']') r).map (· + 1)
    else if c == '/' then some 1
    else (patternTail? (c == '[') r).map (· + 1)

/-- The length of a regular expression literal with its flags, or zero. -/
def patternLength : List Char → Nat
  | '/' :: r =>
    if r.head? == some '/' then 0
    else match patternTail? false r with
      | none => 0
      | some n => 1 + n + ((r.drop n).takeWhile (fun c => 'a' ≤ c && c ≤ 'z')).length
  | _ => 0

/-! ## Rules for tokens -/

namespace Rule

/-- Steps over blanks and comments before an operand. -/
def blank : Rule Unit :=
  fun c => some ((), c.skipTrivia false)

/-- Steps over blanks and comments after an operand. -/
def gap : Rule Unit :=
  fun c => some ((), c.skipTrivia true)

/-- Reads exactly this text. -/
def exactly (s : String) : Rule Unit := do
  require (s.toList.isPrefixOf (← ahead))
  step s.length

/-- Reads this text after blanks and comments. -/
def punct (s : String) : Rule Unit := do
  blank
  exactly s

/-- Whether this text comes next after blanks and comments. -/
def isNext (s : String) : Rule Bool :=
  fits (punct s)

/-- The word that comes next, without reading it; empty if there is none. -/
def peekWord : Rule String :=
  fun c =>
    let c' := c.skipTrivia false
    some (String.ofList (c'.rest.take (wordLength c'.rest)), c)

/-- The character that comes next after blanks and comments, without reading it. -/
def peekChar : Rule (Option Char) :=
  fun c => some ((c.skipTrivia false).rest.head?, c)

/-- Reads a word and where it starts. -/
def word : Rule (String × Nat) := do
  blank
  let cs ← ahead
  let n := wordLength cs
  require (0 < n)
  let start ← position
  step n
  pure (String.ofList (cs.take n), start)

/-- Reads this word and gives where it starts. -/
def keyword (s : String) : Rule Nat := do
  let (w, start) ← word
  require (w == s)
  pure start

/-- Reads this word if it comes next. -/
def optionalKeyword (s : String) : Rule Bool := do
  pure (← attempt (keyword s)).isSome

/-- Reads this text if it comes next. -/
def optionalPunct (s : String) : Rule Bool := do
  pure (← attempt (punct s)).isSome

/-- Whether a semicolon may be left out here. -/
def mayEnd (d : Dialect) (afterOperand : Bool) : Rule Bool :=
  fun c => some ((c.autoSemicolon? d afterOperand).isSome, c)

/-- Reads a semicolon, or stops at the place of one that is left out. -/
def semicolon (d : Dialect) (afterOperand : Bool) : Rule Unit :=
  fun c => match c.autoSemicolon? d afterOperand with
    | some c' => some ((), c')
    | none => punct ";" c

/-- Reads the left-out semicolon that belongs to a declaration, if there is one. -/
def closingSemicolon (d : Dialect) (afterOperand : Bool) : Rule Unit :=
  fun c => some ((), (c.autoSemicolon? d afterOperand).getD c)

/-- Reads `p` at least once, with commas between. -/
def commaList {α : Type} (p : Rule α) : Rule (List α) := do
  let first ← p
  let more ← many (do punct ","; p)
  pure (first :: more)

end Rule

end WebAudit.Script
