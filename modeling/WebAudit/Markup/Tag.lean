import WebAudit.Markup.Reference
import WebAudit.Text.Blank
import WebAudit.Text.Lowercase

/-!
# Start tags

Reading of start tags the tolerant way: nearly anything between two blanks is an attribute, and
quotes need not balance. `StartTag.read` says what the text at a `<` is: a start tag, plain text, or
the beginning of a tag whose end is missing.
-/

namespace WebAudit.Markup

/-- An attribute; without a value it has the empty one. -/
structure Attribute where
  name : String
  value : String
deriving DecidableEq, Repr

/-- A start tag. -/
structure StartTag where
  name : String
  attributes : List Attribute
  /-- Whether the tag also ends its element. -/
  isEmpty : Bool
deriving DecidableEq, Repr

/-- The value of an attribute. Of several with one name the last counts. -/
def StartTag.value? (t : StartTag) (name : String) : Option String :=
  (t.attributes.reverse.find? (·.name == name)).map (·.value)

/-! ## Attributes -/

/-- An ASCII letter. -/
def isLetter (c : Char) : Bool :=
  ('a' ≤ c && c ≤ 'z') || ('A' ≤ c && c ≤ 'Z')

/-- A character that can be part of the name of a tag. -/
def isTagNamePart (c : Char) : Bool :=
  !(c == '\t' || c == '\n' || c == '\r' || c == '\x0c' || c == ' ' || c == '/' || c == '>'
    || c == '\x00')

/-- The length of the blanks and slashes before an attribute. A slash that ends the tag is left. -/
def gapLength : List Char → Nat
  | [] => 0
  | '/' :: r => if r.head? == some '>' then 0 else gapLength r + 1
  | c :: r => if Text.isBlank c then gapLength r + 1 else 0

/-- A character after which an attribute can start. -/
def isBeforeAttribute (c : Char) : Bool :=
  c == '\'' || c == '"' || c == '/' || Text.isBlank c

/-- The length of an attribute's name, zero if there is none. -/
def attributeNameLength : List Char → Nat
  | [] => 0
  | c :: r =>
    if Text.isBlank c || c == '/' || c == '>' then 0
    else 1 + (r.takeWhile fun c => !(Text.isBlank c || c == '/' || c == '=' || c == '>')).length

/-- The text of a value without quotes. -/
def bareValue (cs : List Char) : List Char :=
  cs.takeWhile fun c => !(c == '>' || Text.isBlank c)

/-- The text up to a quote, if that quote comes. -/
def quotedValue? (quote : Char) (cs : List Char) : Option (List Char) :=
  let v := cs.takeWhile (· != quote)
  if v.length < cs.length then some v else none

/-- Reads the value after an attribute's name: the value and the length with the equals signs. A
quote that is not closed starts no value: the value is then empty if a blank stands before the
quote, and starts with the last of several equals signs if none does. -/
def value? (cs : List Char) : Option (List Char × Nat) :=
  let before := (cs.takeWhile Text.isBlank).length
  let signs := ((cs.drop before).takeWhile (· == '=')).length
  let blanks := ((cs.drop (before + signs)).takeWhile Text.isBlank).length
  let start := before + signs + blanks
  if signs == 0 then none
  else
    match cs.drop start with
    | c :: r =>
      if c == '\'' || c == '"' then
        match quotedValue? c r with
        | some v => some (v, start + v.length + 2)
        | none =>
          if 0 < blanks then some ([], start - 1)
          else if 1 < signs then
            let v := bareValue ('=' :: c :: r)
            some (v, start - 1 + v.length)
          else none
      else
        let v := bareValue (c :: r)
        some (v, start + v.length)
    | [] => some ([], start)

/-- Reads an attribute and the gap after it. -/
def attribute? (before : Char) (cs : List Char) : Option (Attribute × Nat) :=
  let n := attributeNameLength cs
  if isBeforeAttribute before && 0 < n then
    let name := Text.lower (String.ofList (cs.take n))
    let (value, k) := (value? (cs.drop n)).getD ([], 0)
    some (⟨name, String.ofList (decode value)⟩, n + k + gapLength (cs.drop (n + k)))
  else none

/-- Reads attributes up to the first place where there is none: the attributes and their length. -/
def readAttributes (before : Char) (cs : List Char) : List Attribute × Nat :=
  match attribute? before cs with
  | none => ([], 0)
  | some (a, n) =>
    if _h : 0 < n ∧ n ≤ cs.length then
      let (as, k) := readAttributes ((cs.take n).getLastD before) (cs.drop n)
      (a :: as, n + k)
    else ([a], n)
termination_by cs.length
decreasing_by simp only [List.length_drop]; omega

/-! ## Tags -/

/-- What stands at a `<`. -/
inductive TagReading where
  | tag (t : StartTag) (length : Nat)
  | text (length : Nat)
  | incomplete
deriving DecidableEq, Repr

/-- Reads a start tag from the text after its `<`, which starts with a letter. Lengths count the
`<`. -/
def StartTag.read (cs : List Char) : TagReading :=
  let name := cs.takeWhile isTagNamePart
  let start := name.length + gapLength (cs.drop name.length)
  let (as, n) := readAttributes ((cs.take start).getLastD '<') (cs.drop start)
  let tag (isEmpty : Bool) : StartTag := ⟨Text.lower (String.ofList name), as, isEmpty⟩
  match cs.drop (start + n) with
  | '>' :: _ => .tag (tag false) (start + n + 2)
  | '/' :: '>' :: _ => .tag (tag true) (start + n + 3)
  | [] => .incomplete
  | c :: _ => if isLetter c || c == '=' || c == '/' then .incomplete else .text (start + n + 1)

end WebAudit.Markup
