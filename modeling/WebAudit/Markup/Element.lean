import WebAudit.Markup.Tag

/-!
# Script and style elements

Finding the elements of a document whose content is raw text. All other markup is only passed over.

A document is read once as if more text could follow. At a construct whose end is missing the
reading starts again from there, now knowing that nothing follows, and then such a construct is
plain text. So every step makes the text shorter, or takes the one change from the first reading to
the last.
-/

namespace WebAudit.Markup

/-- An element with raw text as its content. -/
structure Element where
  tag : StartTag
  /-- Where the start tag begins, counted in characters. -/
  start : Nat
  content : List Char
deriving DecidableEq, Repr

/-! ## Raw text -/

/-- The elements whose content is raw text. -/
def isRaw (name : String) : Bool :=
  name == "script" || name == "style"

/-- The length of the end tag of an element, if one starts here. -/
def endTagLength? (name : List Char) (cs : List Char) : Option Nat :=
  match cs with
  | '<' :: '/' :: r =>
    let before := (r.takeWhile Text.isBlank).length
    let r := r.drop before
    let after := ((r.drop name.length).takeWhile Text.isBlank).length
    if (r.take name.length).map Text.asciiLower == name
        && (r.drop (name.length + after)).head? == some '>' then
      some (before + name.length + after + 3)
    else none
  | _ => none

/-- The first end tag of an element: how many characters stand before it, and its length. -/
def findEndTag? (name : List Char) (before : Nat) : List Char → Option (Nat × Nat)
  | [] => none
  | c :: r =>
    match endTagLength? name (c :: r) with
    | some n => some (before, n)
    | none => findEndTag? name (before + 1) r

/-! ## Other markup -/

/-- What stands at a `<`. -/
inductive Construct where
  | tag (t : StartTag) (length : Nat)
  /-- Markup or text that holds no element. -/
  | passed (length : Nat)
  | incomplete
  /-- Markup that makes a document unreadable. -/
  | rejected
deriving DecidableEq, Repr

/-- The length of a text up to and with the first `>`. -/
def closeLength? (cs : List Char) : Option Nat :=
  let n := (cs.takeWhile (· != '>')).length
  if n < cs.length then some (n + 1) else none

/-- The length of a text up to and with the first place where characters stand one after the other,
with blanks between them after the first `solid` ones. -/
def spacedEnd? (solid : Nat) (mark : List Char) (passed : Nat) : List Char → Option Nat
  | [] => none
  | c :: r =>
    match spacedLength? solid mark (c :: r) with
    | some n => some (passed + n)
    | none => spacedEnd? solid mark (passed + 1) r
where
  /-- The length of the mark, if it starts here. -/
  spacedLength? : Nat → List Char → List Char → Option Nat
    | _, [], _ => some 0
    | 0, m :: ms, cs =>
      let blanks := (cs.takeWhile Text.isBlank).length
      match cs.drop blanks with
      | c :: r => if c == m then (spacedLength? 0 ms r).map (· + blanks + 1) else none
      | [] => none
    | k + 1, m :: ms, c :: r => if c == m then (spacedLength? k ms r).map (· + 1) else none
    | _ + 1, _ :: _, [] => none

/-- A construct that runs to an end, or is incomplete. -/
def upTo (start : Nat) : Option Nat → Construct
  | some n => .passed (start + n)
  | none => .incomplete

/-- The names of sections that end with two brackets. -/
def isMarkedSection (name : String) : Bool :=
  ["temp", "cdata", "ignore", "include", "rcdata"].contains name

/-- The names of sections that end with one bracket. -/
def isConditionalSection (name : String) : Bool :=
  ["if", "else", "endif"].contains name

/-- A character that can be part of the name of a section. -/
def isSectionNamePart (c : Char) : Bool :=
  isLetter c || ('0' ≤ c && c ≤ '9') || c == '-' || c == '_' || c == '.'

/-- What stands at `<![`, given the text after it. -/
def markedSection (r : List Char) : Construct :=
  match r with
  | [] => .incomplete
  | c :: _ =>
    if isLetter c then
      let name := r.takeWhile isSectionNamePart
      let blanks := ((r.drop name.length).takeWhile Text.isBlank).length
      let key := Text.lower (String.ofList name)
      if name.length + blanks == r.length then .incomplete
      else if isMarkedSection key then upTo 3 (spacedEnd? 1 [']', ']', '>'] 0 r)
      else if isConditionalSection key then upTo 3 (spacedEnd? 1 [']', '>'] 0 r)
      else .rejected
    else .rejected

/-- What stands at a `<`, given the text after it. -/
def construct (r : List Char) : Construct :=
  match r with
  | '/' :: r' => upTo 2 (closeLength? r')
  | '!' :: '-' :: '-' :: r' => upTo 4 (spacedEnd? 2 ['-', '-', '>'] 0 r')
  | '?' :: r' => upTo 2 (closeLength? r')
  | '!' :: '[' :: r' => markedSection r'
  | '!' :: r' => upTo 2 (closeLength? r')
  | c :: _ =>
    if isLetter c then
      match StartTag.read r with
      | .tag t n => .tag t n
      | .text n => .passed n
      | .incomplete => .incomplete
    else .passed 1
  | [] => .passed 1

/-- How much of an incomplete construct is text, given what follows its `<`. -/
def brokenLength (r : List Char) : Nat :=
  match closeLength? r with
  | some n => n + 1
  | none =>
    let n := (r.takeWhile (· != '<')).length
    if n < r.length then n + 1 else 1

/-- Whether the text after `&#` is a numeric reference with something behind it. -/
def isNumericReference (r : List Char) : Bool :=
  let hex := r.head? == some 'x' || r.head? == some 'X'
  let ds := if hex then r.drop 1 else r
  let k := (number (if hex then 16 else 10) 0 ds).2
  0 < k && ((ds.drop k).head?.any fun c => (digitValue? 16 c).isNone)

/-! ## Documents -/

/-- The raw text elements of the rest of a document, or nothing if the document is rejected. -/
def elementsFrom? (last : Bool) (offset : Nat) (cs : List Char) : Option (List Element) :=
  match cs with
  | [] => some []
  | '<' :: r =>
    match construct r with
    | .rejected => none
    | .incomplete =>
      if last then
        let n := brokenLength r - 1
        elementsFrom? last (offset + n + 1) (r.drop n)
      else elementsFrom? true offset ('<' :: r)
    | .passed n => elementsFrom? last (offset + (n - 1) + 1) (r.drop (n - 1))
    | .tag t n =>
      let n := n - 1
      if isRaw t.name && !t.isEmpty then
        let body := r.drop n
        match findEndTag? t.name.toList 0 body with
        | none => some []
        | some (k, m) =>
          (elementsFrom? last (offset + n + 1 + k + m) (body.drop (k + m))).map
            (⟨t, offset, body.take k⟩ :: ·)
      else elementsFrom? last (offset + n + 1) (r.drop n)
  | '&' :: '#' :: r =>
    if isNumericReference r then elementsFrom? last (offset + 2) r
    else if !last && r.contains ';' then elementsFrom? true (offset + 2) r
    else some []
  | _ :: r => elementsFrom? last (offset + 1) r
termination_by 2 * cs.length + (if last then 0 else 1)
decreasing_by
  all_goals simp only [List.length_drop, List.length_cons]
  all_goals (repeat' split)
  all_goals simp_all
  all_goals omega

/-- The raw text elements of a document in order, or nothing if the document is rejected. -/
def elements? (text : List Char) : Option (List Element) :=
  elementsFrom? false 0 text

end WebAudit.Markup
