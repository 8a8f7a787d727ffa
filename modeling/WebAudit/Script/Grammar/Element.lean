import WebAudit.Script.Grammar.Types

/-!
# Elements in angle brackets

Elements, their attributes and their children. A closing tag need not repeat the name of the opening
one. The text between tags is everything up to a bracket, a brace or a character reference; text that
is only line ends and the blanks after them is no text but a gap.
-/

namespace WebAudit.Script.Rules

open Rule

/-! ## Text -/

/-- A character that ends the text of an element. -/
def endsText (c : Char) : Bool :=
  c == '<' || c == '>' || c == '\x7b' || c == '\x7d' || c == '&'

/-- Whether a stretch of text says anything: it does unless it is line ends and the blanks that
follow them. -/
def saysText : Bool → List Char → Bool
  | _, [] => false
  | afterLine, c :: r =>
    if c == '\n' then saysText true r
    else if afterLine && isPlainSpace c then saysText true r
    else true

/-- The length of a character reference, or zero. -/
def referenceLength : List Char → Nat
  | '&' :: '#' :: x :: r =>
    let hex := x == 'x' || x == 'X'
    let ds := if hex then r.takeWhile isHexDigit else (x :: r).takeWhile isDigit
    let n := if hex then 3 + ds.length else 2 + ds.length
    let most := if hex then 6 else 5
    if 0 < ds.length && ds.length ≤ most && (('&' :: '#' :: x :: r).drop n).head? == some ';' then
      n + 1
    else 0
  | '&' :: r =>
    let ls := r.takeWhile (fun c => ('a' ≤ c && c ≤ 'z') || ('A' ≤ c && c ≤ 'Z'))
    if 0 < ls.length && ls.length ≤ 30 && (r.drop ls.length).head? == some ';' then ls.length + 2
    else 0
  | _ => 0

/-- A character reference. -/
def reference : Rule Unit := do
  let n := referenceLength (← ahead)
  require (0 < n)
  step n

/-! ## Names and attributes -/

/-- The length of a name with dashes, or zero. -/
def dashedLength : List Char → Nat
  | [] => 0
  | c :: r =>
    let plain (c : Char) := ('a' ≤ c && c ≤ 'z') || ('A' ≤ c && c ≤ 'Z') || c == '_' || c == '$'
    if plain c then
      let n := (r.takeWhile (fun c => plain c || isDigit c)).length
      if (r.drop n).head? == some '-' then
        1 + n + ((r.drop n).takeWhile (fun c => plain c || isDigit c || c == '-')).length
      else 0
    else 0

/-- A name of an element or an attribute. -/
def elementWord : Rule Unit := do
  blank
  let cs ← ahead
  let n := max (dashedLength cs) (wordLength cs)
  require (0 < n)
  step n

/-- The name of an element: plain, dotted or with a namespace. -/
def elementName : Rule Unit := do
  elementWord
  if ← optionalPunct ":" then elementWord
  else
    let _ ← many (do punct "."; word)
    pure ()

/-- A value or a spread in braces, or empty braces. -/
def braced (r : Rules) : Rule (List Node) := do
  punct "\x7b"
  if ← optionalPunct "\x7d" then pure []
  else
    let spread ← optionalPunct "..."
    let ns ← if spread then (do pure [← r.value .inner]) else r.sequence .inner
    punct "\x7d"
    pure ns

/-- The text of a quoted attribute value up to its closing quote. -/
def attributeText (quote : Char) : Rule Unit := do
  let _ ← loop (fun () => do
    match ← ahead with
    | [] => fail
    | '&' :: c :: _ =>
      if c == '#' || ('a' ≤ c && c ≤ 'z') || ('A' ≤ c && c ≤ 'Z') then
        reference
        pure (some ())
      else
        step 2
        pure (some ())
    | c :: _ =>
      if c == quote then pure none
      else
        step 1
        pure (some ())) ()
  step 1

/-- The value of an attribute. -/
def attributeValue (r : Rules) : Rule (List Node) := do
  blank
  match ← ahead with
  | '"' :: _ =>
    step 1
    attributeText '"'
    pure []
  | '\'' :: _ =>
    step 1
    attributeText '\''
    pure []
  | '\x7b' :: _ => r.braced
  | _ => pure [← r.element]

/-- An attribute. -/
def attributeRule (r : Rules) : Rule (List Node) := do
  if ← isNext "\x7b" then r.braced
  else
    elementWord
    if ← optionalPunct ":" then elementWord
    if ← optionalPunct "=" then r.attributeValue else pure []

/-! ## Elements -/

/-- A child of an element; nothing at the closing tag. -/
def child (r : Rules) (acc : List Node) : Rule (Option (List Node)) := do
  let cs ← ahead
  let text := cs.takeWhile (fun c => !endsText c)
  if saysText false text then
    step text.length
    pure (some acc)
  else
    blank
    match ← ahead with
    | '<' :: '/' :: _ => pure none
    | '<' :: _ => pure (some ((← r.element) :: acc))
    | '\x7b' :: _ => pure (some ((← r.braced).reverse ++ acc))
    | '&' :: _ =>
      reference
      pure (some acc)
    | _ => fail

/-- An element with its children, or one that closes itself. -/
def elementRule (r : Rules) : Rule Node := do
  blank
  let start ← position
  exactly "<"
  if ← optionalPunct ">" then
    let ns ← loop r.child []
    punct "</"
    let _ ← attempt elementName
    punct ">"
    pure (.branch .other start (← position) ns.reverse)
  else
    elementName
    let targs ← r.optionalTypeArguments
    let attrs ← many r.attributeRule
    if ← optionalPunct "/>" then
      pure (.branch .other start (← position) (targs ++ attrs.flatten))
    else
      punct ">"
      let ns ← loop r.child []
      punct "</"
      let _ ← attempt elementName
      punct ">"
      pure (.branch .other start (← position) (targs ++ attrs.flatten ++ ns.reverse))

end WebAudit.Script.Rules
