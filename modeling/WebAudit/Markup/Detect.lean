import WebAudit.Detection
import WebAudit.Markup.Element
import WebAudit.Script.Detect
import WebAudit.Style.Detect

/-!
# Features used by a document

The scripts and styles inside a document are analysed on their own, and what they show is moved to
its place in the document. `contentStart?` finds the end of a start tag from the document's text; if
quotes in the tag do not balance it finds none, and then the places stay those of the content alone.
-/

namespace WebAudit.Markup

/-! ## Where content starts -/

/-- The length of a text up to and with the first `>` outside of quotes. -/
def unquotedCloseLength? (cs : List Char) : Option Nat :=
  match cs with
  | [] => none
  | '>' :: _ => some 1
  | c :: r =>
    if c == '"' || c == '\'' then
      let n := (r.takeWhile (· != c)).length
      if n < r.length then (unquotedCloseLength? (r.drop (n + 1))).map (· + (n + 2)) else none
    else (unquotedCloseLength? r).map (· + 1)
termination_by cs.length
decreasing_by all_goals simp only [List.length_drop, List.length_cons]; omega

/-- The length of a tag whose name has at most `n` characters, the longest name first. -/
def tagLengthWithin? (r : List Char) : Nat → Option Nat
  | 0 => none
  | n + 1 =>
    match unquotedCloseLength? (r.drop (n + 1)) with
    | some k => some (n + 1 + k)
    | none => tagLengthWithin? r n

/-- The length of the start tag at a place, its `<` included. -/
def tagLength? (cs : List Char) : Option Nat :=
  match cs with
  | '<' :: r =>
    let name := r.takeWhile fun c => !(Text.isBlank c || c == '>' || c == '/')
    (tagLengthWithin? r name.length).map (· + 1)
  | _ => none

/-- The place of the first character after the start tag that begins at an offset. -/
def contentStart? (text : List Char) (start : Nat) : Option Text.Position :=
  (tagLength? (text.drop start)).map fun n => Text.position text (start + n)

/-! ## Kinds of scripts -/

/-- The types under which a script is analysed. -/
def scriptTypes : List String :=
  ["", "module", "text/javascript", "application/javascript", "application/ecmascript",
    "text/ecmascript", "text/babel", "text/jsx"]

/-- The dialect that a language name stands for. -/
def languageDialect (lang : String) : Script.Dialect :=
  if lang == "ts" || lang == "typescript" then .typescript
  else if lang == "tsx" then .tsx
  else .javascript

/-- An attribute without surrounding blanks and in lower case; empty if it is absent. -/
def StartTag.keyword (t : StartTag) (name : String) : String :=
  Text.lower (Text.strip ((t.value? name).getD ""))

/-- The dialect of a script element, if it holds a script. -/
def scriptDialect? (t : StartTag) : Option Script.Dialect :=
  if scriptTypes.contains (t.keyword "type") then some (languageDialect (t.keyword "lang"))
  else none

/-! ## Detections -/

/-- What the content of an element shows, in places of the content. -/
def Element.findings (e : Element) : Findings :=
  let content := String.ofList e.content
  if Text.isBlankText content then ⟨[], 0⟩
  else if e.tag.name == "script" then
    match scriptDialect? e.tag with
    | some d => Script.detect d content
    | none => ⟨[], 0⟩
  else Style.detect content

/-- Detections moved to where the content starts. -/
def moved (start : Option Text.Position) (ds : List Detection) : List Detection :=
  match start with
  | some p =>
    ds.map fun d => { d with location := d.location.shifted (p.line - 1) (p.column - 1) }
  | none => ds

/-- What an element shows, in places of the document. -/
def Element.documentFindings (text : List Char) (e : Element) : Findings :=
  let f := e.findings
  ⟨moved (contentStart? text e.start) f.detections, f.warnings⟩

/-- The features that the scripts and styles of a document use, in the order of the elements. -/
def detect (content : String) : Findings :=
  let text := content.toList
  match elements? text with
  | none => .unreadable
  | some es =>
    let fs := es.map (·.documentFindings text)
    ⟨fs.flatMap (·.detections), fs.foldr (fun f n => f.warnings + n) 0⟩

end WebAudit.Markup
