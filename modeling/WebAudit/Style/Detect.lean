import WebAudit.Detection
import WebAudit.Style.Item
import WebAudit.Style.Printer
import WebAudit.Text.Blank
import WebAudit.Text.Lowercase
import WebAudit.Text.Search

/-!
# Features used by a style sheet

Each declaration is looked up in a table by its property and value; the first line of the table that
fits decides. A style sheet with an error anywhere shows nothing.
-/

namespace WebAudit.Style

/-- A property whose use is reported: the value it needs, if not any will do, and the feature. -/
structure PropertyRule where
  property : String
  keyword : Option String
  featureId : String
deriving DecidableEq, Repr

/-- The properties whose use is reported. -/
def propertyRules : List PropertyRule :=
  [⟨"display", some "grid", "css-display"⟩,
    ⟨"display", some "subgrid", "css-subgrid"⟩,
    ⟨"grid-template-columns", some "subgrid", "css-subgrid"⟩,
    ⟨"grid-template-columns", none, "css-grid-template-columns"⟩,
    ⟨"grid-template-rows", some "subgrid", "css-subgrid"⟩,
    ⟨"grid-template-rows", none, "css-grid-template-columns"⟩,
    ⟨"container-type", none, "css-container-queries"⟩,
    ⟨"container-name", none, "css-container-queries"⟩,
    ⟨"word-break", some "auto-phrase", "css-word-break-auto-phrase"⟩,
    ⟨"word-break", none, "css-word-break"⟩,
    ⟨"color-scheme", none, "css-color-scheme"⟩]

/-- Whether a rule fits a property and a value, both in lower case. -/
def PropertyRule.fits (r : PropertyRule) (property value : String) : Bool :=
  r.property == property && r.keyword.all fun k => Text.occursIn k.toList value.toList

/-- The feature that a property with this value belongs to. Case is ignored. -/
def propertyFeature? (property value : String) : Option String :=
  (propertyRules.find? (·.fits (Text.lower property) (Text.lower value))).map (·.featureId)

/-- The name of a declared property, in lower case. -/
def Declaration.property (d : Declaration) : String :=
  String.ofList (d.name.map Text.asciiLower)

/-- The text of a declared value. -/
def Declaration.valueText (d : Declaration) : String :=
  Text.strip (String.ofList (print d.value))

/-- What a declaration shows. -/
def Declaration.detection? (d : Declaration) : Option Detection :=
  (propertyFeature? d.property d.valueText).map fun f =>
    { featureId := f
      location := ⟨d.place.line, d.place.column, none, none⟩
      value := d.property ++ ": " ++ d.valueText
      supportKey := some ("css.properties." ++ d.property) }

/-- The features that a style sheet uses. -/
def detect (content : String) : Findings :=
  match declarations? (sheetItems (components content.toList)) with
  | none => .unreadable
  | some ds => ⟨ds.filterMap Declaration.detection?, 0⟩

end WebAudit.Style
