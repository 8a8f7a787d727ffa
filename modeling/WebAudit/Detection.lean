import WebAudit.Location

/-!
# Detections

One occurrence of a web feature in a source text.
-/

namespace WebAudit

/-- An occurrence of a feature. -/
structure Detection where
  featureId : String
  location : Location
  /-- What was found, in the words of the source. -/
  value : String
  /-- The name under which browser support for exactly this use is recorded. -/
  supportKey : Option String := none
deriving DecidableEq, Repr

/-- What an analysis of a text gives: detections, or a note that the text could not be read. -/
structure Findings where
  detections : List Detection
  /-- How many warnings were raised. -/
  warnings : Nat := 0
deriving DecidableEq, Repr

/-- The outcome for a text that cannot be read. -/
def Findings.unreadable : Findings :=
  ⟨[], 1⟩

end WebAudit
