import WebAudit.Json.Basic

/-!
# Baseline statuses

How widely a web feature can be used: in all current browsers for some time, in all since recently,
or not in all of them.
-/

namespace WebAudit.Dataset

/-- The Baseline status of a feature. -/
inductive Baseline where
  | high
  | low
  /-- Not in all browsers. -/
  | limited
deriving DecidableEq, Repr

/-- The status that a recorded value states; other values state none. -/
def Baseline.ofJson? : Json → Option Baseline
  | .str "high" => some .high
  | .str "low" => some .low
  | .bool false => some .limited
  | _ => none

/-- A status as it is recorded. -/
def Baseline.toJson : Baseline → Json
  | .high => .str "high"
  | .low => .str "low"
  | .limited => .bool false

theorem Baseline.ofJson?_toJson (b : Baseline) : Baseline.ofJson? b.toJson = some b := by
  cases b <;> rfl

end WebAudit.Dataset
