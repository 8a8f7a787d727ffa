import WebAudit.Config.Basic
import WebAudit.Dataset.Resolution
import WebAudit.Detection

/-!
# Reports

Detections classified under a configuration: ignored features are left out, risky ones are listed
with what is known about them, and the others are counted. The safety score is the share of safe
detections in percent, rounded to the nearest whole number with halves going up.
-/

namespace WebAudit

open Dataset (Baseline Fault Resolution Resolver Support)

/-- The percentage of safe features, halves rounded up; 100 if there is nothing to count. -/
def safetyScore (safe total : Int) : Int :=
  if total ≤ 0 then 100 else Int.fdiv (safe * 200 + total) (2 * total)

/-- Whether a status is risky under a configuration. -/
def Config.isRisky (c : Config) : Baseline → Bool
  | .high => false
  | .low => !c.allowsLow
  | .limited => c.blocksFalse

/-- A detection that is risky, with what is known about its feature. -/
structure RiskyFeature where
  id : String
  /-- Low or limited: a high status is never risky. -/
  baseline : Baseline
  support : Support
  name : Json
  spec : Json
  mdn : Json
  lowDate : Json
  highDate : Json
  location : Location
  value : String
deriving Repr

/-- The risky feature of a detection and its resolved status. A status that is not limited is
written as low. -/
def RiskyFeature.of (d : Detection) (r : Resolution) : RiskyFeature where
  id := d.featureId
  baseline := if r.baseline = .limited then .limited else .low
  support := r.support
  name := r.name
  spec := r.spec
  mdn := r.mdn
  lowDate := r.lowDate
  highDate := r.highDate
  location := d.location
  value := d.value

/-- A report on some detections. -/
structure Report where
  safe : Nat
  risky : List RiskyFeature
deriving Repr

/-- How many detections a report covers. -/
def Report.total (r : Report) : Nat :=
  r.safe + r.risky.length

/-- The safety score of a report. -/
def Report.score (r : Report) : Int :=
  safetyScore r.safe r.total

/-- The report after one more detection in front. -/
def Report.add (c : Config) (d : Detection) (res : Resolution) (r : Report) : Report :=
  if c.isRisky res.baseline then { r with risky := .of d res :: r.risky }
  else { r with safe := r.safe + 1 }

/-- Reports on detections in their order. -/
def Report.create (c : Config) (resolve : Resolver) : List Detection → Except Fault Report
  | [] => .ok ⟨0, []⟩
  | d :: ds =>
    if c.ignored.contains d.featureId then Report.create c resolve ds
    else do
      let res ← resolve d.featureId d.supportKey
      let r ← Report.create c resolve ds
      return r.add c d res

/-! ## Written form -/

/-- A whole number, or null. -/
def optionalInt (n : Option Int) : Json :=
  (n.map Json.int).getD .null

/-- A location with the ends that are known. -/
def Location.toJson (l : Location) : Json :=
  .obj (Dataset.withoutNulls [("line", .int l.line), ("column", .int l.column),
    ("endLine", optionalInt l.endLine), ("endColumn", optionalInt l.endColumn)])

/-- A detection as it is written. -/
def Detection.toJson (d : Detection) : Json :=
  .obj (Dataset.withoutNulls [("featureId", .str d.featureId),
    ("supportKey", (d.supportKey.map Json.str).getD .null), ("location", d.location.toJson),
    ("value", .str d.value)])

/-- A risky feature as it is written: what is not known is left out. -/
def RiskyFeature.toJson (r : RiskyFeature) : Json :=
  .obj (Dataset.withoutNulls [("id", .str r.id), ("baseline", r.baseline.toJson),
    ("support", r.support.toJson), ("name", r.name), ("spec", r.spec), ("mdn", r.mdn),
    ("baselineLowDate", r.lowDate), ("baselineHighDate", r.highDate),
    ("location", r.location.toJson), ("value", .str r.value)])

/-- A report as it is written. -/
def Report.toJson (r : Report) : Json :=
  .obj [("safe", .int r.safe), ("risky", .arr (r.risky.map RiskyFeature.toJson)),
    ("total", .int r.total), ("safetyScore", .int r.score)]

end WebAudit
