import WebAudit.Dataset.Store

/-!
# Looking up features

A feature's record is found by its id; a record that has moved points to another id, and a chain of
such records is followed for a limited number of steps. The status of a single use of a feature is
found in the feature's record by its key.
-/

namespace WebAudit.Dataset

/-- How many steps a chain of moved records is followed. -/
def maxRedirects : Nat :=
  5

/-- What a record says it is. -/
def kind? (r : Json.Fields) : Option String :=
  (Json.Fields.get? r "kind").bind Json.str?

/-- The record under a key that may be any value. -/
def Features.get (fs : Features) : Json → Except Fault (Option Json.Fields)
  | .str id => .ok (fs.lookup id)
  | .arr _ => .error .badKey
  | .obj _ => .error .badKey
  | _ => .ok none

/-- The key to which a moved record points. -/
def redirectTarget (r : Json.Fields) : Json :=
  (Json.Fields.get? r "redirect_target").getD (.str "")

/-- Follows moved records for at most `n` steps. -/
def Features.follow (fs : Features) : Nat → Option Json.Fields → Except Fault (Option Json.Fields)
  | 0, r => .ok r
  | _, none => .ok none
  | n + 1, some r =>
    if kind? r == some "moved" then do fs.follow n (← fs.get (redirectTarget r)) else .ok (some r)

/-- The record of a feature. One that is moved still, or split, is none. -/
def Features.feature (fs : Features) (id : String) : Except Fault (Option Json.Fields) := do
  match ← fs.follow maxRedirects (fs.lookup id) with
  | some r =>
    if kind? r == some "moved" || kind? r == some "split" then .ok none else .ok (some r)
  | none => .ok none

/-- The record of a feature as a value, null if there is none. -/
def Features.record (fs : Features) (id : String) : Except Fault Json := do
  return ((← fs.feature id).map Json.obj).getD .null

/-- The status of one use of a feature. -/
def Features.status (fs : Features) (id key : String) : Except Fault Json := do
  match ← fs.feature id with
  | none => .error (.unknownFeature id)
  | some r =>
    let status ← field "status" (.obj r)
    let byKey ← field "by_compat_key" (orEmpty status)
    match ← field key (orEmpty byKey) with
    | .obj s => .ok (.obj s)
    | _ => .error (.noStatus key id)

end WebAudit.Dataset
