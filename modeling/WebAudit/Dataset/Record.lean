import WebAudit.Json.Basic

/-!
# Records

Reading of recorded data that may have any shape. A field can only be taken from an object; asking
another value for a field is a fault, and so is a key that is a list or an object.
-/

namespace WebAudit.Dataset

/-- What can go wrong when recorded data are looked up. -/
inductive Fault where
  /-- A value that is no object was asked for a field. -/
  | noFields
  /-- A list or an object was used as a key. -/
  | badKey
  | unknownFeature (id : String)
  | noStatus (key id : String)
  /-- A source of data failed. -/
  | unavailable
deriving DecidableEq, Repr

/-- The fault in words, where it has any. -/
def Fault.message : Fault → String
  | .noFields => ""
  | .badKey => ""
  | .unknownFeature id => "Unknown feature: " ++ id
  | .noStatus key id => "No status for " ++ key ++ " in " ++ id
  | .unavailable => ""

/-- The value under a key of an object, null if there is none. -/
def field (key : String) : Json → Except Fault Json
  | .obj fs => .ok ((Json.Fields.get? fs key).getD .null)
  | _ => .error .noFields

/-- A value, or the empty object in place of one that is null, false, zero or empty. -/
def orEmpty (v : Json) : Json :=
  if v.isTruthy then v else .obj []

/-- The first item of a list, or the value itself if it is no list. -/
def first : Json → Json
  | .arr (v :: _) => v
  | .arr [] => .null
  | v => v

end WebAudit.Dataset
