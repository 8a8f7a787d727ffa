import WebAudit.Decimal.Double

/-!
# JSON values

JSON values with whole numbers of any size told apart from floating point numbers, and objects whose
fields keep the order in which their keys first appeared.
-/

namespace WebAudit

/-- A JSON value. -/
inductive Json where
  | null
  | bool (b : Bool)
  | int (n : Int)
  | float (x : Double)
  | str (s : String)
  | arr (items : List Json)
  | obj (fields : List (String × Json))
deriving Inhabited, Repr

namespace Json

/-- The fields of an object. -/
abbrev Fields := List (String × Json)

/-- The value under a key. -/
def Fields.get? (fs : Fields) (key : String) : Option Json :=
  fs.lookup key

/-- Whether a key is present. -/
def Fields.has (fs : Fields) (key : String) : Bool :=
  fs.any (fun f => f.1 == key)

/-- Sets the value under a key: in its place if the key is known, at the end if not. -/
def Fields.set : Fields → String → Json → Fields
  | [], k, v => [(k, v)]
  | (k', v') :: r, k, v => if k' == k then (k', v) :: r else (k', v') :: Fields.set r k v

/-- The value under a key of an object; nothing for other values. -/
def field? (key : String) : Json → Option Json
  | obj fs => Fields.get? fs key
  | _ => none

/-- The fields of an object; nothing for other values. -/
def fields? : Json → Option Fields
  | obj fs => some fs
  | _ => none

def str? : Json → Option String
  | str s => some s
  | _ => none

def isNull : Json → Bool
  | null => true
  | _ => false

/-- Whether a value counts as present: neither null, false, zero nor empty. -/
def isTruthy : Json → Bool
  | null => false
  | bool b => b
  | int n => n != 0
  | float (.finite _ m _) => m != 0
  | float _ => true
  | str s => !s.isEmpty
  | arr xs => !xs.isEmpty
  | obj fs => !fs.isEmpty

end Json

end WebAudit
