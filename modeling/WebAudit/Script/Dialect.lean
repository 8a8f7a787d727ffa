/-!
# Script dialects

The three grammars a script can be read with. Every dialect shares one grammar; what differs is
which extensions are on: elements written in angle brackets (`javascript`, `tsx`), type annotations
(`typescript`, `tsx`) and casts written `<T>value` (`typescript` only).
-/

namespace WebAudit.Script

/-- The grammar a script is read with. -/
inductive Dialect where
  | javascript
  | typescript
  | tsx
deriving DecidableEq, Repr

namespace Dialect

/-- The name under which a dialect is asked for. -/
def name : Dialect → String
  | javascript => "javascript"
  | typescript => "typescript"
  | tsx => "tsx"

/-- Names are exact: another letter case is no dialect. -/
def ofName? (s : String) : Option Dialect :=
  [javascript, typescript, tsx].find? (fun d => d.name == s)

/-- Whether type annotations are part of the dialect. -/
def typed : Dialect → Bool
  | javascript => false
  | typescript => true
  | tsx => true

/-- Whether elements in angle brackets are part of the dialect. -/
def hasElements : Dialect → Bool
  | javascript => true
  | typescript => false
  | tsx => true

end Dialect

end WebAudit.Script
