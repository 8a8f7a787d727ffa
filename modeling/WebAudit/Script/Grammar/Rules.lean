import WebAudit.Script.Node
import WebAudit.Script.Number

/-!
# The grammar as a system of rules

The rules of the grammar call one another in circles, so each rule is written as a function of the
whole system `Rules`, and the system is closed at the end by building it up from rules that always
fail. An expression and a destructuring pattern can start alike; both are read by the same rule, and
`Operand` records what the text read may still turn out to be.
-/

namespace WebAudit.Script

/-- What surrounds an expression, as far as it decides where the expression ends. -/
structure Context where
  /-- A statement may end right after the expression, so a line end can close it. -/
  lineEnds : Bool := false
  /-- The word `in` belongs to the head of a loop and is no operator. -/
  noIn : Bool := false
  /-- An operator that groups to the left is waiting for this operand. -/
  pending : Bool := false
  /-- A colon after a closing parenthesis belongs to a conditional, not to a return type. -/
  noReturnType : Bool := false

/-- Inside brackets nothing of the surroundings matters. -/
def Context.inner : Context := {}

/-- A statement's own expression. -/
def Context.statement : Context := { lineEnds := true }

/-- The context of a part that no operator to its left is waiting for. -/
def Context.settled (x : Context) : Context := { x with pending := false }

/-- A piece of an expression, with the uses it is fit for. -/
structure Operand where
  node : Node
  /-- It may stand as an expression. -/
  expression : Bool := true
  /-- It is a primary expression. -/
  primary : Bool := false
  /-- It is an application of `new`. -/
  construction : Bool := false
  /-- It may stand where a value is bound to a name or taken apart. -/
  pattern : Bool := false
  /-- It is a pattern with a default value. -/
  defaulted : Bool := false
  /-- It may stand left of `=`. -/
  target : Bool := false
  /-- It may stand left of an assignment that computes. -/
  updatable : Bool := false
  /-- It is the receiver word, which may name a first parameter. -/
  receiver : Bool := false
  /-- It is a private name, which may only be asked for with `in`. -/
  privateName : Bool := false

namespace Operand

/-- An expression that is fit for nothing else. -/
def plain (n : Node) : Operand :=
  { node := n }

/-- A primary expression that cannot be assigned to. -/
def value (n : Node) : Operand :=
  { node := n, primary := true }

/-- A name, a member or an element: it can be read, bound and assigned. -/
def place (n : Node) : Operand :=
  { node := n, primary := true, pattern := true, target := true, updatable := true }

def start (e : Operand) : Nat :=
  e.node.span.start

end Operand

/-- The rules that other rules refer to. -/
structure Rules where
  dialect : Dialect
  /-- A whole expression, commas excluded. -/
  expression : Context → Rule Operand
  /-- Operands joined by operators of at least the given strength. -/
  binary : Context → Nat → Rule Operand
  unary : Context → Rule Operand
  /-- What may be bound or assigned: a name, a member, an element, or a destructuring pattern. -/
  place : Rule Operand
  /-- An application of `new`. -/
  construction : Context → Rule Operand
  statement : Rule Node
  /-- Statements in braces; the flag tells whether an operator could follow. -/
  block : Bool → Rule Node
  /-- A type; the flag tells whether a line end can close it. -/
  type : Bool → Rule (List Node)
  /-- An element in angle brackets. -/
  element : Rule Node

namespace Rules

/-- The system in which every rule fails. -/
def bottom (d : Dialect) : Rules where
  dialect := d
  expression _ := Rule.fail
  binary _ _ := Rule.fail
  unary _ := Rule.fail
  place := Rule.fail
  construction _ := Rule.fail
  statement := Rule.fail
  block _ := Rule.fail
  type _ := Rule.fail
  element := Rule.fail

def typed (r : Rules) : Bool :=
  r.dialect.typed

open Rule

/-- Reads an expression and rejects what can only be a pattern. -/
def value (r : Rules) (x : Context) : Rule Node := do
  let e ← r.expression x
  require e.expression
  pure e.node

/-- One expression or several with commas between. -/
def sequence (r : Rules) (x : Context) : Rule (List Node) :=
  commaList (r.value x)

end Rules

namespace Rule

/-- Items with commas between, any of which may be left out, up to a closing mark. -/
def sparseList {α : Type} (item : Rule α) (close : String) : Rule (List α) := do
  let items ← loop (fun acc => do
    if ← isNext close then pure none
    else if ← optionalPunct "," then pure (some acc)
    else
      let a ← item
      require ((← isNext close) || (← isNext ","))
      pure (some (a :: acc))) []
  punct close
  pure items.reverse

/-- Items with commas between and perhaps one after the last, up to a closing mark. -/
def closedList {α : Type} (item : Rule α) (close : String) : Rule (List α) := do
  let items ← loop (fun acc => do
    if ← isNext close then pure none
    else
      let a ← item
      let more ← optionalPunct ","
      require (more || (← isNext close))
      pure (some (a :: acc))) []
  punct close
  pure items.reverse

/-- A quoted string. -/
def string : Rule Node := do
  blank
  let start ← position
  let n := stringLength (← ahead)
  require (0 < n)
  step n
  pure (.leaf .other start (start + n))

/-- A number token. -/
def number : Rule Node := do
  blank
  let start ← position
  let n := Number.length (← ahead)
  require (0 < n)
  step n
  pure (.leaf .number start (start + n))

/-- A name starting with a hash. -/
def privateName : Rule Node := do
  blank
  let start ← position
  exactly "#"
  let n := wordLength (← ahead)
  require (0 < n)
  step n
  pure (.leaf .other start (start + 1 + n))

end Rule

/-- Words that never name anything in the dialect without types, except after a dot or as a key. -/
def reservedWords : List String :=
  ["break", "case", "catch", "class", "const", "continue", "debugger", "default", "delete", "do",
    "else", "export", "extends", "false", "finally", "for", "function", "if", "import", "in",
    "instanceof", "new", "null", "return", "super", "switch", "this", "throw", "true", "try",
    "typeof", "var", "void", "while", "with"]

/-- Whether a word can be the name of a binding. In the typed dialects only the words that mean
something else at that place are excluded. -/
def Dialect.isName (d : Dialect) (w : String) : Bool :=
  d.typed || !reservedWords.contains w

namespace Rules

open Rule

/-- The name of a binding. -/
def name (r : Rules) : Rule Node := do
  let (w, start) ← word
  require (r.dialect.isName w)
  pure (.leaf .identifier start (← position))

/-- The arguments of a call. -/
def arguments (r : Rules) : Rule (List Node) := do
  punct "("
  sparseList (do
    let _ ← optionalPunct "..."
    r.value .inner) ")"

end Rules

end WebAudit.Script
