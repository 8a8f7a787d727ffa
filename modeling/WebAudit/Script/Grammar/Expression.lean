import WebAudit.Script.Grammar.Callable
import WebAudit.Script.Grammar.Element

/-!
# Expressions

Expressions from literals up to conditionals. Three decisions shape the rules.

* A list in parentheses, an array and an object are read once, and what they may be used as
  (expression, pattern, parameters, arguments) is worked out from their parts.
* An assignment binds at the operand: `a + b = c` assigns to `b`.
* Where a statement may end, a line end that closes it is looked for before every operator.
-/

namespace WebAudit.Script.Rules

open Rule

/-! ## Templates -/

/-- A template with its inserted expressions. -/
def template (r : Rules) : Rule Node := do
  blank
  let start ← position
  exactly "\x60"
  let parts ← loop (fun acc => do
    match ← ahead with
    | [] => fail
    | '\x60' :: _ => pure none
    | '\\' :: cs =>
      let n := escapeLength cs
      require (0 < n)
      step (n + 1)
      pure (some acc)
    | '$' :: '\x7b' :: _ =>
      step 2
      let ns ← r.sequence .inner
      punct "\x7d"
      pure (some (ns :: acc))
    | _ =>
      step 1
      pure (some acc)) []
  exactly "\x60"
  pure (.branch .other start (← position) parts.reverse.flatten)

/-! ## Arrays and objects -/

/-- A part of an array or an object, and whether it fits an expression or a pattern. -/
structure Part where
  nodes : List Node
  expression : Bool
  pattern : Bool

/-- What parts in brackets make up. -/
def composite (start stop : Nat) (ps : List Part) : Operand :=
  let pattern := ps.all (·.pattern)
  { node := .branch .other start stop (ps.flatMap (·.nodes))
    expression := ps.all (·.expression)
    primary := true
    pattern := pattern
    target := pattern }

/-- A spread or rest part. -/
def spreadPart (r : Rules) : Rule Part := do
  punct "..."
  let e ← r.expression .inner
  pure ⟨[e.node], e.expression, e.pattern || e.defaulted⟩

/-- An array or an array pattern. -/
def array (r : Rules) : Rule Operand := do
  blank
  let start ← position
  exactly "["
  let ps ← sparseList (r.spreadPart <|> do
    let e ← r.expression .inner
    pure ⟨[e.node], e.expression, e.pattern || e.defaulted⟩) "]"
  pure (composite start (← position) ps)

/-- A modifier of a method in an object. -/
def objectModifier (r : Rules) : Rule String :=
  modifierOf (if r.typed then memberModifiers else ["static", "async", "get", "set"])

/-- A method, a pair or a shorthand of an object. -/
def objectMember (r : Rules) : Rule Part := do
  let decs ← r.decorators
  let mods ← many r.objectModifier
  require (modifiersInOrder mods)
  let generator ← optionalPunct "*"
  let n ← r.propertyName
  let marked ← if r.typed then optionalPunct "?" else pure false
  if (← isNext "(") || (r.typed && (← isNext "<")) then
    let sig ← r.signature
    let body ← r.block false
    pure ⟨decs ++ n.nodes ++ sig ++ [body], true, false⟩
  else
    require (mods.isEmpty && !generator && decs.isEmpty && !marked)
    if ← optionalPunct ":" then
      let e ← r.expression .inner
      pure ⟨n.nodes ++ [e.node], e.expression, e.pattern || e.defaulted⟩
    else
      require n.word?.isSome
      if (← isNext "=") && !(← isNext "==") then
        punct "="
        let v ← r.value .inner
        pure ⟨n.nodes ++ [v], false, true⟩
      else pure ⟨n.nodes, true, true⟩

/-- A destructuring pattern with a default, directly inside an object pattern. -/
def nestedDefault (r : Rules) : Rule Part := do
  let e ← r.expression .inner
  require e.defaulted
  pure ⟨[e.node], false, true⟩

/-- An object or an object pattern. -/
def object (r : Rules) : Rule Operand := do
  blank
  let start ← position
  exactly "\x7b"
  let member : Rule Part := do
    match ← peekChar with
    | some '.' => r.spreadPart <|> r.objectMember
    | some '\x7b' => r.nestedDefault
    | _ => r.objectMember
  let ps ← sparseList member "\x7d"
  pure (composite start (← position) ps)

/-! ## Lists in parentheses -/

/-- An item of a list in parentheses, with the uses it is fit for. -/
structure Item where
  nodes : List Node
  expression : Bool
  argument : Bool
  parameter : Bool
  annotated : Bool

/-- An item that is read as an expression first. -/
def coverItem (r : Rules) : Rule Item := do
  let spread ← optionalPunct "..."
  let e ← r.expression .inner
  let optional ← if r.typed then optionalPunct "?" else pure false
  let annotated ← if r.typed then isNext ":" else pure false
  let ann ← r.optionalAnnotation false
  let default ← if optional || annotated then r.optionalDefault .inner else pure []
  let bare := !optional && !annotated
  pure {
    nodes := e.node :: ann ++ default
    expression := e.expression && !spread && !optional && default.isEmpty
    argument := e.expression && bare
    parameter := e.pattern || (e.defaulted && bare) || (r.typed && e.receiver)
    annotated := annotated }

/-- An item that can only be a parameter because of what stands before its name. -/
def modifiedItem (r : Rules) : Rule Item := do
  require r.typed
  require ((← isNext "@") || (← fits parameterModifier))
  let ns ← r.parameter
  pure ⟨ns, false, false, true, true⟩

/-- A list in parentheses. -/
structure Cover where
  items : List Item
  /-- An item is left out somewhere. -/
  hole : Bool
  /-- The last item is followed by a comma. -/
  trailing : Bool

namespace Cover

/-- Whether the list can be the parameters of a function. -/
def isParameters (c : Cover) : Bool :=
  !c.hole && c.items.all (·.parameter)

/-- Whether the list can be the arguments of a call. -/
def isArguments (c : Cover) : Bool :=
  c.items.all (·.argument)

/-- Whether the list can be an expression in parentheses. -/
def isExpression (c : Cover) : Bool :=
  !c.items.isEmpty && !c.hole && !c.trailing && c.items.all (·.expression)
    && (c.items.length == 1 || c.items.all (!·.annotated))

def nodes (c : Cover) : List Node :=
  c.items.flatMap (·.nodes)

end Cover

/-- Reads a list in parentheses. -/
def cover (r : Rules) : Rule Cover := do
  punct "("
  let c ← loop (fun (c : Cover) => do
    if ← isNext ")" then pure none
    else if ← optionalPunct "," then
      pure (some { c with hole := c.hole || c.trailing || c.items.isEmpty, trailing := true })
    else
      require (c.items.isEmpty || c.trailing)
      let i ← r.modifiedItem <|> r.coverItem
      pure (some { c with items := i :: c.items, trailing := false })) ⟨[], false, false⟩
  punct ")"
  pure { c with items := c.items.reverse }

/-! ## Arrow functions -/

/-- The body of an arrow function: statements in braces, or else an expression. -/
def arrowBody (r : Rules) (x : Context) : Rule Node := do
  if ← isNext "\x7b" then r.block true <|> r.value x.settled
  else r.value x.settled

/-- An arrow function from its return type on. -/
def arrowTail (r : Rules) (x : Context) : Rule (List Node) := do
  let ret ←
    if r.typed && !x.noReturnType && (← isNext ":") then r.returnType false else pure []
  punct "=>"
  let body ← r.arrowBody x
  pure (ret ++ [body])

/-- An arrow function with type parameters. -/
def genericArrow (r : Rules) (x : Context) (start : Nat) : Rule Operand := do
  let tps ← r.typeParameters
  let ps ← r.parameters
  let tail ← r.arrowTail x
  pure (.value (.branch .other start (← position) (tps ++ ps ++ tail)))

/-- An expression in parentheses or an arrow function. -/
def parenthesized (r : Rules) (x : Context) : Rule Operand := do
  blank
  let start ← position
  let c ← r.cover
  let stop ← position
  let grouped : Operand :=
    { Operand.value (.branch .other start stop c.nodes) with target := true, updatable := true }
  match ← attempt (do require c.isParameters; r.arrowTail x) with
  | some tail => pure (.value (.branch .other start (← position) (c.nodes ++ tail)))
  | none =>
    require c.isExpression
    pure grouped

/-! ## Words -/

/-- A name, or an arrow function whose only parameter it is. -/
def nameOrArrow (r : Rules) (x : Context) (start stop : Nat) : Rule Operand := do
  let n := Node.leaf .identifier start stop
  if ← isNext "=>" then
    punct "=>"
    let body ← r.arrowBody x
    pure (.value (.branch .other start (← position) [n, body]))
  else pure (.place n)

/-- What starts with the word `async`, already read. -/
def asyncForm (r : Rules) (x : Context) (calls : Bool) (start : Nat) : Rule Operand := do
  let stop ← position
  let self := Node.leaf .identifier start stop
  if x.lineEnds && (← mayEnd r.dialect true) then pure (.place self)
  else if (← peekWord) == "function" then
    let f ← r.functionParts true
    require f.hasBody
    pure (.value (.branch .other start (← position) f.nodes))
  else if calls && (← isNext "(") then
    let c ← r.cover
    let called ← position
    match ← attempt (do require c.isParameters; r.arrowTail x) with
    | some tail => pure (.value (.branch .other start (← position) (c.nodes ++ tail)))
    | none =>
      require c.isArguments
      pure (.value (.branch .other start called (self :: c.nodes)))
  else
    let named : Rule Operand := do
      let p ← r.name
      punct "=>"
      let body ← r.arrowBody x
      pure (.value (.branch .other start (← position) [p, body]))
    let generic : Rule Operand := do
      require (r.typed && (← isNext "<"))
      r.genericArrow x start
    named <|> generic <|> r.nameOrArrow x start stop

/-- What starts with the word `await`, already read: an awaited operand, or else a name. -/
def awaitForm (r : Rules) (x : Context) (start : Nat) : Rule Operand := do
  let stop ← position
  if x.lineEnds && (← mayEnd r.dialect true) then pure (.place (.leaf .identifier start stop))
  else
    let awaited : Rule Operand := do
      let e ← r.unary x
      require e.expression
      pure (.plain (.branch .other start (← position) [e.node]))
    awaited <|> r.nameOrArrow x start stop

/-- What starts with the word `yield`, already read. -/
def yieldForm (r : Rules) (x : Context) (start : Nat) : Rule Operand := do
  let stop ← position
  if x.lineEnds && (← mayEnd r.dialect true) then pure (.plain (.leaf .other start stop))
  else if ← optionalPunct "*" then
    let v ← r.value x.settled
    pure (.plain (.branch .other start (← position) [v]))
  else
    match ← attempt (r.value x.settled) with
    | some v => pure (.plain (.branch .other start (← position) [v]))
    | none => pure (.plain (.leaf .other start stop))

/-- What starts with the word `import`, already read: a call, or a property of the module. -/
def importForm (start : Nat) : Rule Operand := do
  let stop ← position
  let self := Node.leaf .other start stop
  let info : Rule Operand := do
    punct "."
    let _ ← keyword "meta"
    pure (.value (.leaf .other start (← position)))
  let bare : Rule Operand := do
    require ((← isNext "(") || ((← isNext ".") && !(← isNext "..")))
    pure (.plain self)
  info <|> bare

/-- A class expression with its decorators. -/
def classForm (r : Rules) : Rule Operand := do
  blank
  let start ← position
  let decs ← r.decorators
  let (_, ns) ← r.classParts
  pure (.value (.branch .other start (← position) (decs ++ ns)))

/-- A primary expression, or an application of `new`, that starts with a word. -/
def wordForm (r : Rules) (x : Context) (calls : Bool) : Rule Operand := do
  let before ← cursor
  let (w, start) ← word
  let stop ← position
  if w == "function" then
    moveTo before
    let f ← r.functionParts true
    require f.hasBody
    pure (.value (.branch .other start (← position) f.nodes))
  else if w == "class" then
    moveTo before
    r.classForm
  else if w == "new" then
    moveTo before
    r.construction x
  else if w == "async" then r.asyncForm x calls start
  else if w == "await" then r.awaitForm x start
  else if w == "yield" then r.yieldForm x start
  else if w == "import" then importForm start
  else if w == "this" then
    pure { Operand.value (.leaf .other start stop) with receiver := true }
  else if ["super", "null", "true", "false"].contains w then
    pure (.value (.leaf .other start stop))
  else if w == "undefined" then
    pure { Operand.value (.leaf .other start stop) with pattern := true, target := true }
  else if w == "export" then r.nameOrArrow x start stop
  else
    require (r.dialect.isName w && !(["typeof", "void", "delete"].contains w))
    r.nameOrArrow x start stop

/-- A regular expression literal. -/
def pattern : Rule Operand := do
  blank
  let start ← position
  let n := patternLength (← ahead)
  require (0 < n)
  step n
  pure (.value (.leaf .other start (start + n)))

/-- The start of an operand: a primary expression or an application of `new`. Without `calls` a
parenthesis after a name is left alone. -/
def primary (r : Rules) (x : Context) (calls : Bool) : Rule Operand := do
  match ← peekChar with
  | none => fail
  | some c =>
    if c == '(' then r.parenthesized x
    else if c == '[' then r.array
    else if c == '\x7b' then r.object
    else if c == '"' || c == '\'' then pure (.value (← string))
    else if c == '\x60' then pure (.value (← r.template))
    else if c == '/' then pattern
    else if c == '@' then r.classForm
    else if isDigit c || c == '.' then pure (.value (← number))
    else r.wordForm x calls

/-! ## What follows an operand's start -/

/-- Which continuations of an operand are allowed. -/
structure Continuations where
  calls : Bool
  updates : Bool

/-- The name of a member. -/
def memberName : Rule Node := do
  Rule.privateName <|> do
    let (_, start) ← word
    pure (.leaf .propertyName start (← position))

/-- A member of an object. -/
def memberNode (e : Operand) (chain : List Node) (prop : Node) : Operand :=
  .place (.branch .member e.start prop.span.stop
    (e.node.withLabel .object :: chain ++ [prop.withLabel .property]))

/-- An element of an object. -/
def subscriptNode (e : Operand) (chain : List Node) (index : List Node) (stop : Nat) : Operand :=
  .place (.branch .subscript e.start stop (e.node.withLabel .object :: chain ++ index))

/-- What follows the mark `?.`, already read. -/
def optionalAccess (r : Rules) (e : Operand) (chain : Node) : Rule Operand := do
  if ← isNext "[" then
    punct "["
    let index ← r.sequence .inner
    punct "]"
    pure (subscriptNode e [chain] index (← position))
  else if (← isNext "(") || (r.typed && (← isNext "<")) then
    require e.primary
    let targs ← r.optionalTypeArguments
    let args ← r.arguments
    pure (.value (.branch .other e.start (← position) (e.node :: chain :: targs ++ args)))
  else
    let prop ← memberName
    pure (memberNode e [chain] prop)

/-- Whether an operand can start with this character. -/
def startsOperand (c : Char) : Bool :=
  isWordStart c || isDigit c || ['"', '\'', '\x60', '(', '[', '/', '+', '-', '!', '~', '<', '@',
    '#', '\\'].contains c

/-- Words that join an expression to a name or a type after it. -/
def joiningWords : List String :=
  ["as", "satisfies", "implements", "in", "instanceof"]

/-- Whether a joining word comes next, with something to join to. -/
def joinsNext : Rule Bool :=
  fits (do
    let (w, _) ← word
    require (joiningWords.contains w)
    require ((← peekChar).any fun c => isWordStart c || c == '\x7b' || c == '"'))

/-- Type arguments after an operand: of a call, or on their own where no operand follows. -/
def typeApplication (r : Rules) (e : Operand) : Rule Operand := do
  let targs ← r.typeArguments
  let stop ← position
  if ← isNext "(" then
    let args ← r.arguments
    pure (.value (.branch .other e.start (← position) (e.node :: targs ++ args)))
  else
    require (!(← peekChar).any startsOperand || (← joinsNext))
    pure (.plain (.branch .other e.start stop (e.node :: targs)))

/-- One continuation of an operand. -/
def continuation (r : Rules) (x : Context) (k : Continuations) (e : Operand) :
    Rule (Option Operand) := do
  if !e.expression then pure none
  else if x.lineEnds && (← mayEnd r.dialect true) then pure none
  else
    gap
    let here ← position
    match ← ahead with
    | '?' :: '.' :: cs =>
      if cs.head?.any isDigit then pure none
      else
        step 2
        pure (some (← r.optionalAccess e (.leaf .optionalChain here (here + 2))))
    | '.' :: _ =>
      step 1
      pure (some (memberNode e [] (← memberName)))
    | '[' :: _ =>
      step 1
      let index ← r.sequence .inner
      punct "]"
      pure (some (subscriptNode e [] index (← position)))
    | '(' :: _ =>
      if k.calls then
        let args ← r.arguments
        pure (some (.value (.branch .other e.start (← position) (e.node :: args))))
      else pure none
    | '\x60' :: _ =>
      if e.primary || e.construction then
        let t ← r.template
        pure (some (.value (.branch .other e.start (← position) [e.node, t])))
      else pure none
    | '+' :: '+' :: _ =>
      if k.updates then
        step 2
        pure (some (.plain (.branch .other e.start (here + 2) [e.node])))
      else pure none
    | '-' :: '-' :: _ =>
      if k.updates then
        step 2
        pure (some (.plain (.branch .other e.start (here + 2) [e.node])))
      else pure none
    | '!' :: cs =>
      if r.typed && !x.pending && cs.head? != some '=' then
        step 1
        pure (some (.place (.branch .other e.start (here + 1) [e.node])))
      else pure none
    | '<' :: _ =>
      if r.typed && k.calls then attempt (r.typeApplication e) else pure none
    | _ => pure none

/-- All continuations of an operand. -/
def continued (r : Rules) (x : Context) (k : Continuations) (e : Operand) : Rule Operand :=
  loop (r.continuation x k) e

/-- What may be bound or assigned. -/
def placeRule (r : Rules) : Rule Operand := do
  r.continued .inner ⟨true, false⟩ (← r.primary .inner true)

/-- An application of `new`. -/
def constructionRule (r : Rules) (x : Context) : Rule Operand := do
  let start ← keyword "new"
  let target : Rule Operand := do
    punct "."
    let _ ← keyword "target"
    pure (.value (.leaf .other start (← position)))
  let applied : Rule Operand := do
    let callee ←
      if !r.typed && (← peekWord) == "new" then r.construction x
      else r.continued x ⟨false, false⟩ (← r.primary x false)
    require callee.expression
    let targs ← r.optionalTypeArguments
    let args ←
      if ← fits (do gap; exactly "(") then r.arguments else pure []
    pure { Operand.plain (.branch .construction start (← position)
      (callee.node.withLabel .callee :: targs ++ args)) with construction := true }
  target <|> applied

/-! ## Operators -/

/-- Operators that compute and assign. -/
def assignmentOperators : List String :=
  [">>>=", "**=", "&&=", "||=", "??=", ">>=", "<<=", "+=", "-=", "*=", "/=", "%=", "^=", "&=",
    "|="]

/-- An assignment to the operand, or the operand itself. -/
def assigned (r : Rules) (x : Context) (e : Operand) : Rule Operand := do
  if x.lineEnds && (← mayEnd r.dialect true) then pure e
  else
    let cs := ((← cursor).skipTrivia true).rest
    let finish (op : String) (defaulted : Bool) : Rule Operand := do
      gap
      step op.length
      let v ← r.value x.settled
      pure { Operand.plain (.branch .other e.start (← position) [e.node, v]) with
        defaulted := defaulted }
    match cs with
    | '=' :: c :: _ =>
      if e.target && c != '=' && c != '>' then finish "=" e.pattern else pure e
    | _ =>
      match assignmentOperators.find? (fun op => op.toList.isPrefixOf cs) with
      | some op => if e.updatable && e.expression then finish op false else pure e
      | none => pure e

/-- An operand with its continuations and an assignment to it. -/
def operand (r : Rules) (x : Context) : Rule Operand := do
  let e ← r.continued x ⟨true, true⟩ (← r.primary x true)
  r.assigned x e

/-- An operator before an operand. -/
def unaryOperation (r : Rules) (x : Context) (width : Nat) : Rule Operand := do
  blank
  let start ← position
  step width
  let e ← r.unary { x with pending := true }
  require e.expression
  r.continued x ⟨true, true⟩ (.plain (.branch .other start (← position) [e.node]))

/-- What starts with an angle bracket: an element, a cast, or a function with type parameters. -/
def angleForm (r : Rules) (x : Context) : Rule Operand := do
  blank
  let start ← position
  let arrow : Rule Operand := do
    require r.typed
    r.genericArrow x start
  let element : Rule Operand := do
    require r.dialect.hasElements
    pure (.plain (← r.element))
  let cast : Rule Operand := do
    require (!r.dialect.hasElements)
    let targs ← r.typeArguments
    let e ← r.unary { x with pending := true }
    require e.expression
    pure (.plain (.branch .other start (← position) (targs ++ [e.node])))
  r.continued x ⟨true, true⟩ (← arrow <|> element <|> cast)

/-- An operand with the operators before it. -/
def unaryRule (r : Rules) (x : Context) : Rule Operand := do
  blank
  match ← ahead with
  | '+' :: '+' :: _ => r.unaryOperation x 2
  | '-' :: '-' :: _ => r.unaryOperation x 2
  | '+' :: _ => r.unaryOperation x 1
  | '-' :: _ => r.unaryOperation x 1
  | '!' :: _ => r.unaryOperation x 1
  | '~' :: _ => r.unaryOperation x 1
  | '<' :: _ => r.angleForm x
  | '#' :: _ =>
    let n ← Rule.privateName
    pure { node := n, expression := false, privateName := true }
  | _ =>
    let w ← peekWord
    if ["typeof", "void", "delete"].contains w then r.unaryOperation x w.length
    else r.operand x

/-- A binary operator with its strength and whether it groups to the right. -/
structure Operator where
  text : String
  strength : Nat
  right : Bool := false

/-- The binary operators written with punctuation, longer ones first. -/
def operators : List Operator :=
  [⟨">>>", 9, false⟩, ⟨"===", 7, false⟩, ⟨"!==", 7, false⟩, ⟨"**", 12, true⟩, ⟨"&&", 3, false⟩,
    ⟨"||", 2, false⟩, ⟨"??", 1, false⟩, ⟨"==", 7, false⟩, ⟨"!=", 7, false⟩, ⟨"<=", 8, false⟩,
    ⟨">=", 8, false⟩, ⟨"<<", 9, false⟩, ⟨">>", 9, false⟩, ⟨"<", 8, false⟩, ⟨">", 8, false⟩,
    ⟨"&", 6, false⟩, ⟨"|", 4, false⟩, ⟨"^", 5, false⟩, ⟨"+", 10, false⟩, ⟨"-", 10, false⟩,
    ⟨"*", 11, false⟩, ⟨"/", 11, false⟩, ⟨"%", 11, false⟩]

/-- The binary operator at the start of a text. -/
def operatorAt? (noIn : Bool) (cs : List Char) : Option Operator :=
  match operators.find? (fun op => op.text.toList.isPrefixOf cs) with
  | some op => some op
  | none =>
    let w := String.ofList (cs.take (wordLength cs))
    if w == "instanceof" || (w == "in" && !noIn) then some ⟨w, 8, false⟩ else none

/-- A type or a mark after a whole operation, in the typed dialects. -/
def typedTail (r : Rules) (x : Context) (e : Operand) : Rule (Option Operand) := do
  let w ← peekWord
  if w == "as" || w == "satisfies" then
    let _ ← word
    let t ← r.type x.lineEnds
    pure (some (.plain (.branch .other e.start (← position) (e.node :: t))))
  else
    match ← ahead with
    | '!' :: cs =>
      if cs.head? == some '=' then pure none
      else
        step 1
        pure (some (← r.continued x ⟨true, true⟩
          (.place (.branch .other e.start (← position) [e.node]))))
    | _ => pure none

/-- One operator and its right operand. -/
def operation (r : Rules) (x : Context) (least : Nat) (e : Operand) : Rule (Option Operand) := do
  if !e.expression && !e.privateName then pure none
  else if x.lineEnds && (← mayEnd r.dialect true) then pure none
  else
    gap
    let here ← position
    match operatorAt? x.noIn (← ahead) with
    | some op =>
      if op.strength < least || (e.privateName && op.text != "in") then pure none
      else
        step op.text.length
        let rhs ← r.binary { x with pending := !op.right }
          (if op.right then op.strength else op.strength + 1)
        require rhs.expression
        let sign := (Node.leaf (.token op.text) here (here + op.text.length)).withLabel .operator
        pure (some (.plain (.branch .binary e.start rhs.node.span.stop [e.node, sign, rhs.node])))
    | none =>
      if r.typed && !x.pending && e.expression then r.typedTail x e else pure none

/-- Operands joined by operators of at least the given strength. -/
def binaryRule (r : Rules) (x : Context) (least : Nat) : Rule Operand := do
  loop (r.operation x least) (← r.unary x)

/-! ## Conditionals -/

/-- Whether a question mark before this text asks for a choice. -/
def isConditional (typed : Bool) (cs : List Char) : Bool :=
  match cs with
  | '?' :: _ => false
  | _ =>
    let cs := if typed then cs.dropWhile isPlainSpace else cs
    match cs with
    | '.' :: r => r.head?.any isDigit
    | c :: _ => !(typed && (c == ':' || c == ')' || c == ','))
    | [] => true

/-- The cursor after the question mark of a conditional. -/
def conditionalMark? (typed : Bool) (c : Cursor) : Option Cursor :=
  let n := (c.rest.takeWhile isPlainSpace).length
  match _h : c.rest with
  | [] => none
  | _ :: _ =>
    match c.rest.drop n with
    | '?' :: r => if isConditional typed r then some (c.advance (n + 1)) else none
    | _ =>
      let b := (c.rest.takeWhile isBlank).length
      match commentLength? (c.rest.drop b) with
      | some (m + 1) => conditionalMark? typed (c.advance (b + (m + 1)))
      | _ => none
termination_by c.rest.length
decreasing_by rw [Cursor.advance_rest_length, _h, List.length_cons]; omega

/-- The branches of a conditional after its question mark. -/
def branches (r : Rules) (x : Context) : Rule (List Node) := do
  let chosen (y : Context) : Rule Node := do
    let v ← r.value y
    punct ":"
    pure v
  let yes ← chosen .inner <|> (do require r.typed; chosen { noReturnType := true })
  let no ← r.value x.settled
  pure [yes, no]

/-- A whole expression. -/
def expressionRule (r : Rules) (x : Context) : Rule Operand := do
  let e ← r.binary x 0
  require !e.privateName
  if !e.expression then pure e
  else if x.lineEnds && (← mayEnd r.dialect true) then pure e
  else
    match conditionalMark? r.typed (← cursor) with
    | none => pure e
    | some c =>
      moveTo c
      let ns ← r.branches x
      pure (.plain (.branch .other e.start (← position) (e.node :: ns)))

end WebAudit.Script.Rules
