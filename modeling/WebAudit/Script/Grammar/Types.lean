import WebAudit.Script.Grammar.Rules

/-!
# Types, parameters and signatures

The grammar of type annotations, and the parts of functions that hold them. An analysis finds
nothing in a type but the numbers and expressions inside it, so a type is read to the list of those
nodes and not to a tree of its own.
-/

namespace WebAudit.Script.Rules

open Rule

/-! ## Small parts -/

/-- Whether a word comes next. -/
def isWordNext : Rule Bool := do
  pure (!(← peekWord).isEmpty)

/-- Types in angle brackets. -/
def typeArguments (r : Rules) : Rule (List Node) := do
  punct "<"
  let ts ← commaList (r.type false)
  let _ ← optionalPunct ","
  punct ">"
  pure ts.flatten

/-- Types in angle brackets, where they may be left out. -/
def optionalTypeArguments (r : Rules) : Rule (List Node) := do
  if r.typed && (← isNext "<") then
    pure ((← attempt r.typeArguments).getD [])
  else pure []

/-- A type parameter with its bound and its default. -/
def typeParameter (r : Rules) : Rule (List Node) := do
  let _ ← attempt (do let _ ← keyword "const"; require (← isWordNext))
  let _ ← word
  let bound ←
    if (← optionalKeyword "extends") || (← optionalPunct ":") then r.type false else pure []
  let default ← if ← optionalPunct "=" then r.type false else pure []
  pure (bound ++ default)

/-- Type parameters in angle brackets. -/
def typeParameters (r : Rules) : Rule (List Node) := do
  punct "<"
  let ps ← commaList r.typeParameter
  let _ ← optionalPunct ","
  punct ">"
  pure ps.flatten

/-- A colon and a type. -/
def typeAnnotation (r : Rules) (lineEnds : Bool) : Rule (List Node) := do
  punct ":"
  r.type lineEnds

/-- A type annotation where the dialect has types and a colon follows. -/
def optionalAnnotation (r : Rules) (lineEnds : Bool) : Rule (List Node) := do
  if r.typed && (← isNext ":") then r.typeAnnotation lineEnds else pure []

/-- What a decorator applies: a dotted name, perhaps with arguments. -/
def decoratorBody (r : Rules) : Rule (List Node) := do
  let _ ← r.name
  let _ ← many (do punct "."; word)
  let targs ← r.optionalTypeArguments
  let args ← if ← isNext "(" then r.arguments else pure []
  pure (targs ++ args)

/-- A decorator. -/
def decorator (r : Rules) : Rule (List Node) := do
  punct "@"
  if r.typed && (← isNext "(") then
    punct "("
    let ns ← r.decoratorBody
    punct ")"
    pure ns
  else r.decoratorBody

/-- Any number of decorators. -/
def decorators (r : Rules) : Rule (List Node) := do
  pure (← many r.decorator).flatten

/-- A property's name: the word if it is one, and its nodes. -/
structure PropertyName where
  word? : Option String
  nodes : List Node

/-- Whether a property's name can start with this character. -/
def startsPropertyName (c : Char) : Bool :=
  isWordStart c || isDigit c || ['"', '\'', '[', '#', '.', '\\'].contains c

/-- A property's name. -/
def propertyName (r : Rules) : Rule PropertyName := do
  match ← peekChar with
  | none => fail
  | some c =>
    if c == '[' then
      punct "["
      let n ← r.value .inner
      punct "]"
      pure ⟨none, [n]⟩
    else if c == '"' || c == '\'' then
      pure ⟨none, [← string]⟩
    else if c == '#' then
      pure ⟨none, [← Rule.privateName]⟩
    else if isDigit c || c == '.' then
      pure ⟨none, [← number]⟩
    else
      let (w, start) ← word
      pure ⟨some w, [.leaf .propertyName start (← position)]⟩

/-! ## Parameters and signatures -/

/-- Words that may stand before a parameter's name. -/
def parameterModifiers : List String :=
  ["public", "private", "protected", "override", "readonly"]

/-- One modifier before a parameter's name. -/
def parameterModifier : Rule Unit := do
  let (w, _) ← word
  require (parameterModifiers.contains w)
  match ← peekChar with
  | some c => require (isWordStart c || c == '\x7b' || c == '[')
  | none => fail

/-- A default value. -/
def optionalDefault (r : Rules) (x : Context) : Rule (List Node) := do
  if (← isNext "=") && !(← isNext "==") && !(← isNext "=>") then
    punct "="
    pure [← r.value x]
  else pure []

/-- A parameter of a function. -/
def parameter (r : Rules) : Rule (List Node) := do
  let decs ← if r.typed then r.decorators else pure []
  let _ ← if r.typed then many parameterModifier else pure []
  let _ ← optionalPunct "..."
  let p ← r.place
  require (p.pattern || (r.typed && p.receiver))
  let _ ← if r.typed then optionalPunct "?" else pure false
  let ann ← r.optionalAnnotation false
  let default ← r.optionalDefault .inner
  pure (decs ++ p.node :: ann ++ default)

/-- Parameters in parentheses. -/
def parameters (r : Rules) : Rule (List Node) := do
  punct "("
  pure (← closedList r.parameter ")").flatten

/-- A statement about a parameter in place of a return type. -/
def typePredicate (r : Rules) (lineEnds : Bool) : Rule (List Node) := do
  let _ ← word
  let _ ← keyword "is"
  r.type lineEnds

/-- A claim that a parameter holds, perhaps at a type. -/
def assertion (r : Rules) (lineEnds : Bool) : Rule (List Node) := do
  let _ ← keyword "asserts"
  r.typePredicate lineEnds <|> (do let _ ← word; pure [])

/-- What may stand in place of a return type. -/
def returnedType (r : Rules) (lineEnds : Bool) : Rule (List Node) :=
  r.assertion lineEnds <|> r.typePredicate lineEnds <|> r.type lineEnds

/-- A colon and a return type. -/
def returnType (r : Rules) (lineEnds : Bool) : Rule (List Node) := do
  punct ":"
  r.returnedType lineEnds

/-- Type parameters, parameters and return type. -/
def signature (r : Rules) : Rule (List Node) := do
  let tps ← if r.typed && (← isNext "<") then r.typeParameters else pure []
  let ps ← r.parameters
  let ret ← if r.typed && (← isNext ":") then r.returnType true else pure []
  pure (tps ++ ps ++ ret)

/-! ## Members of object types -/

/-- An index signature or the clause of a mapped type. -/
def indexSignature (r : Rules) : Rule (List Node) := do
  let _ ← attempt (do
    let _ ← attempt (punct "-" <|> punct "+")
    keyword "readonly")
  punct "["
  let _ ← word
  let key ←
    if ← optionalKeyword "in" then
      let t ← r.type false
      let renamed ← if ← optionalKeyword "as" then r.type false else pure []
      pure (t ++ renamed)
    else r.typeAnnotation false
  punct "]"
  punct "-?:" <|> punct "+?:" <|> punct "?:" <|> punct ":"
  let t ← r.type true
  pure (key ++ t)

/-- Words that may stand before a member's name in a type. -/
def memberModifiers : List String :=
  ["public", "private", "protected", "static", "override", "readonly", "async", "get", "set"]

/-- One of these words, if a property's name follows it. -/
def modifierOf (ws : List String) : Rule String := do
  let (w, _) ← word
  require (ws.contains w)
  match ← peekChar with
  | some c => require (startsPropertyName c || c == '*')
  | none => fail
  pure w

/-- A member of an object type. -/
def typeMember (r : Rules) : Rule (List Node) := do
  if (← isNext "(") || (← isNext "<") then r.signature
  else
    let construct : Rule (List Node) := do
      let _ ← optionalKeyword "abstract"
      let _ ← keyword "new"
      let tps ← if ← isNext "<" then r.typeParameters else pure []
      let ps ← r.parameters
      let ann ← r.optionalAnnotation true
      pure (tps ++ ps ++ ann)
    let property : Rule (List Node) := do
      let _ ← many (modifierOf memberModifiers)
      let _ ← optionalPunct "*"
      let n ← r.propertyName
      let _ ← optionalPunct "?"
      if (← isNext "(") || (← isNext "<") then
        pure (n.nodes ++ (← r.signature))
      else
        pure (n.nodes ++ (← r.optionalAnnotation true))
    construct <|> r.indexSignature <|> property

/-- An object type. -/
def objectType (r : Rules) : Rule (List Node) := do
  punct "\x7b"
  let _ ← attempt (exactly "|")
  let _ ← attempt (punct "," <|> punct ";")
  let close : Rule Unit := punct "\x7d" <|> punct "|\x7d"
  let members ← loop (fun acc => do
    if ← fits close then pure none
    else
      let m ← r.typeMember
      if !(← optionalPunct ",") then
        require ((← attempt (semicolon r.dialect false)).isSome || (← fits close))
      pure (some (m :: acc))) []
  close
  pure members.reverse.flatten

/-! ## Types -/

/-- A member of a tuple type: a named, optional or rest member, or a plain type. -/
def tupleMember (r : Rules) : Rule (List Node) := do
  let named : Rule (List Node) := do
    let _ ← word
    let _ ← optionalPunct "?"
    r.typeAnnotation false
  let plain : Rule (List Node) := do
    let t ← r.type false
    let _ ← optionalPunct "?"
    pure t
  let _ ← optionalPunct "..."
  named <|> plain

/-- A template in a type. -/
def templateType (r : Rules) : Rule (List Node) := do
  punct "\x60"
  let parts ← loop (fun acc => do
    match ← ahead with
    | [] => fail
    | '\x60' :: _ => pure none
    | '\\' :: _ => fail
    | '$' :: '\x7b' :: _ =>
      step 2
      let t ← r.type false
      punct "\x7d"
      pure (some (t :: acc))
    | _ =>
      step 1
      pure (some acc)) []
  exactly "\x60"
  pure parts.reverse.flatten

/-- The type of a name: a dotted path with indices and calls. -/
def typeQuery (r : Rules) (lineEnds : Bool) : Rule (List Node) := do
  let _ ← keyword "typeof"
  let (w, _) ← word
  let args ← if w == "import" then r.arguments else pure []
  let path ← loop (fun acc => do
    if lineEnds && (← mayEnd r.dialect false) then pure none
    else if (← optionalPunct ".") || (← optionalPunct "?.") then
      let _ ← (do let _ ← Rule.privateName; pure ()) <|> (do let _ ← word; pure ())
      pure (some acc)
    else if ← isNext "[" then
      attempt (do
        punct "["
        let n ← string <|> number <|> (do let (_, s) ← word; pure (.leaf .other s (← position)))
        punct "]"
        pure (n :: acc))
    else if ← isNext "(" then
      pure (some ((← r.arguments).reverse ++ acc))
    else pure none) []
  let targs ← r.optionalTypeArguments
  pure (args ++ path.reverse ++ targs)

/-- A function type or a type in parentheses. -/
def parenthesizedType (r : Rules) (lineEnds : Bool) : Rule (List Node) := do
  let function : Rule (List Node) := do
    let tps ← if ← isNext "<" then r.typeParameters else pure []
    let ps ← r.parameters
    punct "=>"
    let ret ← r.returnedType lineEnds
    pure (tps ++ ps ++ ret)
  let grouped : Rule (List Node) := do
    punct "("
    let t ← r.type false
    punct ")"
    pure t
  function <|> grouped

/-- The type of a constructor. -/
def constructorType (r : Rules) (lineEnds : Bool) : Rule (List Node) := do
  let _ ← attempt (keyword "abstract")
  let _ ← keyword "new"
  let tps ← if ← isNext "<" then r.typeParameters else pure []
  let ps ← r.parameters
  punct "=>"
  let t ← r.type lineEnds
  pure (tps ++ ps ++ t)

/-- A type that starts with a word. -/
def wordType (r : Rules) (lineEnds : Bool) : Rule (List Node) := do
  let w ← peekWord
  if w == "new" then r.constructorType lineEnds
  else if w == "typeof" then r.typeQuery lineEnds
  else if w == "readonly" || w == "keyof" then
    let _ ← word
    r.type lineEnds
  else if w == "infer" then
    let _ ← word
    let _ ← word
    if ← isNext "extends" then
      pure ((← attempt (do let _ ← keyword "extends"; r.type lineEnds)).getD [])
    else pure []
  else
    let named : Rule (List Node) := do
      let (w, _) ← word
      let _ ← if w == "unique" then optionalKeyword "symbol" else pure false
      let args ← if w == "import" then r.arguments else pure []
      let _ ← many (do punct "."; word)
      let targs ← r.optionalTypeArguments
      pure (args ++ targs)
    if w == "abstract" then r.constructorType lineEnds <|> named else named

/-- A type without operators between types. -/
def typeAtom (r : Rules) (lineEnds : Bool) : Rule (List Node) := do
  match ← peekChar with
  | none => fail
  | some c =>
    if c == '(' || c == '<' then r.parenthesizedType lineEnds
    else if c == '\x7b' then r.objectType
    else if c == '[' then
      punct "["
      pure (← closedList r.tupleMember "]").flatten
    else if c == '\x60' then r.templateType
    else if c == '"' || c == '\'' then pure [← string]
    else if c == '-' || c == '+' then
      blank
      step 1
      pure [← number]
    else if isDigit c || c == '.' then pure [← number]
    else if c == '*' then
      punct "*"
      pure []
    else if c == '?' then
      punct "?"
      r.type lineEnds
    else r.wordType lineEnds

/-- A type with its array marks and index lookups. -/
def typeUnit (r : Rules) (lineEnds : Bool) : Rule (List Node) := do
  let first ← r.typeAtom lineEnds
  loop (fun acc => do
    if lineEnds && (← mayEnd r.dialect false) then pure none
    else if ← optionalPunct "[" then
      if ← optionalPunct "]" then pure (some acc)
      else
        let t ← r.type false
        punct "]"
        pure (some (acc ++ t))
    else pure none) first

/-- A type: alternatives and intersections of units, and conditionals. -/
def typeRule (r : Rules) (lineEnds : Bool) : Rule (List Node) := do
  let _ ← attempt (punct "|" <|> punct "&")
  let first ← r.typeUnit lineEnds
  loop (fun acc => do
    if lineEnds && (← mayEnd r.dialect false) then pure none
    else if (← isNext "|") && !(← isNext "|\x7d") then
      punct "|"
      pure (some (acc ++ (← r.typeUnit lineEnds)))
    else if ← optionalPunct "&" then
      pure (some (acc ++ (← r.typeUnit lineEnds)))
    else if (← peekWord) == "extends" then
      attempt (do
        let _ ← keyword "extends"
        let t ← r.type false
        punct "?"
        let yes ← r.type false
        punct ":"
        let no ← r.type lineEnds
        pure (acc ++ t ++ yes ++ no))
    else pure none) first

end WebAudit.Script.Rules
