import WebAudit.Script.Grammar.Types

/-!
# Functions and classes

A function or a class can be a declaration or part of an expression; which one is decided by what
stands around it. The rules here read the common part once and leave that decision to their callers.
-/

namespace WebAudit.Script.Rules

open Rule

/-! ## Functions -/

/-- What is read of a function after its first word. -/
structure FunctionParts where
  generator : Bool
  named : Bool
  hasBody : Bool
  nodes : List Node

/-- A function from the word `function` on. Only the typed dialects have functions without body. -/
def functionParts (r : Rules) (operatorMayFollow : Bool) : Rule FunctionParts := do
  let _ ← keyword "function"
  let generator ← optionalPunct "*"
  let name? ← attempt r.name
  let sig ← r.signature
  let nodes := name?.toList ++ sig
  if ← isNext "\x7b" then
    let body ← r.block operatorMayFollow
    pure ⟨generator, name?.isSome, true, nodes ++ [body]⟩
  else
    require (r.typed && !generator && name?.isSome)
    pure ⟨generator, true, false, nodes⟩

/-! ## Members of classes -/

/-- Words that may stand before the name of a class member. -/
def classModifierWords (d : Dialect) : List String :=
  if d.typed then
    ["declare", "public", "private", "protected", "static", "override", "readonly", "abstract",
      "accessor", "async", "get", "set"]
  else ["static", "async", "get", "set"]

/-- A modifier of a class member: a name follows it on the same line. -/
def classModifier (r : Rules) : Rule String := do
  let (w, _) ← word
  require ((classModifierWords r.dialect).contains w)
  require !(← mayEnd r.dialect false)
  match ← peekChar with
  | some c => require (startsPropertyName c || c == '*')
  | none => fail
  pure w

/-- The place of a modifier in the order that modifiers have to keep. -/
def modifierRank (w : String) : Nat :=
  if ["declare", "public", "private", "protected"].contains w then 0
  else if ["static", "abstract", "accessor"].contains w then 1
  else if w == "override" then 2
  else if w == "readonly" then 3
  else if w == "async" then 4
  else 5

/-- Whether modifiers stand in order, each once. -/
def modifiersInOrder : List String → Bool
  | [] => true
  | [_] => true
  | a :: b :: rest =>
    a != b && (modifierRank a < modifierRank b || (modifierRank a == 0 && modifierRank b == 0)
      || (a == "readonly" && b == "abstract")) && modifiersInOrder (b :: rest)

/-- Whether these modifiers belong to methods only. -/
def methodOnly (ws : List String) : Bool :=
  ws.any (fun w => ["async", "get", "set"].contains w)

/-- The end of a class member without body. -/
def memberEnd (r : Rules) (afterOperand : Bool) : Rule Unit := do
  if r.typed && (← isNext ",") then punct "," else semicolon r.dialect afterOperand

/-- A method or a field, after its decorators. -/
def classMember (r : Rules) : Rule (List Node) := do
  let mods ← many r.classModifier
  require (modifiersInOrder mods)
  let generator ← optionalPunct "*"
  require !(generator && (mods.contains "get" || mods.contains "set"))
  let index : Rule (List Node) := do
    require (r.typed && !generator && mods.all (· == "readonly") && (← isNext "["))
    let ns ← r.indexSignature
    r.memberEnd false
    pure ns
  let named : Rule (List Node) := do
    let n ← r.propertyName
    let marked ← if r.typed then
        (do pure ((← optionalPunct "?") || (← optionalPunct "!"))) else pure false
    if (← isNext "(") || (r.typed && (← isNext "<")) then
      let sig ← r.signature
      if ← isNext "\x7b" then
        let body ← r.block false
        let _ ← optionalPunct ";"
        pure (n.nodes ++ sig ++ [body])
      else
        require r.typed
        r.memberEnd false
        pure (n.nodes ++ sig)
    else
      require (!generator && !methodOnly mods && (r.typed || !marked))
      let ann ← r.optionalAnnotation true
      let init ← r.optionalDefault .statement
      r.memberEnd (!init.isEmpty)
      pure (n.nodes ++ ann ++ init)
  index <|> named

/-- A block of a class that runs once. -/
def staticBlock (r : Rules) : Rule (List Node) := do
  let _ ← keyword "static"
  require !(← mayEnd r.dialect false)
  require (← isNext "\x7b")
  pure [← r.block false]

/-- The members of a class in braces. -/
def classBody (r : Rules) : Rule (List Node) := do
  punct "\x7b"
  let members ← loop (fun acc => do
    if ← isNext "\x7d" then pure none
    else if ← optionalPunct ";" then pure (some acc)
    else
      let decs ← r.decorators
      let m ← r.staticBlock <|> r.classMember
      pure (some ((decs ++ m) :: acc))) []
  punct "\x7d"
  pure members.reverse.flatten

/-! ## Classes -/

/-- What a class extends and implements. -/
def heritage (r : Rules) : Rule (List Node) := do
  let bases ←
    if ← optionalKeyword "extends" then
      if r.typed then
        pure (← commaList (do
          let n ← r.value .inner
          pure (n :: (← r.optionalTypeArguments)))).flatten
      else pure [← r.value .inner]
    else pure []
  let interfaces ←
    if r.typed && (← peekWord) == "implements" then
      let _ ← keyword "implements"
      pure (← commaList (r.type false)).flatten
    else pure []
  pure (bases ++ interfaces)

/-- A class from the word `class` on: whether it has a name, and its nodes. -/
def classParts (r : Rules) : Rule (Bool × List Node) := do
  let _ ← keyword "class"
  let name? ← attempt (do
    let w ← peekWord
    require (w != "extends" && !(r.typed && w == "implements"))
    r.name)
  let tps ← if r.typed && (← isNext "<") then r.typeParameters else pure []
  let bases ← r.heritage
  let body ← r.classBody
  pure (name?.isSome, name?.toList ++ tps ++ bases ++ body)

end WebAudit.Script.Rules
