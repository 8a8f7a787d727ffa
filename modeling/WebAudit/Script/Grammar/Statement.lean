import WebAudit.Script.Grammar.Expression

/-!
# Statements

Statements, declarations and whole scripts. A brace, a function or a class at the start of a
statement is first read as a block or a declaration; if what follows could only go on an expression,
the statement is read again as one.
-/

namespace WebAudit.Script.Rules

open Rule

/-! ## Small parts -/

/-- Statements up to where `stop` fits. -/
def statementsUntil (r : Rules) (stop : Rule Bool) : Rule (List Node) := do
  let ss ← loop (fun acc => do
    if ← stop then pure none else pure (some ((← r.statement) :: acc))) []
  pure ss.reverse

/-- Statements in braces. A left-out semicolon after the closing brace belongs to the block. -/
def blockRule (r : Rules) (operatorMayFollow : Bool) : Rule Node := do
  blank
  let start ← position
  exactly "\x7b"
  let ss ← r.statementsUntil (isNext "\x7d")
  punct "\x7d"
  closingSemicolon r.dialect operatorMayFollow
  pure (.branch .other start (← position) ss)

/-- An expression in parentheses, as the head of a statement. -/
def headExpression (r : Rules) : Rule (List Node) := do
  punct "("
  let ns ← r.sequence .inner
  let ann ← if ns.length == 1 then r.optionalAnnotation false else pure []
  punct ")"
  pure (ns ++ ann)

/-- What a declaration binds: a name or a destructuring pattern. -/
def binding (r : Rules) : Rule Node := do
  match ← peekChar with
  | some '[' =>
    let e ← r.array
    require e.pattern
    pure e.node
  | some '\x7b' =>
    let e ← r.object
    require e.pattern
    pure e.node
  | _ => r.name

/-- One variable of a declaration: its nodes and whether it has a value. -/
def declarator (r : Rules) (x : Context) : Rule (List Node × Bool) := do
  let b ← r.binding
  let _ ← if r.typed then optionalPunct "!" else pure false
  let ann ← r.optionalAnnotation x.lineEnds
  let init ← r.optionalDefault x
  pure (b :: ann ++ init, !init.isEmpty)

/-- The variables of a declaration and the semicolon after them. -/
def declarators (r : Rules) : Rule (List Node) := do
  let ds ← commaList (r.declarator .statement)
  semicolon r.dialect ((ds.getLast?.map (·.2)).getD false)
  pure (ds.flatMap (·.1))

/-- Whether what follows a block or a declaration could only go on an expression. -/
def goesOn (r : Rules) : Rule Bool := do
  if ← mayEnd r.dialect true then pure false
  else
    let cs := ((← cursor).skipTrivia true).rest
    match cs with
    | [] => pure false
    | '.' :: c :: _ => pure !(isDigit c)
    | '<' :: c :: _ => pure (c == '=' || c == '<')
    | '!' :: c :: _ => pure (c == '=')
    | c :: _ =>
      if ['?', ',', '*', '%', '&', '|', '^', '>', '='].contains c then pure true
      else
        let w := String.ofList (cs.take (wordLength cs))
        pure (w == "in" || w == "instanceof")

/-- An expression as a statement. -/
def expressionStatement (r : Rules) : Rule (List Node) := do
  let ns ← r.sequence .statement
  semicolon r.dialect true
  pure ns

/-! ## Functions and classes as declarations -/

/-- A function as a declaration, with its first word still unread. Without a name it is none. -/
def functionDeclaration (r : Rules) (operatorMayFollow : Bool) : Rule Node := do
  blank
  let start ← position
  let isAsync ← optionalKeyword "async"
  let stop := start + 5
  let f ← r.functionParts operatorMayFollow
  require f.named
  let mark := if isAsync then [Node.leaf (.token "async") start stop] else []
  if f.hasBody then
    let kind := if f.generator then Kind.generatorDeclaration else Kind.functionDeclaration
    pure (.branch kind start (← position) (mark ++ f.nodes))
  else
    semicolon r.dialect false
    pure (.branch .other start (← position) (mark ++ f.nodes))

/-- A class as a declaration, with its decorators. -/
def classDeclaration (r : Rules) : Rule Node := do
  blank
  let start ← position
  let decs ← r.decorators
  let _ ← if r.typed then optionalKeyword "abstract" else pure false
  let (named, ns) ← r.classParts
  require named
  pure (.branch .other start (← position) (decs ++ ns))

/-- A declaration, unless what follows makes it an expression. -/
def settledDeclaration (r : Rules) (d : Rule Node) : Rule Node := do
  let n ← d
  require !(← r.goesOn)
  pure n

/-- Whether a function starts here, perhaps an asynchronous one. -/
def startsFunction (r : Rules) : Rule Bool :=
  fits (do
    let (w, _) ← word
    if w == "async" then
      require !(← mayEnd r.dialect true)
      let _ ← keyword "function"
    else require (w == "function"))

/-! ## Declarations of the typed dialects -/

/-- A type alias. -/
def typeAlias (r : Rules) : Rule (List Node) := do
  let _ ← keyword "type"
  require !(← mayEnd r.dialect true)
  let _ ← word
  let tps ← if ← isNext "<" then r.typeParameters else pure []
  punct "="
  let t ← r.type true
  semicolon r.dialect false
  pure (tps ++ t)

/-- An interface. -/
def interface (r : Rules) : Rule (List Node) := do
  let _ ← keyword "interface"
  let _ ← word
  let tps ← if ← isNext "<" then r.typeParameters else pure []
  let bases ←
    if ← optionalKeyword "extends" then
      pure (← commaList (r.type false)).flatten
    else pure []
  let body ← r.objectType
  pure (tps ++ bases ++ body)

/-- An enumeration. -/
def enumeration (r : Rules) : Rule (List Node) := do
  let _ ← optionalKeyword "const"
  let _ ← keyword "enum"
  let _ ← word
  punct "\x7b"
  let ms ← closedList (do
    let n ← r.propertyName
    let v ← r.optionalDefault .inner
    pure (n.nodes ++ v)) "\x7d"
  pure ms.flatten

/-- A namespace or a module. -/
def namespaceRule (r : Rules) : Rule (List Node) := do
  let (w, _) ← word
  require (w == "namespace" || w == "module")
  require !(← mayEnd r.dialect true)
  match ← attempt string with
  | some _ => pure ()
  | none =>
    let _ ← word
    let _ ← many (do punct "."; word)
    pure ()
  if ← isNext "\x7b" then pure [← r.block false] else pure []

/-- Words that start a declaration in the typed dialects. -/
def typedDeclarationWords : List String :=
  ["abstract", "declare", "enum", "import", "interface", "module", "namespace", "type"]

/-- Words that start a declaration in every dialect. -/
def declarationWords : List String :=
  ["async", "class", "const", "function", "let", "var"]

/-- Whether a declaration can start with this word. -/
def isDeclarationWord (r : Rules) (w : String) : Bool :=
  declarationWords.contains w || (r.typed && typedDeclarationWords.contains w)

/-- A declaration of something defined elsewhere. -/
def ambient (r : Rules) : Rule (List Node) := do
  let _ ← keyword "declare"
  require !(← mayEnd r.dialect true)
  let w ← peekWord
  if w == "global" then
    let _ ← word
    pure [← r.block false]
  else
    require (r.isDeclarationWord w || (← isNext "@"))
    pure [← r.statement]

/-! ## Modules -/

/-- The name of something imported or exported: a word or a string. -/
def exportedName : Rule Bool := do
  match ← attempt string with
  | some _ => pure false
  | none =>
    let _ ← word
    pure true

/-- An item of an import or export list. -/
def specifier (r : Rules) (importing : Bool) : Rule Unit := do
  let plain : Rule Unit := do
    let w ← peekWord
    let isWord ← exportedName
    if ← optionalKeyword "as" then
      if importing then
        let _ ← r.name
      else
        let _ ← exportedName
    else require (!importing || (isWord && r.dialect.isName w))
  let marked : Rule Unit := do
    require r.typed
    let (w, _) ← word
    require (w == "type" || w == "typeof")
    plain
    require ((← isNext ",") || (← isNext "\x7d"))
  marked <|> plain

/-- A list of imported or exported names in braces. -/
def specifiers (r : Rules) (importing : Bool) : Rule Unit := do
  punct "\x7b"
  let _ ← closedList (r.specifier importing) "\x7d"

/-- The module that something comes from. -/
def fromClause : Rule Unit := do
  let _ ← keyword "from"
  let _ ← string

/-- All names of a module under one name. -/
def namespaceImport (r : Rules) : Rule Unit := do
  punct "*"
  let _ ← keyword "as"
  let _ ← r.name

/-- Attributes of an import. -/
def importAttributes (r : Rules) : Rule (List Node) := do
  if !(← mayEnd r.dialect false) && (← peekWord) == "with" then
    let _ ← keyword "with"
    let e ← r.object
    require e.expression
    pure [e.node]
  else pure []

/-- What an import brings in, up to the module's name. -/
def importClause (r : Rules) : Rule Unit := do
  let listed : Rule Unit := r.namespaceImport <|> r.specifiers true
  let named : Rule Unit := do
    let _ ← r.name
    if ← optionalPunct "," then listed
  listed <|> named
  fromClause

/-- A name bound to another module or to a dotted name, in the typed dialects. -/
def importAlias (r : Rules) : Rule Unit := do
  require r.typed
  let _ ← r.name
  punct "="
  let required : Rule Unit := do
    let _ ← keyword "require"
    punct "("
    let _ ← string
    punct ")"
  let dotted : Rule Unit := do
    let _ ← word
    let _ ← many (do punct "."; word)
  required <|> dotted

/-- An import, from its first word on. -/
def importStatement (r : Rules) : Rule (List Node) := do
  let _ ← keyword "import"
  let source : Rule Unit := do
    let _ ← string
  let body : Rule Unit := source <|> r.importAlias <|> r.importClause
  let marked : Rule Unit := do
    require r.typed
    let (w, _) ← word
    require (w == "type" || w == "typeof")
    body
  body <|> marked
  let attrs ← r.importAttributes
  semicolon r.dialect false
  pure attrs

/-- What follows `export default`. -/
def defaultExport (r : Rules) : Rule (List Node) := do
  let declared : Rule (List Node) := do
    let w ← peekWord
    if ← r.startsFunction then
      pure [← r.settledDeclaration (r.functionDeclaration true)]
    else if w == "class" || (r.typed && w == "abstract") || (← isNext "@") then
      pure [← r.settledDeclaration r.classDeclaration]
    else
      require (r.isDeclarationWord w && w != "async" && w != "import")
      pure [← r.statement]
  let value : Rule (List Node) := do
    let n ← r.value .statement
    semicolon r.dialect true
    pure [n]
  declared <|> value

/-- An export, from its first word on. -/
def exportStatement (r : Rules) : Rule (List Node) := do
  let _ ← keyword "export"
  let everything : Rule (List Node) := do
    punct "*"
    if ← optionalKeyword "as" then
      let _ ← exportedName
    fromClause
    semicolon r.dialect false
    pure []
  let listed : Rule (List Node) := do
    if r.typed then
      let _ ← optionalKeyword "type"
    r.specifiers false
    let _ ← attempt fromClause
    semicolon r.dialect false
    pure []
  let default : Rule (List Node) := do
    let _ ← keyword "default"
    r.defaultExport
  let assigned : Rule (List Node) := do
    require r.typed
    punct "="
    let n ← r.value .statement
    semicolon r.dialect true
    pure [n]
  let named : Rule (List Node) := do
    require r.typed
    let _ ← keyword "as"
    let _ ← keyword "namespace"
    let _ ← word
    semicolon r.dialect false
    pure []
  let declared : Rule (List Node) := do
    if ← r.startsFunction then pure [← r.functionDeclaration false]
    else
      let w ← peekWord
      require ((r.isDeclarationWord w && w != "async") || (← isNext "@"))
      pure [← r.statement]
  everything <|> listed <|> default <|> assigned <|> named <|> declared

/-! ## Loops -/

/-- The word between the parts of a loop over values. -/
def loopWord : Rule Unit := do
  let (w, _) ← word
  require (w == "in" || w == "of")

/-- The head of a loop over values, after its opening parenthesis. -/
def eachHead (r : Rules) : Rule (List Node) := do
  let subject : Rule (List Node) := do
    loopWord
    let ns ← r.sequence .inner
    punct ")"
    pure ns
  let declared : Rule (List Node) := do
    let _ ← keyword "var"
    let b ← r.binding
    let init ← r.optionalDefault { noIn := true }
    pure (b :: init ++ (← subject))
  let lexical : Rule (List Node) := do
    let (w, _) ← word
    require (w == "let" || w == "const")
    let b ← r.binding
    pure (b :: (← subject))
  let place : Rule (List Node) := do
    let e ← r.place
    require e.target
    pure (e.node :: (← subject))
  declared <|> lexical <|> place

/-- The head of a counting loop, after its opening parenthesis. -/
def countHead (r : Rules) : Rule (List Node) := do
  let declared : Rule (List Node) := do
    let (w, _) ← word
    require (w == "var" || w == "let" || w == "const")
    r.declarators
  let clause : Rule (List Node) := do
    if ← optionalPunct ";" then pure []
    else
      let ns ← r.sequence .inner
      punct ";"
      pure ns
  let init ← declared <|> clause
  let test ← clause
  let step ← if ← isNext ")" then pure [] else r.sequence .inner
  punct ")"
  pure (init ++ test ++ step)

/-- A `for` loop. -/
def forStatement (r : Rules) : Rule (List Node) := do
  let _ ← keyword "for"
  let awaits ← optionalKeyword "await"
  punct "("
  let head ← r.eachHead <|> (do require !awaits; r.countHead)
  pure (head ++ [← r.statement])

/-! ## Other statements -/

/-- A `switch` statement. -/
def switchStatement (r : Rules) : Rule (List Node) := do
  let _ ← keyword "switch"
  let value ← r.headExpression
  punct "\x7b"
  let stop : Rule Bool := do
    let w ← peekWord
    pure (w == "case" || w == "default" || (← isNext "\x7d"))
  let cases ← loop (fun acc => do
    if ← isNext "\x7d" then pure none
    else
      let (w, _) ← word
      let test ←
        if w == "case" then r.sequence .inner
        else do require (w == "default"); pure []
      punct ":"
      let body ← r.statementsUntil stop
      pure (some ((test ++ body) :: acc))) []
  punct "\x7d"
  pure (value ++ cases.reverse.flatten)

/-- A `try` statement. -/
def tryStatement (r : Rules) : Rule (List Node) := do
  let _ ← keyword "try"
  let body ← r.block false
  let handler ←
    if ← optionalKeyword "catch" then
      let param ←
        if ← optionalPunct "(" then
          let b ← r.binding
          let ann ← r.optionalAnnotation false
          punct ")"
          pure (b :: ann)
        else pure []
      pure (param ++ [← r.block false])
    else pure []
  let finalizer ← if ← optionalKeyword "finally" then pure [← r.block false] else pure []
  pure (body :: handler ++ finalizer)

/-- An `if` statement. -/
def ifStatement (r : Rules) : Rule (List Node) := do
  let _ ← keyword "if"
  let test ← r.headExpression
  let yes ← r.statement
  let no ← if ← optionalKeyword "else" then pure [← r.statement] else pure []
  pure (test ++ yes :: no)

/-- A jump that may name a label. -/
def jumpStatement (r : Rules) : Rule (List Node) := do
  let _ ← word
  if ← mayEnd r.dialect false then
    semicolon r.dialect false
    pure []
  else
    let label ← attempt r.name
    semicolon r.dialect false
    pure label.toList

/-- A `return` statement. -/
def returnStatement (r : Rules) : Rule (List Node) := do
  let _ ← word
  if (← mayEnd r.dialect false) || (← isNext ";") then
    semicolon r.dialect false
    pure []
  else r.expressionStatement

/-- A `do` statement. -/
def doStatement (r : Rules) : Rule (List Node) := do
  let _ ← keyword "do"
  let body ← r.statement
  let _ ← keyword "while"
  let test ← r.headExpression
  let _ ← attempt (semicolon r.dialect false)
  pure (body :: test)

/-- Whether a declaration follows the word `let`, which can also be a name. -/
def startsLet (r : Rules) : Rule Bool :=
  fits (do
    let _ ← keyword "let"
    require !(← mayEnd r.dialect true)
    match ← peekChar with
    | some '[' => pure ()
    | some '\x7b' => pure ()
    | _ =>
      let (w, _) ← word
      require (r.dialect.isName w && w != "in" && w != "instanceof"))

/-- Words that start a statement and can be nothing else there. -/
def statementWords (d : Dialect) : List String :=
  ["break", "class", "const", "continue", "debugger", "do", "export", "for", "function", "if",
    "import", "return", "switch", "throw", "try", "var", "while", "with"]
    ++ (if d.typed then ["abstract", "enum", "interface"] else [])

/-- A statement that starts with a word, by that word. -/
def wordStatement (r : Rules) (w : String) : Rule (List Node) := do
  if w == "if" then r.ifStatement
  else if w == "for" then r.forStatement
  else if w == "while" || w == "with" then
    let _ ← word
    let test ← r.headExpression
    pure (test ++ [← r.statement])
  else if w == "do" then r.doStatement
  else if w == "switch" then r.switchStatement
  else if w == "try" then r.tryStatement
  else if w == "break" || w == "continue" then r.jumpStatement
  else if w == "return" then r.returnStatement
  else if w == "throw" then
    let _ ← word
    r.expressionStatement
  else if w == "debugger" then
    let _ ← word
    semicolon r.dialect false
    pure []
  else if w == "var" then
    let _ ← word
    r.declarators
  else if w == "const" then
    let constant : Rule (List Node) := do
      let _ ← word
      r.declarators
    if r.typed then r.enumeration <|> constant else constant
  else if w == "import" then
    if ← fits (do let _ ← word; punct "(" <|> punct ".") then r.expressionStatement
    else r.importStatement
  else if w == "export" then r.exportStatement <|> r.expressionStatement
  else if w == "enum" then r.enumeration
  else r.interface

/-- A statement that starts with a word that is also a name. -/
def softStatement (r : Rules) (w : String) : Rule (List Node) := do
  let labeled ← fits (do let _ ← word; punct ":")
  if labeled && r.dialect.isName w then
    let _ ← word
    punct ":"
    pure [← r.statement]
  else if w == "let" && (← r.startsLet) then
    let _ ← word
    r.declarators
  else if !r.typed then r.expressionStatement
  else if w == "type" then r.typeAlias <|> r.expressionStatement
  else if w == "namespace" || w == "module" then r.namespaceRule <|> r.expressionStatement
  else if w == "declare" then r.ambient <|> r.expressionStatement
  else r.expressionStatement

/-- A block, or an expression that starts with a brace. -/
def braceStatement (r : Rules) : Rule (List Node) :=
  (do pure [← r.settledDeclaration (r.block false)]) <|> r.expressionStatement

/-- A class or an export with decorators before it. -/
def decoratedStatement (r : Rules) : Rule (List Node) := do
  let exported : Rule (List Node) := do
    let decs ← r.decorators
    pure (decs ++ (← r.exportStatement))
  let declared : Rule (List Node) := do
    pure [← r.settledDeclaration r.classDeclaration]
  if ← fits (do let _ ← r.decorators; keyword "export") then exported
  else declared <|> r.expressionStatement

/-- A function or a class, as a declaration or as an expression. -/
def definitionStatement (r : Rules) (isFunction : Bool) : Rule (List Node) := do
  let before ← cursor
  let named : Bool := (← fits (do
    let _ ← optionalKeyword "async"
    let (w, _) ← word
    let _ ← optionalPunct "*"
    let n ← peekWord
    require (!n.isEmpty && (w == "function" || (n != "extends" && n != "implements")))))
  if named then
    let n ← if isFunction then r.functionDeclaration true else r.classDeclaration
    if ← r.goesOn then
      moveTo before
      r.expressionStatement
    else pure [n]
  else r.expressionStatement

/-- Any statement. -/
def statementRule (r : Rules) : Rule Node := do
  blank
  let start ← position
  let ns ← match ← ahead with
    | ';' :: _ => do step 1; pure []
    | '\x7b' :: _ => r.braceStatement
    | '@' :: _ => r.decoratedStatement
    | _ => do
      let w ← peekWord
      if ← r.startsFunction then r.definitionStatement true
      else if w == "class" then r.definitionStatement false
      else if r.typed && w == "abstract" then pure [← r.classDeclaration]
      else if (statementWords r.dialect).contains w then r.wordStatement w
      else r.softStatement w
  pure (.branch .other start (← position) ns)

/-! ## Whole scripts -/

/-- A line at the start of a script that names its interpreter. -/
def interpreterLine : Rule Unit := do
  blank
  exactly "#!"
  let cs ← ahead
  step (cs.takeWhile (· != '\n')).length

/-- A script: statements to the end of the text. -/
def script (r : Rules) : Rule Node := do
  let start ← position
  let _ ← attempt interpreterLine
  let atEnd : Rule Bool := do
    pure (← peekChar).isNone
  let ss ← r.statementsUntil atEnd
  pure (.branch .other start (← position) ss)

end WebAudit.Script.Rules
