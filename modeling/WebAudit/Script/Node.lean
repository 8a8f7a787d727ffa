/-!
# Syntax trees of scripts

A tree keeps what an analysis can ask for: the kind of a node, the role it plays in its parent, the
stretch of source it covers (in code points), and its children in source order. Tokens are leaves.
Kinds that no analysis tells apart share `Kind.other`.
-/

namespace WebAudit.Script

/-- A stretch of source: the offsets of its first character and of the one after its last. -/
structure Span where
  start : Nat
  stop : Nat
deriving DecidableEq, Repr

/-- The role of a node in its parent. -/
inductive Label where
  /-- What a member is taken from. -/
  | object
  /-- The member taken. -/
  | property
  /-- What `new` is applied to. -/
  | callee
  /-- The operator of a binary expression. -/
  | operator
deriving DecidableEq, Repr

/-- What a node is. -/
inductive Kind where
  | identifier
  | propertyName
  | optionalChain
  | number
  | member
  | subscript
  | construction
  | binary
  | functionDeclaration
  | generatorDeclaration
  /-- A literal token that a rule tells apart by its text, such as an operator. -/
  | token (text : String)
  | other
deriving DecidableEq, Repr

/-- A node of a syntax tree. -/
inductive Node where
  | mk (kind : Kind) (label : Option Label) (span : Span) (children : List Node)

namespace Node

def kind : Node → Kind
  | mk k _ _ _ => k

def label : Node → Option Label
  | mk _ l _ _ => l

def span : Node → Span
  | mk _ _ s _ => s

def children : Node → List Node
  | mk _ _ _ cs => cs

/-- The same node in another role. -/
def withLabel (l : Label) : Node → Node
  | mk k _ s cs => mk k (some l) s cs

/-- A node without children. -/
def leaf (k : Kind) (start stop : Nat) : Node :=
  mk k none ⟨start, stop⟩ []

/-- A node with children and no role yet. -/
def branch (k : Kind) (start stop : Nat) (cs : List Node) : Node :=
  mk k none ⟨start, stop⟩ cs

/-- The first child that plays a given role. -/
def child? (n : Node) (l : Label) : Option Node :=
  n.children.find? (fun m => m.label == some l)

/-- Whether some child is of a given kind. -/
def hasChild (n : Node) (k : Kind) : Bool :=
  n.children.any (fun m => m.kind == k)

end Node

end WebAudit.Script
