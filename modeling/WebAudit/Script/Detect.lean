import WebAudit.Detection
import WebAudit.Script.Parse
import WebAudit.Text.Lines
import WebAudit.Text.Lowercase

/-!
# Features used by a script

Each node of a syntax tree is looked at once, outer nodes first and siblings in source order. `visit`
says what one node shows; `walk` visits a whole tree with a stack of nodes still to be seen, and
stops because the nodes on the stack get fewer. Chains of names may be of any length: a limit on the
depth of recursion, at which `Node.name` would break off, is left out.
-/

namespace WebAudit.Script

/-! ## Sizes -/

mutual

/-- How many nodes a tree has. -/
def Node.size : Node → Nat
  | .mk _ _ _ cs => Node.sizeList cs + 1

/-- How many nodes several trees have. -/
def Node.sizeList : List Node → Nat
  | [] => 0
  | n :: ns => n.size + Node.sizeList ns

end

theorem Node.sizeList_append (ms ns : List Node) :
    Node.sizeList (ms ++ ns) = Node.sizeList ms + Node.sizeList ns := by
  induction ms with
  | nil => simp [Node.sizeList]
  | cons m ms ih => simp [Node.sizeList, ih, Nat.add_assoc]

theorem Node.size_eq (n : Node) : n.size = Node.sizeList n.children + 1 := by
  cases n; simp [Node.size, Node.children]

theorem Node.size_le_sizeList {n : Node} {ns : List Node} (h : n ∈ ns) :
    n.size ≤ Node.sizeList ns := by
  induction ns with
  | nil => simp at h
  | cons m ms ih =>
    simp only [Node.sizeList]
    rcases List.mem_cons.mp h with rfl | h
    · omega
    · have := ih h; omega

theorem Node.size_child?_lt {n m : Node} {l : Label} (h : n.child? l = some m) :
    m.size < n.size := by
  have := Node.size_le_sizeList (List.mem_of_find?_eq_some h)
  rw [Node.size_eq n]
  omega

/-! ## Names -/

/-- The interfaces whose use is reported, with the feature each belongs to. -/
def interfaces : List (String × String) :=
  [("IdleDetector", "idle-detection"), ("BroadcastChannel", "broadcastchannel"),
    ("IntersectionObserver", "intersectionobserver"), ("ResizeObserver", "resizeobserver"),
    ("fetch", "fetch"), ("Promise", "promises"), ("async", "async-functions"),
    ("URLPattern", "urlpattern"), ("structuredClone", "structured-clone"), ("WeakRef", "weakref"),
    ("FinalizationRegistry", "finalizationregistry"), ("Atomics", "shared-memory")]

/-- The feature of an interface. Names are exact. -/
def interfaceFeature? (name : String) : Option String :=
  interfaces.lookup name

/-- The name of what is no chain of names. -/
def unknownName : String :=
  "unknown"

/-- The source text of a node. -/
def Node.text (source : List Char) (n : Node) : String :=
  String.ofList ((source.drop n.span.start).take (n.span.stop - n.span.start))

/-- The dotted name that a chain of names spells. -/
def Node.name (source : List Char) (n : Node) : String :=
  match n.kind with
  | .identifier => n.text source
  | .propertyName => n.text source
  | .member =>
    let object := match _h : n.child? .object with
      | some m => m.name source
      | none => unknownName
    let property := match _h : n.child? .property with
      | some m => m.name source
      | none => unknownName
    object ++ "." ++ property
  | _ => unknownName
termination_by n.size
decreasing_by all_goals exact Node.size_child?_lt ‹_›

/-- The name of a child in some role. -/
def Node.childName (source : List Char) (n : Node) (l : Label) : String :=
  match n.child? l with
  | some m => m.name source
  | none => unknownName

/-! ## Detections -/

/-- The location of a node. -/
def Node.location (source : List Char) (n : Node) : Location :=
  let start := (Text.point source n.span.start).position source
  let stop := (Text.point source n.span.stop).position source
  ⟨start.line, start.column, some stop.line, some stop.column⟩

/-- A detection at a node. -/
def Node.detection (source : List Char) (n : Node) (featureId value supportKey : String) :
    Detection :=
  ⟨featureId, n.location source, value, some supportKey⟩

/-- Optional access, where the node has it. -/
def chainDetections (source : List Char) (n : Node) : List Detection :=
  if n.hasChild .optionalChain then
    [n.detection source "optional-chaining" "?." "js.optional-chaining"]
  else []

/-- What a member shows: an interface that its dotted name spells, and optional access. -/
def memberDetections (source : List Char) (n : Node) : List Detection :=
  let property := n.childName source .property
  let name := n.childName source .object ++ "." ++ property
  (match interfaceFeature? name with
    | some f => [n.detection source f name ("api." ++ Text.lower property)]
    | none => []) ++ chainDetections source n

/-- What an application of `new` shows. -/
def constructionDetections (source : List Char) (n : Node) : List Detection :=
  let name := n.childName source .callee
  match interfaceFeature? name with
  | some f => [n.detection source f ("new " ++ name ++ "()") ("api." ++ Text.lower name)]
  | none => []

/-- What a number shows. -/
def numberDetections (source : List Char) (n : Node) : List Detection :=
  let raw := n.text source
  if Number.isBigInt raw.toList then [n.detection source "bigint" raw "js.bigint"] else []

/-- What a binary operation shows. -/
def binaryDetections (source : List Char) (n : Node) : List Detection :=
  match n.child? .operator with
  | some op =>
    if op.kind == .token "??" then
      [n.detection source "nullish-coalescing" "??" "js.nullish-coalescing"]
    else []
  | none => []

/-- What a function declaration shows. -/
def functionDetections (source : List Char) (n : Node) : List Detection :=
  if n.hasChild (.token "async") then
    [n.detection source "async-functions" "async function" "js.async-functions"]
  else []

/-- What one node shows, its children left aside. -/
def visit (source : List Char) (n : Node) : List Detection :=
  match n.kind with
  | .member => memberDetections source n
  | .subscript => chainDetections source n
  | .construction => constructionDetections source n
  | .number => numberDetections source n
  | .binary => binaryDetections source n
  | .functionDeclaration => functionDetections source n
  | .generatorDeclaration => functionDetections source n
  | _ => []

/-- Visits the nodes on a stack and all that are below them. -/
def walk (source : List Char) : List Node → List Detection
  | [] => []
  | n :: stack => visit source n ++ walk source (n.children ++ stack)
termination_by stack => Node.sizeList stack
decreasing_by
  simp only [Node.sizeList, Node.sizeList_append, Node.size_eq]
  omega

/-- The features that a script uses. A text that is no script has none, and raises a warning. -/
def detect (d : Dialect) (content : String) : Findings :=
  let source := content.toList
  match parse? d source with
  | none => .unreadable
  | some tree => ⟨walk source [tree], 0⟩

/-- The features that a script uses, with the dialect given by name. An unknown name reads nothing. -/
def detectNamed (dialect content : String) : Findings :=
  match Dialect.ofName? dialect with
  | none => .unreadable
  | some d => detect d content

end WebAudit.Script
