import WebAudit.Proofs.Positions
import WebAudit.Script.Detect

/-!
# The order of detections in a script

The walk over a syntax tree keeps a stack of nodes still to be seen. It visits every node once, outer
nodes first (`walk_eq_preorder`), and as a loop it ends after one round per node (`after_size`).

If the spans of a tree nest and siblings follow each other, the nodes on the stack stand apart: each
ends before the next one starts. One round keeps this (`Apart.step`), so the walk comes to nodes that
start at ever later offsets, and the places of detections never go back.
-/

namespace WebAudit

/-- The location that starts at one place and ends at another. -/
def Location.between (p q : Text.Position) : Location :=
  ⟨p.line, p.column, some q.line, some q.column⟩

/-- One location starts before another or where it does. -/
def Location.AtMost (l m : Location) : Prop :=
  l.line < m.line ∨ l.line = m.line ∧ l.column ≤ m.column

/-- A location has an end, and it is not before its start. -/
def Location.Forward (l : Location) : Prop :=
  ∃ line column, l.endLine = some line ∧ l.endColumn = some column
    ∧ (l.line < line ∨ l.line = line ∧ l.column ≤ column)

theorem Location.atMost_between_iff {p q r s : Text.Position} :
    (Location.between p q).AtMost (.between r s) ↔ p.AtMost r := by
  simp only [Location.AtMost, Location.between, Text.Position.AtMost]
  omega

theorem Location.forward_between_iff {p q : Text.Position} :
    (Location.between p q).Forward ↔ p.AtMost q := by
  simp only [Location.Forward, Location.between, Text.Position.AtMost, Option.some.injEq,
    exists_and_left, exists_eq_left']
  omega

namespace Script

/-! ## Every node once -/

mutual

/-- A node and those below it, outer nodes first and siblings in their order. -/
def Node.preorder : Node → List Node
  | .mk k l s cs => .mk k l s cs :: Node.preorderList cs

/-- Several nodes and those below them, tree by tree. -/
def Node.preorderList : List Node → List Node
  | [] => []
  | n :: ns => n.preorder ++ Node.preorderList ns

end

theorem Node.preorder_eq (n : Node) : n.preorder = n :: Node.preorderList n.children := by
  cases n
  rw [Node.preorder]
  rfl

theorem Node.preorderList_append (ms ns : List Node) :
    Node.preorderList (ms ++ ns) = Node.preorderList ms ++ Node.preorderList ns := by
  induction ms with
  | nil => rfl
  | cons m ms ih => rw [List.cons_append, Node.preorderList, Node.preorderList, ih, List.append_assoc]

/-- What a stack leads to is its top and what the stack after one round leads to. -/
theorem Node.preorderList_cons (n : Node) (stack : List Node) :
    Node.preorderList (n :: stack) = n :: Node.preorderList (n.children ++ stack) := by
  rw [Node.preorderList, Node.preorder_eq, Node.preorderList_append, List.cons_append]

/-- **The walk visits every node of the stack's trees once, in their order.** -/
theorem walk_eq_preorder (source : List Char) (stack : List Node) :
    walk source stack = (Node.preorderList stack).flatMap (visit source) := by
  fun_induction walk source stack with
  | case1 => rfl
  | case2 n stack ih => rw [Node.preorderList_cons, List.flatMap_cons, ih]

/-! ## The walk as a loop -/

/-- The state of the loop: the nodes still to be seen, the next one last, and what was found. -/
structure Progress where
  stack : List Node
  found : List Detection

/-- One round: the last node is taken off and visited, and its children are put on, the first one
last. Without nodes the loop is at its end. -/
def Progress.round (source : List Char) (p : Progress) : Option Progress :=
  p.stack.getLast?.map fun n =>
    ⟨p.stack.dropLast ++ n.children.reverse, p.found ++ visit source n⟩

/-- The state after a number of rounds, if there are so many. -/
def Progress.after (source : List Char) : Nat → Progress → Option Progress
  | 0, p => some p
  | n + 1, p => (p.round source).bind (Progress.after source n)

theorem round_concat (source : List Char) (ns : List Node) (n : Node) (found : List Detection) :
    Progress.round source ⟨ns ++ [n], found⟩
      = some ⟨ns ++ n.children.reverse, found ++ visit source n⟩ := by
  simp only [Progress.round, List.getLast?_concat, Option.map_some, List.dropLast_concat]

/-- **The loop ends after one round per node with what the walk gives.** -/
theorem after_size (source : List Char) (stack : List Node) (found : List Detection) :
    Progress.after source (Node.sizeList stack) ⟨stack.reverse, found⟩
      = some ⟨[], found ++ walk source stack⟩ := by
  fun_induction walk source stack generalizing found with
  | case1 => rw [List.append_nil]; rfl
  | case2 n stack ih =>
    have hsize : Node.sizeList (n :: stack) = Node.sizeList (n.children ++ stack) + 1 := by
      rw [Node.sizeList, Node.size_eq, Node.sizeList_append]
      omega
    rw [hsize, Progress.after, List.reverse_cons, round_concat, Option.bind_some,
      ← List.reverse_append, ih, List.append_assoc]

/-! ## Ever later starts -/

/-- A node stands well: it does not end before it starts, its children stand inside it, and each
child ends before the next one starts. -/
structure Node.Tidy (n : Node) : Prop where
  span : n.span.start ≤ n.span.stop
  inside : ∀ c ∈ n.children, n.span.start ≤ c.span.start ∧ c.span.stop ≤ n.span.stop
  siblings : n.children.Pairwise fun c d => c.span.stop ≤ d.span.start

instance (n : Node) : Decidable n.Tidy :=
  decidable_of_iff (n.span.start ≤ n.span.stop
      ∧ (∀ c ∈ n.children, n.span.start ≤ c.span.start ∧ c.span.stop ≤ n.span.stop)
      ∧ n.children.Pairwise fun c d => c.span.stop ≤ d.span.start)
    ⟨fun ⟨hspan, hinside, hsiblings⟩ => ⟨hspan, hinside, hsiblings⟩,
      fun h => ⟨h.span, h.inside, h.siblings⟩⟩

/-- The nodes of a stack stand apart, one after the other, and all nodes below them stand well. -/
structure Apart (stack : List Node) : Prop where
  pairwise : stack.Pairwise fun m n => m.span.stop ≤ n.span.start
  tidy : ∀ n ∈ Node.preorderList stack, n.Tidy

theorem Apart.head {n : Node} {stack : List Node} (h : Apart (n :: stack)) : n.Tidy := by
  refine h.tidy n ?_
  rw [Node.preorderList_cons]
  exact List.mem_cons_self

/-- A round of the walk keeps the nodes of the stack apart. -/
theorem Apart.step {n : Node} {stack : List Node} (h : Apart (n :: stack)) :
    Apart (n.children ++ stack) where
  pairwise := by
    obtain ⟨hbefore, hstack⟩ := List.pairwise_cons.mp h.pairwise
    refine List.pairwise_append.mpr ⟨h.head.siblings, hstack, fun c hc m hm => ?_⟩
    exact Nat.le_trans (h.head.inside c hc).2 (hbefore m hm)
  tidy m hm := by
    refine h.tidy m ?_
    rw [Node.preorderList_cons]
    exact List.mem_cons_of_mem _ hm

/-- After a round, every node of the stack starts where the visited node does or later. -/
theorem Apart.start_le {n : Node} {stack : List Node} (h : Apart (n :: stack)) :
    ∀ m ∈ n.children ++ stack, n.span.start ≤ m.span.start := by
  intro m hm
  obtain hm | hm := List.mem_append.mp hm
  · exact (h.head.inside m hm).1
  · exact Nat.le_trans h.head.span ((List.pairwise_cons.mp h.pairwise).1 m hm)

/-- What starts no later than the nodes of a stack starts no later than all nodes below them. -/
theorem Apart.le_start {stack : List Node} (h : Apart stack) {o : Nat}
    (ho : ∀ n ∈ stack, o ≤ n.span.start) : ∀ m ∈ Node.preorderList stack, o ≤ m.span.start := by
  -- The induction is along the rounds of the walk; the text it reads plays no part.
  fun_induction walk [] stack with
  | case1 => exact fun m hm => absurd hm List.not_mem_nil
  | case2 n stack ih =>
    have hn : o ≤ n.span.start := ho n List.mem_cons_self
    rw [Node.preorderList_cons]
    exact List.forall_mem_cons.mpr
      ⟨hn, ih h.step fun m hm => Nat.le_trans hn (h.start_le m hm)⟩

/-- **A walk over nodes that stand apart comes to ever later starts.** -/
theorem Apart.starts {stack : List Node} (h : Apart stack) :
    (Node.preorderList stack).Pairwise fun m n => m.span.start ≤ n.span.start := by
  fun_induction walk [] stack with
  | case1 => exact List.Pairwise.nil
  | case2 n stack ih =>
    rw [Node.preorderList_cons]
    exact List.pairwise_cons.mpr ⟨h.step.le_start h.start_le, ih h.step⟩

/-! ## Places -/

/-- A node's location is that of its first and of its end offset in the text. -/
theorem Node.location_eq (source : List Char) (n : Node) :
    n.location source
      = .between (Text.position source n.span.start) (Text.position source n.span.stop) := by
  simp only [Node.location, Location.between, Text.position_point]

theorem location_of_mem_chainDetections {source : List Char} {n : Node} {d : Detection}
    (h : d ∈ chainDetections source n) : d.location = n.location source := by
  rw [chainDetections] at h
  split at h
  · rw [List.mem_singleton.mp h]
    rfl
  · cases h

/-- All that a node shows is located at the node. -/
theorem location_of_mem_visit {source : List Char} {n : Node} {d : Detection}
    (h : d ∈ visit source n) : d.location = n.location source := by
  have single {featureId value supportKey : String}
      (h : d ∈ [n.detection source featureId value supportKey]) :
      d.location = n.location source := by
    rw [List.mem_singleton.mp h]
    rfl
  rw [visit] at h
  split at h
  case h_1 =>
    -- a member may show two things, its interface and optional access
    obtain h | h := List.mem_append.mp h
    · split at h
      · exact single h
      · cases h
    · exact location_of_mem_chainDetections h
  case h_2 => exact location_of_mem_chainDetections h
  case h_8 => cases h
  all_goals
    simp only [constructionDetections, numberDetections, binaryDetections, functionDetections] at h
    repeat' split at h
    all_goals first | exact single h | cases h

theorem Node.location_atMost (source : List Char) {m n : Node}
    (h : m.span.start ≤ n.span.start) : (m.location source).AtMost (n.location source) := by
  rw [Node.location_eq, Node.location_eq, Location.atMost_between_iff]
  exact Text.position_mono source h

theorem Node.Tidy.forward (source : List Char) {n : Node} (h : n.Tidy) :
    (n.location source).Forward := by
  rw [Node.location_eq, Location.forward_between_iff]
  exact Text.position_mono source h.span

/-- The walk over nodes that stand apart never goes back in the text. -/
theorem Apart.pairwise_walk (source : List Char) {stack : List Node} (h : Apart stack) :
    (walk source stack).Pairwise fun d e => d.location.AtMost e.location := by
  rw [walk_eq_preorder, List.pairwise_flatMap]
  constructor
  · intro n _
    refine List.pairwise_of_forall_mem_list fun d hd e he => ?_
    rw [location_of_mem_visit hd, location_of_mem_visit he]
    exact Node.location_atMost source (Nat.le_refl _)
  · refine h.starts.imp fun hstart d hd e he => ?_
    rw [location_of_mem_visit hd, location_of_mem_visit he]
    exact Node.location_atMost source hstart

theorem Apart.forward_walk (source : List Char) {stack : List Node} (h : Apart stack) :
    ∀ d ∈ walk source stack, d.location.Forward := by
  intro d hd
  rw [walk_eq_preorder] at hd
  obtain ⟨n, hn, hd⟩ := List.mem_flatMap.mp hd
  rw [location_of_mem_visit hd]
  exact (h.tidy n hn).forward source

theorem Node.preorderList_singleton (n : Node) : Node.preorderList [n] = n.preorder := by
  rw [Node.preorderList, Node.preorderList, List.append_nil]

/-- **The detections of a tree come in document order.** The loop over a tree ends after one round per
node. It gives what the nodes show, outer nodes first. If every node of the tree stands well, then each
detection starts where the ones before it do or later, and none ends before it starts. -/
theorem walk_in_document_order (source : List Char) (root : Node) :
    Progress.after source root.size ⟨[root], []⟩ = some ⟨[], walk source [root]⟩
      ∧ (∀ found, Progress.round source ⟨[], found⟩ = none)
      ∧ walk source [root] = root.preorder.flatMap (visit source)
      ∧ ((∀ n ∈ root.preorder, n.Tidy) →
        (walk source [root]).Pairwise (fun d e => d.location.AtMost e.location)
          ∧ ∀ d ∈ walk source [root], d.location.Forward) := by
  refine ⟨after_size source [root] [], fun _ => rfl, ?_, fun htidy => ?_⟩
  · rw [walk_eq_preorder, Node.preorderList_singleton]
  · have hapart : Apart [root] :=
      ⟨List.pairwise_singleton _ _, by rwa [Node.preorderList_singleton]⟩
    exact ⟨hapart.pairwise_walk source, hapart.forward_walk source⟩

/-- Two detections on two lines, the first after a character of two bytes. -/
theorem walk_in_document_order_two_lines :
    let source := "é?.[0]\n1n".toList
    let access := Node.branch .subscript 0 6
      [.leaf .identifier 0 1, .leaf .optionalChain 1 3, .leaf .number 4 5]
    let root := Node.branch .other 0 9 [access, .leaf .number 7 9]
    (walk source [root]).map Detection.location
        = [⟨1, 1, some 1, some 7⟩, ⟨2, 1, some 2, some 3⟩]
      ∧ (walk source [root]).Pairwise (fun d e => d.location.AtMost e.location) := by
  intro source access root
  obtain ⟨-, -, hwalk, horder⟩ := walk_in_document_order source root
  refine ⟨?_, (horder (by decide)).1⟩
  rw [hwalk]
  decide

end Script

end WebAudit
