import Mathlib.Data.List.Basic
import WebAudit.Proofs.ScriptOrder

/-!
# Uses of interfaces in a script

A script shows an interface where `new` is applied to its bare name, and nowhere else. Members are looked
up in the same table by their dotted names, but no name of the table has a dot in it, so a member shows
optional access at most (`memberDetections_eq`). For the same reason `new` shows nothing when it is
applied to a member, and what is no chain of names is called by a name that the table does not have.

All other detections are told apart by their values: they show syntax, not interfaces.
-/

namespace WebAudit.Script

variable {source : List Char} {n m : Node} {name f : String}

/-! ## Names of the table -/

theorem interfaceFeature?_eq_some_iff : interfaceFeature? name = some f ↔ (name, f) ∈ interfaces := by
  constructor
  · intro h
    obtain ⟨before, after, hsplit, -⟩ := List.lookup_eq_some_iff.mp h
    rw [hsplit]
    exact List.mem_append_right _ List.mem_cons_self
  · intro h
    have hall : ∀ e ∈ interfaces, interfaceFeature? e.1 = some e.2 := by decide
    exact hall (name, f) h

/-- No name of the table has a dot. -/
theorem interfaceFeature?_of_dot (h : '.' ∈ name.toList) : interfaceFeature? name = none := by
  have hall : ∀ e ∈ interfaces, '.' ∉ e.1.toList := by decide
  rw [Option.eq_none_iff_forall_ne_some]
  intro f hf
  exact hall (name, f) (interfaceFeature?_eq_some_iff.mp hf) h

theorem interfaceFeature?_dotted (a b : String) : interfaceFeature? (a ++ "." ++ b) = none :=
  interfaceFeature?_of_dot (by simp)

/-- **A member shows optional access at most.** -/
theorem memberDetections_eq (source : List Char) (n : Node) :
    memberDetections source n = chainDetections source n := by
  simp only [memberDetections, interfaceFeature?_dotted, List.nil_append]

/-! ## Bare names -/

/-- A node is a bare name. -/
def Node.IsName (n : Node) : Prop :=
  n.kind = .identifier ∨ n.kind = .propertyName

instance (n : Node) : Decidable n.IsName :=
  inferInstanceAs (Decidable (_ ∨ _))

theorem Node.name_of_isName (h : n.IsName) : n.name source = n.text source := by
  rcases h with h | h
  · rw [Node.name, h]
  · rw [Node.name, h]

/-- What is no bare name is called by no name of the table. -/
theorem interfaceFeature?_name_of_not_isName (h : ¬ n.IsName) :
    interfaceFeature? (n.name source) = none := by
  rw [Node.name]
  split
  next hkind => exact absurd (.inl hkind) h
  next hkind => exact absurd (.inr hkind) h
  next => exact interfaceFeature?_dotted _ _
  next => decide

/-! ## Uses -/

/-- The interface that a node applies `new` to, with its feature. -/
def Node.use? (source : List Char) (n : Node) : Option (String × String) :=
  if n.kind = .construction then
    ((n.child? .callee).filter (·.IsName)).bind fun m =>
      (interfaceFeature? (m.text source)).map fun f => (m.text source, f)
  else none

/-- What a use of an interface shows. -/
def Node.useDetection (source : List Char) (n : Node) (use : String × String) : Detection :=
  n.detection source use.2 ("new " ++ use.1 ++ "()") ("api." ++ Text.lower use.1)

theorem Node.use?_eq_some_iff :
    n.use? source = some (name, f)
      ↔ n.kind = .construction
        ∧ (∃ m, n.child? .callee = some m ∧ m.IsName ∧ m.text source = name)
        ∧ (name, f) ∈ interfaces := by
  rw [Node.use?, ← interfaceFeature?_eq_some_iff]
  constructor
  · intro h
    split at h
    next hkind =>
      obtain ⟨m, hm, hf⟩ := Option.bind_eq_some_iff.mp h
      obtain ⟨hcallee, hname⟩ := Option.filter_eq_some_iff.mp hm
      obtain ⟨f', hf', heq⟩ := Option.map_eq_some_iff.mp hf
      cases heq
      exact ⟨hkind, ⟨m, hcallee, by simpa using hname, rfl⟩, hf'⟩
    next => cases h
  · rintro ⟨hkind, ⟨m, hcallee, hname, rfl⟩, hf⟩
    rw [if_pos hkind, hcallee, Option.filter_some, if_pos (by simpa using hname), Option.bind_some, hf,
      Option.map_some]

theorem constructionDetections_eq (h : n.kind = .construction) :
    constructionDetections source n = ((n.use? source).map (n.useDetection source)).toList := by
  rw [constructionDetections, Node.childName, Node.use?, if_pos h]
  cases hcallee : n.child? .callee with
  | none => rfl
  | some m =>
    rw [Option.filter_some]
    by_cases hname : m.IsName
    · rw [if_pos (by simpa using hname), Option.bind_some]
      simp only [Node.name_of_isName hname]
      cases interfaceFeature? (m.text source) with
      | none => rfl
      | some f => rfl
    · simp only [interfaceFeature?_name_of_not_isName hname]
      rw [if_neg (by simpa using hname)]
      rfl

/-! ## All that is no syntax -/

/-- Whether the value of a detection is a piece of syntax: an operator, a kind of function or a number. -/
def showsSyntax (d : Detection) : Bool :=
  ["?.", "??", "async function"].contains d.value || Number.isBigInt d.value.toList

theorem filter_chainDetections (source : List Char) (n : Node) :
    (chainDetections source n).filter (!showsSyntax ·) = [] := by
  rw [chainDetections]
  split
  · rfl
  · rfl

theorem filter_numberDetections (source : List Char) (n : Node) :
    (numberDetections source n).filter (!showsSyntax ·) = [] := by
  rw [numberDetections]
  split
  next h => simp [showsSyntax, Node.detection, h]
  next => rfl

theorem filter_binaryDetections (source : List Char) (n : Node) :
    (binaryDetections source n).filter (!showsSyntax ·) = [] := by
  rw [binaryDetections]
  split
  · split
    · rfl
    · rfl
  · rfl

theorem filter_functionDetections (source : List Char) (n : Node) :
    (functionDetections source n).filter (!showsSyntax ·) = [] := by
  rw [functionDetections]
  split
  · rfl
  · rfl

theorem not_showsSyntax_useDetection (source : List Char) (n : Node) (h : (name, f) ∈ interfaces) :
    showsSyntax (n.useDetection source (name, f)) = false := by
  have hall : ∀ e ∈ interfaces,
      (["?.", "??", "async function"].contains ("new " ++ e.1 ++ "()")
        || Number.isBigInt ("new " ++ e.1 ++ "()").toList) = false := by
    decide
  exact hall (name, f) h

/-- **What a node shows beside syntax is its use of an interface.** -/
theorem filter_visit (source : List Char) (n : Node) :
    (visit source n).filter (!showsSyntax ·)
      = ((n.use? source).map (n.useDetection source)).toList := by
  by_cases hkind : n.kind = .construction
  · have hvisit : visit source n = constructionDetections source n := by rw [visit, hkind]
    rw [hvisit, constructionDetections_eq hkind]
    cases huse : n.use? source with
    | none => rfl
    | some u =>
      have hshows := not_showsSyntax_useDetection source n (Node.use?_eq_some_iff.mp huse).2.2
      simp [hshows]
  · have huse : n.use? source = none := if_neg hkind
    rw [huse, visit]
    split
    next => rw [memberDetections_eq, filter_chainDetections]; rfl
    next => exact filter_chainDetections source n
    next h => exact absurd h hkind
    next => exact filter_numberDetections source n
    next => exact filter_binaryDetections source n
    next => exact filter_functionDetections source n
    next => exact filter_functionDetections source n
    next => rfl

/-- **A script shows an interface just where `new` is applied to its bare name.** No member shows more
than optional access. Of the detections of a tree, those that show no syntax are the uses of interfaces
in the order of their nodes, one for each node that is a use. -/
theorem interfaces_shown_by_construction (source : List Char) (root : Node) :
    (∀ n ∈ root.preorder, n.kind = .member →
        visit source n = if n.hasChild .optionalChain then
          [n.detection source "optional-chaining" "?." "js.optional-chaining"] else [])
      ∧ (∀ (n : Node) (name f : String), n.use? source = some (name, f)
          ↔ n.kind = .construction
            ∧ (∃ m, n.child? .callee = some m ∧ m.IsName ∧ m.text source = name)
            ∧ (name, f) ∈ interfaces)
      ∧ (walk source [root]).filter (!showsSyntax ·)
        = root.preorder.filterMap fun n => (n.use? source).map fun use =>
            n.detection source use.2 ("new " ++ use.1 ++ "()") ("api." ++ Text.lower use.1) := by
  refine ⟨?_, fun n name f => Node.use?_eq_some_iff, ?_⟩
  · intro n _ hkind
    rw [visit, hkind]
    exact memberDetections_eq source n
  · rw [walk_eq_preorder, Node.preorderList_singleton, List.filter_flatMap,
      List.filterMap_eq_flatMap_toList]
    exact List.flatMap_congr fun n _ => filter_visit source n

/-- `new` shows an interface by its own name, and nothing by the name of a member. -/
example :
    let source := "new Promise(Atomics.Promise)".toList
    let member := Node.branch .member 12 27
      [(Node.leaf .identifier 12 19).withLabel .object,
        (Node.leaf .propertyName 20 27).withLabel .property]
    let root := Node.branch .construction 0 28
      [(Node.leaf .identifier 4 11).withLabel .callee, member]
    root.use? source = some ("Promise", "promises")
      ∧ (Node.branch .construction 0 28 [member.withLabel .callee]).use? source = none := by
  decide

end WebAudit.Script
