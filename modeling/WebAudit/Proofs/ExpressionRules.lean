import Mathlib
import WebAudit.Proofs.TypeRules
import WebAudit.Script.Grammar.Expression

/-!
# Laws obeyed by expressions

The rules of expressions obey a law if the rules that they refer to do. Only one of them looks for its
place by hand: a conditional goes back to behind its question mark (`in_of_conditionalMark?`).
-/

namespace WebAudit.Script.Rules

open Rule Std.Do

set_option mvcgen.warning false

instance : Lawful Part := ⟨fun law p => Keeps law p.nodes⟩
instance : Lawful Item := ⟨fun law i => Keeps law i.nodes⟩
instance : Lawful Cover := ⟨fun law c => Keeps law c.items⟩

variable {law : Law} {r : Rules}

@[simp] theorem keeps_part {p : Part} : Keeps law p ↔ Keeps law p.nodes := .rfl
@[simp] theorem keeps_item {i : Item} : Keeps law i ↔ Keeps law i.nodes := .rfl
@[simp] theorem keeps_cover {c : Cover} : Keeps law c ↔ Keeps law c.items := .rfl

theorem keeps_flatMap {α β : Type} [Lawful α] [Lawful β] {f : α → List β} {as : List α}
    (hf : ∀ a, Keeps law a → Keeps law (f a)) (has : Keeps law as) : Keeps law (as.flatMap f) := by
  intro b hb
  obtain ⟨a, ha, hb⟩ := List.mem_flatMap.mp hb
  exact hf a (has a ha) b hb

@[simp] theorem keeps_flatMap_fst {ps : List (List Node × Bool)} (hps : Keeps law ps) :
    Keeps law (ps.flatMap (·.1)) :=
  keeps_flatMap (fun _ h => (keeps_pair.mp h).1) hps

@[simp] theorem keeps_withLabel_leaf {k : Kind} {start stop : Nat} {l : Label} (hk : k ≠ .number) :
    Keeps law ((Node.leaf k start stop).withLabel l) :=
  keeps_withLabel (keeps_leaf hk)

@[simp] theorem keeps_composite {start stop : Nat} {ps : List Part} (hps : Keeps law ps) :
    Keeps law (composite start stop ps).node :=
  keeps_branch (by decide) (keeps_flatMap (fun _ => id) hps)

@[simp] theorem keeps_nodes {c : Cover} (hc : Keeps law c.items) : Keeps law c.nodes :=
  keeps_flatMap (fun _ => id) hc

@[simp] theorem keeps_memberNode {e : Operand} {chain : List Node} {prop : Node}
    (he : Keeps law e.node) (hchain : Keeps law chain) (hprop : Keeps law prop) :
    Keeps law (memberNode e chain prop).node := by
  simp_all [memberNode]

@[simp] theorem keeps_subscriptNode {e : Operand} {chain index : List Node} {stop : Nat}
    (he : Keeps law e.node) (hchain : Keeps law chain) (hindex : Keeps law index) :
    Keeps law (subscriptNode e chain index stop).node := by
  simp_all [subscriptNode]

/-! ## Rules that refer to no other -/

@[spec]
theorem objectModifier_obeys : r.objectModifier.Obeys law :=
  modifierOf_obeys _

@[spec]
theorem pattern_obeys : pattern.Obeys law := by
  mvcgen [pattern]
  all_goals simp_all

@[spec]
theorem importForm_obeys (start : Nat) : (importForm start).Obeys law := by
  mvcgen [importForm]
  all_goals simp_all +zetaDelta

@[spec]
theorem memberName_obeys : memberName.Obeys law := by
  mvcgen [memberName]
  all_goals simp_all

@[spec]
theorem joinsNext_obeys : joinsNext.Obeys law :=
  fits_obeys _

/-- The cursor after the question mark of a conditional stands in the text. -/
theorem in_of_conditionalMark? {source : List Char} {typed : Bool} {c c' : Cursor}
    (h : conditionalMark? typed c = some c') (hc : c.In source) : c'.In source := by
  fun_induction conditionalMark? typed c with
  | case1 => cases h
  | case2 =>
    cases h
    exact hc.advance _
  | case3 => cases h
  | case4 => rename_i ih; exact ih h (hc.advance _)
  | case5 => cases h

variable (hr : r.Obey law)

include hr

/-! ## Templates -/

@[spec]
theorem template_obeys : r.template.Obeys law := by
  mvcgen [template]
  all_goals simp_all

/-! ## Arrays and objects -/

@[spec]
theorem spreadPart_obeys : r.spreadPart.Obeys law := by
  mvcgen [spreadPart]
  all_goals simp_all

@[spec]
theorem array_obeys : r.array.Obeys law := by
  mvcgen [array]
  all_goals simp_all

@[spec]
theorem objectMember_obeys : r.objectMember.Obeys law := by
  mvcgen [objectMember]
  all_goals simp_all

@[spec]
theorem nestedDefault_obeys : r.nestedDefault.Obeys law := by
  mvcgen [nestedDefault]
  all_goals simp_all

@[spec]
theorem object_obeys : r.object.Obeys law := by
  mvcgen [object]
  all_goals simp_all

/-! ## Lists in parentheses -/

@[spec]
theorem coverItem_obeys : r.coverItem.Obeys law := by
  mvcgen [coverItem]
  all_goals simp_all

@[spec]
theorem modifiedItem_obeys : r.modifiedItem.Obeys law := by
  mvcgen [modifiedItem]
  all_goals simp_all

@[spec]
theorem cover_obeys : r.cover.Obeys law := by
  mvcgen [cover]
  all_goals simp_all

/-! ## Arrow functions -/

@[spec]
theorem arrowBody_obeys (x : Context) : (r.arrowBody x).Obeys law := by
  mvcgen [arrowBody]
  all_goals simp_all

@[spec]
theorem arrowTail_obeys (x : Context) : (r.arrowTail x).Obeys law := by
  mvcgen [arrowTail]
  all_goals simp_all

@[spec]
theorem genericArrow_obeys (x : Context) (start : Nat) : (r.genericArrow x start).Obeys law := by
  mvcgen [genericArrow]
  all_goals simp_all

@[spec]
theorem parenthesized_obeys (x : Context) : (r.parenthesized x).Obeys law := by
  mvcgen [parenthesized]
  all_goals simp_all +zetaDelta

/-! ## Words -/

@[spec]
theorem nameOrArrow_obeys (x : Context) (start stop : Nat) :
    (r.nameOrArrow x start stop).Obeys law := by
  mvcgen [nameOrArrow]
  all_goals simp_all +zetaDelta

@[spec]
theorem asyncForm_obeys (x : Context) (calls : Bool) (start : Nat) :
    (r.asyncForm x calls start).Obeys law := by
  mvcgen [asyncForm]
  all_goals simp_all +zetaDelta

@[spec]
theorem awaitForm_obeys (x : Context) (start : Nat) : (r.awaitForm x start).Obeys law := by
  mvcgen [awaitForm]
  all_goals simp_all +zetaDelta

@[spec]
theorem yieldForm_obeys (x : Context) (start : Nat) : (r.yieldForm x start).Obeys law := by
  mvcgen [yieldForm]
  all_goals simp_all +zetaDelta

@[spec]
theorem classForm_obeys : r.classForm.Obeys law := by
  mvcgen [classForm]
  all_goals simp_all

@[spec]
theorem wordForm_obeys (x : Context) (calls : Bool) : (r.wordForm x calls).Obeys law := by
  mvcgen [wordForm]
  all_goals simp_all

@[spec]
theorem primary_obeys (x : Context) (calls : Bool) : (r.primary x calls).Obeys law := by
  mvcgen [primary]
  all_goals simp_all

/-! ## What follows an operand's start -/

@[spec]
theorem optionalAccess_obeys (e : Operand) (chain : Node) (he : Keeps law e)
    (hchain : Keeps law chain) : (r.optionalAccess e chain).Obeys law := by
  mvcgen [optionalAccess]
  all_goals simp_all

@[spec]
theorem typeApplication_obeys (e : Operand) (he : Keeps law e) :
    (r.typeApplication e).Obeys law := by
  mvcgen [typeApplication]
  all_goals simp_all

@[spec]
theorem continuation_obeys (x : Context) (k : Continuations) (e : Operand) (he : Keeps law e) :
    (r.continuation x k e).Obeys law := by
  mvcgen [continuation]
  all_goals simp_all

@[spec]
theorem continued_obeys (x : Context) (k : Continuations) (e : Operand) (he : Keeps law e) :
    (r.continued x k e).Obeys law := by
  mvcgen [continued]
  all_goals simp_all

@[spec]
theorem placeRule_obeys : r.placeRule.Obeys law := by
  mvcgen [placeRule]
  all_goals simp_all

@[spec]
theorem constructionRule_obeys (x : Context) : (r.constructionRule x).Obeys law := by
  mvcgen [constructionRule]
  all_goals simp_all

/-! ## Operators -/

@[spec]
theorem assigned_obeys (x : Context) (e : Operand) (he : Keeps law e) :
    (r.assigned x e).Obeys law := by
  mvcgen [assigned]
  all_goals simp_all +zetaDelta

@[spec]
theorem operand_obeys (x : Context) : (r.operand x).Obeys law := by
  mvcgen [operand]
  all_goals simp_all

@[spec]
theorem unaryOperation_obeys (x : Context) (width : Nat) :
    (r.unaryOperation x width).Obeys law := by
  mvcgen [unaryOperation]
  all_goals simp_all

@[spec]
theorem angleForm_obeys (x : Context) : (r.angleForm x).Obeys law := by
  mvcgen [angleForm]
  all_goals simp_all

@[spec]
theorem unaryRule_obeys (x : Context) : (r.unaryRule x).Obeys law := by
  mvcgen [unaryRule]
  all_goals simp_all

@[spec]
theorem typedTail_obeys (x : Context) (e : Operand) (he : Keeps law e) :
    (r.typedTail x e).Obeys law := by
  mvcgen [typedTail]
  all_goals simp_all

@[spec]
theorem operation_obeys (x : Context) (least : Nat) (e : Operand) (he : Keeps law e) :
    (r.operation x least e).Obeys law := by
  mvcgen [operation]
  all_goals simp_all +zetaDelta

@[spec]
theorem binaryRule_obeys (x : Context) (least : Nat) : (r.binaryRule x least).Obeys law := by
  mvcgen [binaryRule]
  all_goals simp_all

/-! ## Conditionals -/

@[spec]
theorem branches_obeys (x : Context) : (r.branches x).Obeys law := by
  mvcgen [branches]
  all_goals simp_all

@[spec]
theorem expressionRule_obeys (x : Context) : (r.expressionRule x).Obeys law := by
  mvcgen [expressionRule]
  all_goals simp_all
  grind [in_of_conditionalMark?]

end WebAudit.Script.Rules
