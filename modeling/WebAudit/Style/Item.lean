import WebAudit.Style.Component

/-!
# Rules and declarations

What a style sheet and the content of a block are made of. A style sheet is a list of rules; a block
holds declarations and rules. Items are cut from a list of components with `cut`, which neither adds
nor loses any, so the contents of the items of a list are smaller than the list
(`Item.sizeList_blockItems_le`). Blocks may be nested to any depth: a limit on the depth of recursion,
at which a walk would break off, is left out.
-/

namespace WebAudit.Style

open Text (Position)

/-- A property with its value. -/
structure Declaration where
  place : Position
  name : List Char
  value : List Component

/-- A part of a style sheet or of a block. -/
inductive Item where
  | declaration (d : Declaration)
  /-- A rule with the content of its block, if it has one. -/
  | rule (content : Option (List Component))
  /-- A part that is no rule and no declaration. -/
  | error

/-! ## Cutting -/

/-- A list cut at the first component of some kind. -/
structure Cut where
  before : List Component
  stop : Option Component
  after : List Component

/-- Cuts a list at the first component with a property. -/
def cut (p : Component → Bool) : List Component → Cut
  | [] => ⟨[], none, []⟩
  | c :: cs =>
    if p c then ⟨[], some c, cs⟩
    else
      let r := cut p cs
      ⟨c :: r.before, r.stop, r.after⟩

theorem sizeList_cut (p : Component → Bool) (cs : List Component) :
    Component.sizeList (cut p cs).before + ((cut p cs).stop.map Component.size).getD 0
      + Component.sizeList (cut p cs).after = Component.sizeList cs := by
  induction cs with
  | nil => simp [cut, Component.sizeList]
  | cons c cs ih =>
    unfold cut
    split
    · simp [Component.sizeList]
    · simp only [Component.sizeList]; omega

theorem length_cut_after_le (p : Component → Bool) (cs : List Component) :
    (cut p cs).after.length ≤ cs.length := by
  induction cs with
  | nil => simp [cut]
  | cons c cs ih =>
    unfold cut
    split
    · simp
    · simp only [List.length_cons]; omega

/-- The content of the block in braces that stopped a cut. -/
def Cut.content? (c : Cut) : Option (List Component) :=
  c.stop.bind Component.curly?

/-- Whether a component ends a statement: a semicolon or a block in braces. -/
def endsStatement (c : Component) : Bool :=
  c.isLiteral [';'] || c.curly?.isSome

/-! ## Declarations -/

/-- How far the reading of `!important` has come. -/
inductive Priority where
  | value
  | bang
  | important
deriving DecidableEq, Repr

/-- What is known of a value after some of its components. -/
structure ValueState where
  priority : Priority := .value
  /-- The components before the last exclamation mark, latest first. -/
  beforeBang : List Component := []
  /-- All components, latest first. -/
  all : List Component := []
  hasText : Bool := false
  hasBlock : Bool := false

/-- Whether a component is the word that raises the priority. -/
def isImportant : Component → Bool
  | .token _ (.ident n) => n.map Text.asciiLower == "important".toList
  | _ => false

/-- Takes one more component of a value. A block counts as such only after other text. -/
def ValueState.add (s : ValueState) (c : Component) : ValueState :=
  let s := { s with all := c :: s.all }
  if s.priority == .value && c.isLiteral ['!'] then
    { s with priority := .bang, beforeBang := s.all.tail }
  else if s.priority == .bang && isImportant c then { s with priority := .important }
  else if c.isSpace then s
  else
    { s with
      priority := .value
      hasText := true
      hasBlock := s.hasBlock || (c.curly?.isSome && s.hasText) }

/-- The value that components spell, without a priority at its end. A block beside other text is no
value. -/
def value? (cs : List Component) : Option (List Component) :=
  let s := cs.foldl ValueState.add {}
  if s.hasBlock then none
  else some (if s.priority == .important then s.beforeBang.reverse else s.all.reverse)

/-- Reads a declaration: a name, a colon and a value. -/
def declaration? (first : Component) (rest : List Component) : Option Declaration :=
  match first with
  | .token p (.ident n) =>
    match rest.dropWhile Component.isSpace with
    | c :: value =>
      if c.isLiteral [':'] then (value? value).map fun v => ⟨p, n, v⟩ else none
    | [] => none
  | _ => none

/-! ## Style sheets -/

/-- The name of an at-rule. -/
def isAtKeyword : Component → Bool
  | .token _ (.atKeyword _) => true
  | _ => false

/-- Whether a component is skipped between the rules of a style sheet. -/
def isBetweenRules (c : Component) : Bool :=
  c.isSpace || c.isLiteral "<!--".toList || c.isLiteral "-->".toList

/-- The items of a style sheet. -/
def sheetItems (cs : List Component) : List Item :=
  match cs with
  | [] => []
  | c :: cs =>
    if isBetweenRules c then sheetItems cs
    else if isAtKeyword c then
      let r := cut endsStatement cs
      .rule r.content? :: sheetItems r.after
    else match c.curly? with
      | some content => .rule (some content) :: sheetItems cs
      | none =>
        let r := cut (·.curly?.isSome) cs
        (match r.content? with
          | some content => .rule (some content)
          | none => .error) :: sheetItems r.after
termination_by cs.length
decreasing_by
  all_goals simp only [List.length_cons]
  · omega
  · have := length_cut_after_le endsStatement cs; omega
  · omega
  · have := length_cut_after_le (·.curly?.isSome) cs; omega

/-! ## Blocks -/

/-- Whether a component is skipped between the items of a block. -/
def isBetweenItems (c : Component) : Bool :=
  c.isSpace || c.isLiteral [';']

/-- The item that a statement inside a block is: a declaration if it can be one, else a rule. -/
def statementItem (first : Component) (r : Cut) : Item :=
  let tokens := r.before ++ (r.stop.filter (·.curly?.isSome)).toList
  match declaration? first tokens with
  | some d => .declaration d
  | none =>
    match r.content? with
    | some content => .rule (some content)
    | none => .error

/-- The items of the content of a block. -/
def blockItems (cs : List Component) : List Item :=
  match cs with
  | [] => []
  | c :: cs =>
    if isBetweenItems c then blockItems cs
    else if isAtKeyword c then
      let r := cut endsStatement cs
      .rule r.content? :: blockItems r.after
    else match c.curly? with
      | some content => .rule (some content) :: blockItems cs
      | none =>
        let r := cut endsStatement cs
        statementItem c r :: blockItems r.after
termination_by cs.length
decreasing_by
  all_goals simp only [List.length_cons]
  · omega
  · have := length_cut_after_le endsStatement cs; omega
  · omega
  · have := length_cut_after_le endsStatement cs; omega

/-! ## Sizes -/

/-- One more than the size of what an item contains. -/
def Item.size : Item → Nat
  | .declaration _ => 1
  | .rule none => 1
  | .rule (some content) => Component.sizeList content + 1
  | .error => 1

/-- The sum of the sizes of some items. -/
def Item.sizeList : List Item → Nat
  | [] => 0
  | i :: is => i.size + Item.sizeList is

theorem Cut.sizeList_content?_lt {r : Cut} {content : List Component}
    (h : r.content? = some content) :
    Component.sizeList content + 1 = (r.stop.map Component.size).getD 0 := by
  cases hs : r.stop with
  | none => simp [Cut.content?, hs] at h
  | some c =>
    simp only [Cut.content?, hs, Option.bind_some] at h
    simp [Component.sizeList_curly? h]

theorem Item.size_rule_content?_le (r : Cut) :
    (Item.rule r.content?).size ≤ (r.stop.map Component.size).getD 0 + 1 := by
  cases h : r.content? with
  | none => simp [Item.size]
  | some content => simp only [Item.size]; have := Cut.sizeList_content?_lt h; omega

theorem Item.size_statementItem_le (first : Component) (r : Cut) :
    (statementItem first r).size ≤ (r.stop.map Component.size).getD 0 + 1 := by
  simp only [statementItem]
  split
  · simp [Item.size]
  · split
    · rename_i h
      have := Cut.sizeList_content?_lt h
      simp only [Item.size]; omega
    · simp [Item.size]

/-- The items of a block contain less than the block. -/
theorem Item.sizeList_blockItems_le (cs : List Component) :
    Item.sizeList (blockItems cs) ≤ Component.sizeList cs := by
  fun_induction blockItems cs with
  | case1 => simp [Item.sizeList]
  | case2 c cs h ih => simp only [Component.sizeList]; omega
  | case3 c cs h h' r ih =>
    have h1 := Item.size_rule_content?_le r
    have h2 := sizeList_cut endsStatement cs
    have h3 := c.size_pos
    simp only [Item.sizeList, Component.sizeList]
    change Component.sizeList r.before + (r.stop.map Component.size).getD 0
      + Component.sizeList r.after = _ at h2
    omega
  | case4 c cs h h' content hc ih =>
    have := Component.sizeList_curly? hc
    simp only [Item.sizeList, Item.size, Component.sizeList]
    omega
  | case5 c cs h h' hc r ih =>
    have h1 := Item.size_statementItem_le c r
    have h2 := sizeList_cut endsStatement cs
    have h3 := c.size_pos
    simp only [Item.sizeList, Component.sizeList]
    change Component.sizeList r.before + (r.stop.map Component.size).getD 0
      + Component.sizeList r.after = _ at h2
    omega

/-! ## All declarations -/

/-- The declarations of some items and of the blocks inside them, in the order of the text. If some
item is an error there is no answer. -/
def declarations? (items : List Item) : Option (List Declaration) :=
  match items with
  | [] => some []
  | .error :: _ => none
  | .declaration d :: is => (declarations? is).map (d :: ·)
  | .rule none :: is => declarations? is
  | .rule (some content) :: is =>
    match declarations? (blockItems content) with
    | none => none
    | some ds => (declarations? is).map (ds ++ ·)
termination_by Item.sizeList items
decreasing_by
  all_goals simp only [Item.sizeList, Item.size]
  · omega
  · omega
  · have := Item.sizeList_blockItems_le content; omega
  · omega

end WebAudit.Style
