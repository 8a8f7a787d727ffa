import WebAudit.Proofs.StylePlaces

/-!
# The course of a walk over a style sheet

A walk over items meets declarations one by one, reads the block of a rule when it comes to it, and
goes on after the block. An error stops it, whatever it has met before. How blocks are read is left
open: any `Reader` will do as long as what a rule contains is smaller than the block that the rule
stands in, which is also why a walk ends.

An item has an address: its number in its list, after the numbers of the rules around it. Addresses in
lexicographic order are the order of a walk, outer items first. A walk meets just the declarations
whose addresses come before every error (`exists_locates`), so one that is not stopped meets each
declaration once.
-/

namespace WebAudit.Style

open scoped List

/-! ## Readers -/

/-- How a style sheet is read: the items of a text, and the items of the content of a block. -/
structure Reader where
  sheet : List Char → List Item
  block : List Component → List Item
  smaller : ∀ {cs content : List Component}, .rule (some content) ∈ block cs →
    Component.sizeList content < Component.sizeList cs

theorem Item.size_le_sizeList {i : Item} {is : List Item} (h : i ∈ is) :
    i.size ≤ Item.sizeList is := by
  induction is with
  | nil => cases h
  | cons j is ih =>
    rw [Item.sizeList]
    rcases List.mem_cons.mp h with rfl | h
    · exact Nat.le_add_right _ _
    · exact Nat.le_trans (ih h) (Nat.le_add_left _ _)

/-- The reading of style sheets by their grammar. -/
def Reader.standard : Reader where
  sheet text := sheetItems (components text)
  block := blockItems
  smaller h := Nat.le_trans (Item.size_le_sizeList h) (Item.sizeList_blockItems_le _)

/-- More than the size of every block of some items. -/
def largest : List Item → Nat
  | [] => 0
  | .rule (some content) :: is => max (Component.sizeList content + 1) (largest is)
  | _ :: is => largest is

theorem largest_le {items : List Item} {n : Nat}
    (h : ∀ content, .rule (some content) ∈ items → Component.sizeList content < n) :
    largest items ≤ n := by
  fun_induction largest items with
  | case1 => exact Nat.zero_le n
  | case2 content is ih =>
    refine Nat.max_le.mpr ⟨h content List.mem_cons_self, ih fun c hc => ?_⟩
    exact h c (List.mem_cons_of_mem _ hc)
  | case3 i is _ ih => exact ih fun c hc => h c (List.mem_cons_of_mem _ hc)

/-! ## Walks -/

/-- What a walk comes to: the declarations it met, and whether an error stopped it. -/
structure Course where
  met : List Declaration
  stopped : Bool

/-- All declarations, if none is missing. -/
def Course.whole? (c : Course) : Option (List Declaration) :=
  if c.stopped then none else some c.met

theorem Course.whole?_eq_none_iff {c : Course} : c.whole? = none ↔ c.stopped = true := by
  simp [whole?]

theorem Course.whole?_eq_some_iff {c : Course} {ds : List Declaration} :
    c.whole? = some ds ↔ c.stopped = false ∧ c.met = ds := by
  simp [whole?]

namespace Reader

/-- The walk over some items and the blocks inside them. -/
def walk (r : Reader) (items : List Item) : Course :=
  match items with
  | [] => ⟨[], false⟩
  | .error :: _ => ⟨[], true⟩
  | .declaration d :: is =>
    let after := r.walk is
    ⟨d :: after.met, after.stopped⟩
  | .rule none :: is => r.walk is
  | .rule (some content) :: is =>
    let inside := r.walk (r.block content)
    if inside.stopped then inside
    else
      let after := r.walk is
      ⟨inside.met ++ after.met, after.stopped⟩
termination_by (largest items, items.length)
decreasing_by
  · exact Prod.Lex.right _ (Nat.lt_succ_self _)
  · exact Prod.Lex.right _ (Nat.lt_succ_self _)
  · exact Prod.Lex.left _ _ (Nat.lt_of_lt_of_le (Nat.lt_succ_of_le (largest_le fun _ => r.smaller))
      (Nat.le_max_left _ _))
  · exact Prod.Lex.right' _ (Nat.le_max_right _ _) (Nat.lt_succ_self _)

theorem walk_rule_of_stopped {r : Reader} {content : List Component}
    (h : (r.walk (r.block content)).stopped = true) (is : List Item) :
    r.walk (.rule (some content) :: is) = r.walk (r.block content) := by
  rw [walk]
  simp only [h, if_true]

theorem walk_rule_of_not_stopped {r : Reader} {content : List Component}
    (h : (r.walk (r.block content)).stopped = false) (is : List Item) :
    r.walk (.rule (some content) :: is)
      = ⟨(r.walk (r.block content)).met ++ (r.walk is).met, (r.walk is).stopped⟩ := by
  rw [walk]
  simp only [h, Bool.false_eq_true, if_false]

/-- What the text of a style sheet shows: nothing if the walk is stopped. -/
def detect (r : Reader) (content : String) : Findings :=
  match (r.walk (r.sheet content.toList)).whole? with
  | none => .unreadable
  | some ds => ⟨ds.filterMap Declaration.detection?, 0⟩

end Reader

/-- The declarations of some items are all that the walk meets, unless it is stopped. -/
theorem declarations?_eq_walk (items : List Item) :
    declarations? items = (Reader.standard.walk items).whole? := by
  fun_induction declarations? items with
  | case1 => rw [Reader.walk]; rfl
  | case2 is => rw [Reader.walk]; rfl
  | case3 d is ih =>
    rw [Reader.walk, ih]
    by_cases h : (Reader.standard.walk is).stopped = true
    · simp [Course.whole?, h]
    · simp [Course.whole?, h]
  | case4 is ih => rw [Reader.walk, ih]
  | case5 content is hnone ih =>
    have hstopped : (Reader.standard.walk (Reader.standard.block content)).stopped = true :=
      Course.whole?_eq_none_iff.mp (ih.symm.trans hnone)
    rw [Reader.walk_rule_of_stopped hstopped]
    exact hnone.symm.trans ih
  | case6 content is ds hds ihcontent ih =>
    obtain ⟨hstopped, rfl⟩ := Course.whole?_eq_some_iff.mp (ihcontent.symm.trans hds)
    rw [Reader.walk_rule_of_not_stopped hstopped, ih]
    by_cases h : (Reader.standard.walk is).stopped = true
    · simp [Course.whole?, h]
    · simp only [Course.whole?, h]
      rfl

theorem detect_eq_standard (content : String) : detect content = Reader.standard.detect content := by
  rw [detect, declarations?_eq_walk]
  rfl

/-! ## Addresses -/

/-- An item stands at an address: at its number in the list, or inside the rule with the first
number. -/
inductive Reader.At (r : Reader) : List Item → List Nat → Item → Prop where
  | here {items : List Item} {k : Nat} {i : Item} (h : items[k]? = some i) : At r items [k] i
  | inside {items : List Item} {k : Nat} {content : List Component} {a : List Nat} {i : Item}
      (h : items[k]? = some (.rule (some content))) (hin : At r (r.block content) a i) :
      At r items (k :: a) i

/-- One address comes before another: at the first number in which they differ, or as its
beginning. -/
def Earlier (a b : List Nat) : Prop :=
  List.Lex (· < ·) a b

@[simp] theorem earlier_cons_iff {k l : Nat} {a b : List Nat} :
    Earlier (k :: a) (l :: b) ↔ k < l ∨ k = l ∧ Earlier a b :=
  List.cons_lex_cons_iff

@[simp] theorem not_earlier_nil (a : List Nat) : ¬ Earlier a [] :=
  List.not_lex_nil

namespace Reader

variable {r : Reader} {i j : Item} {is items : List Item} {a b : List Nat} {k : Nat}

@[simp] theorem not_at_nil : ¬ r.At items [] i := by
  intro h
  cases h

theorem at_iff : r.At items (k :: a) i
    ↔ a = [] ∧ items[k]? = some i
      ∨ ∃ content, items[k]? = some (.rule (some content)) ∧ r.At (r.block content) a i := by
  constructor
  · rintro (h | ⟨h, hin⟩)
    · exact .inl ⟨rfl, h⟩
    · exact .inr ⟨_, h, hin⟩
  · rintro (⟨rfl, h⟩ | ⟨content, h, hin⟩)
    · exact .here h
    · exact .inside h hin

@[simp] theorem not_at_of_nil : ¬ r.At [] a i := by
  cases a with
  | nil => exact not_at_nil
  | cons k a => simp [at_iff]

@[simp] theorem at_cons_succ_iff : r.At (j :: is) ((k + 1) :: a) i ↔ r.At is (k :: a) i := by
  simp [at_iff]

@[simp] theorem at_cons_zero_iff :
    r.At (j :: is) (0 :: a) i
      ↔ a = [] ∧ j = i ∨ ∃ content, j = .rule (some content) ∧ r.At (r.block content) a i := by
  simp [at_iff]

/-- Nothing stands inside a declaration. -/
theorem eq_nil_of_at_append {d : Declaration} (h : r.At items a (.declaration d))
    (hi : r.At items (a ++ b) i) : b = [] := by
  induction a generalizing items with
  | nil => exact absurd h not_at_nil
  | cons k a ih =>
    rw [List.cons_append] at hi
    rcases at_iff.mp h with ⟨rfl, hd⟩ | ⟨content, hrule, hin⟩
    · rcases at_iff.mp hi with ⟨hb, -⟩ | ⟨content, hrule, -⟩
      · exact hb
      · cases hd.symm.trans hrule
    · rcases at_iff.mp hi with ⟨hb, -⟩ | ⟨content', hrule', hin'⟩
      · exact (List.append_eq_nil_iff.mp hb).2
      · cases hrule.symm.trans hrule'
        exact ih hin hin'

theorem exists_at_cons_iff :
    (∃ a, r.At (j :: is) a i)
      ↔ j = i ∨ (∃ content, j = .rule (some content) ∧ ∃ a, r.At (r.block content) a i)
        ∨ ∃ a, r.At is a i := by
  constructor
  · rintro ⟨_ | ⟨_ | k, a⟩, h⟩
    · exact absurd h not_at_nil
    · rcases at_cons_zero_iff.mp h with ⟨-, h⟩ | ⟨content, hj, h⟩
      · exact .inl h
      · exact .inr (.inl ⟨content, hj, a, h⟩)
    · exact .inr (.inr ⟨_, at_cons_succ_iff.mp h⟩)
  · rintro (h | ⟨content, hj, a, h⟩ | ⟨_ | ⟨k, a⟩, h⟩)
    · exact ⟨[0], at_cons_zero_iff.mpr (.inl ⟨rfl, h⟩)⟩
    · exact ⟨0 :: a, at_cons_zero_iff.mpr (.inr ⟨content, hj, h⟩)⟩
    · exact absurd h not_at_nil
    · exact ⟨(k + 1) :: a, at_cons_succ_iff.mpr h⟩

/-- **A walk is stopped just if an error stands somewhere.** -/
theorem stopped_walk_iff : (r.walk items).stopped = true ↔ ∃ a, r.At items a .error := by
  fun_induction r.walk items with
  | case1 => simp
  | case2 is => simp [exists_at_cons_iff]
  | case3 d is after ih => simp [exists_at_cons_iff, after, ih]
  | case4 is ih => simp [exists_at_cons_iff, ih]
  | case5 content is inside hstopped ih =>
    simp only [hstopped, exists_at_cons_iff, true_iff]
    exact .inr (.inl ⟨content, rfl, ih.mp hstopped⟩)
  | case6 content is inside hstopped after ihinside ih =>
    have hinside : ¬ ∃ a, r.At (r.block content) a .error := fun h => hstopped (ihinside.mpr h)
    simp only [exists_at_cons_iff, after, ih]
    simp [hinside]

/-! ## Where the declarations stand -/

/-- Declarations with their addresses, in the order of the walk, and just those before every error. -/
structure Locates (r : Reader) (items : List Item) (places : List (List Nat × Declaration)) : Prop where
  ordered : places.Pairwise fun x y => Earlier x.1 y.1
  mem_iff : ∀ a d, (a, d) ∈ places
    ↔ r.At items a (.declaration d) ∧ ∀ e, r.At items e .error → Earlier a e

/-- The address one item later. -/
def next : List Nat → List Nat
  | [] => []
  | k :: a => (k + 1) :: a

/-- Places in a list after one more item. -/
def later (places : List (List Nat × Declaration)) : List (List Nat × Declaration) :=
  places.map fun x => (next x.1, x.2)

/-- Places inside a rule at the head of a list. -/
def within (places : List (List Nat × Declaration)) : List (List Nat × Declaration) :=
  places.map fun x => (0 :: x.1, x.2)

variable {places heads : List (List Nat × Declaration)} {d : Declaration}

@[simp] theorem mem_later_succ_iff : ((k + 1) :: a, d) ∈ later places ↔ (k :: a, d) ∈ places := by
  constructor
  · intro h
    obtain ⟨⟨_ | ⟨l, b⟩, d'⟩, hx, heq⟩ := List.mem_map.mp h
    · cases heq
    · cases heq
      exact hx
  · intro h
    exact List.mem_map.mpr ⟨_, h, rfl⟩

@[simp] theorem not_mem_later_zero : (0 :: a, d) ∉ later places := by
  intro h
  obtain ⟨⟨_ | ⟨l, b⟩, d'⟩, -, heq⟩ := List.mem_map.mp h
  · cases heq
  · cases heq

@[simp] theorem mem_within_iff : (b, d) ∈ within places ↔ ∃ a, b = 0 :: a ∧ (a, d) ∈ places := by
  constructor
  · intro h
    obtain ⟨⟨a, d'⟩, hx, heq⟩ := List.mem_map.mp h
    cases heq
    exact ⟨a, rfl, hx⟩
  · rintro ⟨a, rfl, h⟩
    exact List.mem_map.mpr ⟨_, h, rfl⟩

theorem Locates.not_mem_nil (h : r.Locates items places) : ([], d) ∉ places := by
  intro hmem
  exact not_at_nil ((h.mem_iff [] d).mp hmem).1

theorem Locates.not_mem_later_nil (h : r.Locates items places) : ([], d) ∉ later places := by
  intro hmem
  obtain ⟨⟨_ | ⟨l, b⟩, d'⟩, hx, heq⟩ := List.mem_map.mp hmem
  · exact h.not_mem_nil hx
  · cases heq

theorem earlier_next (h : Earlier a b) : Earlier (next a) (next b) := by
  cases a with
  | nil =>
    cases b with
    | nil => exact h
    | cons l b => exact .nil
  | cons k a =>
    cases b with
    | nil => exact absurd h (not_earlier_nil _)
    | cons l b => simpa [next] using h

theorem at_singleton_iff :
    r.At [j] b i ↔ ∃ a, b = 0 :: a
      ∧ (a = [] ∧ j = i ∨ ∃ content, j = .rule (some content) ∧ r.At (r.block content) a i) := by
  rcases b with _ | ⟨_ | k, b⟩
  · simp
  · simp
  · simp

theorem locates_nil : r.Locates [] [] :=
  ⟨.nil, by simp⟩

theorem locates_error : r.Locates [.error] [] :=
  ⟨.nil, by simp [at_singleton_iff]⟩

theorem locates_bare : r.Locates [.rule none] [] :=
  ⟨.nil, by simp [at_singleton_iff]⟩

theorem not_at_error_declaration {e : List Nat} : ¬ r.At [.declaration d] e .error := by
  simp [at_singleton_iff]

theorem locates_declaration (d : Declaration) : r.Locates [.declaration d] [([0], d)] := by
  refine ⟨List.pairwise_singleton _ _, fun a e => ?_⟩
  rw [List.mem_singleton]
  constructor
  · intro h
    cases h
    exact ⟨.here rfl, fun e he => absurd he not_at_error_declaration⟩
  · rintro ⟨hat, -⟩
    obtain ⟨a, rfl, ⟨rfl, h⟩ | ⟨content, h, -⟩⟩ := at_singleton_iff.mp hat
    · cases h
      rfl
    · cases h

theorem at_block_iff {content : List Component} (hi : i ≠ .rule (some content)) :
    r.At [.rule (some content)] b i ↔ ∃ a, b = 0 :: a ∧ r.At (r.block content) a i := by
  rw [at_singleton_iff]
  constructor
  · rintro ⟨a, rfl, ⟨-, h⟩ | ⟨_, h, hat⟩⟩
    · exact absurd h.symm hi
    · cases h
      exact ⟨a, rfl, hat⟩
  · rintro ⟨a, rfl, hat⟩
    exact ⟨a, rfl, .inr ⟨content, rfl, hat⟩⟩

theorem Locates.block {content : List Component} (h : r.Locates (r.block content) places) :
    r.Locates [.rule (some content)] (within places) := by
  refine ⟨List.pairwise_map.mpr (h.ordered.imp fun hab => ?_), fun b d => ?_⟩
  · exact earlier_cons_iff.mpr (.inr ⟨rfl, hab⟩)
  rw [mem_within_iff, at_block_iff Item.noConfusion]
  constructor
  · rintro ⟨a, rfl, hmem⟩
    obtain ⟨hat, herror⟩ := (h.mem_iff a d).mp hmem
    refine ⟨⟨a, rfl, hat⟩, fun e he => ?_⟩
    obtain ⟨e', rfl, hin⟩ := (at_block_iff Item.noConfusion).mp he
    exact earlier_cons_iff.mpr (.inr ⟨rfl, herror e' hin⟩)
  · rintro ⟨⟨a, rfl, hat⟩, herror⟩
    refine ⟨a, rfl, (h.mem_iff a d).mpr ⟨hat, fun e he => ?_⟩⟩
    have hbefore := herror (0 :: e) ((at_block_iff Item.noConfusion).mpr ⟨e, rfl, he⟩)
    simpa using hbefore

theorem at_head_iff : r.At (j :: is) (0 :: a) i ↔ r.At [j] (0 :: a) i := by
  simp

/-- An error in the first item hides the items after it. -/
theorem Locates.cons_of_error (h : r.Locates [j] heads) (herror : ∃ e, r.At [j] e .error)
    (is : List Item) : r.Locates (j :: is) heads := by
  refine ⟨h.ordered, fun a d => ?_⟩
  rw [h.mem_iff]
  rcases a with _ | ⟨_ | k, a⟩
  · simp
  · refine and_congr at_head_iff.symm ⟨fun hall e he => ?_, fun hall e he => ?_⟩
    · rcases e with _ | ⟨_ | l, e⟩
      · exact absurd he not_at_nil
      · exact hall _ (at_head_iff.mp he)
      · exact earlier_cons_iff.mpr (.inl (Nat.succ_pos l))
    · obtain ⟨e', rfl, -⟩ := at_singleton_iff.mp he
      exact hall _ (at_head_iff.mpr he)
  · constructor
    · rintro ⟨hat, -⟩
      obtain ⟨a', h, -⟩ := at_singleton_iff.mp hat
      cases h
    · rintro ⟨-, hall⟩
      obtain ⟨e, he⟩ := herror
      obtain ⟨e', rfl, -⟩ := at_singleton_iff.mp he
      have hbefore := hall _ (at_head_iff.mpr he)
      simp at hbefore

/-- Without one, the places in the first item come first. -/
theorem Locates.cons (h : r.Locates [j] heads) (hfree : ∀ e, ¬ r.At [j] e .error)
    (his : r.Locates is places) : r.Locates (j :: is) (heads ++ later places) := by
  refine ⟨List.pairwise_append.mpr ⟨h.ordered, ?_, ?_⟩, fun a d => ?_⟩
  · exact List.pairwise_map.mpr (his.ordered.imp earlier_next)
  · intro x hx y hy
    obtain ⟨a, ha, -⟩ := at_singleton_iff.mp ((h.mem_iff x.1 x.2).mp hx).1
    obtain ⟨⟨_ | ⟨k, b⟩, d⟩, hmem, rfl⟩ := List.mem_map.mp hy
    · exact absurd hmem his.not_mem_nil
    · rw [ha]
      exact earlier_cons_iff.mpr (.inl (Nat.succ_pos k))
  rw [List.mem_append, h.mem_iff]
  rcases a with _ | ⟨_ | k, a⟩
  · simp [his.not_mem_later_nil]
  · simp only [not_mem_later_zero, or_false]
    refine and_congr at_head_iff.symm ⟨fun _ e he => ?_, fun _ e he => absurd he (hfree e)⟩
    rcases e with _ | ⟨_ | l, e⟩
    · exact absurd he not_at_nil
    · exact absurd (at_head_iff.mp he) (hfree _)
    · exact earlier_cons_iff.mpr (.inl (Nat.succ_pos l))
  · have hhead : ¬ r.At [j] ((k + 1) :: a) (.declaration d) := by simp
    simp only [hhead, false_and, false_or, mem_later_succ_iff, his.mem_iff, at_cons_succ_iff]
    refine and_congr_right fun _ => ⟨fun hall e he => ?_, fun hall e he => ?_⟩
    · rcases e with _ | ⟨_ | l, e⟩
      · exact absurd he not_at_nil
      · exact absurd (at_head_iff.mp he) (hfree _)
      · simpa using hall _ (at_cons_succ_iff.mp he)
    · rcases e with _ | ⟨l, e⟩
      · exact absurd he not_at_nil
      · simpa using hall _ (at_cons_succ_iff.mpr he)

/-- **A walk meets the declarations that come before every error, each once and in their order.** -/
theorem exists_locates (r : Reader) (items : List Item) :
    ∃ places, r.Locates items places ∧ places.map Prod.snd = (r.walk items).met := by
  have hlater (places : List (List Nat × Declaration)) :
      (later places).map Prod.snd = places.map Prod.snd := by
    rw [later, List.map_map]
    rfl
  have hwithin (places : List (List Nat × Declaration)) :
      (within places).map Prod.snd = places.map Prod.snd := by
    rw [within, List.map_map]
    rfl
  fun_induction r.walk items with
  | case1 => exact ⟨[], locates_nil, rfl⟩
  | case2 is => exact ⟨[], locates_error.cons_of_error ⟨[0], .here rfl⟩ is, rfl⟩
  | case3 d is after ih =>
    obtain ⟨places, hplaces, hmet⟩ := ih
    refine ⟨_, (locates_declaration d).cons (fun e => not_at_error_declaration) hplaces, ?_⟩
    rw [List.map_append, hlater, hmet]
    rfl
  | case4 is ih =>
    obtain ⟨places, hplaces, hmet⟩ := ih
    refine ⟨_, locates_bare.cons (fun e => by simp [at_singleton_iff]) hplaces, ?_⟩
    rw [List.nil_append, hlater, hmet]
  | case5 content is inside hstopped ih =>
    obtain ⟨places, hplaces, hmet⟩ := ih
    obtain ⟨e, he⟩ := stopped_walk_iff.mp hstopped
    refine ⟨_, hplaces.block.cons_of_error ⟨0 :: e, ?_⟩ is, ?_⟩
    · exact (at_block_iff Item.noConfusion).mpr ⟨e, rfl, he⟩
    · rw [hwithin, hmet]
  | case6 content is inside hstopped after ihinside ih =>
    obtain ⟨inner, hinner, hmet⟩ := ihinside
    obtain ⟨places, hplaces, hafter⟩ := ih
    refine ⟨_, hinner.block.cons (fun e he => ?_) hplaces, ?_⟩
    · obtain ⟨e', rfl, hin⟩ := (at_block_iff Item.noConfusion).mp he
      exact hstopped (stopped_walk_iff.mpr ⟨e', hin⟩)
    · rw [List.map_append, hwithin, hlater, hmet, hafter]

end Reader

/-! ## Detections -/

theorem Before.ne {p q : Text.Position} (h : Before p q) : p ≠ q := by
  rintro rfl
  unfold Before at h
  omega

/-- No token in the value of a declaration names a declaration. -/
theorem head_notMem_value {text : List Char} {ds : List Declaration}
    (h : declarations? (sheetItems (components text)) = some ds) {d e : Declaration} (hd : d ∈ ds)
    (he : e ∈ ds) : d.head ∉ Component.placedList e.value := by
  have hplaced : (ds.flatMap Declaration.placed).Pairwise fun x y => Before x.place y.place :=
    (pairwise_tokensFrom _ _).sublist (placed_sublist_tokens h)
  obtain ⟨hown, hothers⟩ := List.pairwise_flatMap.mp hplaced
  -- two declarations share no token, and one has no token twice
  refine List.Pairwise.forall_of_forall_of_flip (R := fun d e : Declaration =>
    d.head ∉ Component.placedList e.value) ?_ ?_ ?_ hd he
  · intro d hd hmem
    exact ((List.pairwise_cons.mp (hown d hd)).1 d.head hmem).ne rfl
  · refine hothers.imp fun {d e} hde hmem => ?_
    exact (hde d.head List.mem_cons_self d.head (List.mem_cons_of_mem _ hmem)).ne rfl
  · refine hothers.imp fun {d e} hde hmem => ?_
    exact (hde e.head (List.mem_cons_of_mem _ hmem) e.head List.mem_cons_self).ne rfl

/-- If no error stands anywhere, a walk meets the declarations of all addresses. -/
theorem Reader.exists_places {r : Reader} {items : List Item} (h : ∀ a, ¬ r.At items a .error) :
    ∃ places : List (List Nat × Declaration),
      places.Pairwise (fun x y => Earlier x.1 y.1)
        ∧ (∀ a d, (a, d) ∈ places ↔ r.At items a (.declaration d))
        ∧ (r.walk items).whole? = some (places.map Prod.snd) := by
  obtain ⟨places, hplaces, hmet⟩ := r.exists_locates items
  refine ⟨places, hplaces.ordered, fun a d => ?_, ?_⟩
  · rw [hplaces.mem_iff]
    exact and_iff_left fun e he => absurd he (h e)
  · refine Course.whole?_eq_some_iff.mpr ⟨?_, hmet.symm⟩
    rw [← Bool.not_eq_true, stopped_walk_iff]
    exact fun ⟨e, he⟩ => h e he

/-- A declaration shows the feature to which its property belongs with its value, if there is one. -/
theorem Declaration.detection?_eq_some_iff {d : Declaration} {x : Detection} :
    d.detection? = some x ↔ propertyFeature? d.property d.valueText = some x.featureId
      ∧ x.location = ⟨d.place.line, d.place.column, none, none⟩
      ∧ x.value = d.property ++ ": " ++ d.valueText
      ∧ x.supportKey = some ("css.properties." ++ d.property) := by
  rw [Declaration.detection?, Option.map_eq_some_iff]
  constructor
  · rintro ⟨f, hf, rfl⟩
    exact ⟨hf, rfl, rfl, rfl⟩
  · rintro ⟨hfeature, hlocation, hvalue, hkey⟩
    exact ⟨x.featureId, hfeature, by rw [← hlocation, ← hvalue, ← hkey]⟩

/-- A style sheet with an error anywhere shows nothing and raises one warning. Any other shows what
its declarations show, each once and in the order of their addresses. This is so whatever reads the
items. A declaration shows something if and only if its property and its value belong to a feature.
Nothing stands inside a declaration; read by the grammar, no declaration is one of the tokens in the
value of another. -/
theorem detect_in_order_of_addresses (content : String) :
    (∀ r : Reader,
      let items := r.sheet content.toList
      ((∃ a, r.At items a .error) → r.detect content = ⟨[], 1⟩)
        ∧ ((∀ a, ¬ r.At items a .error) → ∃ places : List (List Nat × Declaration),
            places.Pairwise (fun x y => Earlier x.1 y.1)
              ∧ (∀ a d, (a, d) ∈ places ↔ r.At items a (.declaration d))
              ∧ r.detect content = ⟨places.filterMap fun x => x.2.detection?, 0⟩)
        ∧ ∀ a b d i, r.At items a (.declaration d) → r.At items (a ++ b) i → b = [])
      ∧ (∀ (d : Declaration) x, d.detection? = some x
        ↔ propertyFeature? d.property d.valueText = some x.featureId
          ∧ x.location = ⟨d.place.line, d.place.column, none, none⟩
          ∧ x.value = d.property ++ ": " ++ d.valueText
          ∧ x.supportKey = some ("css.properties." ++ d.property))
      ∧ detect content = Reader.standard.detect content
      ∧ let items := Reader.standard.sheet content.toList
        (∀ a, ¬ Reader.standard.At items a .error) → ∀ a b d e,
          Reader.standard.At items a (.declaration d) → Reader.standard.At items b (.declaration e) →
            d.head ∉ Component.placedList e.value := by
  refine ⟨fun r => ⟨fun herror => ?_, fun hfree => ?_, ?_⟩,
    fun d x => Declaration.detection?_eq_some_iff, detect_eq_standard content, ?_⟩
  · rw [Reader.detect, Course.whole?_eq_none_iff.mpr (Reader.stopped_walk_iff.mpr herror)]
    rfl
  · obtain ⟨places, hordered, hmem, hwhole⟩ := Reader.exists_places hfree
    refine ⟨places, hordered, hmem, ?_⟩
    rw [Reader.detect, hwhole]
    simp only [List.filterMap_map]
    rfl
  · intro a b d i hd hi
    exact Reader.eq_nil_of_at_append hd hi
  · intro items hfree a b d e hd he
    obtain ⟨places, -, hmem, hwhole⟩ := Reader.exists_places hfree
    have hall : declarations? items = some (places.map Prod.snd) :=
      (declarations?_eq_walk items).trans hwhole
    exact head_notMem_value hall (List.mem_map_of_mem ((hmem a d).mpr hd))
      (List.mem_map_of_mem ((hmem b e).mpr he))

/-- An error in a block hides what is shown by a declaration met before the block. -/
theorem detect_in_order_of_addresses_of_late_error :
    let d : Declaration :=
      ⟨⟨1, 1⟩, "color-scheme".toList, [.token ⟨1, 14⟩ (.ident "dark".toList)]⟩
    let r : Reader :=
      { sheet := fun _ => [.declaration d, .rule (some d.value)]
        block := fun _ => [.error]
        smaller := by simp }
    d.detection? = some ⟨"css-color-scheme", ⟨1, 1, none, none⟩, "color-scheme: dark",
        some "css.properties.color-scheme"⟩
      ∧ r.detect "" = ⟨[], 1⟩ := by
  intro d r
  have herror : r.At (r.sheet "".toList) [1, 0] .error := .inside rfl (.here rfl)
  obtain ⟨hread, hshown, -⟩ := detect_in_order_of_addresses ""
  refine ⟨(hshown d _).mpr ?_, (hread r).1 ⟨_, herror⟩⟩
  decide +kernel

end WebAudit.Style
