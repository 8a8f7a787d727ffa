import Mathlib
import WebAudit.Proofs.ScriptOrder
import WebAudit.Script.Parse

/-!
# Laws of syntax trees

A law is a property of nodes that holds however the grammar makes a node. Rules are programs that keep a
place in a text and can fail, so that a rule obeys a law is a triple: from a place in the text it comes to
a place in the text, and what it gives keeps the law. There is one such triple for every rule, tagged
`spec`, and the triple of a rule that is made from others follows from theirs. The rules that refer to no
grammar are here.

* `Law`: what makes a property a law;
* `Rule.Obeys`: a rule obeys a law;
* `Rule.obeys_iff`: the same, said by the runs of the rule;
* `Rule.number_obeys`: numbers are the one place where a law looks at the text.
-/

namespace WebAudit.Script

open Std.Do

set_option mvcgen.warning false

/-! ## Rules as programs -/

namespace Rule

section

variable {α β : Type}

theorem bind_apply (p : Rule α) (f : α → Rule β) (c : Cursor) :
    (p >>= f) c = (p c).bind fun r => f r.1 r.2 := by
  simp only [bind]
  cases p c <;> rfl

theorem orElse_apply (p q : Rule α) (c : Cursor) : (p <|> q) c = (p c).or (q c) := by
  show p.orElse (fun _ => q) c = _
  rw [Rule.orElse]
  cases p c <;> rfl

end

instance : LawfulMonad Rule := LawfulMonad.mk' Rule
  (by
    intro α p
    funext c
    show (p >>= fun a => pure (id a)) c = p c
    rw [bind_apply]
    cases p c <;> rfl)
  (by
    intro α β a f
    rfl)
  (by
    intro α β γ p f g
    funext c
    simp only [bind_apply]
    cases p c <;> rfl)

/-- A rule is a program with a cursor as its state that can fail. -/
instance : WP Rule (.arg Cursor (.except PUnit .pure)) :=
  inferInstanceAs (WP (StateT Cursor Option) _)

instance : WPMonad Rule (.arg Cursor (.except PUnit .pure)) where
  wp_pure _ := rfl
  wp_bind p f := by
    ext Q : 1
    funext c
    show (wp (m := Option) ((p >>= f) c)).apply _
      = (wp (m := Option) (p c)).apply (fun r => (wp (f r.1)).apply Q r.2, Q.2)
    rw [bind_apply]
    cases p c <;> rfl

end Rule

/-! ## Laws of trees -/

/-- A property of the nodes of a text that holds however the grammar makes a node: of a node that is no
number if it holds of its children, in every role, and of a number token. -/
structure Law where
  source : List Char
  Holds : Node → Prop
  make {k : Kind} {l : Option Label} {s : Span} {ns : List Node} :
    k ≠ .number → (∀ n ∈ ns, Holds n) → Holds (.mk k l s ns)
  relabel {n : Node} (l : Label) : Holds n → Holds (n.withLabel l)
  number {start : Nat} : 0 < Number.length (source.drop start) →
    Holds (.leaf .number start (start + Number.length (source.drop start)))

/-- A cursor stands in a text: what is left is the text from the offset on. -/
def Cursor.In (source : List Char) (c : Cursor) : Prop :=
  c.rest = source.drop c.pos

namespace Cursor.In

variable {source : List Char} {c : Cursor}

theorem advance (hc : c.In source) (n : Nat) : (c.advance n).In source := by
  show c.rest.drop n = source.drop (c.pos + n)
  rw [hc, List.drop_drop]

theorem skipTrivia (hc : c.In source) (afterOperand : Bool) :
    (c.skipTrivia afterOperand).In source := by
  fun_induction Cursor.skipTrivia afterOperand c with
  | case1 => exact hc
  | case2 => exact hc
  | case3 c _ _ _ n _ ih => exact ih (hc.advance (n + 1))

theorem autoSemicolon? (hc : c.In source) (d : Dialect) (afterOperand : Bool) :
    ∀ c' ∈ c.autoSemicolon? d afterOperand, c'.In source := by
  fun_induction Cursor.autoSemicolon? d afterOperand c with
  | case1 c => simpa using hc
  | case2 => simp
  | case3 => rename_i ih; exact ih (hc.advance _)
  | case4 => simp

end Cursor.In

/-- What a rule can give, and when it keeps a law. -/
class Lawful (α : Type) where
  Keeps : Law → α → Prop

export Lawful (Keeps)

instance : Lawful Cursor := ⟨fun law c => c.In law.source⟩
instance : Lawful Node := ⟨fun law n => law.Holds n⟩
instance : Lawful Unit := ⟨fun _ _ => True⟩
instance : Lawful Bool := ⟨fun _ _ => True⟩
instance : Lawful Nat := ⟨fun _ _ => True⟩
instance : Lawful Char := ⟨fun _ _ => True⟩
instance : Lawful String := ⟨fun _ _ => True⟩
instance {α : Type} [Lawful α] : Lawful (List α) := ⟨fun law as => ∀ a ∈ as, Keeps law a⟩
instance {α : Type} [Lawful α] : Lawful (Option α) := ⟨fun law o => ∀ a ∈ o, Keeps law a⟩
instance {α β : Type} [Lawful α] [Lawful β] : Lawful (α × β) :=
  ⟨fun law p => Keeps law p.1 ∧ Keeps law p.2⟩
instance : Lawful Operand := ⟨fun law e => Keeps law e.node⟩

/-- A rule obeys a law: from a cursor in the text, what it gives keeps the law, and the cursor after it
is in the text too. -/
abbrev Rule.Obeys {α : Type} [Lawful α] (law : Law) (p : Rule α) : Prop :=
  ⦃fun c => ⌜c.In law.source⌝⦄ p ⦃⇓? a c => ⌜c.In law.source ∧ Keeps law a⌝⦄

variable {law : Law} {α β : Type} [Lawful α] [Lawful β]

@[simp] theorem keeps_unit (u : Unit) : Keeps law u := trivial
@[simp] theorem keeps_bool (b : Bool) : Keeps law b := trivial
@[simp] theorem keeps_nat (n : Nat) : Keeps law n := trivial
@[simp] theorem keeps_char (c : Char) : Keeps law c := trivial
@[simp] theorem keeps_string (s : String) : Keeps law s := trivial
@[simp] theorem keeps_cursor {c : Cursor} : Keeps law c ↔ c.In law.source := .rfl
@[simp] theorem keeps_operand {e : Operand} : Keeps law e ↔ Keeps law e.node := .rfl

@[simp] theorem keeps_none : Keeps law (none : Option α) := by
  simp [Keeps]

@[simp] theorem keeps_some {a : α} : Keeps law (some a) ↔ Keeps law a := by
  simp [Keeps]

@[simp] theorem keeps_pair {p : α × β} : Keeps law p ↔ Keeps law p.1 ∧ Keeps law p.2 := .rfl

@[simp] theorem keeps_nil : Keeps law ([] : List α) :=
  List.forall_mem_nil _

@[simp] theorem keeps_cons {a : α} {as : List α} :
    Keeps law (a :: as) ↔ Keeps law a ∧ Keeps law as :=
  List.forall_mem_cons

@[simp] theorem keeps_append {as bs : List α} :
    Keeps law (as ++ bs) ↔ Keeps law as ∧ Keeps law bs :=
  List.forall_mem_append

@[simp] theorem keeps_reverse {as : List α} : Keeps law as.reverse ↔ Keeps law as := by
  simp [Keeps]

@[simp] theorem keeps_flatten {as : List (List α)} : Keeps law as.flatten ↔ Keeps law as := by
  constructor
  · intro h l hl a ha
    exact h a (List.mem_flatten_of_mem hl ha)
  · intro h a ha
    obtain ⟨l, hl, ha⟩ := List.mem_flatten.mp ha
    exact h l hl a ha

@[simp] theorem keeps_toList {o : Option α} : Keeps law o.toList ↔ Keeps law o := by
  simp [Keeps]

@[simp] theorem keeps_getD_nil {o : Option (List α)} : Keeps law (o.getD []) ↔ Keeps law o := by
  cases o <;> simp

@[simp] theorem keeps_branch {k : Kind} {start stop : Nat} {ns : List Node} (hk : k ≠ .number)
    (hns : Keeps law ns) : Keeps law (Node.branch k start stop ns) :=
  law.make hk hns

@[simp] theorem keeps_leaf {k : Kind} {start stop : Nat} (hk : k ≠ .number) :
    Keeps law (Node.leaf k start stop) :=
  law.make hk (List.forall_mem_nil _)

@[simp] theorem keeps_withLabel {l : Label} {n : Node} (hn : Keeps law n) :
    Keeps law (n.withLabel l) :=
  law.relabel l hn

@[simp] theorem Operand.node_plain (n : Node) : (Operand.plain n).node = n := rfl
@[simp] theorem Operand.node_value (n : Node) : (Operand.value n).node = n := rfl
@[simp] theorem Operand.node_place (n : Node) : (Operand.place n).node = n := rfl

/-! ## Small rules -/

namespace Rule

/-- A rule obeys a law if all its runs that do not fail do. -/
theorem obeys_iff {p : Rule α} :
    p.Obeys law
      ↔ ∀ c, c.In law.source → ∀ a c', p c = some (a, c') → c'.In law.source ∧ Keeps law a := by
  have hwp (c : Cursor) : (wp⟦p⟧ (⇓? a c => ⌜c.In law.source ∧ Keeps law a⌝) c).down
      ↔ ∀ a c', p c = some (a, c') → c'.In law.source ∧ Keeps law a := by
    show ((wp (m := Option) (p c)).apply _).down ↔ _
    cases p c with
    | none => exact ⟨fun _ _ _ h => (by cases h), fun _ => trivial⟩
    | some r => exact ⟨fun h _ _ heq => (by cases heq; exact h), fun h => h _ _ rfl⟩
  exact forall_congr' fun c => imp_congr .rfl (hwp c)

@[spec]
theorem fail_obeys : (fail : Rule α).Obeys law :=
  obeys_iff.mpr fun _ _ _ _ h => by cases h

@[spec]
theorem orElse_obeys {p q : Rule α} (hp : p.Obeys law) (hq : q.Obeys law) :
    (p <|> q).Obeys law := by
  rw [obeys_iff] at hp hq ⊢
  intro c hc a c' h
  rw [orElse_apply, Option.or_eq_some_iff] at h
  rcases h with h | ⟨-, h⟩
  · exact hp c hc a c' h
  · exact hq c hc a c' h

@[spec]
theorem cursor_obeys : cursor.Obeys law :=
  obeys_iff.mpr fun c hc _ _ h => by cases h; exact ⟨hc, hc⟩

@[spec]
theorem position_obeys : position.Obeys law :=
  obeys_iff.mpr fun c hc _ _ h => by cases h; exact ⟨hc, trivial⟩

@[spec]
theorem ahead_obeys : ahead.Obeys law :=
  obeys_iff.mpr fun c hc _ _ h => by cases h; exact ⟨hc, fun _ _ => trivial⟩

@[spec]
theorem moveTo_obeys {c : Cursor} (hc : Keeps law c) : (moveTo c).Obeys law :=
  obeys_iff.mpr fun _ _ _ _ h => by cases h; exact ⟨hc, trivial⟩

@[spec]
theorem step_obeys (n : Nat) : (step n).Obeys law :=
  obeys_iff.mpr fun c hc _ _ h => by cases h; exact ⟨hc.advance n, trivial⟩

@[spec]
theorem attempt_obeys {p : Rule α} (hp : p.Obeys law) : (attempt p).Obeys law := by
  rw [obeys_iff] at hp ⊢
  intro c hc a c' h
  rw [attempt] at h
  cases hpc : p c with
  | none =>
    simp only [hpc, Option.some.injEq, Prod.mk.injEq] at h
    obtain ⟨rfl, rfl⟩ := h
    exact ⟨hc, keeps_none⟩
  | some r =>
    simp only [hpc, Option.some.injEq, Prod.mk.injEq] at h
    obtain ⟨rfl, rfl⟩ := h
    simpa using hp c hc _ _ hpc

@[spec]
theorem require_obeys (b : Bool) : (require b).Obeys law := by
  refine obeys_iff.mpr fun c hc _ _ h => ?_
  cases b <;> cases h
  exact ⟨hc, trivial⟩

omit [Lawful α] in
/-- What is only tried is not read. -/
@[spec]
theorem fits_obeys (p : Rule α) : (fits p).Obeys law :=
  obeys_iff.mpr fun c hc _ _ h => by cases h; exact ⟨hc, trivial⟩

theorem loopWith_obeys {body : α → Rule (Option α)}
    (hbody : ∀ a, Keeps law a → (body a).Obeys law) (n : Nat) {a : α} (ha : Keeps law a) :
    (loopWith body n a).Obeys law := by
  induction n generalizing a with
  | zero => exact obeys_iff.mpr fun c hc _ _ h => by cases h; exact ⟨hc, ha⟩
  | succ n ih =>
    refine obeys_iff.mpr fun c hc b c' h => ?_
    rw [loopWith] at h
    beta_reduce at h
    have hround := obeys_iff.mp (hbody a ha) c hc
    split at h
    · cases h
    · cases h
      exact ⟨hc, ha⟩
    · next a' c'' hb =>
      obtain ⟨hc'', ha'⟩ := hround _ _ hb
      exact obeys_iff.mp (ih (keeps_some.mp ha')) c'' hc'' b c' h

@[spec]
theorem loop_obeys {body : α → Rule (Option α)} {a : α}
    (hbody : ∀ a, Keeps law a → (body a).Obeys law) (ha : Keeps law a) :
    (loop body a).Obeys law :=
  obeys_iff.mpr fun c hc => obeys_iff.mp (loopWith_obeys hbody _ ha) c hc

@[spec]
theorem many_obeys {p : Rule α} (hp : p.Obeys law) : (many p).Obeys law := by
  mvcgen [many, hp]
  all_goals simp_all

/-! ## Tokens -/

@[spec]
theorem blank_obeys : blank.Obeys law :=
  obeys_iff.mpr fun c hc _ _ h => by cases h; exact ⟨hc.skipTrivia false, trivial⟩

@[spec]
theorem gap_obeys : gap.Obeys law :=
  obeys_iff.mpr fun c hc _ _ h => by cases h; exact ⟨hc.skipTrivia true, trivial⟩

@[spec]
theorem exactly_obeys (s : String) : (exactly s).Obeys law := by
  mvcgen [exactly]
  all_goals simp_all

@[spec]
theorem punct_obeys (s : String) : (punct s).Obeys law := by
  mvcgen [punct]
  all_goals simp_all

@[spec]
theorem isNext_obeys (s : String) : (isNext s).Obeys law :=
  fits_obeys _

@[spec]
theorem peekWord_obeys : peekWord.Obeys law :=
  obeys_iff.mpr fun c hc _ _ h => by cases h; exact ⟨hc, trivial⟩

@[spec]
theorem peekChar_obeys : peekChar.Obeys law :=
  obeys_iff.mpr fun c hc _ _ h => by cases h; exact ⟨hc, fun _ _ => trivial⟩

@[spec]
theorem word_obeys : word.Obeys law := by
  mvcgen [word]
  all_goals simp_all

@[spec]
theorem keyword_obeys (s : String) : (keyword s).Obeys law := by
  mvcgen [keyword]
  all_goals simp_all

@[spec]
theorem optionalKeyword_obeys (s : String) : (optionalKeyword s).Obeys law := by
  mvcgen [optionalKeyword]
  all_goals simp_all

@[spec]
theorem optionalPunct_obeys (s : String) : (optionalPunct s).Obeys law := by
  mvcgen [optionalPunct]
  all_goals simp_all

@[spec]
theorem mayEnd_obeys (d : Dialect) (afterOperand : Bool) : (mayEnd d afterOperand).Obeys law :=
  obeys_iff.mpr fun c hc _ _ h => by cases h; exact ⟨hc, trivial⟩

@[spec]
theorem semicolon_obeys (d : Dialect) (afterOperand : Bool) :
    (semicolon d afterOperand).Obeys law := by
  refine obeys_iff.mpr fun c hc _ _ h => ?_
  have hend := hc.autoSemicolon? d afterOperand
  rw [semicolon] at h
  split at h
  · next heq =>
    cases h
    exact ⟨hend _ heq, trivial⟩
  · exact obeys_iff.mp (punct_obeys ";") c hc _ _ h

@[spec]
theorem closingSemicolon_obeys (d : Dialect) (afterOperand : Bool) :
    (closingSemicolon d afterOperand).Obeys law := by
  refine obeys_iff.mpr fun c hc _ _ h => ?_
  have hend := hc.autoSemicolon? d afterOperand
  cases h
  cases heq : c.autoSemicolon? d afterOperand with
  | none => exact ⟨hc, trivial⟩
  | some c' => exact ⟨hend c' heq, trivial⟩

@[spec]
theorem commaList_obeys {p : Rule α} (hp : p.Obeys law) : (commaList p).Obeys law := by
  mvcgen [commaList, hp]
  all_goals simp_all

@[spec]
theorem sparseList_obeys {item : Rule α} (hitem : item.Obeys law) (close : String) :
    (sparseList item close).Obeys law := by
  mvcgen [sparseList, hitem]
  all_goals simp_all

@[spec]
theorem closedList_obeys {item : Rule α} (hitem : item.Obeys law) (close : String) :
    (closedList item close).Obeys law := by
  mvcgen [closedList, hitem]
  all_goals simp_all

@[spec]
theorem string_obeys : string.Obeys law := by
  mvcgen [string]
  all_goals simp_all

@[spec]
theorem privateName_obeys : privateName.Obeys law := by
  mvcgen [privateName]
  all_goals simp_all

@[spec]
theorem number_obeys : number.Obeys law := by
  refine obeys_iff.mpr fun c hc n c' h => ?_
  obtain ⟨here, hhere⟩ : ∃ here, c.skipTrivia false = here := ⟨_, rfl⟩
  have hin : here.In law.source := hhere ▸ hc.skipTrivia false
  simp only [number, blank, position, ahead, require, step, bind, pure, hhere] at h
  by_cases hpos : 0 < Number.length here.rest
  · simp only [hpos, decide_true, if_true, Option.some.injEq, Prod.mk.injEq] at h
    obtain ⟨rfl, rfl⟩ := h
    refine ⟨hin.advance _, ?_⟩
    rw [hin] at hpos ⊢
    exact law.number hpos
  · simp [hpos] at h

end Rule

end WebAudit.Script
