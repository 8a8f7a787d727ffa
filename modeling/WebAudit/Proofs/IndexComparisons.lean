import WebAudit.Proofs.AdviceLevels
import WebAudit.Proofs.Utf8

/-!
# Comparisons of an index

The idiom that looks for an index and compares it with minus one takes whatever stands between the call and
the comparison. Three of its runs can share blanks, so the order in which lengths are tried could matter. It
does not: in a line the run of the argument takes all it can, so a match goes on to the last comparison of
the line (`ends_at_last_tail`). Behind it there is nothing left to find, and a line has one match at most.

* `isCall_iff`, `fits_tailPattern_iff`: what the idiom fits;
* `ends_at_last_tail`: where a match ends;
* `index_comparison_spans_line`: the match of a line, and the advice on it.
-/

namespace WebAudit.Upgrade

/-! ## Calls and comparisons -/

/-- The start of a call that looks for an index, each character with all that stand for it where case
does not matter. -/
def callLetters : List (List Char) :=
  [['.'], ['i', 'I', '\u0130', '\u0131'], ['n', 'N'], ['d', 'D'], ['e', 'E'], ['x', 'X'], ['o', 'O'],
    ['f', 'F'], ['(']]

/-- The start of a call that looks for an index. -/
def IsCall (cs : List Char) : Prop :=
  List.Forall₂ (· ∈ ·) cs callLetters

/-- The end of a call with a comparison with minus one behind it. -/
inductive IsTail : List Char → Prop where
  | intro (gap : List Char) (op : Char) (more space : List Char)
      (hgap : ∀ c ∈ gap, Text.isBlank c = true) (hop : op = '>' ∨ op = '!' ∨ op = '=')
      (hmore : more = [] ∨ more = ['=']) (hspace : ∀ c ∈ space, Text.isBlank c = true) :
      IsTail (')' :: (gap ++ op :: '=' :: (more ++ (space ++ ['-', '1']))))

/-- A piece of a text, of the kind that is said, begins at one place and ends at another. -/
def Stands (P : List Char → Prop) (text : List Char) (start stop : Nat) : Prop :=
  ∃ pre piece post, text = pre ++ piece ++ post ∧ P piece ∧ pre.length = start
    ∧ start + piece.length = stop

theorem IsCall.length_eq {cs : List Char} (h : IsCall cs) : cs.length = 9 :=
  List.Forall₂.length_eq h

/-! ## Tails -/

/-- Blanks end where the first other character stands. -/
theorem blanks_append_inj {g g' r r' : List Char} {c c' : Char}
    (hg : ∀ x ∈ g, Text.isBlank x = true) (hg' : ∀ x ∈ g', Text.isBlank x = true)
    (hc : Text.isBlank c = false) (hc' : Text.isBlank c' = false)
    (h : g ++ c :: r = g' ++ c' :: r') : g = g' ∧ c :: r = c' :: r' := by
  have hstart := congrArg (List.takeWhile Text.isBlank) h
  rw [List.takeWhile_append_of_pos hg, List.takeWhile_append_of_pos hg',
    List.takeWhile_cons_of_neg (by simp [hc]), List.takeWhile_cons_of_neg (by simp [hc']),
    List.append_nil, List.append_nil] at hstart
  subst hstart
  exact ⟨rfl, List.append_cancel_left h⟩

theorem not_isBlank_of_op {op : Char} (h : op = '>' ∨ op = '!' ∨ op = '=') :
    Text.isBlank op = false := by
  rcases h with rfl | rfl | rfl <;> decide

/-- What stands behind the equals signs begins with no equals sign. -/
theorem ne_equals_of_space {space r r' : List Char} (h : ∀ c ∈ space, Text.isBlank c = true) :
    space ++ '-' :: r ≠ '=' :: r' := by
  cases space with
  | nil =>
    intro heq
    cases heq
  | cons c space =>
    intro heq
    have hc : Text.isBlank c = true := h c List.mem_cons_self
    rw [(List.cons.inj heq).1] at hc
    revert hc
    decide

namespace IsTail

/-- **At most one tail begins at a place.** -/
theorem eq_of_append_eq {t t' r r' : List Char} (ht : IsTail t) (ht' : IsTail t')
    (h : t ++ r = t' ++ r') : t = t' := by
  obtain ⟨gap, op, more, space, hgap, hop, hmore, hspace⟩ := ht
  obtain ⟨gap', op', more', space', hgap', hop', hmore', hspace'⟩ := ht'
  simp only [List.cons_append, List.append_assoc, List.cons.injEq, true_and] at h
  obtain ⟨rfl, hbehind⟩ :=
    blanks_append_inj hgap hgap' (not_isBlank_of_op hop) (not_isBlank_of_op hop') h
  simp only [List.cons.injEq, true_and] at hbehind
  obtain ⟨rfl, hbehind⟩ := hbehind
  obtain rfl : more = more' := by
    rcases hmore with rfl | rfl <;> rcases hmore' with rfl | rfl
    · rfl
    · exact absurd hbehind (ne_equals_of_space hspace)
    · exact absurd hbehind.symm (ne_equals_of_space hspace')
    · rfl
  obtain ⟨rfl, -⟩ := blanks_append_inj hspace hspace' (by decide) (by decide)
    (List.append_cancel_left hbehind)
  rfl

theorem exists_cons {t : List Char} (ht : IsTail t) : ∃ r, t = ')' :: r ∧ ')' ∉ r := by
  obtain ⟨gap, op, more, space, hgap, hop, hmore, hspace⟩ := ht
  refine ⟨_, rfl, ?_⟩
  have hblank : ∀ cs : List Char, (∀ c ∈ cs, Text.isBlank c = true) → ')' ∉ cs := by
    intro cs hcs hmem
    have := hcs _ hmem
    revert this
    decide
  have hop : ')' ≠ op := by rcases hop with rfl | rfl | rfl <;> decide
  have hmore : ')' ∉ more := by rcases hmore with rfl | rfl <;> decide
  simp [hblank gap hgap, hblank space hspace, hop, hmore]

end IsTail

/-! ## Places of pieces -/

section

variable {P : List Char → Prop} {text : List Char} {start stop : Nat}

theorem stands_iff :
    Stands P text start stop ↔ start ≤ text.length
      ∧ ∃ piece post, text.drop start = piece ++ post ∧ P piece ∧ start + piece.length = stop := by
  constructor
  · rintro ⟨pre, piece, post, rfl, hP, rfl, hstop⟩
    refine ⟨by simp, piece, post, ?_, hP, hstop⟩
    rw [List.append_assoc, List.drop_left]
  · rintro ⟨hstart, piece, post, hdrop, hP, hstop⟩
    refine ⟨text.take start, piece, post, ?_, hP, List.length_take_of_le hstart, hstop⟩
    rw [List.append_assoc, ← hdrop, List.take_append_drop]

theorem stands_drop_iff {k : Nat} (hk : k ≤ text.length) :
    Stands P (text.drop k) start stop ↔ Stands P text (k + start) (k + stop) := by
  rw [stands_iff, stands_iff, List.length_drop, List.drop_drop]
  simp only [Nat.add_assoc, Nat.add_left_cancel_iff]
  exact and_congr_left' (by omega)

theorem stop_eq_of_call (h : Stands IsCall text start stop) : stop = start + 9 := by
  obtain ⟨-, x, -, -, hx, -, hb⟩ := h
  rw [hx.length_eq] at hb
  exact hb.symm

/-- Of two tails the one that begins first ends first. -/
theorem stop_le_of_tails {c d c' d' : Nat} (h : Stands IsTail text c d) (h' : Stands IsTail text c' d')
    (hle : c' ≤ c) : d' ≤ d := by
  obtain ⟨-, t, r, hdrop, ht, hd⟩ := stands_iff.mp h
  obtain ⟨-, t', r', hdrop', ht', hd'⟩ := stands_iff.mp h'
  rcases Nat.eq_or_lt_of_le hle with rfl | hlt
  · have heq : t = t' := ht.eq_of_append_eq ht' (hdrop.symm.trans hdrop')
    exact Nat.le_of_eq (by rw [← hd, ← hd', heq])
  · -- a tail has no other parenthesis than the one it begins with, so the two have nothing in common
    by_contra hgt
    obtain ⟨k, rfl⟩ : ∃ k, c = c' + (k + 1) := ⟨c - c' - 1, by omega⟩
    obtain ⟨s', rfl, hs'⟩ := ht'.exists_cons
    obtain ⟨s, rfl, -⟩ := ht.exists_cons
    rw [List.length_cons] at hd'
    have hinside : s'.drop k ++ r' = ')' :: (s ++ r) := by
      rw [← List.drop_append_of_le_length (by omega), ← List.cons_append, ← hdrop, ← List.drop_drop,
        hdrop']
      rfl
    obtain ⟨x, xs, hx⟩ := List.exists_cons_of_ne_nil (List.length_pos_iff.mp
      (by rw [List.length_drop]; omega : 0 < (s'.drop k).length))
    rw [hx] at hinside
    obtain rfl : x = ')' := (List.cons.inj hinside).1
    exact hs' (List.mem_of_mem_drop (hx ▸ List.mem_cons_self))

/-- A piece that stands in front of another is followed by it, with what is in between. -/
theorem exists_between {Q : List Char → Prop} {a b c d : Nat} (h : Stands P text a b)
    (h' : Stands Q text c d) (hlt : b < c) :
    ∃ pre x mid y post, text = pre ++ (x ++ mid ++ y) ++ post ∧ P x ∧ mid ≠ [] ∧ Q y
      ∧ pre.length = a := by
  obtain ⟨pre, x, rest, htext, hx, hpre, hb⟩ := h
  obtain ⟨pre', y, post, htext', hy, hpre', -⟩ := h'
  have hlength : (pre ++ x).length ≤ pre'.length := by
    rw [List.length_append]
    omega
  have hbefore : pre' <+: text := ⟨y ++ post, by rw [htext', List.append_assoc]⟩
  obtain ⟨mid, rfl⟩ : pre ++ x <+: pre' :=
    List.prefix_of_prefix_length_le ⟨rest, htext.symm⟩ hbefore hlength
  refine ⟨pre, x, mid, y, post, ?_, hx, ?_, hy, hpre⟩
  · rw [htext']
    simp only [List.append_assoc]
  · rintro rfl
    rw [List.append_nil, List.length_append] at hpre'
    omega

end

/-! ## The pattern -/

/-- A character that is changed where case does not matter is a capital, or one of four others. -/
theorem foldChar_cases (c : Char) :
    foldChar c = c ∨ (foldChar c).toNat = c.toNat + 32 ∧ 65 ≤ c.toNat ∧ c.toNat ≤ 90
      ∨ foldChar c = 'k' ∨ foldChar c = 's' ∨ (c = '\u0130' ∨ c = '\u0131') ∧ foldChar c = 'i' := by
  unfold foldChar
  split
  next hc =>
    obtain ⟨hlow, hhigh⟩ : 65 ≤ c.toNat ∧ c.toNat ≤ 90 := by
      simpa [Char.le_def, UInt32.le_iff_toNat_le] using hc
    exact .inr (.inl ⟨Text.toNat_ofNat_of_lt (by omega), hlow, hhigh⟩)
  · split
    · exact .inr (.inr (.inl rfl))
    · split
      · exact .inr (.inr (.inr (.inl rfl)))
      · split
        next hc => exact .inr (.inr (.inr (.inr ⟨by simpa using hc, rfl⟩)))
        · exact .inl rfl

/-- A symbol is fitted by itself alone. -/
theorem foldChar_eq_symbol_iff {a c : Char} (ha : a.toNat < 97) (hfold : foldChar a = a) :
    foldChar c = a ↔ c = a := by
  constructor
  · intro h
    rcases foldChar_cases c with hsame | ⟨hfold, hlow, -⟩ | hc | hc | ⟨-, hc⟩
    · exact hsame.symm.trans h
    · rw [h] at hfold
      omega
    · obtain rfl : a = 'k' := h.symm.trans hc
      exact absurd ha (by decide)
    · obtain rfl : a = 's' := h.symm.trans hc
      exact absurd ha (by decide)
    · obtain rfl : a = 'i' := h.symm.trans hc
      exact absurd ha (by decide)
  · rintro rfl
    exact hfold

/-- A letter is fitted by itself and by its capital, and an i by two more. -/
theorem eq_of_foldChar_letter (a capital : Char) {c : Char} (ha : capital.toNat + 32 = a.toNat)
    (hother : a ∉ ['k', 's']) (h : foldChar c = a) :
    c = a ∨ c = capital ∨ (c = '\u0130' ∨ c = '\u0131') ∧ a = 'i' := by
  rcases foldChar_cases c with hsame | ⟨hfold, -⟩ | hc | hc | ⟨hc, hi⟩
  · exact .inl (hsame.symm.trans h)
  · rw [h, ← ha] at hfold
    exact .inr (.inl (Char.toNat_inj.mp (by omega)))
  · rw [h.symm.trans hc] at hother
    exact absurd hother (by decide)
  · rw [h.symm.trans hc] at hother
    exact absurd hother (by decide)
  · exact .inr (.inr ⟨hc, h.symm.trans hi⟩)

theorem mem_letter_iff (a capital : Char) {c : Char}
    (h : capital.toNat + 32 = a.toNat ∧ a ∉ ['k', 's'] ∧ a ≠ 'i' ∧ foldChar a = a
      ∧ foldChar capital = a) : c ∈ [a, capital] ↔ foldChar c = a := by
  obtain ⟨ha, hother, hi, hfold, hcapital⟩ := h
  rw [List.mem_pair]
  constructor
  · rintro (rfl | rfl)
    · exact hfold
    · exact hcapital
  · intro h
    rcases eq_of_foldChar_letter a capital ha hother h with h | h | ⟨-, h⟩
    · exact .inl h
    · exact .inr h
    · exact absurd h hi

theorem mem_letter_i_iff {c : Char} :
    c ∈ ['i', 'I', '\u0130', '\u0131'] ↔ foldChar c = 'i' := by
  simp only [List.mem_cons, List.not_mem_nil, or_false]
  constructor
  · rintro (rfl | rfl | rfl | rfl) <;> decide
  · intro h
    rcases eq_of_foldChar_letter 'i' 'I' rfl (by decide) h with h | h | ⟨h, -⟩
    · exact .inl h
    · exact .inr (.inl h)
    · exact .inr (.inr h)

/-- What is fitted character by character. -/
theorem forall₂_mem_iff {letters : List (List Char)} {w cs : List Char}
    (h : List.Forall₂ (fun v a => ∀ c, c ∈ v ↔ foldChar c = a) letters w) :
    List.Forall₂ (· ∈ ·) cs letters ↔ cs.map foldChar = w := by
  induction h generalizing cs with
  | nil => simp
  | cons hv _ ih =>
    cases cs with
    | nil => simp
    | cons c cs => simp [List.forall₂_cons, hv, ih]

/-- **A call is what the first part of the idiom fits.** -/
theorem isCall_iff {cs : List Char} :
    IsCall cs ↔ cs.map foldChar = ".indexOf(".toList.map foldChar := by
  have hword : ".indexOf(".toList.map foldChar = ['.', 'i', 'n', 'd', 'e', 'x', 'o', 'f', '('] := by
    decide
  have hsymbol : ∀ a : Char, a.toNat < 97 ∧ foldChar a = a → ∀ c, c ∈ [a] ↔ foldChar c = a :=
    fun a ha c => List.mem_singleton.trans (foldChar_eq_symbol_iff ha.1 ha.2).symm
  rw [hword]
  refine forall₂_mem_iff (.cons (hsymbol '.' (by decide)) (.cons (fun c => mem_letter_i_iff) ?_))
  refine .cons (fun c => mem_letter_iff 'n' 'N' (by decide)) ?_
  refine .cons (fun c => mem_letter_iff 'd' 'D' (by decide)) ?_
  refine .cons (fun c => mem_letter_iff 'e' 'E' (by decide)) ?_
  refine .cons (fun c => mem_letter_iff 'x' 'X' (by decide)) ?_
  refine .cons (fun c => mem_letter_iff 'o' 'O' (by decide)) ?_
  refine .cons (fun c => mem_letter_iff 'f' 'F' (by decide)) ?_
  exact .cons (hsymbol '(' (by decide)) .nil

/-- What the idiom has behind the argument. -/
def tailPattern : Pattern :=
  [.char ')', blanks, .run (fun c => c == '>' || c == '!' || c == '=') 1 (some 1), .char '=',
    .run (· == '=') 0 (some 1), blanks, .char '-', .char '1']

theorem fits_symbol_cons_iff {a : Char} {ps : Pattern} {cs : List Char} (ha : a.toNat < 97)
    (hfold : foldChar a = a) :
    Pattern.Fits (.char a :: ps) cs ↔ ∃ b, cs = a :: b ∧ Pattern.Fits ps b := by
  simp only [Pattern.Fits, Part.fits_char_iff]
  constructor
  · rintro ⟨_, b, rfl, ⟨c, rfl, hc⟩, hb⟩
    exact ⟨b, by rw [(foldChar_eq_symbol_iff ha hfold).mp (hc.trans hfold)]; rfl, hb⟩
  · rintro ⟨b, rfl, hb⟩
    exact ⟨[a], b, rfl, ⟨a, rfl, rfl⟩, hb⟩

theorem fits_blanks_cons_iff {ps : Pattern} {cs : List Char} :
    Pattern.Fits (blanks :: ps) cs
      ↔ ∃ g b, cs = g ++ b ∧ (∀ c ∈ g, Text.isBlank c = true) ∧ Pattern.Fits ps b := by
  simp [Pattern.Fits, Part.Fits, blanks]

theorem fits_optional_iff {x : Char} {cs : List Char} :
    (Part.run (· == x) 0 (some 1)).Fits cs ↔ cs = [] ∨ cs = [x] := by
  constructor
  · rintro ⟨hfits, -, hmost⟩
    rcases Nat.le_one_iff_eq_zero_or_eq_one.mp (hmost 1 rfl) with hzero | hone
    · exact .inl (List.eq_nil_of_length_eq_zero hzero)
    · obtain ⟨c, rfl⟩ := List.length_eq_one_iff.mp hone
      exact .inr (by simpa using hfits c)
  · rintro (rfl | rfl)
    · exact ⟨List.forall_mem_nil _, Nat.le_refl _, by simp⟩
    · exact ⟨by simp, Nat.zero_le _, by simp⟩

theorem fits_tailPattern_iff {t : List Char} : tailPattern.Fits t ↔ IsTail t := by
  constructor
  · intro h
    obtain ⟨_, rfl, h₁⟩ := (fits_symbol_cons_iff (by decide) (by decide)).mp h
    obtain ⟨gap, _, rfl, hgap, h₂⟩ := fits_blanks_cons_iff.mp h₁
    obtain ⟨_, _, rfl, hone, h₃⟩ := h₂
    obtain ⟨op, rfl, hop⟩ := Part.fits_one_iff.mp hone
    obtain ⟨_, rfl, h₄⟩ := (fits_symbol_cons_iff (by decide) (by decide)).mp h₃
    obtain ⟨more, _, rfl, hmore, h₅⟩ := h₄
    obtain ⟨space, _, rfl, hspace, h₆⟩ := fits_blanks_cons_iff.mp h₅
    obtain ⟨_, rfl, h₇⟩ := (fits_symbol_cons_iff (by decide) (by decide)).mp h₆
    obtain ⟨_, rfl, rfl⟩ := (fits_symbol_cons_iff (by decide) (by decide)).mp h₇
    have hop : op = '>' ∨ op = '!' ∨ op = '=' := by
      simpa [or_assoc] using hop
    exact .intro gap op more space hgap hop (fits_optional_iff.mp hmore) hspace
  · rintro ⟨gap, op, more, space, hgap, hop, hmore, hspace⟩
    have hop : (op == '>' || op == '!' || op == '=') = true := by
      simpa [or_assoc] using hop
    refine (fits_symbol_cons_iff (by decide) (by decide)).mpr ⟨_, rfl, ?_⟩
    refine fits_blanks_cons_iff.mpr ⟨gap, _, rfl, hgap, ?_⟩
    refine ⟨[op], _, rfl, Part.fits_one_iff.mpr ⟨op, rfl, hop⟩, ?_⟩
    refine (fits_symbol_cons_iff (by decide) (by decide)).mpr ⟨_, rfl, ?_⟩
    refine ⟨more, _, rfl, fits_optional_iff.mpr hmore, ?_⟩
    refine fits_blanks_cons_iff.mpr ⟨space, _, rfl, hspace, ?_⟩
    refine (fits_symbol_cons_iff (by decide) (by decide)).mpr ⟨_, rfl, ?_⟩
    exact (fits_symbol_cons_iff (by decide) (by decide)).mpr ⟨_, rfl, rfl⟩

/-- What the idiom has behind the start of the call. -/
def argumentPattern : Pattern :=
  blanks :: .run (fun c => c != '\n') 1 none :: blanks :: tailPattern

variable {i : Idiom} {text : List Char}

/-- The idiom that is replaced by asking whether something is included. -/
theorem includes_eq (hi : i ∈ idioms) (hr : i.replacement = ".includes()") :
    i.pattern = ".indexOf(".toList.map Part.char ++ argumentPattern ∧ i.confidence = .high := by
  simp only [idioms, List.mem_cons, List.not_mem_nil, or_false] at hi
  rcases hi with rfl | rfl | rfl | rfl
  · exact absurd hr (by decide)
  · exact absurd hr (by decide)
  · exact absurd hr (by decide)
  · exact ⟨rfl, rfl⟩

/-- A call, something that is not nothing, and a tail are fitted. -/
theorem fits_of_call (hi : i ∈ idioms) (hr : i.replacement = ".includes()") {x mid y : List Char}
    (hx : IsCall x) (hmid : mid ≠ []) (hline : '\n' ∉ mid) (hy : IsTail y) :
    i.pattern.Fits (x ++ mid ++ y) := by
  rw [(includes_eq hi hr).1, List.append_assoc]
  refine fits_word_append_iff.mpr ⟨x, mid ++ y, rfl, isCall_iff.mp hx, ?_⟩
  refine fits_blanks_cons_iff.mpr ⟨[], mid ++ y, rfl, List.forall_mem_nil _, mid, y, rfl, ?_, ?_⟩
  · refine ⟨fun c hc => ?_, List.length_pos_iff.mpr hmid, by simp⟩
    exact bne_iff_ne.mpr (ne_of_mem_of_not_mem hc hline)
  · exact fits_blanks_cons_iff.mpr ⟨[], y, rfl, List.forall_mem_nil _, fits_tailPattern_iff.mpr hy⟩

/-! ## Where a match ends -/

/-- In a line the argument can go on to any tail behind the place where it begins. -/
theorem sub_mem_choices_argument {cs : List Char} (hline : '\n' ∉ cs) {lead c d : Nat}
    (h : Stands IsTail cs c d) (hlt : lead < c) :
    c - lead ∈ (Part.run (fun x => x != '\n') 1 none).choices (cs.drop lead) := by
  obtain ⟨hc, -⟩ := stands_iff.mp h
  have hlength : c - lead ≤ (cs.drop lead).length := by
    rw [List.length_drop]
    omega
  refine Part.mem_choices_iff.mpr ⟨hlength, fun x hx => ?_, ?_, by simp⟩
  · have hx : x ∈ cs := List.mem_of_mem_drop (List.mem_of_mem_take hx)
    exact bne_iff_ne.mpr (ne_of_mem_of_not_mem hx hline)
  · rw [List.length_take_of_le hlength]
    omega

theorem choices_ne_nil_of_tail {cs : List Char} {c d : Nat} (h : Stands IsTail cs c d) :
    Pattern.choices (blanks :: tailPattern) (cs.drop c) ≠ [] := by
  obtain ⟨pre, t, post, rfl, ht, rfl, -⟩ := h
  have hfits : Pattern.Fits (blanks :: tailPattern) t :=
    fits_blanks_cons_iff.mpr ⟨[], t, rfl, List.forall_mem_nil _, fits_tailPattern_iff.mpr ht⟩
  exact List.ne_nil_of_mem (length_mem_choices hfits pre post)

/-- Behind the start of a call a match goes on to the last tail. -/
theorem last_tail_of_first {cs : List Char} (hline : '\n' ∉ cs) {n : Nat}
    (h : (argumentPattern.choices cs).head? = some n) :
    ∃ c, 0 < c ∧ Stands IsTail cs c n ∧ ∀ c' d, Stands IsTail cs c' d → c' ≤ c := by
  obtain ⟨lead, m, rfl, -, hm, -⟩ := head?_choices_run h
  obtain ⟨arg, m, rfl, harg, hm, hlongest⟩ := head?_choices_run hm
  obtain ⟨hlength, -, hpos, -⟩ := Part.mem_choices_iff.mp harg
  rw [List.length_take_of_le hlength] at hpos
  rw [List.length_drop] at hlength
  rw [List.drop_drop] at hm
  obtain ⟨hlengthm, hfits⟩ := mem_choices_iff.mp (List.mem_of_head? hm)
  obtain ⟨gap, tail, hsplit, -, htail⟩ := fits_blanks_cons_iff.mp hfits
  have hsum : gap.length + tail.length = m := by
    rw [← List.length_append, ← hsplit, List.length_take_of_le hlengthm]
  rw [List.length_drop] at hlengthm
  refine ⟨lead + arg + gap.length, by omega, ?_, fun c' d hstands => ?_⟩
  · refine stands_iff.mpr ⟨by omega, tail, cs.drop (lead + arg + m), ?_,
      fits_tailPattern_iff.mp htail, by omega⟩
    rw [← List.drop_drop, ← List.take_append_drop m (cs.drop (lead + arg)), hsplit, List.append_assoc,
      List.drop_left, List.drop_drop]
  · -- the argument would rather have gone on to a tail that is further behind
    by_contra hlt
    have hnone := hlongest _ (sub_mem_choices_argument hline hstands (by omega)) (by omega)
    rw [List.drop_drop, Nat.add_sub_cancel' (by omega)] at hnone
    exact choices_ne_nil_of_tail hstands hnone

section

variable (hi : i ∈ idioms) (hr : i.replacement = ".includes()") (hline : '\n' ∉ text)

include hi hr hline

/-- **A match goes from a call to the last tail of the line.** -/
theorem ends_at_last_tail {start : Nat} {piece : List Char} (h : i.pattern.FirstAt text start piece) :
    ∃ b c, Stands IsCall text start b ∧ b < c ∧ Stands IsTail text c (start + piece.length)
      ∧ ∀ c' d, Stands IsTail text c' d → c' ≤ c ∧ d ≤ start + piece.length := by
  obtain ⟨-, hfirst⟩ := h
  rw [(includes_eq hi hr).1] at hfirst
  obtain ⟨n, hn, hcall, hrest⟩ := head?_choices_word_append hfirst
  have hw : ".indexOf(".toList.length = 9 := rfl
  rw [hw, ← isCall_iff] at hcall
  rw [hw] at hn hrest
  have hnine : start + 9 ≤ text.length := by
    have hlength := IsCall.length_eq hcall
    rw [List.length_take, List.length_drop] at hlength
    omega
  rw [List.drop_drop] at hrest
  obtain ⟨c, hc, htail, hlast⟩ := last_tail_of_first (mt List.mem_of_mem_drop hline) hrest
  have hstop : start + 9 + n = start + piece.length := by omega
  rw [stands_drop_iff hnine, hstop] at htail
  refine ⟨start + 9, start + 9 + c, ?_, by omega, htail, fun c' d hstands => ?_⟩
  · refine stands_iff.mpr ⟨by omega, _, _, (List.take_append_drop 9 _).symm, hcall, ?_⟩
    rw [IsCall.length_eq hcall]
  · have hle : c' ≤ start + 9 + c := by
      by_contra hlt
      obtain ⟨k, rfl⟩ : ∃ k, c' = start + 9 + k := ⟨c' - (start + 9), by omega⟩
      obtain ⟨e, rfl⟩ : ∃ e, d = start + 9 + e := by
        obtain ⟨-, t, -, -, -, hd⟩ := stands_iff.mp hstands
        exact ⟨k + t.length, by omega⟩
      have := hlast k e ((stands_drop_iff hnine).mpr hstands)
      omega
    exact ⟨hle, stop_le_of_tails htail hstands hle⟩

/-! ## The match of a line -/

/-- A call, something that is not nothing and a tail are found where the call begins, or earlier. -/
theorem exists_found {a b c d : Nat} (hcall : Stands IsCall text a b)
    (htail : Stands IsTail text c d) (hlt : b < c) : ∃ m ∈ findAll i.pattern 0 text, m.1 ≤ a := by
  obtain ⟨pre, x, mid, y, post, rfl, hx, hmid, hy, rfl⟩ := exists_between hcall htail hlt
  have hfits := fits_of_call hi hr hx hmid (fun h => hline (by simp [h])) hy
  obtain ⟨m, hm, hle, -⟩ :=
    exists_mem_findAll 0 (not_fits_nil hi) (length_mem_choices hfits pre post)
  exact ⟨m, hm, by omega⟩

/-- What is found stands in the line, from the start of a call to the end of the last tail. -/
theorem of_mem_found {m : Nat × List Char} (hm : m ∈ findAll i.pattern 0 text) :
    m.2 ≠ [] ∧ m.2 = (text.drop m.1).take m.2.length
      ∧ ∃ b c, Stands IsCall text m.1 b ∧ b < c ∧ Stands IsTail text c (m.1 + m.2.length)
        ∧ ∀ c' d, Stands IsTail text c' d → c' ≤ c ∧ d ≤ m.1 + m.2.length := by
  obtain ⟨k, hk, hne, hfirst⟩ := of_mem_findAll hm
  rw [Nat.zero_add] at hk
  rw [hk]
  exact ⟨hne, hfirst.eq_take, ends_at_last_tail hi hr hline hfirst⟩

/-- **A line has at most one match,** since every match ends at the last tail. -/
theorem length_found_le_one : (findAll i.pattern 0 text).length ≤ 1 := by
  have hapart := pairwise_findAll i.pattern 0 text
  rcases hfound : findAll i.pattern 0 text with _ | ⟨m, _ | ⟨m', rest⟩⟩
  · exact Nat.zero_le 1
  · exact Nat.le_refl 1
  · have hm : m ∈ findAll i.pattern 0 text := by simp [hfound]
    have hm' : m' ∈ findAll i.pattern 0 text := by simp [hfound]
    obtain ⟨-, -, -, c, -, -, -, hlast⟩ := of_mem_found hi hr hline hm
    obtain ⟨hne', -, -, c', -, -, htail', -⟩ := of_mem_found hi hr hline hm'
    rw [hfound] at hapart
    have hle : m.1 + m.2.length ≤ m'.1 :=
      (List.pairwise_cons.mp hapart).1 m' List.mem_cons_self
    have hstop := (hlast _ _ htail').2
    have hpos := List.length_pos_iff.mpr hne'
    omega

/-- The match begins at the first call. -/
theorem found_le_call {m : Nat × List Char} (hm : m ∈ findAll i.pattern 0 text) {a b : Nat}
    (hcall : Stands IsCall text a b) : m.1 ≤ a := by
  obtain ⟨-, -, b', c, hcall', hlt, htail, -⟩ := of_mem_found hi hr hline hm
  by_contra hgt
  -- a call in front of the match would have been found with the same tail
  obtain ⟨m', hm', hle⟩ := exists_found hi hr hline hcall htail (by
    rw [stop_eq_of_call hcall]
    rw [stop_eq_of_call hcall'] at hlt
    omega)
  obtain ⟨only, honly⟩ := List.length_eq_one_iff.mp
    (Nat.le_antisymm (length_found_le_one hi hr hline) (List.length_pos_of_mem hm))
  rw [honly, List.mem_singleton] at hm hm'
  rw [hm', ← hm] at hle
  exact hgt hle

end

/-! ## The advice on a line -/

theorem line_of_mem_suggestLines {file : String} {is : List Idiom} {line : Nat}
    {ts : List (List Char)} {s : Suggestion} (hs : s ∈ suggestLines file is line ts) :
    line ≤ s.line := by
  obtain ⟨k, t, -, j, -, hs⟩ := mem_suggestLines_iff.mp hs
  obtain ⟨-, hline, -⟩ := mem_suggestIdiom_iff.mp hs
  omega

/-- The advice on a line is that on its idioms. -/
theorem filter_line_suggestLines (file : String) (is : List Idiom) (line : Nat)
    {ts : List (List Char)} {k : Nat} (hk : ts[k]? = some text) :
    (suggestLines file is line ts).filter (·.line == line + k)
      = is.flatMap (suggestIdiom file (line + k) text) := by
  have hat : ∀ t line', ∀ s ∈ is.flatMap (suggestIdiom file line' t), s.line = line' := by
    intro t line' s hs
    obtain ⟨j, -, hs⟩ := List.mem_flatMap.mp hs
    exact (mem_suggestIdiom_iff.mp hs).2.1
  induction ts generalizing line k with
  | nil => cases hk
  | cons t ts ih =>
    rw [suggestLines, List.filter_append]
    cases k with
    | zero =>
      obtain rfl : t = text := by simpa using hk
      have hrest : (suggestLines file is (line + 1) ts).filter (·.line == line + 0) = [] := by
        refine List.filter_eq_nil_iff.mpr fun s hs heq => ?_
        have := line_of_mem_suggestLines hs
        rw [beq_iff_eq] at heq
        omega
      rw [hrest, List.append_nil]
      exact List.filter_eq_self.mpr fun s hs => beq_iff_eq.mpr (hat t line s hs)
    | succ k =>
      have hfirst : (is.flatMap (suggestIdiom file line t)).filter (·.line == line + (k + 1)) = [] := by
        refine List.filter_eq_nil_iff.mpr fun s hs heq => ?_
        rw [hat t line s hs, beq_iff_eq] at heq
        omega
      have hnumber : line + (k + 1) = line + 1 + k := by omega
      rw [hfirst, List.nil_append, hnumber]
      exact ih (line + 1) (by simpa using hk)

/-- The advice on one idiom is told by its replacement. -/
theorem filter_replacement_flatMap (file : String) (line : Nat) {level : Confidence}
    (hi : i ∈ idiomsAt level) :
    ((idiomsAt level).flatMap (suggestIdiom file line text)).filter
        (·.idiom.replacement == i.replacement)
      = suggestIdiom file line text i := by
  refine filter_flatMap_of_nodup (nodup_idioms.filter _) hi ?_ ?_
  · intro s hs
    rw [(mem_suggestIdiom_iff.mp hs).2.2.1, beq_iff_eq]
  · intro j hj hne s hs heq
    rw [(mem_suggestIdiom_iff.mp hs).2.2.1, beq_iff_eq] at heq
    have hdistinct : (idioms.map Idiom.replacement).Nodup := by decide
    exact hne (List.inj_on_of_nodup_map hdistinct (mem_idiomsAt_iff.mp hj).1
      (mem_idiomsAt_iff.mp hi).1 heq)

/-- **A line has at most one comparison of an index to replace.** It has one if and only if a call stands
in front of a tail, with something in between; and then it goes from the first call of the line to the end
of the last tail, whatever else stands in between. The advice on the line is about this piece. -/
theorem index_comparison_spans_line {i : Idiom} (hi : i ∈ idioms)
    (hr : i.replacement = ".includes()") {text : List Char} (hline : '\n' ∉ text) :
    let found := findAll i.pattern 0 text
    found.length ≤ 1
    ∧ (found ≠ [] ↔ ∃ a b c d, Stands IsCall text a b ∧ Stands IsTail text c d ∧ b < c)
    ∧ (∀ m ∈ found, m.2 = (text.drop m.1).take m.2.length
      ∧ (∃ b, Stands IsCall text m.1 b) ∧ (∀ a b, Stands IsCall text a b → m.1 ≤ a)
      ∧ ∃ c, Stands IsTail text c (m.1 + m.2.length)
        ∧ ∀ c' d, Stands IsTail text c' d → c' ≤ c ∧ d ≤ m.1 + m.2.length)
    ∧ ∀ content file level k, (content.toList.splitOn '\n')[k]? = some text →
      (suggest content file level).filter
          (fun s => s.idiom.replacement == ".includes()" && s.line == k + 1)
        = found.map fun m => ⟨file, k + 1, m.1 + 1, String.ofList m.2, i⟩ := by
  intro found
  refine ⟨length_found_le_one hi hr hline, ⟨fun hne => ?_, ?_⟩, fun m hm => ?_, ?_⟩
  · obtain ⟨m, hm⟩ := List.exists_mem_of_ne_nil _ hne
    obtain ⟨-, -, b, c, hcall, hlt, htail, -⟩ := of_mem_found hi hr hline hm
    exact ⟨m.1, b, c, _, hcall, htail, hlt⟩
  · rintro ⟨a, b, c, d, hcall, htail, hlt⟩
    obtain ⟨m, hm, -⟩ := exists_found hi hr hline hcall htail hlt
    exact List.ne_nil_of_mem hm
  · obtain ⟨-, htake, b, c, hcall, -, htail, hlast⟩ := of_mem_found hi hr hline hm
    exact ⟨htake, ⟨b, hcall⟩, fun a b' => found_le_call hi hr hline hm, c, htail, hlast⟩
  · intro content file level k hk
    have hlevel : i ∈ idiomsAt level := by
      refine List.mem_filter.mpr ⟨hi, ?_⟩
      rw [(includes_eq hi hr).2]
      cases level <;> rfl
    rw [← List.filter_filter, suggest, Text.splitAt_eq_splitOn, Nat.add_comm k,
      filter_line_suggestLines file _ 1 hk, ← hr, filter_replacement_flatMap file _ hlevel]
    rfl

/-- Two comparisons in the second line, the first of them of a blank and the second with a dotted capital:
one piece of advice on both. -/
theorem index_comparison_spans_line_of_two :
    let i := idioms.getLast (List.cons_ne_nil _ _)
    let text := "p.indexOf( )>=-1||q.\u0130NDEXOF(x) !== -1;".toList
    i ∈ idioms ∧ i.replacement = ".includes()" ∧ '\n' ∉ text
      ∧ (∃ a b c d, Stands IsCall text a b ∧ Stands IsTail text c d ∧ b < c)
      ∧ ((suggest "p\np.indexOf( )>=-1||q.\u0130NDEXOF(x) !== -1;" "a.js" .high).filter
          (fun s => s.idiom.replacement == ".includes()" && s.line == 1 + 1)).map
            (fun s => (s.line, s.column, s.found))
        = [(2, 2, ".indexOf( )>=-1||q.\u0130NDEXOF(x) !== -1")] := by
  intro i text
  have hi : i ∈ idioms := List.getLast_mem _
  have hline : '\n' ∉ text := by decide
  obtain ⟨-, hsome, -, hadvice⟩ := index_comparison_spans_line hi rfl hline
  have hfound : findAll i.pattern 0 text
      = [(1, ".indexOf( )>=-1||q.\u0130NDEXOF(x) !== -1".toList)] := by decide +kernel
  rw [hfound] at hsome hadvice
  refine ⟨hi, rfl, hline, hsome.mp (List.cons_ne_nil _ _), ?_⟩
  rw [hadvice _ _ _ 1 (by decide)]
  rfl

end WebAudit.Upgrade
