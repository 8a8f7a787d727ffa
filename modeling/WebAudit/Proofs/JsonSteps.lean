import WebAudit.Proofs.Digits

/-!
# What the readers of JSON do

Each reader takes one step and hands on to another one with a smaller bound. Here is what such a step
can be, as an equivalence for each of `value`, `items` and `members`, so that facts about the readers
need not open them. A step that succeeds is told from the first character of the text.
-/

namespace WebAudit.Json

/-! ## First characters -/

theorem isDigit_of_mem_leading {cs : List Char} {c : Char} (h : c ∈ leading cs) :
    c.isDigit = true := by
  unfold leading at h
  split at h
  · rw [List.mem_singleton.mp h]
    decide
  · exact (List.all_eq_true.mp List.all_takeWhile) c h

/-- A number starts with a digit. -/
theorem head_of_number_ok {negative : Bool} {cs : List Char} {p : Json × List Char}
    (h : number negative cs = .ok p) : ∃ c r, cs = c :: r ∧ c.isDigit = true := by
  cases cs with
  | nil => cases h
  | cons c r =>
    refine ⟨c, r, rfl, ?_⟩
    unfold number at h
    dsimp only at h
    split at h
    · cases h
    · next hne =>
      unfold leading at hne
      split at hne
      · next heq =>
        rw [(List.cons.inj heq).1]
        decide
      · by_cases hc : c.isDigit = true
        · exact hc
        · simp [isDigit_eq, hc] at hne

theorem find?_words_eq_none {c : Char} {r : List Char} (hc : c ∉ ['n', 't', 'f', 'N', 'I'])
    (hr : c = '-' → r.head? ≠ some 'I') :
    words.find? (fun w => w.1.toList.isPrefixOf (c :: r)) = none := by
  simp only [List.mem_cons, List.not_mem_nil, or_false, not_or] at hc
  obtain ⟨hn, ht, hf, hN, hI⟩ := hc
  have hminus : ¬ ['-', 'I', 'n', 'f', 'i', 'n', 'i', 't', 'y'].isPrefixOf (c :: r) = true := by
    -- the only word whose second character counts
    by_cases hd : c = '-'
    · cases r with
      | nil => simp [List.isPrefixOf]
      | cons e r =>
        have he : e ≠ 'I' := by simpa using hr hd
        simp [List.isPrefixOf, Ne.symm he]
    · simp [List.isPrefixOf, Ne.symm hd]
  rw [List.find?_eq_none]
  intro w hw
  simp only [words, List.mem_cons, List.not_mem_nil, or_false] at hw
  rcases hw with rfl | rfl | rfl | rfl | rfl | rfl
  · simp [List.isPrefixOf, Ne.symm hn]
  · simp [List.isPrefixOf, Ne.symm ht]
  · simp [List.isPrefixOf, Ne.symm hf]
  · simp [List.isPrefixOf, Ne.symm hN]
  · simp [List.isPrefixOf, Ne.symm hI]
  · exact hminus

section

variable {fuel : Nat} {w : List Char}

theorem value_word {name : String} {v : Json} (h : (name, v) ∈ words) :
    value (fuel + 1) (name.toList ++ w) = .ok (v, w) := by
  simp only [words, List.mem_cons, Prod.mk.injEq, List.not_mem_nil, or_false] at h
  rcases h with ⟨rfl, rfl⟩ | ⟨rfl, rfl⟩ | ⟨rfl, rfl⟩ | ⟨rfl, rfl⟩ | ⟨rfl, rfl⟩ | ⟨rfl, rfl⟩
  all_goals rfl

end

/-! ## Steps -/

/-- What a value can be: a word, a text, a list or an object, or a number. -/
inductive ValueStep (fuel : Nat) : List Char → Json → List Char → Prop where
  | word {name : String} {v : Json} {u : List Char} :
    (name, v) ∈ words → ValueStep fuel (name.toList ++ u) v u
  | text {r s u : List Char} :
    string (r.length + 1) (r.length + 1) r = .ok (s, u) →
    ValueStep fuel ('"' :: r) (.str (String.ofList s)) u
  | emptyList {r u : List Char} : skip r = ']' :: u → ValueStep fuel ('[' :: r) (.arr []) u
  | list {r u : List Char} {xs : List Json} :
    items fuel (skip r) = .ok (xs, u) → ValueStep fuel ('[' :: r) (.arr xs) u
  | emptyObject {r u : List Char} : skip r = '\x7d' :: u → ValueStep fuel ('\x7b' :: r) (.obj []) u
  | object {r u : List Char} {fs : Fields} :
    members fuel [] (skip r) = .ok (fs, u) → ValueStep fuel ('\x7b' :: r) (.obj fs) u
  | negative {r u : List Char} {v : Json} :
    number true r = .ok (v, u) → ValueStep fuel ('-' :: r) v u
  | positive {cs u : List Char} {v : Json} : number false cs = .ok (v, u) → ValueStep fuel cs v u

/-- What items can be: a last one, or one before others. -/
inductive ItemsStep (fuel : Nat) : List Char → List Json → List Char → Prop where
  | last {cs r u : List Char} {x : Json} :
    value fuel cs = .ok (x, r) → skip r = ']' :: u → ItemsStep fuel cs [x] u
  | next {cs r r' u : List Char} {x : Json} {xs : List Json} :
    value fuel cs = .ok (x, r) → skip r = ',' :: r' → items fuel (skip r') = .ok (xs, u) →
    ItemsStep fuel cs (x :: xs) u

/-- A member: its key, a colon and its value. -/
inductive MemberAt (fuel : Nat) : List Char → String → Json → List Char → Prop where
  | intro {r s r₁ r₂ u : List Char} {v : Json} :
    string (r.length + 1) (r.length + 1) r = .ok (s, r₁) → skip r₁ = ':' :: r₂ →
    value fuel (skip r₂) = .ok (v, u) → MemberAt fuel ('"' :: r) (String.ofList s) v u

/-- What members can be: a last one, or one before others. -/
inductive MembersStep (fuel : Nat) (fs : Fields) : List Char → Fields → List Char → Prop where
  | last {cs r u : List Char} {k : String} {v : Json} :
    MemberAt fuel cs k v r → skip r = '\x7d' :: u → MembersStep fuel fs cs (fs.set k v) u
  | next {cs r r' u : List Char} {k : String} {v : Json} {gs : Fields} :
    MemberAt fuel cs k v r → skip r = ',' :: r' → members fuel (fs.set k v) (skip r') = .ok (gs, u) →
    MembersStep fuel fs cs gs u

section

variable {fuel : Nat} {cs u : List Char} {v : Json} {xs : List Json} {fs gs : Fields}

theorem ValueStep.of_value (h : value (fuel + 1) cs = .ok (v, u)) : ValueStep fuel cs v u := by
  rw [value.eq_def] at h
  dsimp only at h
  split at h
  · next name _ hw =>
    obtain ⟨rfl, rfl⟩ := Prod.mk.inj (Except.ok.inj h)
    have hstart := List.find?_some hw
    dsimp only at hstart
    obtain ⟨u, rfl⟩ := List.isPrefixOf_iff_prefix.mp hstart
    rw [← String.length_toList, List.drop_left]
    exact .word (List.mem_of_find?_eq_some hw)
  split at h
  · cases h
  · split at h
    · cases h
    · next hs =>
      obtain ⟨rfl, rfl⟩ := Prod.mk.inj (Except.ok.inj h)
      exact .text hs
  · split at h
    · next hskip =>
      obtain ⟨rfl, rfl⟩ := Prod.mk.inj (Except.ok.inj h)
      exact .emptyList hskip
    · split at h
      · cases h
      · next hxs =>
        obtain ⟨rfl, rfl⟩ := Prod.mk.inj (Except.ok.inj h)
        exact .list hxs
  · split at h
    · next hskip =>
      obtain ⟨rfl, rfl⟩ := Prod.mk.inj (Except.ok.inj h)
      exact .emptyObject hskip
    · split at h
      · cases h
      · next hfs =>
        obtain ⟨rfl, rfl⟩ := Prod.mk.inj (Except.ok.inj h)
        exact .object hfs
  · exact .negative h
  · exact .positive h

theorem ItemsStep.of_items (h : items (fuel + 1) cs = .ok (xs, u)) : ItemsStep fuel cs xs u := by
  rw [items] at h
  split at h
  · cases h
  next x r hx =>
  split at h
  · next hskip =>
    obtain ⟨rfl, rfl⟩ := Prod.mk.inj (Except.ok.inj h)
    exact .last hx hskip
  · next hskip =>
    split at h
    · cases h
    · next hys =>
      obtain ⟨rfl, rfl⟩ := Prod.mk.inj (Except.ok.inj h)
      exact .next hx hskip hys
  · cases h

theorem MembersStep.of_members (h : members (fuel + 1) fs cs = .ok (gs, u)) :
    MembersStep fuel fs cs gs u := by
  rw [members.eq_def] at h
  dsimp only at h
  split at h
  · split at h
    · cases h
    next hs =>
    split at h
    · next hcolon =>
      split at h
      · cases h
      next hv =>
      have hmember := MemberAt.intro hs hcolon hv
      split at h
      · next hskip =>
        obtain ⟨rfl, rfl⟩ := Prod.mk.inj (Except.ok.inj h)
        exact .last hmember hskip
      · next hskip => exact .next hmember hskip h
      · cases h
    · cases h
  · cases h

/-- A value starts with a visible character that is not the end of a list. -/
theorem head_of_value_ok (h : value fuel cs = .ok (v, u)) :
    ∃ c r, cs = c :: r ∧ 0x20 < c.toNat ∧ c.toNat < 0x7F ∧ c ≠ ']' := by
  cases fuel with
  | zero => cases h
  | succ fuel =>
    cases ValueStep.of_value h with
    | word hw =>
      simp only [words, List.mem_cons, Prod.mk.injEq, List.not_mem_nil, or_false] at hw
      rcases hw with ⟨rfl, -⟩ | ⟨rfl, -⟩ | ⟨rfl, -⟩ | ⟨rfl, -⟩ | ⟨rfl, -⟩ | ⟨rfl, -⟩
      all_goals exact ⟨_, _, rfl, by decide, by decide, by decide⟩
    | text _ => exact ⟨_, _, rfl, by decide, by decide, by decide⟩
    | emptyList _ => exact ⟨_, _, rfl, by decide, by decide, by decide⟩
    | list _ => exact ⟨_, _, rfl, by decide, by decide, by decide⟩
    | emptyObject _ => exact ⟨_, _, rfl, by decide, by decide, by decide⟩
    | object _ => exact ⟨_, _, rfl, by decide, by decide, by decide⟩
    | negative _ => exact ⟨_, _, rfl, by decide, by decide, by decide⟩
    | positive hn =>
      obtain ⟨c, r, rfl, hc⟩ := head_of_number_ok hn
      obtain ⟨hlow, hhigh⟩ := Char.isDigit_iff_toNat.mp hc
      exact ⟨c, r, rfl, Nat.lt_of_lt_of_le (by decide) hlow, Nat.lt_of_le_of_lt hhigh (by decide),
        by rintro rfl; cases hc⟩

theorem skip_cons_of_lt {c : Char} {r : List Char} (hc : 0x20 < c.toNat) : skip (c :: r) = c :: r := by
  have hne : ∀ d : Char, d.toNat ≤ 0x20 → c ≠ d := by
    rintro d hd rfl
    omega
  simp [skip, isSpace, hne ' ' (by decide), hne '\t' (by decide), hne '\n' (by decide),
    hne '\r' (by decide)]

theorem skip_of_value_ok (h : value fuel cs = .ok (v, u)) : skip cs = cs := by
  obtain ⟨c, r, rfl, hc, -⟩ := head_of_value_ok h
  exact skip_cons_of_lt hc

/-- Blanks before a value do not count. -/
theorem value_skip {t : List Char} (h : value fuel cs = .ok (v, u)) (ht : skip t = skip cs) :
    value fuel (skip t) = .ok (v, u) := by
  rw [ht, skip_of_value_ok h, h]

theorem head_of_items_ok (h : items fuel cs = .ok (xs, u)) :
    ∃ c r, cs = c :: r ∧ 0x20 < c.toNat ∧ c.toNat < 0x7F ∧ c ≠ ']' := by
  cases fuel with
  | zero => cases h
  | succ fuel =>
    cases ItemsStep.of_items h with
    | last hx _ => exact head_of_value_ok hx
    | next hx _ _ => exact head_of_value_ok hx

theorem items_skip {t : List Char} (h : items fuel cs = .ok (xs, u)) (ht : skip t = skip cs) :
    items fuel (skip t) = .ok (xs, u) := by
  obtain ⟨c, r, rfl, hc, -⟩ := head_of_items_ok h
  rw [ht, skip_cons_of_lt hc, h]

/-- Members start with a quote. -/
theorem head_of_members_ok (h : members fuel fs cs = .ok (gs, u)) : ∃ r, cs = '"' :: r := by
  cases fuel with
  | zero => cases h
  | succ fuel =>
    cases MembersStep.of_members h with
    | last hm _ =>
      obtain ⟨_, _, _⟩ := hm
      exact ⟨_, rfl⟩
    | next hm _ _ =>
      obtain ⟨_, _, _⟩ := hm
      exact ⟨_, rfl⟩

theorem members_skip {t : List Char} (h : members fuel fs cs = .ok (gs, u)) (ht : skip t = skip cs) :
    members fuel fs (skip t) = .ok (gs, u) := by
  obtain ⟨r, rfl⟩ := head_of_members_ok h
  rw [ht]
  exact h

theorem ValueStep.value_eq (h : ValueStep fuel cs v u) : value (fuel + 1) cs = .ok (v, u) := by
  cases h with
  | word hw => exact value_word hw
  | text hs =>
    rw [value, find?_words_eq_none (by decide) fun h => absurd h (by decide)]
    simp only [List.length_cons, hs]
  | emptyList hskip =>
    rw [value, find?_words_eq_none (by decide) fun h => absurd h (by decide)]
    simp only [hskip]
  | list hxs =>
    obtain ⟨c, r, hcs, -, -, hc⟩ := head_of_items_ok hxs
    rw [value, find?_words_eq_none (by decide) fun h => absurd h (by decide)]
    simp only [hcs] at hxs ⊢
    split
    · next heq => exact absurd (List.cons.inj heq).1 hc
    · rw [hxs]
  | emptyObject hskip =>
    rw [value, find?_words_eq_none (by decide) fun h => absurd h (by decide)]
    simp only [hskip]
  | object hfs =>
    obtain ⟨r, hcs⟩ := head_of_members_ok hfs
    rw [value, find?_words_eq_none (by decide) fun h => absurd h (by decide)]
    simp only [hcs] at hfs ⊢
    split
    · next heq => exact absurd (List.cons.inj heq).1 (by decide)
    · rw [hfs]
  | negative hn =>
    obtain ⟨c, r, rfl, hc⟩ := head_of_number_ok hn
    have hI : (c :: r).head? ≠ some 'I' := by
      rintro ⟨⟩
      cases hc
    rw [value, find?_words_eq_none (by decide) fun _ => hI]
    exact hn
  | positive hn =>
    obtain ⟨c, r, rfl, hc⟩ := head_of_number_ok hn
    have hne : ∀ d : Char, d.isDigit = false → c ≠ d := by
      rintro d hd rfl
      rw [hc] at hd
      cases hd
    have hwords : c ∉ ['n', 't', 'f', 'N', 'I'] := by
      simp [hne 'n' rfl, hne 't' rfl, hne 'f' rfl, hne 'N' rfl, hne 'I' rfl]
    rw [value, find?_words_eq_none hwords fun h => absurd h (hne '-' rfl)]
    · simpa using hn
    all_goals simp [hne '"' rfl, hne '[' rfl, hne '\x7b' rfl, hne '-' rfl]

theorem ItemsStep.items_eq (h : ItemsStep fuel cs xs u) : items (fuel + 1) cs = .ok (xs, u) := by
  cases h with
  | last hx hskip => simp only [items, hx, hskip]
  | next hx hskip hys => simp only [items, hx, hskip, hys]

theorem MembersStep.members_eq (h : MembersStep fuel fs cs gs u) :
    members (fuel + 1) fs cs = .ok (gs, u) := by
  cases h with
  | last hm hskip =>
    obtain ⟨hs, hcolon, hv⟩ := hm
    simp only [members, List.length_cons, hs, hcolon, hv, hskip]
  | next hm hskip hgs =>
    obtain ⟨hs, hcolon, hv⟩ := hm
    simp only [members, List.length_cons, hs, hcolon, hv, hskip, hgs]

end

/-! ## Whole texts -/

/-- A text is a value with nothing but blanks around it. -/
theorem parse_eq_ok_iff {s : String} {v : Json} :
    parse s = .ok v ↔ s.toList.head? ≠ some '\ufeff'
      ∧ ∃ u, value (2 * s.toList.length + 2) (skip s.toList) = .ok (v, u) ∧ skip u = [] := by
  unfold parse parseList
  split
  · next hmark =>
    have hmark : s.toList.head? = some '\ufeff' := by simpa using hmark
    simp [hmark]
  next hmark =>
  have hmark : s.toList.head? ≠ some '\ufeff' := by simpa using hmark
  simp only [hmark, ne_eq, not_false_eq_true, true_and]
  unfold parseUnmarked
  cases value (2 * s.toList.length + 2) (skip s.toList) with
  | error e =>
    constructor
    · intro h
      cases h
    · rintro ⟨u, heq, -⟩
      cases heq
  | ok p =>
    obtain ⟨v', r⟩ := p
    dsimp only
    cases hskip : skip r with
    | nil =>
      constructor
      · intro h
        obtain rfl : v' = v := Except.ok.inj h
        exact ⟨r, rfl, hskip⟩
      · rintro ⟨u, heq, -⟩
        obtain ⟨rfl, -⟩ := Prod.mk.inj (Except.ok.inj heq)
        rfl
    | cons c t =>
      constructor
      · intro h
        cases h
      · rintro ⟨u, heq, hu⟩
        obtain ⟨-, rfl⟩ := Prod.mk.inj (Except.ok.inj heq)
        rw [hskip] at hu
        cases hu

end WebAudit.Json
