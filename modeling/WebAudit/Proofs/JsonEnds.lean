import Mathlib.Data.List.TakeWhile
import WebAudit.Proofs.JsonTokens

/-!
# Padding around a text

Blanks and control characters at the ends of a JSON text belong to no value. A reader that succeeds
before such padding leaves all of it, and succeeds alike without it: no token can end inside the
padding, because no token has a character of it that the reader looks at. The bound that a reader
needs depends only on the text without the padding.
-/

namespace WebAudit.Json

/-- A blank or a control character. -/
def isPadding (c : Char) : Bool :=
  c.toNat ≤ 0x20

theorem not_le_of_isPadding {c d : Char} (hc : isPadding c = true) (hd : 0x20 < d.toNat) : ¬ d ≤ c := by
  simp only [isPadding, decide_eq_true_eq] at hc
  intro hle
  have hle : d.toNat ≤ c.toNat := hle
  omega

theorem ne_of_isPadding {c d : Char} (hc : isPadding c = true) (hd : 0x20 < d.toNat) : c ≠ d := by
  rintro rfl
  exact not_le_of_isPadding hc hd (Char.le_refl c)

theorem isPadding_eq_false {c : Char} (hc : 0x20 < c.toNat) : isPadding c = false := by
  simp [isPadding, hc]

theorem length_skip_le (cs : List Char) : (skip cs).length ≤ cs.length :=
  (List.dropWhile_sublist isSpace).length_le

/-! ## Escapes -/

theorem code?_append {cs w : List Char} (hcs : 5 ≤ cs.length) : code? (cs ++ w) = code? cs := by
  rcases cs with _ | ⟨a, _ | ⟨b, _ | ⟨c, _ | ⟨d, _ | ⟨e, r⟩⟩⟩⟩⟩
  · simp at hcs
  · simp at hcs
  · simp at hcs
  · simp at hcs
  · simp at hcs
  · rfl

/-- The first half of a pair stands alone or takes the second half with it. -/
theorem pairFrom_cases {high n : Nat} {cs : List Char} {c : Char}
    (h : pairFrom high cs = .ok (c, n)) : (n = 5 ∧ c = codePoint high) ∨ n = 11 := by
  have halone : (.ok (codePoint high, 5) : Except Fault (Char × Nat)) = .ok (c, n) →
      n = 5 ∧ c = codePoint high := by
    intro heq
    obtain ⟨rfl, rfl⟩ := Prod.mk.inj (Except.ok.inj heq)
    exact ⟨rfl, rfl⟩
  unfold pairFrom at h
  split at h
  · split at h
    · exact .inl (halone h)
    split at h
    · cases h
    split at h
    · exact .inr (Prod.mk.inj (Except.ok.inj h)).2.symm
    · exact .inl (halone h)
  · exact .inl (halone h)

theorem pairFrom_of_append {high n : Nat} {cs w : List Char} {c : Char}
    (h : pairFrom high (cs ++ w) = .ok (c, n)) (hn : n < cs.length + 5) :
    pairFrom high cs = .ok (c, n) := by
  have hcases := pairFrom_cases h
  rcases cs with _ | ⟨x, _ | ⟨y, r⟩⟩
  · simp only [List.length_nil] at hn
    omega
  · obtain ⟨rfl, rfl⟩ | rfl := hcases
    · simp [pairFrom]
    · simp only [List.length_cons, List.length_nil] at hn
      omega
  simp only [List.length_cons] at hn
  by_cases hxy : x = '\\' ∧ y = 'u'
  · obtain ⟨rfl, rfl⟩ := hxy
    by_cases hr : r.length < 5
    · -- there is no room for a second half
      obtain ⟨rfl, rfl⟩ | rfl := hcases
      · simp [pairFrom, hr]
      · omega
    · have hlength : ¬ (r ++ w).length < 5 := by
        rw [List.length_append]
        omega
      simp only [List.cons_append, pairFrom, if_neg hr, if_neg hlength,
        code?_append (Nat.le_of_not_lt hr)] at h ⊢
      split at h
      · cases h
      · exact h
  · have halone : ∀ u, pairFrom high (x :: y :: u) = .ok (codePoint high, 5) := by
      intro u
      unfold pairFrom
      split
      · next heq =>
        simp only [List.cons.injEq] at heq
        exact absurd ⟨heq.1, heq.2.1⟩ hxy
      · rfl
    rw [List.cons_append, List.cons_append, halone] at h
    rw [halone, h]

/-- What an escape stands for is settled before the text ends. -/
theorem escape_of_append {start start' n : Nat} {cs w : List Char} {c : Char}
    (h : escape start (cs ++ w) = .ok (c, n)) (hn : n < cs.length) :
    escape start' cs = .ok (c, n) := by
  cases cs with
  | nil => cases hn
  | cons e cs =>
    rw [List.cons_append] at h
    by_cases he : e = 'u'
    · subst he
      simp only [escape] at h ⊢
      split at h
      · cases h
      next k hk =>
      have hsize : 5 ≤ n := by
        split at h
        · rcases pairFrom_cases h with ⟨rfl, -⟩ | rfl
          · exact Nat.le_refl 5
          · decide
        · exact Nat.le_of_eq (Prod.mk.inj (Except.ok.inj h)).2
      have hlength : 5 ≤ cs.length := by
        rw [List.length_cons] at hn
        omega
      rw [code?_append hlength] at hk
      simp only [hk]
      split at h
      · next hhigh =>
        rw [if_pos hhigh]
        rw [List.drop_append_of_le_length (by omega)] at h
        refine pairFrom_of_append h ?_
        rw [List.length_drop]
        rw [List.length_cons] at hn
        omega
      · next hhigh =>
        rw [if_neg hhigh]
        exact h
    · simp only [escape] at h ⊢
      split at h
      · exact h
      · cases h

/-! ## Strings -/

section

variable {w : List Char} (hw : ∀ c ∈ w, isPadding c = true)

include hw

/-- No string ends in padding. -/
theorem string_ne_ok {start fuel : Nat} {p : List Char × List Char} : string start fuel w ≠ .ok p := by
  induction w generalizing fuel p with
  | nil =>
    cases fuel with
    | zero => simp [string]
    | succ fuel => simp [string]
  | cons c w ih =>
    obtain ⟨hc, hw⟩ := List.forall_mem_cons.mp hw
    cases fuel with
    | zero => simp [string]
    | succ fuel =>
      have hquote : c ≠ '"' := ne_of_isPadding hc (by decide)
      have hslash : c ≠ '\\' := ne_of_isPadding hc (by decide)
      intro h
      simp only [string, beq_iff_eq, hquote, hslash, if_false] at h
      split at h
      · cases h
      · split at h
        · cases h
        · next hrest => exact ih hw hrest

/-- A string that is read before padding is read without it. -/
theorem string_of_append {start fuel : Nat} {cs x r : List Char}
    (h : string start fuel (cs ++ w) = .ok (x, r)) :
    ∃ r', r = r' ++ w ∧ r'.length < cs.length ∧
      ∀ start' fuel', cs.length < fuel' → string start' fuel' cs = .ok (x, r') := by
  induction fuel generalizing cs x r with
  | zero => cases h
  | succ fuel ih =>
    cases cs with
    | nil => exact absurd h (string_ne_ok hw)
    | cons c cs =>
      rw [List.cons_append] at h
      simp only [string, beq_iff_eq] at h
      split at h
      · next hquote =>
        subst hquote
        obtain ⟨rfl, rfl⟩ := Prod.mk.inj (Except.ok.inj h)
        refine ⟨cs, rfl, by simp, fun start' fuel' hfuel => ?_⟩
        cases fuel' with
        | zero => cases hfuel
        | succ fuel' => simp [string]
      next hquote =>
      split at h
      · next hslash =>
        subst hslash
        split at h
        · cases h
        next c' n hescape =>
        split at h
        · cases h
        next xs rest hrest =>
        obtain ⟨rfl, rfl⟩ := Prod.mk.inj (Except.ok.inj h)
        -- the escape ends before the padding, or the string would
        have hn : n < cs.length := by
          refine Nat.lt_of_not_le fun hle => string_ne_ok ?_ hrest
          intro d hd
          rw [List.drop_append, List.drop_of_length_le hle, List.nil_append] at hd
          exact hw d (List.mem_of_mem_drop hd)
        rw [List.drop_append_of_le_length (Nat.le_of_lt hn)] at hrest
        obtain ⟨r', rfl, hlength, hstring⟩ := ih hrest
        rw [List.length_drop] at hlength hstring
        refine ⟨r', rfl, ?_, fun start' fuel' hfuel => ?_⟩
        · rw [List.length_cons]
          omega
        · cases fuel' with
          | zero => cases hfuel
          | succ fuel' =>
            rw [List.length_cons] at hfuel
            exact string_of_escape (escape_of_append hescape hn) (hstring start' fuel' (by omega))
      next hslash =>
      split at h
      · cases h
      next hcontrol =>
      split at h
      · cases h
      next xs rest hrest =>
      obtain ⟨rfl, rfl⟩ := Prod.mk.inj (Except.ok.inj h)
      obtain ⟨r', rfl, hlength, hstring⟩ := ih hrest
      refine ⟨r', rfl, ?_, fun start' fuel' hfuel => ?_⟩
      · rw [List.length_cons]
        omega
      · cases fuel' with
        | zero => cases hfuel
        | succ fuel' =>
          rw [List.length_cons] at hfuel
          exact string_of_plain hquote hslash (by omega) (hstring start' fuel' (by omega))

end

/-! ## Values -/

section

variable {w : List Char} (hw : ∀ c ∈ w, isPadding c = true)

include hw

theorem closing_of_isPadding : Closing w := by
  intro c hc
  have hpad := hw c (List.mem_of_mem_head? hc)
  have hne : ∀ d : Char, 0x20 < d.toNat → c ≠ d := fun d => ne_of_isPadding hpad
  have hzero := not_le_of_isPadding hpad (d := '0') (by decide)
  simp [isNumeric, isDigit, hzero, hne '.' (by decide), hne 'e' (by decide), hne 'E' (by decide),
    hne '+' (by decide), hne '-' (by decide)]

/-- A token at the start of a text stands before the padding. -/
theorem exists_of_append_eq {token u cs : List Char} (htoken : ∀ c ∈ token, isPadding c = false)
    (h : token ++ u = cs ++ w) : ∃ r, cs = token ++ r ∧ u = r ++ w := by
  induction token generalizing cs with
  | nil => exact ⟨cs, rfl, h⟩
  | cons c token ih =>
    obtain ⟨hc, htoken⟩ := List.forall_mem_cons.mp htoken
    rw [List.cons_append] at h
    cases cs with
    | nil =>
      have hpad : isPadding c = true := hw c (by rw [← List.nil_append w, ← h]; simp)
      rw [hc] at hpad
      cases hpad
    | cons d cs =>
      rw [List.cons_append, List.cons.injEq] at h
      obtain ⟨rfl, h⟩ := h
      obtain ⟨r, rfl, rfl⟩ := ih htoken h
      exact ⟨r, rfl, rfl⟩

theorem exists_of_cons_eq {c : Char} {u cs : List Char} (hc : isPadding c = false)
    (h : c :: u = cs ++ w) : ∃ r, cs = c :: r ∧ u = r ++ w := by
  have htoken : ∀ d ∈ [c], isPadding d = false := by simpa using hc
  exact exists_of_append_eq hw htoken h

/-- Blanks before a token end before the padding. -/
theorem skip_append {c : Char} {r u : List Char} (hc : isPadding c = false)
    (h : skip (r ++ w) = c :: u) : skip (r ++ w) = skip r ++ w := by
  induction r with
  | nil =>
    rw [List.nil_append] at h
    have hmem : c ∈ skip w := h ▸ List.mem_cons_self
    rw [hw c ((List.dropWhile_sublist isSpace).subset hmem)] at hc
    cases hc
  | cons d r ih =>
    rw [List.cons_append] at h ⊢
    unfold skip at ih h ⊢
    rw [List.dropWhile_cons] at h ⊢
    rw [List.dropWhile_cons]
    split at h
    · next hd =>
      rw [if_pos hd, if_pos hd]
      exact ih h
    · next hd => rw [if_neg hd, if_neg hd, List.cons_append]

theorem exists_of_skip_eq {c : Char} {r u : List Char} (hc : isPadding c = false)
    (h : skip (r ++ w) = c :: u) : ∃ u', skip r = c :: u' ∧ u = u' ++ w ∧ u'.length < r.length := by
  obtain ⟨u', hskip, rfl⟩ := exists_of_cons_eq hw hc (h.symm.trans (skip_append hw hc h))
  have hle := length_skip_le r
  rw [hskip, List.length_cons] at hle
  exact ⟨u', hskip, rfl, hle⟩

theorem number_of_append {negative : Bool} {cs u : List Char} {v : Json}
    (h : number negative (cs ++ w) = .ok (v, u)) :
    ∃ r, u = r ++ w ∧ r.length < cs.length ∧ number negative cs = .ok (v, r) := by
  obtain ⟨r, rfl, hn⟩ := (number_append_eq_ok_iff (closing_of_isPadding hw)).mp h
  obtain ⟨hne, hsuffix⟩ := suffix_of_number hn
  have hlength := hsuffix.length_le
  have hpos : 0 < (leading cs).length := List.length_pos_iff.mpr hne
  have hle := length_leading_le cs
  rw [List.length_drop] at hlength
  exact ⟨r, rfl, by omega, hn⟩

end

/-- What a reader gives before padding it gives without it, with a bound by what it reads. -/
def Unpadded {α : Type} (w : List Char) (reader : Nat → List Char → Except Fault (α × List Char))
    (bound : Nat) (fuel : Nat) : Prop :=
  ∀ {cs u : List Char} {a : α}, reader fuel (cs ++ w) = .ok (a, u) →
    ∃ r, u = r ++ w ∧ r.length < cs.length ∧
      ∀ fuel', 2 * cs.length + bound < fuel' → reader fuel' cs = .ok (a, r)

section

variable {w : List Char} (hw : ∀ c ∈ w, isPadding c = true) {fuel : Nat}

include hw

theorem unpadded_value (hitems : Unpadded w items 1 fuel)
    (hmembers : Unpadded w (fun fuel => members fuel []) 1 fuel) :
    Unpadded w value 0 (fuel + 1) := by
  intro cs u v h
  have hsucc : ∀ {r : List Char}, (∀ fuel', 2 * cs.length ≤ fuel' → ValueStep fuel' cs v r) →
      ∀ fuel', 2 * cs.length + 0 < fuel' → value fuel' cs = .ok (v, r) := by
    intro r hstep fuel' hfuel
    cases fuel' with
    | zero => omega
    | succ fuel' => exact (hstep fuel' (by omega)).value_eq
  obtain ⟨t, ht⟩ : ∃ t, t = cs ++ w := ⟨_, rfl⟩
  rw [← ht] at h
  cases ValueStep.of_value h with
  | word hname =>
    have htoken : ∀ n ∈ words, n.1.toList ≠ [] ∧ n.1.toList.all (!isPadding ·) = true := by decide
    have hsolid : ∀ c ∈ _, isPadding c = false := fun c hc =>
      Bool.not_eq_true' _ ▸ List.all_eq_true.mp (htoken _ hname).2 c hc
    obtain ⟨r, rfl, rfl⟩ := exists_of_append_eq hw hsolid ht
    refine ⟨r, rfl, ?_, hsucc fun fuel' _ => .word hname⟩
    have hpos := List.length_pos_iff.mpr (htoken _ hname).1
    rw [List.length_append]
    omega
  | text hs =>
    obtain ⟨r, rfl, rfl⟩ := exists_of_cons_eq hw rfl ht
    obtain ⟨r', rfl, hlength, hstring⟩ := string_of_append hw hs
    refine ⟨r', rfl, ?_, hsucc fun fuel' _ => .text (hstring _ _ (Nat.lt_succ_self _))⟩
    rw [List.length_cons]
    omega
  | emptyList hskip =>
    obtain ⟨r, rfl, rfl⟩ := exists_of_cons_eq hw rfl ht
    obtain ⟨r', hskip', rfl, hlength⟩ := exists_of_skip_eq hw rfl hskip
    refine ⟨r', rfl, ?_, hsucc fun fuel' _ => .emptyList hskip'⟩
    rw [List.length_cons]
    omega
  | list hxs =>
    obtain ⟨r, rfl, rfl⟩ := exists_of_cons_eq hw rfl ht
    obtain ⟨c, _, hhead, hc, -⟩ := head_of_items_ok hxs
    rw [skip_append hw (isPadding_eq_false hc) hhead] at hxs
    obtain ⟨r', rfl, hlength, hitems⟩ := hitems hxs
    have hle := length_skip_le r
    rw [List.length_cons] at hsucc ⊢
    refine ⟨r', rfl, by omega, hsucc fun fuel' hfuel => .list (hitems fuel' (by omega))⟩
  | emptyObject hskip =>
    obtain ⟨r, rfl, rfl⟩ := exists_of_cons_eq hw rfl ht
    obtain ⟨r', hskip', rfl, hlength⟩ := exists_of_skip_eq hw rfl hskip
    refine ⟨r', rfl, ?_, hsucc fun fuel' _ => .emptyObject hskip'⟩
    rw [List.length_cons]
    omega
  | object hfs =>
    obtain ⟨r, rfl, rfl⟩ := exists_of_cons_eq hw rfl ht
    obtain ⟨_, hhead⟩ := head_of_members_ok hfs
    rw [skip_append hw rfl hhead] at hfs
    obtain ⟨r', rfl, hlength, hmembers⟩ := hmembers hfs
    have hle := length_skip_le r
    rw [List.length_cons] at hsucc ⊢
    refine ⟨r', rfl, by omega, hsucc fun fuel' hfuel => .object (hmembers fuel' (by omega))⟩
  | negative hn =>
    obtain ⟨r, rfl, rfl⟩ := exists_of_cons_eq hw rfl ht
    obtain ⟨r', rfl, hlength, hn⟩ := number_of_append hw hn
    refine ⟨r', rfl, ?_, hsucc fun fuel' _ => .negative hn⟩
    rw [List.length_cons]
    omega
  | positive hn =>
    rw [ht] at hn
    obtain ⟨r', rfl, hlength, hn⟩ := number_of_append hw hn
    exact ⟨r', rfl, hlength, hsucc fun fuel' _ => .positive hn⟩

theorem unpadded_items (hvalue : Unpadded w value 0 fuel) (hitems : Unpadded w items 1 fuel) :
    Unpadded w items 1 (fuel + 1) := by
  intro cs u xs h
  have hsucc : ∀ {r : List Char}, (∀ fuel', 2 * cs.length < fuel' → ItemsStep fuel' cs xs r) →
      ∀ fuel', 2 * cs.length + 1 < fuel' → items fuel' cs = .ok (xs, r) := by
    intro r hstep fuel' hfuel
    cases fuel' with
    | zero => omega
    | succ fuel' => exact (hstep fuel' (by omega)).items_eq
  cases ItemsStep.of_items h with
  | last hx hskip =>
    obtain ⟨r, rfl, hlength, hx⟩ := hvalue hx
    obtain ⟨r', hskip', rfl, hlength'⟩ := exists_of_skip_eq hw rfl hskip
    exact ⟨r', rfl, by omega, hsucc fun fuel' hfuel => .last (hx fuel' hfuel) hskip'⟩
  | next hx hskip hys =>
    obtain ⟨r, rfl, hlength, hx⟩ := hvalue hx
    obtain ⟨r', hskip', rfl, hlength'⟩ := exists_of_skip_eq hw rfl hskip
    obtain ⟨c, _, hhead, hc, -⟩ := head_of_items_ok hys
    rw [skip_append hw (isPadding_eq_false hc) hhead] at hys
    obtain ⟨r'', rfl, hlength'', hys⟩ := hitems hys
    have hle := length_skip_le r'
    exact ⟨r'', rfl, by omega, hsucc fun fuel' hfuel =>
      .next (hx fuel' hfuel) hskip' (hys fuel' (by omega))⟩

theorem unpadded_memberAt (hvalue : Unpadded w value 0 fuel) {cs u : List Char} {k : String}
    {v : Json} (h : MemberAt fuel (cs ++ w) k v u) :
    ∃ r, u = r ++ w ∧ r.length < cs.length
      ∧ ∀ fuel', 2 * cs.length < fuel' → MemberAt fuel' cs k v r := by
  obtain ⟨t, ht⟩ : ∃ t, t = cs ++ w := ⟨_, rfl⟩
  rw [← ht] at h
  obtain ⟨hs, hcolon, hv⟩ := h
  obtain ⟨r, rfl, rfl⟩ := exists_of_cons_eq hw rfl ht
  obtain ⟨r₁, rfl, hlength, hstring⟩ := string_of_append hw hs
  obtain ⟨r₂, hcolon', rfl, hlength₂⟩ := exists_of_skip_eq hw rfl hcolon
  obtain ⟨c, _, hhead, hc, -⟩ := head_of_value_ok hv
  rw [skip_append hw (isPadding_eq_false hc) hhead] at hv
  obtain ⟨r₃, rfl, hlength₃, hv⟩ := hvalue hv
  have hle := length_skip_le r₂
  rw [List.length_cons]
  exact ⟨r₃, rfl, by omega, fun fuel' hfuel =>
    .intro (hstring _ _ (Nat.lt_succ_self _)) hcolon' (hv fuel' (by omega))⟩

theorem unpadded_members {fs : Fields} (hvalue : Unpadded w value 0 fuel)
    (hmembers : ∀ fs, Unpadded w (fun fuel => members fuel fs) 1 fuel) :
    Unpadded w (fun fuel => members fuel fs) 1 (fuel + 1) := by
  intro cs u gs h
  have hsucc : ∀ {r : List Char}, (∀ fuel', 2 * cs.length < fuel' → MembersStep fuel' fs cs gs r) →
      ∀ fuel', 2 * cs.length + 1 < fuel' → members fuel' fs cs = .ok (gs, r) := by
    intro r hstep fuel' hfuel
    cases fuel' with
    | zero => omega
    | succ fuel' => exact (hstep fuel' (by omega)).members_eq
  cases MembersStep.of_members h with
  | last hm hskip =>
    obtain ⟨r, rfl, hlength, hm⟩ := unpadded_memberAt hw hvalue hm
    obtain ⟨r', hskip', rfl, hlength'⟩ := exists_of_skip_eq hw rfl hskip
    exact ⟨r', rfl, by omega, hsucc fun fuel' hfuel => .last (hm fuel' hfuel) hskip'⟩
  | next hm hskip hgs =>
    obtain ⟨r, rfl, hlength, hm⟩ := unpadded_memberAt hw hvalue hm
    obtain ⟨r', hskip', rfl, hlength'⟩ := exists_of_skip_eq hw rfl hskip
    obtain ⟨_, hhead⟩ := head_of_members_ok hgs
    rw [skip_append hw rfl hhead] at hgs
    obtain ⟨r'', rfl, hlength'', hgs⟩ := hmembers _ hgs
    have hle := length_skip_le r'
    exact ⟨r'', rfl, by omega, hsucc fun fuel' hfuel =>
      .next (hm fuel' hfuel) hskip' (hgs fuel' (by omega))⟩

/-- The readers read alike with and without padding. -/
theorem unpadded_readers (fuel : Nat) :
    Unpadded w value 0 fuel ∧ Unpadded w items 1 fuel
      ∧ ∀ fs, Unpadded w (fun fuel => members fuel fs) 1 fuel := by
  induction fuel with
  | zero =>
    refine ⟨?_, ?_, fun fs => ?_⟩
    all_goals
      intro cs u a h
      cases h
  | succ fuel ih =>
    obtain ⟨hvalue, hitems, hmembers⟩ := ih
    exact ⟨unpadded_value hw hitems (hmembers []), unpadded_items hw hvalue hitems,
      fun fs => unpadded_members hw hvalue hmembers⟩

end

/-! ## Whole texts -/

/-- What is left after blanks is the text, if it is to be read at all. -/
theorem skip_of_padded {before text after u : List Char} {c : Char}
    (hbefore : ∀ c ∈ before, isPadding c = true) (hafter : ∀ c ∈ after, isPadding c = true)
    (htext : ∀ c ∈ text.head?, isSpace c = false) (hc : isPadding c = false)
    (h : skip (before ++ (text ++ after)) = c :: u) :
    skip (before ++ (text ++ after)) = text ++ after := by
  induction before with
  | nil =>
    rw [List.nil_append] at h ⊢
    rw [skip_append hafter hc h]
    cases text with
    | nil => rfl
    | cons d text => simp [skip, htext d rfl]
  | cons d before ih =>
    obtain ⟨hd, hbefore⟩ := List.forall_mem_cons.mp hbefore
    rw [List.cons_append] at h ⊢
    unfold skip at ih h ⊢
    rw [List.dropWhile_cons] at h ⊢
    split at h
    · next hs =>
      rw [if_pos hs]
      exact ih hbefore h
    · obtain ⟨rfl, -⟩ := List.cons.inj h
      rw [hd] at hc
      cases hc

/-- **Padding around a text is not part of it:** a text that is read is read alike without the
padding at its ends. -/
theorem parse_of_padded {before text after : List Char} {v : Json}
    (hbefore : ∀ c ∈ before, isPadding c = true) (hafter : ∀ c ∈ after, isPadding c = true)
    (htext : ∀ c ∈ text.head?, isSpace c = false)
    (h : parse (String.ofList (before ++ (text ++ after))) = .ok v) :
    parse (String.ofList text) = .ok v := by
  rw [parse_eq_ok_iff, String.toList_ofList] at h ⊢
  obtain ⟨-, u, hvalue, hskip⟩ := h
  obtain ⟨c, _, hhead, hc, -⟩ := head_of_value_ok hvalue
  rw [skip_of_padded hbefore hafter htext (isPadding_eq_false hc) hhead] at hvalue
  obtain ⟨r, rfl, -, hread⟩ := (unpadded_readers hafter _).1 hvalue
  have hread := hread (2 * text.length + 2) (by omega)
  obtain ⟨d, _, htext, -, hascii, -⟩ := head_of_value_ok hread
  refine ⟨?_, r, ?_, ?_⟩
  · rw [htext]
    rintro ⟨⟩
    exact absurd hascii (by decide)
  · rw [skip_of_value_ok hread, hread]
  · rw [skip, List.dropWhile_eq_nil_iff] at hskip ⊢
    exact fun c hc => hskip c (List.mem_append_left after hc)

end WebAudit.Json
