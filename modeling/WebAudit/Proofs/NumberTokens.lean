import WebAudit.Script.Number

/-!
# Number tokens

A number token is described twice: by the lengths that are counted at the start of a text, and by the
forms that a token can have. The forms are a grammar of their own, in which a fraction or an exponent
follows a whole part and only an integer can have the mark of a big integer. Counting takes as much as it
can, so it comes to the end of a form if what follows cannot go on with it.

* `Token`: the forms of number tokens;
* `starts_length`: what is counted at the start of a text has one of the forms;
* `Token.length_eq`: a token that stands alone is counted in full;
* `isToken_iff`: a text is one token as counted just if it has one of the forms.
-/

namespace WebAudit.Script.Number

/-! ## Forms -/

/-- Further digits, each with at most one underscore before it. -/
inductive Tail (p : Char → Bool) : List Char → Prop where
  | nil : Tail p []
  | digit {c : Char} {r : List Char} (hc : p c = true) (h : Tail p r) : Tail p (c :: r)
  | apart {c : Char} {r : List Char} (hc : p c = true) (h : Tail p r) : Tail p ('_' :: c :: r)

/-- Digits with single underscores between them. -/
inductive Digits (p : Char → Bool) : List Char → Prop where
  | mk {c : Char} {r : List Char} (hc : p c = true) (h : Tail p r) : Digits p (c :: r)

/-- The digits that a radix mark asks for. -/
def radixDigits? (x : Char) : Option (Char → Bool) :=
  if x == 'x' || x == 'X' then some isHexDigit
  else if x == 'b' || x == 'B' then some isBinaryDigit
  else if x == 'o' || x == 'O' then some isOctalDigit
  else none

/-- Integers: decimal digits, or digits behind a radix mark. -/
inductive Integer : List Char → Prop where
  | decimal {cs : List Char} (h : Digits isDigit cs) : Integer cs
  | radix {x : Char} {p : Char → Bool} {r : List Char} (hx : radixDigits? x = some p)
      (h : Digits p r) : Integer ('0' :: x :: r)

/-- The digits but zero. -/
def isNonzero (c : Char) : Bool :=
  '1' ≤ c && c ≤ '9'

/-- Whole parts of numbers with a fraction or an exponent: at most one leading zero. -/
inductive Whole : List Char → Prop where
  | zero : Whole ['0']
  | plain {c : Char} {r : List Char} (hc : isNonzero c = true) (h : Tail isDigit r) : Whole (c :: r)
  | zeroed {c : Char} {r : List Char} (hc : isNonzero c = true) (h : Tail isDigit r) :
      Whole ('0' :: c :: r)

/-- Exponents, with or without a sign. -/
inductive Exponent : List Char → Prop where
  | plain {e : Char} {r : List Char} (he : e = 'e' ∨ e = 'E') (h : Digits isDigit r) :
      Exponent (e :: r)
  | signed {e s : Char} {r : List Char} (he : e = 'e' ∨ e = 'E') (hs : s = '+' ∨ s = '-')
      (h : Digits isDigit r) : Exponent (e :: s :: r)

/-- A part of a number that may be left out. -/
def Optional (form : List Char → Prop) (cs : List Char) : Prop :=
  cs = [] ∨ form cs

/-- Number tokens. -/
inductive Token : List Char → Prop where
  | integer {cs : List Char} (h : Integer cs) : Token cs
  | bigInteger {cs : List Char} (h : Integer cs) : Token (cs ++ ['n'])
  | point {w f e : List Char} (hw : Optional Whole w) (hf : Optional (Digits isDigit) f)
      (hne : w ≠ [] ∨ f ≠ []) (he : Optional Exponent e) : Token (w ++ '.' :: (f ++ e))
  | scaled {w e : List Char} (hw : Whole w) (he : Exponent e) : Token (w ++ e)

/-! ## What is counted has a form -/

/-- So many characters at the start of a text have a form, unless there are none. -/
def Starts (form : List Char → Prop) (cs : List Char) (n : Nat) : Prop :=
  n = 0 ∨ ∃ piece rest, cs = piece ++ rest ∧ form piece ∧ n = piece.length

namespace Starts

variable {form form' : List Char → Prop} {cs : List Char} {n : Nat}

theorem le_length (h : Starts form cs n) : n ≤ cs.length := by
  rcases h with rfl | ⟨piece, rest, rfl, -, rfl⟩
  · exact Nat.zero_le _
  · rw [List.length_append]
    exact Nat.le_add_right _ _

theorem mono (h : Starts form cs n) (himp : ∀ cs, form cs → form' cs) : Starts form' cs n := by
  rcases h with hzero | ⟨piece, rest, hcs, hform, hn⟩
  · exact .inl hzero
  · exact .inr ⟨piece, rest, hcs, himp piece hform, hn⟩

theorem max {m : Nat} (hm : Starts form cs m) (hn : Starts form cs n) : Starts form cs (max m n) := by
  rw [Nat.max_def]
  split
  · exact hn
  · exact hm

/-- Where there may be nothing, there is a piece in any case. -/
theorem exists_optional (h : Starts form cs n) :
    ∃ piece rest, cs = piece ++ rest ∧ Optional form piece ∧ n = piece.length := by
  rcases h with rfl | ⟨piece, rest, hcs, hform, hn⟩
  · exact ⟨[], cs, rfl, .inl rfl, rfl⟩
  · exact ⟨piece, rest, hcs, .inr hform, hn⟩

theorem take (h : Starts form cs n) (hn : 0 < n) : form (cs.take n) := by
  rcases h with rfl | ⟨piece, rest, rfl, hform, rfl⟩
  · exact absurd hn (Nat.lt_irrefl 0)
  · rwa [List.take_left]

end Starts

variable {p : Char → Bool}

theorem exists_tail (p : Char → Bool) (cs : List Char) :
    ∃ piece rest, cs = piece ++ rest ∧ Tail p piece ∧ digitTail p cs = piece.length := by
  fun_induction digitTail p cs with
  | case1 => exact ⟨[], [], rfl, .nil, rfl⟩
  | case2 c r hc ih =>
    obtain ⟨piece, rest, rfl, hpiece, hlength⟩ := ih
    exact ⟨'_' :: c :: piece, rest, rfl, .apart hc hpiece, by simp [hlength]; omega⟩
  | case3 c r hc => exact ⟨[], _, rfl, .nil, rfl⟩
  | case4 c r _ hc ih =>
    obtain ⟨piece, rest, rfl, hpiece, hlength⟩ := ih
    exact ⟨c :: piece, rest, rfl, .digit hc hpiece, by simp [hlength]; omega⟩
  | case5 c r _ hc => exact ⟨[], _, rfl, .nil, rfl⟩

theorem starts_digits (p : Char → Bool) (cs : List Char) : Starts (Digits p) cs (digits p cs) := by
  cases cs with
  | nil => exact .inl rfl
  | cons c r =>
    rw [digits]
    by_cases hc : p c = true
    · obtain ⟨piece, rest, rfl, hpiece, hlength⟩ := exists_tail p r
      refine .inr ⟨c :: piece, rest, rfl, .mk hc hpiece, ?_⟩
      rw [if_pos hc, hlength, List.length_cons, Nat.add_comm]
    · exact .inl (if_neg hc)

/-- Texts of a form, with or without the mark of a big integer. -/
def Marked (form : List Char → Prop) (cs : List Char) : Prop :=
  form cs ∨ ∃ body, form body ∧ cs = body ++ ['n']

theorem Starts.withBigIntMark {form : List Char → Prop} {cs : List Char} {n : Nat}
    (h : Starts form cs n) : Starts (Marked form) cs (withBigIntMark cs n) := by
  rcases h with rfl | ⟨piece, rest, rfl, hform, rfl⟩
  · exact .inl rfl
  · rw [Number.withBigIntMark.eq_def, List.drop_left]
    split
    · exact .inl rfl
    · next rest _ => exact .inr ⟨piece ++ ['n'], rest, by simp, .inr ⟨piece, hform, rfl⟩, by simp⟩
    · exact .inr ⟨piece, _, rfl, .inl hform, rfl⟩

theorem starts_integerLength (cs : List Char) : Starts (Marked Integer) cs (integerLength cs) :=
  ((starts_digits isDigit cs).mono fun _ => .decimal).withBigIntMark

theorem afterRadix_eq (p : Char → Bool) (r : List Char) :
    afterRadix p r = if digits p r = 0 then 0 else digits p r + 2 := by
  rw [afterRadix.eq_def]
  split <;> simp_all

theorem starts_afterRadix {x : Char} (hx : radixDigits? x = some p) (r : List Char) :
    Starts Integer ('0' :: x :: r) (afterRadix p r) := by
  rw [afterRadix_eq]
  rcases starts_digits p r with hzero | ⟨piece, rest, rfl, hpiece, hlength⟩
  · exact .inl (if_pos hzero)
  · rw [hlength]
    split
    · exact .inl rfl
    · exact .inr ⟨'0' :: x :: piece, rest, rfl, .radix hx hpiece, rfl⟩

theorem radixLength_cons (x : Char) (r : List Char) :
    radixLength ('0' :: x :: r) = withBigIntMark ('0' :: x :: r)
      (((radixDigits? x).map fun p => afterRadix p r).getD 0) := by
  simp only [radixLength, radixDigits?]
  congr 1
  split
  · rfl
  · split
    · rfl
    · split <;> rfl

theorem starts_radixLength (cs : List Char) : Starts (Marked Integer) cs (radixLength cs) := by
  by_cases h : ∃ x r, cs = '0' :: x :: r
  · obtain ⟨x, r, rfl⟩ := h
    rw [radixLength_cons]
    apply Starts.withBigIntMark
    cases hx : radixDigits? x with
    | none => exact .inl rfl
    | some p => exact starts_afterRadix hx r
  · left
    rw [radixLength.eq_def]
    split
    · exact absurd ⟨_, _, rfl⟩ h
    · rfl

theorem starts_exponentLength (cs : List Char) : Starts Exponent cs (exponentLength cs) := by
  rw [exponentLength.eq_def]
  split
  · next e r =>
    split
    · next he =>
      have he : e = 'e' ∨ e = 'E' := by simpa using he
      split
      · next s r' =>
        split
        · next hs =>
          have hs : s = '+' ∨ s = '-' := by simpa using hs
          rcases starts_digits isDigit r' with hzero | ⟨piece, rest, rfl, hpiece, hlength⟩
          · rw [hzero]
            exact .inl rfl
          · rw [hlength]
            cases hpiece with
            | mk hc h => exact .inr ⟨_, rest, rfl, .signed he hs (.mk hc h), rfl⟩
        · rcases starts_digits isDigit (s :: r') with hzero | ⟨piece, rest, hr, hpiece, hlength⟩
          · rw [hzero]
            exact .inl rfl
          · rw [hlength, hr]
            cases hpiece with
            | mk hc h => exact .inr ⟨_, rest, rfl, .plain he (.mk hc h), rfl⟩
      · exact .inl rfl
    · exact .inl rfl
  · exact .inl rfl

theorem isNonzero_of_isDigit {c : Char} (hc : isDigit c = true) (hzero : c ≠ '0') :
    isNonzero c = true := by
  have hval : c.val ≠ 48 := fun h => hzero (Char.ext h)
  simp only [isDigit, isNonzero, Bool.and_eq_true, decide_eq_true_eq, Char.le_def] at hc ⊢
  refine ⟨?_, hc.2⟩
  have hle := hc.1
  simp only [UInt32.le_iff_toNat_le, ← UInt32.toNat_inj, ne_eq] at hval hle ⊢
  change ¬ c.val.toNat = 48 at hval
  change 48 ≤ c.val.toNat at hle
  show 49 ≤ c.val.toNat
  omega

theorem starts_wholeLength (cs : List Char) : Starts Whole cs (wholeLength cs) := by
  rw [wholeLength.eq_def]
  split
  · next c r =>
    split
    · next hc =>
      obtain ⟨piece, rest, rfl, hpiece, hlength⟩ := exists_tail isDigit r
      refine .inr ⟨'0' :: c :: piece, rest, rfl, .zeroed hc hpiece, ?_⟩
      rw [hlength, List.length_cons, List.length_cons]
      omega
    · exact .inr ⟨['0'], c :: r, rfl, .zero, rfl⟩
  · next c r hshort =>
    split
    · next hc =>
      by_cases hzero : c = '0'
      · subst hzero
        cases r with
        | nil => exact .inr ⟨['0'], [], rfl, .zero, rfl⟩
        | cons d r => exact (hshort d r rfl rfl).elim
      · obtain ⟨piece, rest, rfl, hpiece, hlength⟩ := exists_tail isDigit r
        refine .inr ⟨c :: piece, rest, rfl, .plain (isNonzero_of_isDigit hc hzero) hpiece, ?_⟩
        rw [hlength, List.length_cons, Nat.add_comm]
    · exact .inl rfl
  · exact .inl rfl

theorem starts_pointLength (cs : List Char) : Starts Token cs (pointLength cs) := by
  obtain ⟨w, rest, rfl, hw, hwlength⟩ := (starts_wholeLength cs).exists_optional
  rw [pointLength]
  simp only [hwlength, List.drop_left]
  split
  · next r =>
    obtain ⟨f, rest, rfl, hf, hflength⟩ := (starts_digits isDigit r).exists_optional
    obtain ⟨e, rest, rfl, he, helength⟩ := (starts_exponentLength rest).exists_optional
    simp only [hflength, List.drop_left, helength]
    split
    · exact .inl rfl
    · next hne =>
      refine .inr ⟨w ++ '.' :: (f ++ e), rest, by simp, .point hw hf ?_ he, by simp; omega⟩
      cases w with
      | nil => exact .inr fun hf => hne (by simp [hf])
      | cons => exact .inl (List.cons_ne_nil _ _)
  · exact .inl rfl

theorem starts_scaledLength (cs : List Char) : Starts Token cs (scaledLength cs) := by
  rw [scaledLength]
  rcases starts_wholeLength cs with hzero | ⟨w, rest, rfl, hw, hwlength⟩
  · rw [hzero]
    exact .inl rfl
  · rw [hwlength]
    cases w with
    | nil => exact .inl rfl
    | cons c w =>
      have hdrop : (c :: w ++ rest).drop (w.length + 1) = rest := by simp
      simp only [List.length_cons, hdrop]
      rcases starts_exponentLength rest with hzero | ⟨e, rest, rfl, he, helength⟩
      · rw [hzero]
        exact .inl rfl
      · rw [helength]
        cases e with
        | nil => exact .inl rfl
        | cons d e => exact .inr ⟨c :: w ++ d :: e, rest, by simp, .scaled hw he, by simp; omega⟩

theorem starts_length (cs : List Char) : Starts Token cs (length cs) := by
  have hmarked (form : List Char) (h : Marked Integer form) : Token form := by
    rcases h with h | ⟨body, h, rfl⟩
    · exact .integer h
    · exact .bigInteger h
  rw [length]
  exact (((starts_radixLength cs).mono hmarked).max ((starts_integerLength cs).mono hmarked)).max
    ((starts_pointLength cs).max (starts_scaledLength cs))

/-! ## What has a form is counted -/

/-- A text does not go on with digits. -/
def Stops (p : Char → Bool) (s : List Char) : Prop :=
  ∀ c ∈ s.head?, c ≠ '_' ∧ p c = false

theorem digitTail_cons {c : Char} (hc : c ≠ '_') (r : List Char) :
    digitTail p (c :: r) = if p c then 1 + digitTail p r else 0 := by
  rw [digitTail.eq_3]
  intro _ _ h
  exact absurd h hc

theorem ne_underscore {c : Char} (hp : p '_' = false) (hc : p c = true) : c ≠ '_' := by
  rintro rfl
  rw [hp] at hc
  cases hc

theorem digitTail_of_stops {s : List Char} (hs : Stops p s) : digitTail p s = 0 := by
  cases s with
  | nil => rfl
  | cons c r =>
    obtain ⟨hne, hc⟩ := hs c rfl
    rw [digitTail_cons hne, hc]
    rfl

theorem digits_of_stops {s : List Char} (hs : Stops p s) : digits p s = 0 := by
  cases s with
  | nil => rfl
  | cons c r =>
    rw [digits, (hs c rfl).2]
    rfl

theorem digitTail_append {r s : List Char} (hp : p '_' = false) (h : Tail p r) (hs : Stops p s) :
    digitTail p (r ++ s) = r.length := by
  induction h with
  | nil => exact digitTail_of_stops hs
  | digit hc _ ih =>
    rw [List.cons_append, digitTail_cons (ne_underscore hp hc), if_pos hc, ih, List.length_cons,
      Nat.add_comm]
  | apart hc _ ih =>
    rw [List.cons_append, List.cons_append, digitTail, if_pos hc, ih, List.length_cons,
      List.length_cons]
    omega

theorem digits_append {cs s : List Char} (hp : p '_' = false) (h : Digits p cs) (hs : Stops p s) :
    digits p (cs ++ s) = cs.length := by
  cases h with
  | mk hc h =>
    rw [List.cons_append, digits, if_pos hc, digitTail_append hp h hs, List.length_cons, Nat.add_comm]

theorem stops_nil : Stops p [] :=
  fun _ h => by cases h

theorem digits_self {cs : List Char} (hp : p '_' = false) (h : Digits p cs) :
    digits p cs = cs.length := by
  simpa using digits_append hp h stops_nil

theorem withBigIntMark_self (cs : List Char) : withBigIntMark cs cs.length = cs.length := by
  cases cs with
  | nil => rfl
  | cons c r =>
    rw [withBigIntMark.eq_def, List.drop_length]
    rfl

theorem withBigIntMark_concat {cs : List Char} (hne : cs ≠ []) :
    withBigIntMark (cs ++ ['n']) cs.length = cs.length + 1 := by
  cases cs with
  | nil => exact absurd rfl hne
  | cons c r =>
    rw [withBigIntMark.eq_def, List.drop_left]
    rfl

theorem Digits.ne_nil {cs : List Char} (h : Digits p cs) : cs ≠ [] := by
  cases h
  exact List.cons_ne_nil _ _

theorem Integer.ne_nil {cs : List Char} (h : Integer cs) : cs ≠ [] := by
  cases h with
  | decimal h => exact h.ne_nil
  | radix => exact List.cons_ne_nil _ _

/-- What is known of the digits behind a radix mark. -/
theorem radixDigits?_eq_some {x : Char} (h : radixDigits? x = some p) :
    x ∈ ['x', 'X', 'o', 'O', 'b', 'B'] ∧ p '_' = false ∧ p 'n' = false
      ∧ ∀ c, p c = true → isHexDigit c = true := by
  rw [radixDigits?] at h
  split at h
  · next hx =>
    cases h
    refine ⟨?_, rfl, rfl, fun _ => id⟩
    rcases (by simpa using hx : x = 'x' ∨ x = 'X') with rfl | rfl <;> decide
  · split at h
    · next hx =>
      cases h
      refine ⟨?_, rfl, rfl, fun c hc => ?_⟩
      · rcases (by simpa using hx : x = 'b' ∨ x = 'B') with rfl | rfl <;> decide
      · rcases (by simpa [isBinaryDigit] using hc : c = '0' ∨ c = '1') with rfl | rfl <;> rfl
    · split at h
      · next hx =>
        cases h
        refine ⟨?_, rfl, rfl, fun c hc => ?_⟩
        · rcases (by simpa using hx : x = 'o' ∨ x = 'O') with rfl | rfl <;> decide
        · simp only [isOctalDigit, Bool.and_eq_true, decide_eq_true_eq] at hc
          have hnine : c ≤ '9' := Char.le_trans hc.2 (by decide)
          simp [isHexDigit, isDigit, hc.1, hnine]
      · cases h

theorem afterRadix_append {r s : List Char} (hp : p '_' = false) (h : Digits p r) (hs : Stops p s) :
    afterRadix p (r ++ s) = r.length + 2 := by
  rw [afterRadix_eq, digits_append hp h hs, if_neg]
  exact mt List.length_eq_zero_iff.mp h.ne_nil

/-- An integer is counted in full, and so is the mark behind it. -/
theorem Integer.length_eq {cs : List Char} (h : Integer cs) :
    (radixLength cs = cs.length ∨ integerLength cs = cs.length)
    ∧ (radixLength (cs ++ ['n']) = cs.length + 1 ∨ integerLength (cs ++ ['n']) = cs.length + 1) := by
  cases h with
  | decimal h =>
    refine ⟨.inr ?_, .inr ?_⟩
    · rw [integerLength, digits_self rfl h, withBigIntMark_self]
    · rw [integerLength, digits_append rfl h (by simp [Stops, isDigit]), withBigIntMark_concat h.ne_nil]
  | @radix x p r hx h =>
    obtain ⟨-, hp, hn, -⟩ := radixDigits?_eq_some hx
    refine ⟨.inl ?_, .inl ?_⟩
    · have hlength := afterRadix_append hp h stops_nil
      rw [List.append_nil] at hlength
      rw [radixLength_cons, hx]
      show withBigIntMark _ (afterRadix _ _) = _
      rw [hlength]
      exact withBigIntMark_self _
    · rw [List.cons_append, List.cons_append, radixLength_cons, hx]
      show withBigIntMark _ (afterRadix _ _) = _
      rw [afterRadix_append hp h (by simp [Stops, hn])]
      have hne : '0' :: x :: r ≠ [] := List.cons_ne_nil _ _
      exact withBigIntMark_concat hne

theorem Exponent.length_eq {e : List Char} (h : Exponent e) : exponentLength e = e.length := by
  cases h with
  | @plain e r he h =>
    have hmark : (e == 'e' || e == 'E') = true := by simpa using he
    have hlength := digits_self rfl h
    cases h with
    | @mk c r hc h =>
      have hsign : (c == '+' || c == '-') = false := by
        rw [Bool.eq_false_iff]
        intro hsign
        rcases (by simpa using hsign : c = '+' ∨ c = '-') with rfl | rfl <;> cases hc
      simp only [exponentLength, hmark, hsign, hlength]
      rfl
  | @signed e s r he hs h =>
    have hmark : (e == 'e' || e == 'E') = true := by simpa using he
    have hsign : (s == '+' || s == '-') = true := by simpa using hs
    have hlength := digits_self rfl h
    cases h with
    | mk hc h =>
      simp only [exponentLength, hmark, hsign, hlength]
      rfl

theorem Exponent.stops {e : List Char} (h : Optional Exponent e) : Stops isDigit e := by
  rcases h with rfl | h
  · exact stops_nil
  · cases h with
    | plain he => rcases he with rfl | rfl <;> simp [Stops, isDigit]
    | signed he => rcases he with rfl | rfl <;> simp [Stops, isDigit]

theorem isDigit_of_isNonzero {c : Char} (hc : isNonzero c = true) : isDigit c = true := by
  simp only [isNonzero, Bool.and_eq_true, decide_eq_true_eq] at hc
  have hzero : '0' ≤ c := Char.le_trans (by decide) hc.1
  simp [isDigit, hzero, hc.2]

theorem Whole.length_eq {w s : List Char} (h : Whole w) (hs : Stops isDigit s) :
    wholeLength (w ++ s) = w.length := by
  cases h with
  | zero =>
    cases s with
    | nil => rfl
    | cons c r =>
      obtain ⟨-, hc⟩ := hs c rfl
      have hnonzero : ¬ isNonzero c = true := by
        intro h
        rw [isDigit_of_isNonzero h] at hc
        cases hc
      exact if_neg hnonzero
  | @plain c r hc h =>
    have hne : c ≠ '0' := by
      rintro rfl
      cases hc
    rw [List.cons_append, wholeLength.eq_2 _ _ (fun _ _ h => absurd h hne),
      if_pos (isDigit_of_isNonzero hc), digitTail_append rfl h hs, List.length_cons, Nat.add_comm]
  | zeroed hc h =>
    rw [List.cons_append, List.cons_append, wholeLength, List.length_cons, List.length_cons]
    refine (if_pos hc).trans ?_
    rw [digitTail_append rfl h hs]
    omega

theorem pointLength_eq {w f e : List Char} (hw : Optional Whole w)
    (hf : Optional (Digits isDigit) f) (hne : w ≠ [] ∨ f ≠ []) (he : Optional Exponent e) :
    pointLength (w ++ '.' :: (f ++ e)) = (w ++ '.' :: (f ++ e)).length := by
  have hpoint : Stops isDigit ('.' :: (f ++ e)) := by simp [Stops, isDigit]
  have hwlength : wholeLength (w ++ '.' :: (f ++ e)) = w.length := by
    rcases hw with rfl | hw
    · rfl
    · exact hw.length_eq hpoint
  have hflength : digits isDigit (f ++ e) = f.length := by
    rcases hf with rfl | hf
    · exact digits_of_stops (Exponent.stops he)
    · exact digits_append rfl hf (Exponent.stops he)
  have helength : exponentLength e = e.length := by
    rcases he with rfl | he
    · rfl
    · exact he.length_eq
  have hsome : ¬ (w.length == 0 && f.length == 0) = true := by
    rcases hne with hne | hne <;> simp [hne]
  simp only [pointLength, hwlength, List.drop_left, hflength, helength, if_neg hsome,
    List.length_append, List.length_cons]
  omega

theorem scaledLength_eq {w e : List Char} (hw : Whole w) (he : Exponent e) :
    scaledLength (w ++ e) = (w ++ e).length := by
  have hwlength := hw.length_eq (Exponent.stops (.inr he))
  have helength := he.length_eq
  cases w with
  | nil => cases hw
  | cons c w =>
    cases e with
    | nil => cases he
    | cons d e =>
      have hdrop : (c :: w ++ d :: e).drop (w.length + 1) = d :: e := by simp
      simp only [scaledLength, hwlength, List.length_cons, hdrop, helength, List.length_append]

/-- **A token is counted in full.** -/
theorem Token.length_eq {cs : List Char} (h : Token cs) : length cs = cs.length := by
  refine Nat.le_antisymm (starts_length cs).le_length ?_
  rw [length]
  cases h with
  | integer h =>
    obtain ⟨hradix | hinteger, -⟩ := h.length_eq <;> omega
  | bigInteger h =>
    rw [List.length_append, List.length_singleton]
    obtain ⟨-, hradix | hinteger⟩ := h.length_eq <;> omega
  | point hw hf hne he =>
    have hpoint := pointLength_eq hw hf hne he
    omega
  | scaled hw he =>
    have hscaled := scaledLength_eq hw he
    omega

theorem Token.ne_nil {cs : List Char} (h : Token cs) : cs ≠ [] := by
  cases h with
  | integer h => exact h.ne_nil
  | bigInteger h => simp
  | point => simp
  | scaled hw he => cases he <;> simp

/-- **What is counted as a token is one.** -/
theorem isToken_iff {cs : List Char} : isToken cs = true ↔ Token cs := by
  simp only [isToken, Bool.and_eq_true, decide_eq_true_eq, beq_iff_eq]
  constructor
  · rintro ⟨hpos, hlength⟩
    have htoken := (starts_length cs).take (by omega)
    rwa [hlength, List.take_length] at htoken
  · intro h
    exact ⟨List.length_pos_iff.mpr h.ne_nil, h.length_eq⟩

end WebAudit.Script.Number
