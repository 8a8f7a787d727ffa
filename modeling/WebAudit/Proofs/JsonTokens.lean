import WebAudit.Json.Writer
import WebAudit.Proofs.JsonValues

/-!
# Texts and numbers that are read back

What the writer makes of a string or of a number is read back by the reader. Every reader is taken
together with a rest that follows the text, so that the parts of a value compose; after a number the
rest has to be one that does not go on with the number (`Closing`). `number_append_eq_ok_iff` says
that a number is read alike before every such rest, and `value_of_parse_numeral` that a numeral that
is a whole text is read to its end.
-/

namespace WebAudit.Json

/-! ## Strings -/

theorem hexValue?_hexDigit {n : Nat} (h : n < 16) : hexValue? (hexDigit n) = some n := by
  have hall : ∀ m ∈ List.range 16, hexValue? (hexDigit m) = some m := by decide
  exact hall n (List.mem_range.mpr h)

theorem hex4?_hexDigit {n : Nat} (h : n < 0x10000) :
    hex4? (hexDigit (n / 4096 % 16)) (hexDigit (n / 256 % 16)) (hexDigit (n / 16 % 16))
      (hexDigit (n % 16)) = some n := by
  have hdigit : ∀ m, hexValue? (hexDigit (m % 16)) = some (m % 16) :=
    fun m => hexValue?_hexDigit (by omega)
  simp only [hex4?, hdigit, Option.bind_eq_bind, Option.bind_some, Option.pure_def]
  congr 1
  omega

/-- A character outside the surrogates is the one that its code point stands for. -/
theorem codePoint_toNat (c : Char) : codePoint c.toNat = c := by
  have hvalid : c.toNat.isValidChar := c.valid
  unfold Nat.isValidChar at hvalid
  unfold codePoint
  rw [if_neg, Char.ofNat_toNat]
  simp
  omega

section

variable {start n m : Nat} {r : List Char}

theorem code?_unicodeEscape (h : n < 0x10000) (hr : r ≠ []) :
    code? ((unicodeEscape n).drop 2 ++ r) = some n := by
  cases r with
  | nil => exact absurd rfl hr
  | cons e r => exact hex4?_hexDigit h

theorem escape_unicode (h : n < 0x10000) (hn : isHighSurrogate n = false) (hr : r ≠ []) :
    escape start ((unicodeEscape n).tail ++ r) = .ok (codePoint n, 5) := by
  have hcode := code?_unicodeEscape h hr
  simp only [unicodeEscape, List.tail_cons, List.drop_succ_cons, List.drop_zero, List.cons_append,
    List.nil_append] at hcode ⊢
  simp [escape, hcode, hn]

theorem escape_pair (h : n < 0x10000) (hn : isHighSurrogate n = true) (h' : m < 0x10000)
    (hm : isLowSurrogate m = true) (hr : r ≠ []) :
    escape start ((unicodeEscape n).tail ++ (unicodeEscape m ++ r))
      = .ok (joinSurrogates n m, 11) := by
  have hcode := code?_unicodeEscape h (r := unicodeEscape m ++ r) (by simp [unicodeEscape])
  have hcode' := code?_unicodeEscape h' hr
  have hlength : 0 < r.length := List.length_pos_iff.mpr hr
  simp only [unicodeEscape, List.tail_cons, List.drop_succ_cons, List.drop_zero, List.cons_append,
    List.nil_append] at hcode hcode' ⊢
  simp only [escape, hcode, hn, if_true, List.drop_succ_cons, List.drop_zero, pairFrom, hcode', hm]
  rw [if_neg (by simp only [List.length_cons]; omega)]

theorem escape_simple {c c' : Char} (hu : c ≠ 'u') (h : simpleEscape? c = some c') :
    escape start (c :: r) = .ok (c', 1) := by
  simp [escape, h]

end

section

variable {start fuel : Nat} {c : Char} {r cs rest : List Char}

theorem string_of_escape {n : Nat} (he : escape start r = .ok (c, n))
    (h : string start fuel (r.drop n) = .ok (cs, rest)) :
    string start (fuel + 1) ('\\' :: r) = .ok (c :: cs, rest) := by
  simp [string, he, h]

theorem string_of_plain (hquote : c ≠ '"') (hslash : c ≠ '\\') (hc : 0x20 ≤ c.toNat)
    (h : string start fuel r = .ok (cs, rest)) :
    string start (fuel + 1) (c :: r) = .ok (c :: cs, rest) := by
  have hcontrol : ¬ c.toNat ≤ 0x1F := by omega
  simp [string, hquote, hslash, hcontrol, h]

/-- A character is read back from its text inside a string. -/
theorem string_escapeChar (hr : r ≠ []) (h : string start fuel r = .ok (cs, rest)) :
    string start (fuel + 1) (escapeChar c ++ r) = .ok (c :: cs, rest) := by
  have hsimple : ∀ {d : Char}, d ≠ 'u' → simpleEscape? d = some c →
      string start (fuel + 1) (['\\', d] ++ r) = .ok (c :: cs, rest) := fun hd hc =>
    string_of_escape (escape_simple hd hc) h
  unfold escapeChar
  by_cases h₁ : c = '"'
  · subst h₁
    exact hsimple (by decide) rfl
  by_cases h₂ : c = '\\'
  · subst h₂
    exact hsimple (by decide) rfl
  by_cases h₃ : c = '\n'
  · subst h₃
    exact hsimple (by decide) rfl
  by_cases h₄ : c = '\r'
  · subst h₄
    exact hsimple (by decide) rfl
  by_cases h₅ : c = '\t'
  · subst h₅
    exact hsimple (by decide) rfl
  by_cases h₆ : c = '\x0c'
  · subst h₆
    exact hsimple (by decide) rfl
  by_cases h₇ : c = '\x08'
  · subst h₇
    exact hsimple (by decide) rfl
  simp only [beq_iff_eq, h₁, h₂, h₃, h₄, h₅, h₆, h₇, if_false, Bool.and_eq_true, decide_eq_true_eq]
  have hvalid : c.toNat.isValidChar := c.valid
  unfold Nat.isValidChar at hvalid
  split
  · next hplain => exact string_of_plain h₁ h₂ hplain.1 h
  split
  · next hbmp =>
    -- one escape; characters are no surrogates
    have hsurrogate : isHighSurrogate c.toNat = false := by
      simp [isHighSurrogate]
      omega
    refine string_of_escape (n := 5) (r := (unicodeEscape c.toNat).tail ++ r) ?_ h
    rw [escape_unicode hbmp hsurrogate hr, codePoint_toNat]
  · next hbmp =>
    -- two escapes, one for each half of a pair
    have hhigh : isHighSurrogate (0xD800 + (c.toNat - 0x10000) / 0x400) = true := by
      simp [isHighSurrogate]
      omega
    have hlow : isLowSurrogate (0xDC00 + (c.toNat - 0x10000) % 0x400) = true := by
      simp [isLowSurrogate]
      omega
    have hjoin : joinSurrogates (0xD800 + (c.toNat - 0x10000) / 0x400)
        (0xDC00 + (c.toNat - 0x10000) % 0x400) = c := by
      unfold joinSurrogates
      rw [show 0x10000 + (0xD800 + (c.toNat - 0x10000) / 0x400 - 0xD800) * 0x400
        + (0xDC00 + (c.toNat - 0x10000) % 0x400 - 0xDC00) = c.toNat by omega, Char.ofNat_toNat]
    rw [List.append_assoc]
    refine string_of_escape (n := 11)
      (r := (unicodeEscape (0xD800 + (c.toNat - 0x10000) / 0x400)).tail ++
        (unicodeEscape (0xDC00 + (c.toNat - 0x10000) % 0x400) ++ r)) ?_ h
    rw [escape_pair (by omega) hhigh (by omega) hlow hr, hjoin]

end

/-- **A string is read back from its quoted text.** -/
theorem string_quoted {start fuel : Nat} (cs rest : List Char) (h : cs.length < fuel) :
    string start fuel (cs.flatMap escapeChar ++ '"' :: rest) = .ok (cs, rest) := by
  induction cs generalizing fuel with
  | nil =>
    cases fuel with
    | zero => cases h
    | succ fuel => simp [string]
  | cons c cs ih =>
    cases fuel with
    | zero => cases h
    | succ fuel =>
      rw [List.flatMap_cons, List.append_assoc]
      exact string_escapeChar (by simp) (ih (Nat.lt_of_succ_lt_succ h))

/-! ## Numbers -/

/-- A character with which a number can go on. -/
def isNumeric (c : Char) : Bool :=
  isDigit c || c == '.' || c == 'e' || c == 'E' || c == '+' || c == '-'

/-- A text that does not go on with a number before it. -/
def Closing (w : List Char) : Prop :=
  ∀ c ∈ w.head?, isNumeric c = false

theorem closing_nil : Closing [] := by
  simp [Closing]

theorem closing_cons {c : Char} {w : List Char} (h : isNumeric c = false) : Closing (c :: w) := by
  simpa [Closing] using h

theorem Closing.head {c : Char} {w : List Char} (h : Closing (c :: w)) :
    isDigit c = false ∧ c ≠ '.' ∧ c ≠ 'e' ∧ c ≠ 'E' ∧ c ≠ '+' ∧ c ≠ '-' := by
  have hc : isNumeric c = false := h c rfl
  simpa [isNumeric, and_assoc] using hc

theorem length_leading_le (cs : List Char) : (leading cs).length ≤ cs.length := by
  unfold leading
  split
  · simp
  · exact (List.takeWhile_sublist isDigit).length_le

section

variable {w : List Char} (hw : Closing w)

include hw

theorem takeWhile_isDigit_append (cs : List Char) :
    (cs ++ w).takeWhile isDigit = cs.takeWhile isDigit := by
  have hnil : w.takeWhile isDigit = [] := by
    cases w with
    | nil => rfl
    | cons c w => simp [hw.head.1]
  rw [List.takeWhile_append, hnil, List.append_nil]
  split
  · next h =>
    have hstart := List.takeWhile_prefix isDigit (l := cs)
    exact (hstart.eq_of_length h).symm
  · rfl

theorem leading_append (cs : List Char) : leading (cs ++ w) = leading cs := by
  cases cs with
  | nil =>
    have hdigits := takeWhile_isDigit_append hw []
    rw [List.nil_append] at hdigits ⊢
    unfold leading
    split
    · next r => exact absurd (hw '0' rfl) (by decide)
    · exact hdigits
  | cons c cs =>
    by_cases hc : c = '0'
    · subst hc
      rfl
    · have hzero : ∀ r : List Char, leading (c :: r) = (c :: r).takeWhile isDigit := fun r => by
        simp [leading, hc]
      rw [List.cons_append, hzero, hzero, ← List.cons_append, takeWhile_isDigit_append hw]

theorem fraction_append (cs : List Char) :
    fraction (cs ++ w) = ((fraction cs).1, (fraction cs).2 ++ w) := by
  cases cs with
  | nil =>
    cases w with
    | nil => rfl
    | cons c w => simp [fraction, hw.head.2.1]
  | cons c cs =>
    by_cases hc : c = '.'
    · subst hc
      rw [List.cons_append]
      simp only [fraction, takeWhile_isDigit_append hw]
      split
      · rfl
      · rw [List.drop_append_of_le_length (List.takeWhile_sublist isDigit).length_le]
    · simp [fraction, hc]

theorem sign_append (cs : List Char) : sign (cs ++ w) = ((sign cs).1, (sign cs).2 ++ w) := by
  cases cs with
  | nil =>
    cases w with
    | nil => rfl
    | cons c w => simp [sign, hw.head.2.2.2.2]
  | cons c cs =>
    by_cases hminus : c = '-'
    · subst hminus
      rfl
    by_cases hplus : c = '+'
    · subst hplus
      rfl
    · simp [sign, hminus, hplus]

theorem exponent_append (cs : List Char) :
    exponent (cs ++ w) = (exponent cs).map fun p => (p.1, p.2 ++ w) := by
  cases cs with
  | nil =>
    cases w with
    | nil => rfl
    | cons c w => simp [exponent, hw.head.2.2.1, hw.head.2.2.2.1]
  | cons c cs =>
    rw [List.cons_append]
    simp only [exponent, sign_append hw, takeWhile_isDigit_append hw]
    split
    · split
      · rfl
      · rw [List.drop_append_of_le_length (List.takeWhile_sublist isDigit).length_le, Option.map_some]
    · rfl

/-- A number is read alike before any text that closes it. -/
theorem number_append_eq_ok_iff {negative : Bool} {cs u : List Char} {v : Json} :
    number negative (cs ++ w) = .ok (v, u) ↔ ∃ r, u = r ++ w ∧ number negative cs = .ok (v, r) := by
  have hdrop : (cs ++ w).drop (leading cs).length = cs.drop (leading cs).length ++ w :=
    List.drop_append_of_le_length (length_leading_le cs)
  unfold number
  simp only [leading_append hw, hdrop, fraction_append hw, exponent_append hw, Option.map_map,
    Function.comp_def]
  generalize exponent (fraction (cs.drop (leading cs).length)).2 = e
  split
  · simp
  · cases e with
    | none =>
      simp only [Option.map_none, Option.getD_none]
      cases numeral negative (leading cs) (fraction (cs.drop (leading cs).length)).1 none with
      | ok u => simp [eq_comm, and_left_comm]
      | error cause => simp
    | some e =>
      simp only [Option.map_some, Option.getD_some]
      cases numeral negative (leading cs) (fraction (cs.drop (leading cs).length)).1 (some e.1) with
      | ok u => simp [eq_comm, and_left_comm]
      | error cause => simp

end

theorem leading_toDigits (n : Nat) : leading (Nat.toDigits 10 n) = Nat.toDigits 10 n := by
  rcases Nat.eq_zero_or_pos n with rfl | hn
  · rfl
  · have hzero := head?_toDigits_ne_zero hn
    have hdigits : ∀ c ∈ Nat.toDigits 10 n, isDigit c = true := fun c => isDigit_of_mem_toDigits
    unfold leading
    split
    · next h => simp [h] at hzero
    · have hall : (Nat.toDigits 10 n ++ []).takeWhile isDigit = _ :=
        List.takeWhile_append_of_pos hdigits
      simpa using hall

/-- A whole number within the limit is read back from its digits. -/
theorem number_toDigits (negative : Bool) {n : Nat}
    (h : (Nat.toDigits 10 n).length ≤ digitLimit) :
    number negative (Nat.toDigits 10 n) = .ok (.int (signed negative n), []) := by
  have hvalue : digitsValue (Nat.toDigits 10 n) = n := by
    rw [digitsValue_eq, Nat.ofDigitChars_ten_toDigits]
  simp [number, leading_toDigits, fraction, exponent, numeral, Nat.not_lt_of_le h, hvalue]

/-- A numeral is read by the reader of numbers. -/
theorem ValueStep.numeral {fuel : Nat} {t u : List Char} {v : Json}
    (ht : ∀ c ∈ t, isNumeric c = true) (h : ValueStep fuel t v u) :
    (∃ r, t = '-' :: r ∧ number true r = .ok (v, u)) ∨ number false t = .ok (v, u) := by
  have hfirst : ∀ {c : Char} {r : List Char}, t = c :: r → isNumeric c = true :=
    fun heq => ht _ (heq ▸ List.mem_cons_self)
  cases h with
  | word hw =>
    simp only [words, List.mem_cons, Prod.mk.injEq, List.not_mem_nil, or_false] at hw
    rcases hw with ⟨rfl, -⟩ | ⟨rfl, -⟩ | ⟨rfl, -⟩ | ⟨rfl, -⟩ | ⟨rfl, -⟩ | ⟨rfl, -⟩
    · exact absurd (ht 'n' (by simp)) (by decide)
    · exact absurd (ht 't' (by simp)) (by decide)
    · exact absurd (ht 'f' (by simp)) (by decide)
    · exact absurd (ht 'N' (by simp)) (by decide)
    · exact absurd (ht 'I' (by simp)) (by decide)
    · exact absurd (ht 'I' (by simp)) (by decide)
  | text _ => exact absurd (hfirst rfl) (by decide)
  | emptyList _ => exact absurd (hfirst rfl) (by decide)
  | list _ => exact absurd (hfirst rfl) (by decide)
  | emptyObject _ => exact absurd (hfirst rfl) (by decide)
  | object _ => exact absurd (hfirst rfl) (by decide)
  | negative hn => exact .inl ⟨_, rfl, hn⟩
  | positive hn => exact .inr hn

/-- What is read from a numeral alone is read from it before any text that closes it. -/
theorem value_numeral_append {fuel fuel' : Nat} {t w : List Char} {v : Json}
    (ht : ∀ c ∈ t, isNumeric c = true) (h : value (fuel + 1) t = .ok (v, [])) (hw : Closing w) :
    value (fuel' + 1) (t ++ w) = .ok (v, w) := by
  rcases (ValueStep.of_value h).numeral ht with ⟨r, rfl, hn⟩ | hn
  · exact (ValueStep.negative ((number_append_eq_ok_iff hw).mpr ⟨[], rfl, hn⟩)).value_eq
  · exact (ValueStep.positive ((number_append_eq_ok_iff hw).mpr ⟨[], rfl, hn⟩)).value_eq

/-! ## Texts of numbers -/

theorem isNumeric_of_isDigit {c : Char} (h : c.isDigit = true) : isNumeric c = true := by
  simp [isNumeric, isDigit_eq, h]

theorem not_isSpace_of_isNumeric {c : Char} (h : isNumeric c = true) : isSpace c = false := by
  cases hs : isSpace c with
  | false => rfl
  | true =>
    simp only [isSpace, Bool.or_eq_true, beq_iff_eq, or_assoc] at hs
    rcases hs with rfl | rfl | rfl | rfl
    all_goals exact absurd h (by decide)

/-- The text of a whole number. -/
theorem toList_toString (n : Int) :
    (toString n).toList = if 0 ≤ n then Nat.toDigits 10 n.natAbs
      else '-' :: Nat.toDigits 10 n.natAbs := by
  rw [Int.toString_eq_repr, Int.repr_eq_if]
  split
  · next h => rw [Nat.toList_repr, show n.toNat = n.natAbs by omega]
  · next h =>
    rw [String.toList_append, Nat.toList_repr, show (-n).toNat = n.natAbs by omega]
    rfl

theorem isNumeric_of_mem_toString {n : Int} {c : Char} (h : c ∈ (toString n).toList) :
    isNumeric c = true := by
  rw [toList_toString] at h
  split at h
  · exact isNumeric_of_isDigit (isDigit_of_mem_toDigits h)
  · rcases List.mem_cons.mp h with rfl | h
    · rfl
    · exact isNumeric_of_isDigit (isDigit_of_mem_toDigits h)

theorem isDigit_of_mem_firstGrid {m : Nat} {power size : Int} {fuel n : Nat} {c : Char}
    (h : c ∈ (Double.firstGrid m power size fuel n).digits) : c.isDigit = true := by
  induction fuel generalizing n with
  | zero => exact isDigit_of_mem_toDigits h
  | succ fuel ih =>
    rw [Double.firstGrid] at h
    split at h
    · next d _ =>
      -- zeros at the end are dropped
      have hc : c ∈ (Nat.toDigits 10 d).reverse :=
        (List.dropWhile_sublist _).subset (List.mem_reverse.mp h)
      exact isDigit_of_mem_toDigits (List.mem_reverse.mp hc)
    · exact ih h

section

variable {d : Double.Digits} (hd : ∀ c ∈ d.digits, c.isDigit = true) {c : Char}

include hd

theorem isNumeric_of_mem_positional (h : c ∈ Double.positional d) : isNumeric c = true := by
  have hdigits : ∀ c ∈ d.digits, isNumeric c = true := fun c hc => isNumeric_of_isDigit (hd c hc)
  have hzeros : ∀ n, ∀ c ∈ List.replicate n '0', isNumeric c = true := by
    intro n c hc
    rw [List.eq_of_mem_replicate hc]
    rfl
  unfold Double.positional at h
  dsimp only at h
  split at h
  · rcases List.mem_append.mp h with h | h
    · rcases List.mem_append.mp h with h | h
      · exact List.all_eq_true.mp (by decide : "0.".toList.all isNumeric = true) c h
      · exact hzeros _ c h
    · exact hdigits c h
  · split at h
    · rcases List.mem_append.mp h with h | h
      · rcases List.mem_append.mp h with h | h
        · exact hdigits c h
        · exact hzeros _ c h
      · exact List.all_eq_true.mp (by decide : ".0".toList.all isNumeric = true) c h
    · rcases List.mem_append.mp h with h | h
      · exact hdigits c (List.mem_of_mem_take h)
      · rcases List.mem_cons.mp h with rfl | h
        · rfl
        · exact hdigits c (List.mem_of_mem_drop h)

theorem isNumeric_of_mem_scientific (h : c ∈ Double.scientific d) : isNumeric c = true := by
  unfold Double.scientific at h
  dsimp only at h
  rcases List.mem_append.mp h with h | h
  · split at h
    · rw [List.mem_singleton.mp h]
      rfl
    · next hdigits => exact isNumeric_of_isDigit (hd c (hdigits ▸ h))
    · next e r _ hdigits =>
      have hmem : ∀ c ∈ e :: r, isNumeric c = true :=
        fun c hc => isNumeric_of_isDigit (hd c (hdigits ▸ hc))
      rcases List.mem_cons.mp h with rfl | h
      · exact hmem c List.mem_cons_self
      · rcases List.mem_cons.mp h with rfl | h
        · rfl
        · exact hmem c (List.mem_cons_of_mem _ h)
  · rcases List.mem_cons.mp h with rfl | h
    · rfl
    · rcases List.mem_cons.mp h with rfl | h
      · split <;> rfl
      · split at h
        · rcases List.mem_cons.mp h with rfl | h
          · rfl
          · exact isNumeric_of_isDigit (isDigit_of_mem_toDigits h)
        · exact isNumeric_of_isDigit (isDigit_of_mem_toDigits h)

end

theorem isNumeric_of_mem_text {negative : Bool} {m : Nat} {power : Int} {c : Char}
    (h : c ∈ (Double.text (.finite negative m power)).toList) : isNumeric c = true := by
  have hd : ∀ c ∈ (Double.shortest m power).digits, c.isDigit = true :=
    fun c => isDigit_of_mem_firstGrid
  have hbody : ∀ c ∈ (if m == 0 then "0.0".toList
      else if Double.isPositional (Double.shortest m power)
        then Double.positional (Double.shortest m power)
        else Double.scientific (Double.shortest m power)), isNumeric c = true := by
    intro c hc
    split at hc
    · exact List.all_eq_true.mp (by decide : "0.0".toList.all isNumeric = true) c hc
    · split at hc
      · exact isNumeric_of_mem_positional hd hc
      · exact isNumeric_of_mem_scientific hd hc
  rw [Double.text, String.toList_ofList] at h
  split at h
  · rcases List.mem_cons.mp h with rfl | h
    · rfl
    · exact hbody c h
  · exact hbody c h

/-! ## Numerals as whole texts -/

theorem fraction_suffix (cs : List Char) : (fraction cs).2 <:+ cs := by
  unfold fraction
  split
  · dsimp only
    split
    · exact List.suffix_rfl
    · exact (List.drop_suffix _ _).trans (List.suffix_cons _ _)
  · exact List.suffix_rfl

theorem sign_suffix (cs : List Char) : (sign cs).2 <:+ cs := by
  unfold sign
  split
  · exact List.suffix_cons _ _
  · exact List.suffix_cons _ _
  · exact List.suffix_rfl

theorem suffix_of_exponent {cs r : List Char} {e : Int} (h : exponent cs = some (e, r)) :
    r <:+ cs := by
  cases cs with
  | nil => cases h
  | cons c cs =>
    simp only [exponent] at h
    split at h
    · split at h
      · cases h
      · obtain ⟨-, rfl⟩ := Prod.mk.inj (Option.some.inj h)
        exact ((List.drop_suffix _ _).trans (sign_suffix cs)).trans (List.suffix_cons _ _)
    · cases h

/-- A number takes its leading digits at least. -/
theorem suffix_of_number {negative : Bool} {cs r : List Char} {v : Json}
    (h : number negative cs = .ok (v, r)) :
    leading cs ≠ [] ∧ r <:+ cs.drop (leading cs).length := by
  unfold number at h
  dsimp only at h
  split at h
  · cases h
  next hne =>
  split at h
  · obtain ⟨-, rfl⟩ := Prod.mk.inj (Except.ok.inj h)
    refine ⟨by simpa using hne, ?_⟩
    have hfrac := fraction_suffix (cs.drop (leading cs).length)
    cases he : exponent (fraction (cs.drop (leading cs).length)).2 with
    | none => exact hfrac
    | some p => exact (suffix_of_exponent he).trans hfrac
  · cases h

theorem suffix_of_value_numeral {fuel : Nat} {t r : List Char} {v : Json}
    (ht : ∀ c ∈ t, isNumeric c = true) (h : value (fuel + 1) t = .ok (v, r)) : r <:+ t := by
  rcases (ValueStep.of_value h).numeral ht with ⟨r, rfl, hn⟩ | hn
  · exact ((suffix_of_number hn).2.trans (List.drop_suffix _ _)).trans (List.suffix_cons _ _)
  · exact (suffix_of_number hn).2.trans (List.drop_suffix _ _)

theorem skip_of_forall {t : List Char} (ht : ∀ c ∈ t, isSpace c = false) : skip t = t := by
  cases t with
  | nil => rfl
  | cons c t => simp [skip, ht c List.mem_cons_self]

/-- A numeral that is read as a whole text is read to its end. -/
theorem value_of_parse_numeral {s : String} {v : Json} (hs : ∀ c ∈ s.toList, isNumeric c = true)
    (h : parse s = .ok v) : ∃ fuel, value (fuel + 1) s.toList = .ok (v, []) := by
  have hspace : ∀ c ∈ s.toList, isSpace c = false := fun c hc => not_isSpace_of_isNumeric (hs c hc)
  obtain ⟨-, u, hu, hskip⟩ := parse_eq_ok_iff.mp h
  rw [skip_of_forall hspace] at hu
  -- what is left of a numeral holds no blanks
  rw [skip_of_forall fun c hc => hspace c ((suffix_of_value_numeral hs hu).subset hc)] at hskip
  exact ⟨_, hskip ▸ hu⟩

end WebAudit.Json
