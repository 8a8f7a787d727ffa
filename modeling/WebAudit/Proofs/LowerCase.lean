import WebAudit.Text.Lowercase

/-!
# Texts with an ASCII lower case

Beyond ASCII, the Kelvin sign alone has an ASCII character as its lower case, the letter `k`, and the
dotted capital I has one as the first of two. So a text whose lower case is ASCII without `k` is itself
ASCII, and is the same but for the case of its letters. Such a text has the same lower case at the end of
every other one (`lower_suffix_lower`).
-/

namespace WebAudit.Text

/-- Every run of the table stays within ASCII, leads to characters beyond ASCII, or is the Kelvin sign. -/
theorem lowercaseRuns_beyond : ∀ e ∈ lowercaseRuns,
    e.2.1 < 0x80
      ∨ (0x80 ≤ (e.1 : Int) + e.2.2.2
        ∧ ((e.2.1 : Int) + e.2.2.2 < 0xD800
          ∨ 0xDFFF < (e.1 : Int) + e.2.2.2 ∧ (e.2.1 : Int) + e.2.2.2 < 0x110000))
      ∨ e = (0x212A, 0x212A, 1, -8383) := by
  decide +kernel

/-- The lower case of a character beyond ASCII: itself, or what a run of the table gives. -/
theorem lowerChar_cases {c : Char} (hc : ¬ c.toNat < 0x80) :
    lowerChar c = c ∨ ∃ e ∈ lowercaseRuns, e.1 ≤ c.toNat ∧ c.toNat ≤ e.2.1
      ∧ lowerChar c = Char.ofNat ((c.toNat : Int) + e.2.2.2).toNat := by
  rw [lowerChar, if_neg hc]
  dsimp only
  split
  next a b s d hfind =>
    have hfits := List.find?_some hfind
    simp only [Bool.and_eq_true, decide_eq_true_eq] at hfits
    exact .inr ⟨_, List.mem_of_find?_eq_some hfind, hfits.1.1, hfits.1.2, rfl⟩
  next => exact .inl rfl

/-- **Only ASCII characters have an ASCII lower case other than `k`.** -/
theorem lt_of_lowerChar_lt {c : Char} (h : (lowerChar c).toNat < 0x80) (hk : lowerChar c ≠ 'k') :
    c.toNat < 0x80 := by
  refine Decidable.byContradiction fun hc => ?_
  rcases lowerChar_cases hc with hself | ⟨e, he, hfirst, hlast, hlower⟩
  · rw [hself] at h
    exact hc h
  · rcases lowercaseRuns_beyond e he with hwithin | ⟨hbeyond, hvalid⟩ | rfl
    · omega
    · have hpoint : Nat.isValidChar ((c.toNat : Int) + e.2.2.2).toNat := by
        unfold Nat.isValidChar
        omega
      have hbelow : ((c.toNat : Int) + e.2.2.2).toNat < 0x80 := by
        rwa [hlower, Char.ofNat, dif_pos hpoint] at h
      omega
    · have hpoint : c.toNat = 0x212A := by
        dsimp only at hfirst hlast
        omega
      rw [hlower, hpoint] at hk
      exact hk (by decide)

/-- The lower case of a text, character by character. -/
theorem exists_lowerFrom_cons (before : List Char) (c : Char) (cs : List Char) :
    ∃ low, lowerFrom before (c :: cs) = low ++ lowerFrom (c :: before) cs
      ∧ (low = [lowerChar c] ∨ ∃ d ∈ low, 0x80 ≤ d.toNat) := by
  rw [lowerFrom]
  refine ⟨_, rfl, ?_⟩
  split
  · right
    split
    · exact ⟨'\u03c2', List.mem_singleton_self _, by decide⟩
    · exact ⟨'\u03c3', List.mem_singleton_self _, by decide⟩
  · split
    · exact .inr ⟨'\u0307', List.mem_cons_of_mem _ (List.mem_singleton_self _), by decide⟩
    · exact .inl rfl

theorem lowerChar_of_lt {c : Char} (h : c.toNat < 0x80) : lowerChar c = asciiLower c := by
  rw [lowerChar, if_pos h]

/-- **A text whose lower case is ASCII without `k` differs from it in the case of letters only.** -/
theorem lowerFrom_eq_map {before cs : List Char}
    (h : ∀ d ∈ lowerFrom before cs, d.toNat < 0x80 ∧ d ≠ 'k') :
    lowerFrom before cs = cs.map asciiLower := by
  induction cs generalizing before with
  | nil => rfl
  | cons c cs ih =>
    obtain ⟨low, hlower, hlow⟩ := exists_lowerFrom_cons before c cs
    rw [hlower] at h ⊢
    have hrest := ih fun d hd => h d (List.mem_append_right _ hd)
    rcases hlow with rfl | ⟨d, hd, hbeyond⟩
    · have hc := h (lowerChar c) List.mem_cons_self
      rw [hrest, List.map_cons, lowerChar_of_lt (lt_of_lowerChar_lt hc.1 hc.2)]
      rfl
    · have hd := (h d (List.mem_append_left _ hd)).1
      omega

/-! ## The end of a text -/

/-- The lower case of a text ends in that of its end, read after what stands before it. -/
theorem lowerFrom_suffix_append (before cs rest : List Char) :
    lowerFrom (cs.reverse ++ before) rest <:+ lowerFrom before (cs ++ rest) := by
  induction cs generalizing before with
  | nil => exact List.suffix_refl _
  | cons c cs ih =>
    obtain ⟨low, hlower, -⟩ := exists_lowerFrom_cons before c (cs ++ rest)
    have hrest : lowerFrom (cs.reverse ++ c :: before) rest <:+ lowerFrom (c :: before) (cs ++ rest) :=
      ih (c :: before)
    rw [List.reverse_cons, List.append_assoc, List.singleton_append, List.cons_append, hlower]
    exact hrest.trans (List.suffix_append _ _)

theorem lt_of_asciiLower_lt {c : Char} (h : (asciiLower c).toNat < 0x80) : c.toNat < 0x80 := by
  rw [asciiLower] at h
  split at h
  next hc =>
    have hle : c ≤ 'Z' := by simpa using (Bool.and_eq_true_iff.mp hc).2
    exact Nat.lt_of_le_of_lt hle (by decide)
  next => exact h

theorem lowerFrom_of_ascii {before cs : List Char} (h : ∀ c ∈ cs, c.toNat < 0x80) :
    lowerFrom before cs = cs.map asciiLower := by
  induction cs generalizing before with
  | nil => rfl
  | cons c cs ih =>
    have hc : c.toNat < 0x80 := h c List.mem_cons_self
    have hsigma : c ≠ '\u03a3' := by
      rintro rfl
      exact absurd hc (by decide)
    have hdotted : c ≠ '\u0130' := by
      rintro rfl
      exact absurd hc (by decide)
    rw [lowerFrom, if_neg (by simpa using hsigma), if_neg (by simpa using hdotted), lowerChar_of_lt hc,
      ih fun d hd => h d (List.mem_cons_of_mem _ hd)]
    rfl

/-- A lower case that is ASCII without `k` does not depend on what stands before the text. -/
theorem lowerFrom_eq_lowerFrom {before cs : List Char}
    (h : ∀ d ∈ lowerFrom before cs, d.toNat < 0x80 ∧ d ≠ 'k') (before' : List Char) :
    lowerFrom before' cs = lowerFrom before cs := by
  have hmap : lowerFrom before cs = cs.map asciiLower := lowerFrom_eq_map h
  have hascii : ∀ c ∈ cs, c.toNat < 0x80 := by
    intro c hc
    refine lt_of_asciiLower_lt (h _ ?_).1
    rw [hmap]
    exact List.mem_map_of_mem hc
  rw [hmap, lowerFrom_of_ascii hascii]

/-- **A text that ends in one with such a lower case has a lower case that ends in it.** Of other ends this
is not true: whether a sigma is final depends on what stands before it. -/
theorem lower_suffix_lower {s t : String} (h : s.toList <:+ t.toList)
    (hs : ∀ d ∈ (lower s).toList, d.toNat < 0x80 ∧ d ≠ 'k') :
    (lower s).toList <:+ (lower t).toList := by
  obtain ⟨start, hstart⟩ := h
  rw [lower, String.toList_ofList] at hs
  rw [lower, lower, String.toList_ofList, String.toList_ofList, ← hstart,
    ← lowerFrom_eq_lowerFrom hs (start.reverse ++ [])]
  exact lowerFrom_suffix_append [] start s.toList

end WebAudit.Text
