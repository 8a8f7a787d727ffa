import Mathlib.Data.List.TakeWhile
import WebAudit.Upgrade.Pattern

/-!
# What patterns match

A pattern stands for a set of texts, those that it fits. At the start of a text it may fit several
pieces, and `Pattern.choices` has the lengths of all of them in the order in which they are tried: a run
takes as much as it can first, and words come in their order. A match is the first choice, and the
search goes on behind it.

* `matchLength?_eq_head?_choices`: a match is the first choice;
* `mem_choices_iff`: the choices are the pieces that the pattern fits;
* `head?_choices_run`: a run in a match is the longest behind which the rest fits;
* `of_mem_findAll`: what is found is a match where it is said to stand;
* `pairwise_findAll`: what is found does not overlap;
* `exists_mem_findAll`: wherever the pattern fits, something is found.
-/

namespace WebAudit.Upgrade

/-! ## Texts that fit -/

namespace Part

/-- The texts that a part of a pattern fits. -/
def Fits : Part → List Char → Prop
  | .run fits least most, cs =>
    (∀ c ∈ cs, fits c = true) ∧ least ≤ cs.length ∧ ∀ m ∈ most, cs.length ≤ m
  | .oneOf words, cs => ∃ w ∈ words, cs.map foldChar = w.map foldChar

/-- The lengths of the pieces at the start of a text that a part fits, in the order in which they are
tried. -/
def choices : Part → List Char → List Nat
  | .run fits least most, cs => (List.range' least (runLength fits most cs + 1 - least)).reverse
  | .oneOf words, cs =>
    (words.filter fun w => (cs.take w.length).map foldChar == w.map foldChar).map List.length

end Part

namespace Pattern

/-- The texts that a pattern fits. -/
def Fits : Pattern → List Char → Prop
  | [], cs => cs = []
  | p :: ps, cs => ∃ a b, cs = a ++ b ∧ p.Fits a ∧ Fits ps b

/-- The lengths of the pieces at the start of a text that a pattern fits, in the order in which they
are tried. -/
def choices : Pattern → List Char → List Nat
  | [], _ => [0]
  | p :: ps, cs => (p.choices cs).flatMap fun k => (choices ps (cs.drop k)).map (k + ·)

end Pattern

/-! ## The first choice -/

theorem tryRuns_eq_head? (f : List Char → List Nat) (cs : List Char) (least n : Nat) :
    tryRuns (fun r => (f r).head?) cs least n
      = ((List.range' least (n + 1 - least)).reverse.flatMap fun k =>
          (f (cs.drop k)).map (k + ·)).head? := by
  induction n with
  | zero =>
    by_cases h : least = 0
    · subst h
      simp [tryRuns]
    · have hnone : 0 + 1 - least = 0 := by omega
      simp [tryRuns, h, hnone]
  | succ n ih =>
    by_cases h : n + 1 < least
    · have hnone : n + 1 + 1 - least = 0 := by omega
      simp [tryRuns, h, hnone]
    · -- the longest run stands last in the range, and is tried first
      have hlast : n + 1 + 1 - least = (n + 1 - least) + 1 := by omega
      have hn : least + (n + 1 - least) = n + 1 := by omega
      rw [tryRuns, if_neg h, hlast, List.range'_1_concat, List.reverse_append, List.flatMap_append,
        List.head?_append, ← ih]
      simp only [List.reverse_singleton, List.flatMap_singleton, List.head?_map, hn]
      cases (f (cs.drop (n + 1))).head? <;> rfl

theorem tryWords_eq_head? (f : List Char → List Nat) (cs : List Char) (ws : List (List Char)) :
    tryWords (fun r => (f r).head?) cs ws
      = (((Part.oneOf ws).choices cs).flatMap fun k => (f (cs.drop k)).map (k + ·)).head? := by
  induction ws with
  | nil => rfl
  | cons w ws ih =>
    rw [Part.choices] at ih
    rw [tryWords, ih, Part.choices]
    by_cases h : ((cs.take w.length).map foldChar == w.map foldChar) = true
    · simp only [List.filter_cons, if_pos h, List.map_cons, List.flatMap_cons, List.head?_append,
        List.head?_map]
      cases (f (cs.drop w.length)).head? <;> rfl
    · simp only [List.filter_cons, if_neg h]

/-- **A match is the first choice.** -/
theorem matchLength?_eq_head?_choices (p : Pattern) :
    matchLength? p = fun cs => (p.choices cs).head? := by
  induction p with
  | nil => rfl
  | cons part ps ih =>
    funext cs
    cases part with
    | run fits least most =>
      rw [matchLength?, ih]
      exact tryRuns_eq_head? _ _ _ _
    | oneOf words =>
      rw [matchLength?, ih]
      exact tryWords_eq_head? _ _ _

/-! ## All choices -/

theorem le_length_takeWhile_iff {fits : Char → Bool} {cs : List Char} {k : Nat} :
    k ≤ (cs.takeWhile fits).length ↔ k ≤ cs.length ∧ ∀ c ∈ cs.take k, fits c = true := by
  constructor
  · intro h
    have htake : cs.take k = (cs.takeWhile fits).take k := by
      rw [← List.take_append_of_le_length h, List.takeWhile_append_dropWhile]
    refine ⟨h.trans (List.takeWhile_prefix fits).length_le, fun c hc => ?_⟩
    rw [htake] at hc
    exact List.mem_takeWhile_imp (List.mem_of_mem_take hc)
  · rintro ⟨hk, hfits⟩
    rw [← List.take_append_drop k cs, List.takeWhile_append_of_pos hfits, List.length_append,
      List.length_take_of_le hk]
    exact Nat.le_add_right _ _

/-- A run can take a piece of the start if it fits and is not too long. -/
theorem le_runLength_iff {fits : Char → Bool} {most : Option Nat} {cs : List Char} {k : Nat} :
    k ≤ runLength fits most cs
      ↔ k ≤ cs.length ∧ (∀ c ∈ cs.take k, fits c = true) ∧ ∀ m ∈ most, k ≤ m := by
  rw [← and_assoc, ← le_length_takeWhile_iff]
  cases most with
  | none => simp [runLength]
  | some m => simp only [runLength, Nat.le_min, Option.mem_some, forall_eq']

theorem Part.mem_choices_iff {part : Part} {cs : List Char} {k : Nat} :
    k ∈ part.choices cs ↔ k ≤ cs.length ∧ part.Fits (cs.take k) := by
  cases part with
  | run fits least most =>
    simp only [choices, Fits, List.mem_reverse, List.mem_range'_1]
    constructor
    · rintro ⟨hleast, hlt⟩
      obtain ⟨hk, hfits, hmost⟩ := le_runLength_iff.mp (by omega : k ≤ runLength fits most cs)
      rw [List.length_take_of_le hk]
      exact ⟨hk, hfits, hleast, hmost⟩
    · rintro ⟨hk, hfits, hleast, hmost⟩
      rw [List.length_take_of_le hk] at hleast hmost
      have hle : k ≤ runLength fits most cs := le_runLength_iff.mpr ⟨hk, hfits, hmost⟩
      omega
  | oneOf words =>
    simp only [choices, Fits, List.mem_map, List.mem_filter, beq_iff_eq]
    constructor
    · rintro ⟨w, ⟨hw, hfolds⟩, rfl⟩
      have hlength := congrArg List.length hfolds
      simp only [List.length_map, List.length_take] at hlength
      exact ⟨by omega, w, hw, hfolds⟩
    · rintro ⟨hk, w, hw, hfolds⟩
      have hlength := congrArg List.length hfolds
      simp only [List.length_map, List.length_take_of_le hk] at hlength
      subst hlength
      exact ⟨w, ⟨hw, hfolds⟩, rfl⟩

theorem fits_cons_take_iff {part : Part} {ps : Pattern} {cs : List Char} {n : Nat}
    (hn : n ≤ cs.length) :
    Pattern.Fits (part :: ps) (cs.take n)
      ↔ ∃ k ≤ n, part.Fits (cs.take k) ∧ Pattern.Fits ps ((cs.drop k).take (n - k)) := by
  constructor
  · rintro ⟨a, b, hab, ha, hb⟩
    have hlength : a.length + b.length = n := by
      rw [← List.length_append, ← hab, List.length_take_of_le hn]
    have hk : a.length ≤ n := by omega
    refine ⟨a.length, hk, ?_, ?_⟩
    · rwa [← Nat.min_eq_left hk, ← List.take_take, hab, List.take_left]
    · rwa [← List.drop_take, hab, List.drop_left]
  · rintro ⟨k, hk, ha, hb⟩
    refine ⟨_, _, ?_, ha, hb⟩
    rw [← List.take_add, Nat.add_sub_cancel' hk]

/-- **The choices are the pieces that the pattern fits.** -/
theorem mem_choices_iff {p : Pattern} {cs : List Char} {n : Nat} :
    n ∈ p.choices cs ↔ n ≤ cs.length ∧ p.Fits (cs.take n) := by
  induction p generalizing cs n with
  | nil =>
    simp only [Pattern.choices, Pattern.Fits, List.mem_singleton, List.take_eq_nil_iff]
    constructor
    · rintro rfl
      simp
    · rintro ⟨hn, rfl | rfl⟩
      · rfl
      · simpa using hn
  | cons part ps ih =>
    simp only [Pattern.choices, List.mem_flatMap, List.mem_map, Part.mem_choices_iff]
    constructor
    · rintro ⟨k, ⟨hk, ha⟩, m, hm, rfl⟩
      obtain ⟨hlength, hb⟩ := ih.mp hm
      rw [List.length_drop] at hlength
      refine ⟨by omega, (fits_cons_take_iff (by omega)).mpr ⟨k, by omega, ha, ?_⟩⟩
      rwa [Nat.add_sub_cancel_left]
    · rintro ⟨hn, hfits⟩
      obtain ⟨k, hk, ha, hb⟩ := (fits_cons_take_iff hn).mp hfits
      refine ⟨k, ⟨by omega, ha⟩, n - k, ih.mpr ⟨?_, hb⟩, by omega⟩
      rw [List.length_drop]
      omega

/-- A piece of a text that the pattern fits is a choice where it stands. -/
theorem length_mem_choices {p : Pattern} {piece : List Char} (h : p.Fits piece) (pre post : List Char) :
    piece.length ∈ p.choices ((pre ++ piece ++ post).drop pre.length) := by
  rw [List.append_assoc, List.drop_left]
  exact mem_choices_iff.mpr ⟨by simp, by rwa [List.take_left]⟩

/-! ## Runs and words in a first choice -/

theorem pairwise_choices_run (fits : Char → Bool) (least : Nat) (most : Option Nat) (cs : List Char) :
    ((Part.run fits least most).choices cs).Pairwise (· > ·) :=
  List.pairwise_reverse.mpr List.pairwise_lt_range'

/-- **A run in a first choice is the longest behind which the rest fits.** -/
theorem head?_choices_run {fits : Char → Bool} {least : Nat} {most : Option Nat} {ps : Pattern}
    {cs : List Char} {n : Nat}
    (h : (Pattern.choices (.run fits least most :: ps) cs).head? = some n) :
    ∃ k m, n = k + m ∧ k ∈ (Part.run fits least most).choices cs
      ∧ (Pattern.choices ps (cs.drop k)).head? = some m
      ∧ ∀ j ∈ (Part.run fits least most).choices cs, k < j → Pattern.choices ps (cs.drop j) = [] := by
  rw [Pattern.choices, List.head?_flatMap, List.findSome?_eq_some_iff] at h
  obtain ⟨longer, k, shorter, hsplit, hk, hnone⟩ := h
  rw [List.head?_map, Option.map_eq_some_iff] at hk
  obtain ⟨m, hm, rfl⟩ := hk
  refine ⟨k, m, rfl, by rw [hsplit]; simp, hm, fun j hj hlt => ?_⟩
  have horder := pairwise_choices_run fits least most cs
  rw [hsplit] at horder hj
  rcases List.mem_append.mp hj with hj | hj
  · simpa using hnone j hj
  · -- what was not tried any more is shorter
    have hle : j ≤ k := by
      rcases List.mem_cons.mp hj with rfl | hj
      · exact Nat.le_refl _
      · exact Nat.le_of_lt ((List.pairwise_cons.mp (List.pairwise_append.mp horder).2.1).1 j hj)
    omega

/-- A run of just one character. -/
theorem Part.fits_one_iff {fits : Char → Bool} {cs : List Char} :
    (Part.run fits 1 (some 1)).Fits cs ↔ ∃ c, cs = [c] ∧ fits c = true := by
  constructor
  · rintro ⟨hfits, hleast, hmost⟩
    obtain ⟨c, rfl⟩ := List.length_eq_one_iff.mp (Nat.le_antisymm (hmost 1 rfl) hleast)
    exact ⟨c, rfl, hfits c (List.mem_singleton_self c)⟩
  · rintro ⟨c, rfl, hc⟩
    exact ⟨by simpa using hc, Nat.le_refl _, by simp⟩

theorem Part.fits_char_iff {a : Char} {cs : List Char} :
    (Part.char a).Fits cs ↔ ∃ c, cs = [c] ∧ foldChar c = foldChar a := by
  rw [Part.char, fits_one_iff]
  simp only [sameLetter, beq_iff_eq]

/-- The letters of a word stand at the start of what it begins, in either case. -/
theorem fits_word_append_iff {w : List Char} {ps : Pattern} {cs : List Char} :
    Pattern.Fits (w.map Part.char ++ ps) cs
      ↔ ∃ a b, cs = a ++ b ∧ a.map foldChar = w.map foldChar ∧ Pattern.Fits ps b := by
  induction w generalizing cs with
  | nil =>
    constructor
    · intro h
      exact ⟨[], cs, rfl, rfl, h⟩
    · rintro ⟨a, b, rfl, ha, hb⟩
      rwa [List.map_eq_nil_iff.mp ha]
  | cons x w ih =>
    simp only [List.map_cons, List.cons_append, Pattern.Fits, Part.fits_char_iff, ih]
    constructor
    · rintro ⟨_, _, rfl, ⟨c, rfl, hc⟩, a, b, rfl, ha, hb⟩
      exact ⟨c :: a, b, rfl, by rw [List.map_cons, hc, ha], hb⟩
    · rintro ⟨a, b, rfl, ha, hb⟩
      obtain ⟨c, a, rfl⟩ : ∃ c a', a = c :: a' := List.exists_cons_of_ne_nil (by
        rintro rfl
        cases ha)
      obtain ⟨hc, ha⟩ := List.cons.inj ha
      exact ⟨[c], a ++ b, rfl, ⟨c, rfl, hc⟩, a, b, rfl, ha, hb⟩

theorem head?_choices_word_append {w : List Char} {ps : Pattern} {cs : List Char} {n : Nat}
    (h : (Pattern.choices (w.map Part.char ++ ps) cs).head? = some n) :
    ∃ m, n = w.length + m ∧ (cs.take w.length).map foldChar = w.map foldChar
      ∧ (Pattern.choices ps (cs.drop w.length)).head? = some m := by
  induction w generalizing cs n with
  | nil => exact ⟨n, by simp, by simp, h⟩
  | cons x w ih =>
    obtain ⟨k, m, rfl, hk, hm, -⟩ := head?_choices_run h
    obtain ⟨hlength, hfits⟩ := Part.mem_choices_iff.mp hk
    obtain ⟨c, hc, hfold⟩ := Part.fits_char_iff.mp hfits
    obtain rfl : k = 1 := by
      rw [← List.length_take_of_le hlength, hc]
      rfl
    obtain ⟨m, rfl, htake, hrest⟩ := ih hm
    refine ⟨m, by rw [List.length_cons]; omega, ?_, ?_⟩
    · rw [List.length_cons, Nat.add_comm, List.take_add, List.map_append, hc, htake, List.map_singleton,
        hfold]
      rfl
    · rwa [List.length_cons, Nat.add_comm, ← List.drop_drop]

/-! ## Everything that is found -/

/-- A piece of a text, after `start` characters, is the first choice of a pattern there. -/
structure Pattern.FirstAt (p : Pattern) (cs : List Char) (start : Nat) (piece : List Char) : Prop where
  eq_take : piece = (cs.drop start).take piece.length
  first : (p.choices (cs.drop start)).head? = some piece.length

variable {p : Pattern} {before start : Nat} {cs piece : List Char}

namespace Pattern.FirstAt

theorem fits (h : p.FirstAt cs start piece) : p.Fits piece := by
  rw [h.eq_take]
  exact (mem_choices_iff.mp (List.mem_of_head? h.first)).2

theorem drop_iff {k : Nat} : p.FirstAt (cs.drop k) start piece ↔ p.FirstAt cs (k + start) piece := by
  constructor
  · rintro ⟨htake, hfirst⟩
    rw [List.drop_drop] at htake hfirst
    exact ⟨htake, hfirst⟩
  · rintro ⟨htake, hfirst⟩
    rw [← List.drop_drop] at htake hfirst
    exact ⟨htake, hfirst⟩

theorem of_matchLength? {n : Nat} (h : matchLength? p cs = some n) :
    (cs.take n).length = n ∧ p.FirstAt cs 0 (cs.take n) := by
  rw [matchLength?_eq_head?_choices] at h
  have hlength : (cs.take n).length = n :=
    List.length_take_of_le (mem_choices_iff.mp (List.mem_of_head? h)).1
  refine ⟨hlength, ?_, ?_⟩
  · rw [hlength, List.drop_zero]
  · rw [hlength, List.drop_zero]
    exact h

end Pattern.FirstAt

/-- **What is found is a match where it is said to stand.** -/
theorem of_mem_findAll {m : Nat × List Char} (hm : m ∈ findAll p before cs) :
    ∃ k, m.1 = before + k ∧ m.2 ≠ [] ∧ p.FirstAt cs k m.2 := by
  fun_induction findAll p before cs with
  | case1 before => cases hm
  | case2 before c r n h ih =>
    obtain ⟨hlength, hfirst⟩ := Pattern.FirstAt.of_matchLength? h
    rcases List.mem_cons.mp hm with rfl | hm
    · exact ⟨0, rfl, List.cons_ne_nil _ _, hfirst⟩
    · obtain ⟨k, hk, hne, hat⟩ := ih hm
      refine ⟨n + 1 + k, by omega, hne, Pattern.FirstAt.drop_iff.mp ?_⟩
      exact hat
  | case3 before c r h ih =>
    obtain ⟨k, hk, hne, hat⟩ := ih hm
    exact ⟨1 + k, by omega, hne, Pattern.FirstAt.drop_iff.mp hat⟩

/-- **What is found does not overlap.** -/
theorem pairwise_findAll (p : Pattern) (before : Nat) (cs : List Char) :
    (findAll p before cs).Pairwise fun m n => m.1 + m.2.length ≤ n.1 := by
  fun_induction findAll p before cs with
  | case1 before => exact .nil
  | case2 before c r n h ih =>
    refine .cons (fun m hm => ?_) ih
    obtain ⟨k, hk, -, -⟩ := of_mem_findAll hm
    rw [(Pattern.FirstAt.of_matchLength? h).1, hk]
    omega
  | case3 before c r h ih => exact ih

/-- **Wherever the pattern fits, something is found:** the place is in a piece that is found. -/
theorem exists_mem_findAll (before : Nat) (hp : ¬ p.Fits []) {n : Nat}
    (hn : n ∈ p.choices (cs.drop start)) :
    ∃ m ∈ findAll p before cs, m.1 ≤ before + start ∧ before + start < m.1 + m.2.length := by
  fun_induction findAll p before cs generalizing start with
  | case1 before =>
    rw [List.drop_nil] at hn
    obtain ⟨-, hfits⟩ := mem_choices_iff.mp hn
    rw [List.take_nil] at hfits
    exact absurd hfits hp
  | case2 before c r k h ih =>
    have hlength := (Pattern.FirstAt.of_matchLength? h).1
    by_cases hstart : start < k + 1
    · exact ⟨_, List.mem_cons_self, by simp only; omega, by simp only [hlength]; omega⟩
    · obtain ⟨rest, rfl⟩ := Nat.exists_eq_add_of_le (Nat.le_of_not_lt hstart)
      rw [← List.drop_drop] at hn
      obtain ⟨m, hm, hle, hlt⟩ := ih hn
      exact ⟨m, List.mem_cons_of_mem _ hm, by omega, by omega⟩
  | case3 before c r h ih =>
    cases start with
    | zero =>
      rw [matchLength?_eq_head?_choices] at h
      rw [List.drop_zero] at hn
      obtain ⟨k, hk⟩ := Option.isSome_iff_exists.mp (List.isSome_head?.mpr (List.ne_nil_of_mem hn))
      cases k with
      | zero => exact absurd (mem_choices_iff.mp (List.mem_of_head? hk)).2 hp
      | succ k => exact (h k hk).elim
    | succ start =>
      obtain ⟨m, hm, hle, hlt⟩ := ih hn
      exact ⟨m, hm, by omega, by omega⟩

end WebAudit.Upgrade
