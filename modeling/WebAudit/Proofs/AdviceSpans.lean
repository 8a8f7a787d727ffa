import Mathlib.Data.List.Nodup
import WebAudit.Proofs.Paths
import WebAudit.Proofs.PatternMatches
import WebAudit.Upgrade.Advice

/-!
# Where advice is given

The advice on a text says what was found in which line and at which column. Every line is searched for
one idiom after the other, so the order of the advice and the places it is about follow from what is known
of one search.

* `mem_suggest_iff`: advice is given for what is found of an idiom in a line;
* `pairwise_suggest`: the order of the advice;
* `advice_on_every_match`: the places are right, in order and without overlap, and none is missing.
-/

namespace WebAudit.Upgrade

open scoped List

/-! ## The table -/

/-- No idiom fits nothing at all: each begins with a character. -/
theorem not_fits_nil {i : Idiom} (hi : i ∈ idioms) : ¬ i.pattern.Fits [] := by
  have hstart : ∃ c ps, i.pattern = Part.char c :: ps := by
    simp only [idioms, List.mem_cons, List.not_mem_nil, or_false] at hi
    rcases hi with rfl | rfl | rfl | rfl <;> exact ⟨_, _, rfl⟩
  obtain ⟨c, ps, hps⟩ := hstart
  rw [hps]
  rintro ⟨a, b, hab, ⟨-, hlength, -⟩, -⟩
  have ha : a = [] := (List.append_eq_nil_iff.mp hab.symm).1
  rw [ha] at hlength
  simp at hlength

/-- An idiom stands before another in the table. -/
def Idiom.Before (i j : Idiom) : Prop :=
  [i, j] <+ idioms

theorem nodup_idioms : idioms.Nodup :=
  List.Nodup.of_map Idiom.reason (by decide)

theorem Idiom.not_before_self (i : Idiom) : ¬ i.Before i :=
  List.nodup_iff_sublist.mp nodup_idioms i

theorem pairwise_idiomsAt (level : Confidence) : (idiomsAt level).Pairwise Idiom.Before :=
  List.pairwise_iff_forall_sublist.mpr fun h => h.trans List.filter_sublist

/-- The idioms that are looked for are those that are sure enough. -/
theorem mem_idiomsAt_iff {level : Confidence} {i : Idiom} :
    i ∈ idiomsAt level ↔ i ∈ idioms ∧ i.confidence.atLeast level = true :=
  List.mem_filter

/-! ## Advice by line -/

variable {content file : String} {level : Confidence}

theorem mem_suggestIdiom_iff {line : Nat} {text : List Char} {i : Idiom} {s : Suggestion} :
    s ∈ suggestIdiom file line text i ↔ s.file = file ∧ s.line = line ∧ s.idiom = i
      ∧ ∃ m ∈ findAll i.pattern 0 text, s.column = m.1 + 1 ∧ s.found = String.ofList m.2 := by
  rw [suggestIdiom, List.mem_map]
  constructor
  · rintro ⟨m, hm, rfl⟩
    exact ⟨rfl, rfl, rfl, m, hm, rfl, rfl⟩
  · rintro ⟨hfile, hline, hidiom, m, hm, hcolumn, hfound⟩
    refine ⟨m, hm, ?_⟩
    rw [← hfile, ← hline, ← hidiom, ← hcolumn, ← hfound]

theorem mem_suggestLines_iff {is : List Idiom} {line : Nat} {ts : List (List Char)} {s : Suggestion} :
    s ∈ suggestLines file is line ts
      ↔ ∃ k text, ts[k]? = some text ∧ ∃ i ∈ is, s ∈ suggestIdiom file (line + k) text i := by
  induction ts generalizing line with
  | nil => simp [suggestLines]
  | cons t ts ih =>
    rw [suggestLines, List.mem_append, List.mem_flatMap, ih]
    constructor
    · rintro (⟨i, hi, hs⟩ | ⟨k, text, htext, i, hi, hs⟩)
      · exact ⟨0, t, rfl, i, hi, hs⟩
      · refine ⟨k + 1, text, by simpa using htext, i, hi, ?_⟩
        rwa [Nat.add_comm k, ← Nat.add_assoc]
    · rintro ⟨k, text, htext, i, hi, hs⟩
      cases k with
      | zero =>
        obtain rfl : t = text := by simpa using htext
        exact .inl ⟨i, hi, hs⟩
      | succ k =>
        refine .inr ⟨k, text, by simpa using htext, i, hi, ?_⟩
        rwa [Nat.add_assoc, Nat.add_comm 1]

/-- **Advice is given for what is found of an idiom in a line.** -/
theorem mem_suggest_iff {s : Suggestion} :
    s ∈ suggest content file level
      ↔ ∃ k text, (content.toList.splitOn '\n')[k]? = some text
        ∧ ∃ i ∈ idiomsAt level, s ∈ suggestIdiom file (k + 1) text i := by
  rw [suggest, Text.splitAt_eq_splitOn, mem_suggestLines_iff]
  simp only [Nat.add_comm 1]

/-! ## The order of advice -/

/-- Advice comes before other advice: by line, then by idiom, then by column, where the two places of one
idiom have nothing in common. -/
def Suggestion.Precedes (a b : Suggestion) : Prop :=
  a.line < b.line ∨ a.line = b.line ∧ (a.idiom.Before b.idiom
    ∨ a.idiom = b.idiom ∧ a.column < b.column ∧ a.column + a.found.length ≤ b.column)

theorem pairwise_suggestIdiom (file : String) (line : Nat) (text : List Char) (i : Idiom) :
    (suggestIdiom file line text i).Pairwise Suggestion.Precedes := by
  rw [suggestIdiom, List.pairwise_map]
  refine (pairwise_findAll i.pattern 0 text).imp_of_mem fun {m n} hm _ hle => ?_
  obtain ⟨-, -, hne, -⟩ := of_mem_findAll hm
  have hpos := List.length_pos_iff.mpr hne
  refine .inr ⟨rfl, .inr ⟨rfl, ?_, ?_⟩⟩
  · show m.1 + 1 < n.1 + 1
    omega
  · show m.1 + 1 + (String.ofList m.2).length ≤ n.1 + 1
    rw [String.length_ofList]
    omega

theorem pairwise_suggestLines (file : String) {is : List Idiom} (his : is.Pairwise Idiom.Before)
    (line : Nat) (ts : List (List Char)) :
    (suggestLines file is line ts).Pairwise Suggestion.Precedes := by
  induction ts generalizing line with
  | nil => exact .nil
  | cons t ts ih =>
    rw [suggestLines, List.pairwise_append]
    refine ⟨List.pairwise_flatMap.mpr ⟨fun i _ => pairwise_suggestIdiom file line t i, ?_⟩,
      ih (line + 1), ?_⟩
    · refine his.imp fun {i j} hij a ha b hb => ?_
      obtain ⟨-, haline, rfl, -⟩ := mem_suggestIdiom_iff.mp ha
      obtain ⟨-, hbline, rfl, -⟩ := mem_suggestIdiom_iff.mp hb
      exact .inr ⟨haline.trans hbline.symm, .inl hij⟩
    · intro a ha b hb
      obtain ⟨i, -, ha⟩ := List.mem_flatMap.mp ha
      obtain ⟨k, text, -, j, -, hb⟩ := mem_suggestLines_iff.mp hb
      obtain ⟨-, haline, -⟩ := mem_suggestIdiom_iff.mp ha
      obtain ⟨-, hbline, -⟩ := mem_suggestIdiom_iff.mp hb
      exact .inl (by omega)

/-- **Advice comes by line, then by idiom in the order of the table, then by column.** -/
theorem pairwise_suggest (content file : String) (level : Confidence) :
    (suggest content file level).Pairwise Suggestion.Precedes :=
  pairwise_suggestLines file (pairwise_idiomsAt level) 1 _

theorem Suggestion.Precedes.apart {a b : Suggestion} (h : a.Precedes b) (hline : a.line = b.line)
    (hidiom : a.idiom = b.idiom) : a.column + a.found.length ≤ b.column := by
  rcases h with hlt | ⟨-, hbefore | ⟨-, -, hle⟩⟩
  · omega
  · exact absurd (hidiom ▸ hbefore) (Idiom.not_before_self _)
  · exact hle

/-- Two pieces of advice are about different places, unless they are the same. -/
def Suggestion.Apart (a b : Suggestion) : Prop :=
  a.line = b.line → a.idiom = b.idiom →
    a = b ∨ a.column + a.found.length ≤ b.column ∨ b.column + b.found.length ≤ a.column

theorem apart_of_mem_suggest {s t : Suggestion} (hs : s ∈ suggest content file level)
    (ht : t ∈ suggest content file level) : s.Apart t := by
  have horder := pairwise_suggest content file level
  refine List.Pairwise.forall_of_forall_of_flip (R := Suggestion.Apart) (fun a _ _ _ => .inl rfl)
    (horder.imp ?_) (horder.imp ?_) hs ht
  · intro a b hab hline hidiom
    exact .inr (.inl (hab.apart hline hidiom))
  · intro a b hab hline hidiom
    exact .inr (.inr (hab.apart hline.symm hidiom.symm))

/-! ## Places -/

theorem of_mem_suggest {s : Suggestion} (hs : s ∈ suggest content file level) :
    s.file = file ∧ s.idiom ∈ idiomsAt level ∧ s.found ≠ "" ∧ 1 ≤ s.line ∧ 1 ≤ s.column
    ∧ ∃ text, (content.toList.splitOn '\n')[s.line - 1]? = some text
      ∧ s.idiom.pattern.FirstAt text (s.column - 1) s.found.toList := by
  obtain ⟨k, text, htext, i, hi, hs⟩ := mem_suggest_iff.mp hs
  obtain ⟨hfile, hline, rfl, m, hm, hcolumn, hfound⟩ := mem_suggestIdiom_iff.mp hs
  obtain ⟨start, hstart, hne, hfirst⟩ := of_mem_findAll hm
  refine ⟨hfile, hi, ?_, by omega, by omega, text, ?_, ?_⟩
  · rw [hfound]
    intro h
    exact hne (by simpa using congrArg String.toList h)
  · rwa [hline, Nat.add_sub_cancel]
  · have hstart : s.column - 1 = start := by omega
    rw [hstart, hfound, String.toList_ofList]
    exact hfirst

/-- Wherever an idiom fits, there is advice on a piece that has the place in it. -/
theorem exists_mem_suggest (file : String) {i : Idiom} (hi : i ∈ idiomsAt level) {k : Nat}
    {text : List Char} (htext : (content.toList.splitOn '\n')[k]? = some text) {pre piece post : List Char}
    (hpiece : text = pre ++ piece ++ post) (hfits : i.pattern.Fits piece) :
    ∃ s ∈ suggest content file level, s.line = k + 1 ∧ s.idiom = i ∧ s.column ≤ pre.length + 1
      ∧ pre.length + 1 < s.column + s.found.length := by
  have hchoice : piece.length ∈ i.pattern.choices (text.drop pre.length) := by
    rw [hpiece]
    exact length_mem_choices hfits pre post
  obtain ⟨m, hm, hle, hlt⟩ :=
    exists_mem_findAll 0 (not_fits_nil (mem_idiomsAt_iff.mp hi).1) hchoice
  refine ⟨⟨file, k + 1, m.1 + 1, String.ofList m.2, i⟩, ?_, rfl, rfl, ?_, ?_⟩
  · exact mem_suggest_iff.mpr ⟨k, text, htext, i, hi,
      mem_suggestIdiom_iff.mpr ⟨rfl, rfl, rfl, m, hm, rfl, rfl⟩⟩
  · show m.1 + 1 ≤ pre.length + 1
    omega
  · show pre.length + 1 < m.1 + 1 + (String.ofList m.2).length
    rw [String.length_ofList]
    omega

/-- **Advice stands at every match.** What is found stands in the line and at the column that are said,
and it is the first choice of the pattern there. Advice comes by line, then by idiom, then by column, and
the places of one idiom in one line do not overlap. Wherever an idiom that is sure enough fits a piece of
a line, there is advice on a place in which this piece begins; and if the piece stands behind one place,
there is advice on a place behind that one. -/
theorem advice_on_every_match (content file : String) (level : Confidence) :
    let lines := content.toList.splitOn '\n'
    let advice := suggest content file level
    (∀ s ∈ advice, s.file = file ∧ s.idiom ∈ idioms ∧ s.idiom.confidence.atLeast level = true
      ∧ 1 ≤ s.line ∧ 1 ≤ s.column ∧ s.found ≠ "" ∧ ∃ text, lines[s.line - 1]? = some text
        ∧ s.found.toList = (text.drop (s.column - 1)).take s.found.length
        ∧ s.idiom.pattern.Fits s.found.toList
        ∧ (s.idiom.pattern.choices (text.drop (s.column - 1))).head? = some s.found.length)
    ∧ advice.Pairwise Suggestion.Precedes
    ∧ ∀ i ∈ idioms, i.confidence.atLeast level = true → ∀ k text, lines[k]? = some text →
      ∀ pre piece post, text = pre ++ piece ++ post → i.pattern.Fits piece →
        (∃ s ∈ advice, s.line = k + 1 ∧ s.idiom = i ∧ s.column ≤ pre.length + 1
          ∧ pre.length + 1 < s.column + s.found.length)
        ∧ ∀ s ∈ advice, s.line = k + 1 → s.idiom = i →
          s.column + s.found.length ≤ pre.length + 1 →
          ∃ t ∈ advice, t.line = k + 1 ∧ t.idiom = i ∧ s.column + s.found.length ≤ t.column := by
  intro lines advice
  refine ⟨fun s hs => ?_, pairwise_suggest content file level, ?_⟩
  · obtain ⟨hfile, hidiom, hfound, hline, hcolumn, text, htext, hfirst⟩ := of_mem_suggest hs
    obtain ⟨hidiom, hlevel⟩ := mem_idiomsAt_iff.mp hidiom
    refine ⟨hfile, hidiom, hlevel, hline, hcolumn, hfound, text, htext, ?_, hfirst.fits, ?_⟩
    · exact hfirst.eq_take
    · exact hfirst.first
  · intro i hi hlevel k text htext pre piece post hpiece hfits
    have hi : i ∈ idiomsAt level := mem_idiomsAt_iff.mpr ⟨hi, hlevel⟩
    obtain ⟨t, ht, hline, hidiom, hle, hlt⟩ := exists_mem_suggest file hi htext hpiece hfits
    refine ⟨⟨t, ht, hline, hidiom, hle, hlt⟩, fun s hs hsline hsidiom hend => ?_⟩
    refine ⟨t, ht, hline, hidiom, ?_⟩
    rcases apart_of_mem_suggest hs ht (hsline.trans hline.symm) (hsidiom.trans hidiom.symm)
      with rfl | hbehind | hahead
    · omega
    · exact hbehind
    · omega

end WebAudit.Upgrade
