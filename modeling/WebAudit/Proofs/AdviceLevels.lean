import Mathlib.Data.List.Nodup
import WebAudit.Proofs.AdviceSpans
import WebAudit.Proofs.Discovery
import WebAudit.Upgrade.Scan

/-!
# Advice by level

A level chooses among the idioms before anything is looked for. Since a piece of advice is as sure as its
idiom, the same advice is left if all of it is given first and chosen from afterwards
(`suggestLines_filter`), on one text as on all files of a project. A project's advice comes file by file
(`filter_file_adviceAt`), and its groups by confidence are what each level has of it (`byConfidence?_eq`).
-/

namespace WebAudit.Upgrade

open scoped List
open Files (Tree)

/-! ## Levels -/

theorem levelNamed_name (c : Confidence) : levelNamed c.name = .ok c := by
  cases c <;> rfl

theorem levelNamed_of_notMem {name : String} (h : name ∉ Confidence.all.map Confidence.name) :
    levelNamed name = .error (unknownLevelMessage name) := by
  have hnone : Confidence.ofName? name = none := by
    rw [Confidence.ofName?, List.find?_eq_none]
    intro c hc heq
    exact h (List.mem_map.mpr ⟨c, hc, by simpa using heq⟩)
  rw [levelNamed, hnone]

theorem Confidence.atLeast_trans {c d level : Confidence} (h : c.atLeast d = true)
    (h' : d.atLeast level = true) : c.atLeast level = true := by
  simp only [atLeast, decide_eq_true_eq] at h h' ⊢
  omega

theorem Confidence.atLeast_low (c : Confidence) : c.atLeast .low = true := by
  cases c <;> rfl

/-! ## Choosing before and after -/

theorem filter_suggestIdiom (p : Confidence → Bool) (file : String) (line : Nat) (text : List Char)
    (i : Idiom) :
    (suggestIdiom file line text i).filter (fun s => p s.confidence)
      = if p i.confidence then suggestIdiom file line text i else [] := by
  have hidiom : ∀ s ∈ suggestIdiom file line text i, p s.confidence = p i.confidence := by
    intro s hs
    obtain ⟨-, -, rfl, -⟩ := mem_suggestIdiom_iff.mp hs
    rfl
  split
  next hp => exact List.filter_eq_self.mpr fun s hs => (hidiom s hs).trans hp
  next hp => exact List.filter_eq_nil_iff.mpr fun s hs h => hp ((hidiom s hs).symm.trans h)

theorem flatMap_suggestIdiom_filter (p : Confidence → Bool) (file : String) (is : List Idiom)
    (line : Nat) (text : List Char) :
    (is.filter fun i => p i.confidence).flatMap (suggestIdiom file line text)
      = (is.flatMap (suggestIdiom file line text)).filter fun s => p s.confidence := by
  induction is with
  | nil => rfl
  | cons i is ih =>
    rw [List.flatMap_cons, List.filter_append, filter_suggestIdiom, ← ih, List.filter_cons]
    split
    · rw [List.flatMap_cons]
    · rw [List.nil_append]

/-- **Choosing among idioms is choosing among the advice on them.** -/
theorem suggestLines_filter (p : Confidence → Bool) (file : String) (is : List Idiom) (line : Nat)
    (ts : List (List Char)) :
    suggestLines file (is.filter fun i => p i.confidence) line ts
      = (suggestLines file is line ts).filter fun s => p s.confidence := by
  induction ts generalizing line with
  | nil => rfl
  | cons t ts ih =>
    rw [suggestLines, suggestLines, List.filter_append, ih, flatMap_suggestIdiom_filter]

/-- The advice at a level is what the lowest level has of it. -/
theorem suggest_eq_filter (content file : String) (level : Confidence) :
    suggest content file level
      = (suggest content file .low).filter fun s => s.confidence.atLeast level := by
  have hall : idiomsAt .low = idioms :=
    List.filter_eq_self.mpr fun i _ => Confidence.atLeast_low i.confidence
  rw [suggest, suggest, hall]
  exact suggestLines_filter (·.atLeast level) file idioms 1 _

/-! ## Advice on projects -/

section

variable {files : Tree} {working : List String} {base : Option String} {f : Scan.Filter}
  {level : Confidence} {paths : List String}

/-- The advice at a level on the files that some paths name or contain. -/
def adviceAt (files : Tree) (working : List String) (base : Option String) (f : Scan.Filter)
    (paths : List String) (level : Confidence) : List Suggestion :=
  (scan files working base f level paths).value.suggestions

theorem adviceAt_eq (level : Confidence) :
    adviceAt files working base f paths level
      = (Scan.discover files working f paths).value.flatMap
          (suggestFile files (Scan.baseDirectory working base) level) :=
  rfl

theorem value_scanAt (level : Confidence) :
    (scanAt files working base f level.name paths).value
      = .ok (scan files working base f level paths).value := by
  rw [scanAt, levelNamed_name]
  rfl

theorem scanAt_of_notMem {name : String} (h : name ∉ Confidence.all.map Confidence.name) :
    scanAt files working base f name paths = ⟨.error (unknownLevelMessage name), 0⟩ := by
  rw [scanAt, levelNamed_of_notMem h]

theorem suggestFile_eq_filter (dir names : List String) (level : Confidence) :
    suggestFile files dir level names
      = (suggestFile files dir .low names).filter fun s => s.confidence.atLeast level := by
  unfold suggestFile
  split
  · exact suggest_eq_filter _ _ _
  · rfl

/-- **The advice on a project at a level is what the lowest level has of it.** -/
theorem adviceAt_eq_filter (level : Confidence) :
    adviceAt files working base f paths level
      = (adviceAt files working base f paths .low).filter fun s => s.confidence.atLeast level := by
  rw [adviceAt_eq, adviceAt_eq, List.filter_flatMap]
  simp only [← suggestFile_eq_filter]

theorem adviceAt_sublist {c d : Confidence} (h : c.atLeast d = true) :
    adviceAt files working base f paths c <+ adviceAt files working base f paths d := by
  rw [adviceAt_eq_filter c, adviceAt_eq_filter d]
  exact List.monotone_filter_right _ fun s hs => Confidence.atLeast_trans hs h

/-! ## File by file -/

theorem file_of_mem_suggestFile {dir names : List String} {s : Suggestion}
    (hs : s ∈ suggestFile files dir level names) : s.file = Files.relativeText dir names := by
  unfold suggestFile at hs
  split at hs
  · exact (of_mem_suggest hs).1
  · cases hs

/-- Pieces that can be told apart by where they come from are found again. -/
theorem filter_flatMap_of_nodup {α β : Type} {g : α → List β} {p : β → Bool} {l : List α} {a : α}
    (hl : l.Nodup) (ha : a ∈ l) (hsame : ∀ b ∈ g a, p b = true)
    (hother : ∀ x ∈ l, x ≠ a → ∀ b ∈ g x, ¬ p b = true) : (l.flatMap g).filter p = g a := by
  induction l with
  | nil => cases ha
  | cons x xs ih =>
    obtain ⟨hx, hxs⟩ := List.nodup_cons.mp hl
    have htail : ∀ y ∈ xs, y ≠ a → ∀ b ∈ g y, ¬ p b = true :=
      fun y hy => hother y (List.mem_cons_of_mem _ hy)
    rw [List.flatMap_cons, List.filter_append]
    rcases List.mem_cons.mp ha with rfl | ha
    · have hnone : (xs.flatMap g).filter p = [] := by
        refine List.filter_eq_nil_iff.mpr fun b hb => ?_
        obtain ⟨y, hy, hb⟩ := List.mem_flatMap.mp hb
        exact htail y hy (ne_of_mem_of_not_mem hy hx) b hb
      rw [List.filter_eq_self.mpr hsame, hnone, List.append_nil]
    · have hne : x ≠ a := (ne_of_mem_of_not_mem ha hx).symm
      rw [List.filter_eq_nil_iff.mpr (hother x List.mem_cons_self hne), List.nil_append,
        ih hxs ha htail]

/-- The advice that bears the name of a file is the advice on this file. -/
theorem filter_file_adviceAt (hp : files.Proper) {names : List String}
    (hn : names ∈ (Scan.discover files working f paths).value) :
    (adviceAt files working base f paths level).filter
        (·.file == Files.relativeText (Scan.baseDirectory working base) names)
      = suggestFile files (Scan.baseDirectory working base) level names := by
  rw [adviceAt_eq]
  refine filter_flatMap_of_nodup (Scan.nodup_discover paths) hn ?_ ?_
  · intro s hs
    exact beq_iff_eq.mpr (file_of_mem_suggestFile hs)
  · -- files that differ have names that differ
    intro other hother hne s hs heq
    rw [file_of_mem_suggestFile hs, beq_iff_eq] at heq
    exact hne (Files.relativeText_inj (Scan.isName_of_discover hp hother)
      (Scan.isName_of_discover hp hn) heq)

end

/-! ## Groups -/

theorem put?_groups (s : Suggestion) (group : Confidence → List Suggestion) :
    Groups.put? s (Confidence.all.map fun c => (c.name, group c))
      = some (Confidence.all.map fun c => (c.name, group c ++ [s].filter (·.confidence == c))) := by
  cases h : s.confidence <;> simp [Groups.put?, Confidence.all, Confidence.name, h]

theorem putAll?_groups (ss : List Suggestion) (group : Confidence → List Suggestion) :
    Groups.putAll? (Confidence.all.map fun c => (c.name, group c)) ss
      = some (Confidence.all.map fun c => (c.name, group c ++ ss.filter (·.confidence == c))) := by
  induction ss generalizing group with
  | nil => simp [Groups.putAll?]
  | cons s ss ih =>
    rw [Groups.putAll?, put?_groups, Option.bind_some, ih]
    simp only [List.append_assoc, ← List.filter_append, List.singleton_append]

/-- **There is a group for every piece of advice,** and the groups are what each level has. -/
theorem byConfidence?_eq (a : Advice) :
    a.byConfidence? = some (Confidence.all.map fun c => (c.name, a.ofConfidence c)) := by
  rw [Advice.byConfidence?, putAll?_groups]
  rfl

/-- Groups part a list of advice: each is as in the list and of one level, and together they have every
piece once. -/
structure Parts (group : Confidence → List Suggestion) (ss : List Suggestion) : Prop where
  sublist : ∀ c, group c <+ ss
  confidence : ∀ c, ∀ s ∈ group c, s.confidence = c
  perm : Confidence.all.flatMap group ~ ss

theorem parts_filter (ss : List Suggestion) : Parts (fun c => ss.filter (·.confidence == c)) ss where
  sublist c := List.filter_sublist
  confidence c s hs := by simpa using (List.mem_filter.mp hs).2
  perm := by
    induction ss with
    | nil => exact .refl _
    | cons s ss ih =>
      simp only [Confidence.all, List.flatMap_cons, List.flatMap_nil, List.append_nil] at ih ⊢
      cases h : s.confidence with
      | high =>
        simp only [List.filter_cons, h]
        exact ih.cons s
      | medium =>
        simp only [List.filter_cons, h]
        exact List.perm_middle.trans (ih.cons s)
      | low =>
        simp only [List.filter_cons, h]
        rw [← List.append_assoc] at ih ⊢
        exact List.perm_middle.trans (ih.cons s)

/-- A group below the level that is asked for is empty. -/
theorem filter_confidence_adviceAt {files : Tree} {working : List String} {base : Option String}
    {f : Scan.Filter} {paths : List String} {c level : Confidence} (h : c.atLeast level = false) :
    (adviceAt files working base f paths level).filter (·.confidence == c) = [] := by
  rw [adviceAt_eq_filter, List.filter_filter, List.filter_eq_nil_iff]
  intro s _ hs
  obtain ⟨hc, hlevel⟩ := Bool.and_eq_true_iff.mp hs
  rw [beq_iff_eq.mp hc, h] at hlevel
  cases hlevel

/-- **The advice at a level is what the lowest level has of it.** So a lower level gives the same advice
in the same order, and more in between. The advice comes file by file in the order in which the files are
found, and for each it is the advice on its text. It can always be put into groups, which part it in
its order; those below the level are empty. A name that is no level is refused, whatever the paths. -/
theorem scan_at_every_level {files : Tree} (hp : files.Proper) (working : List String)
    (base : Option String) (f : Scan.Filter) (paths : List String) :
    let found := (Scan.discover files working f paths).value
    let name := Files.relativeText (Scan.baseDirectory working base)
    (∃ advice : Confidence → Advice,
      (∀ level, (scanAt files working base f level.name paths).value = .ok (advice level))
      ∧ (∀ level, (advice level).suggestions
          = (advice .low).suggestions.filter fun s => s.confidence.atLeast level)
      ∧ (advice .high).suggestions <+ (advice .medium).suggestions
      ∧ (advice .medium).suggestions <+ (advice .low).suggestions
      ∧ (found.map name).Nodup
      ∧ ∀ level,
        ((advice level).suggestions
            = found.flatMap fun names => (advice level).suggestions.filter (·.file == name names))
        ∧ (∀ names ∈ found, ∃ text, files.text? names = some text
          ∧ (advice level).suggestions.filter (·.file == name names)
            = suggest (String.ofList text) (name names) level)
        ∧ ∃ group : Confidence → List Suggestion,
          (advice level).byConfidence? = some (Confidence.all.map fun c => (c.name, group c))
          ∧ Parts group (advice level).suggestions
          ∧ ∀ c, c.atLeast level = false → group c = [])
    ∧ ∀ level, level ∉ ["high", "medium", "low"] →
      scanAt files working base f level paths = ⟨.error (unknownLevelMessage level), 0⟩ := by
  intro found name
  have hfile : ∀ level, ∀ names ∈ found,
      (adviceAt files working base f paths level).filter (·.file == name names)
        = suggestFile files (Scan.baseDirectory working base) level names :=
    fun level names hn => filter_file_adviceAt hp hn
  refine ⟨⟨fun level => (scan files working base f level paths).value, value_scanAt,
    adviceAt_eq_filter, adviceAt_sublist rfl, adviceAt_sublist rfl, ?_, fun level => ⟨?_, ?_, ?_⟩⟩,
    fun level hlevel => scanAt_of_notMem hlevel⟩
  · refine List.Nodup.map_on ?_ (Scan.nodup_discover paths)
    intro names hn names' hn' heq
    exact Files.relativeText_inj (Scan.isName_of_discover hp hn) (Scan.isName_of_discover hp hn') heq
  · exact (adviceAt_eq level).trans
      (List.flatMap_congr fun names hn => (hfile level names hn).symm)
  · intro names hn
    obtain ⟨text, htext⟩ := Scan.text?_of_discover hp hn
    refine ⟨text, htext, (hfile level names hn).trans ?_⟩
    rw [suggestFile, htext]
  · exact ⟨_, byConfidence?_eq _, parts_filter _, fun c hc => filter_confidence_adviceAt hc⟩

/-- Two files with advice of two levels, and a name that is no level. -/
theorem scan_at_every_level_of_two_files :
    let files : Tree := ⟨[(["w", "b.css"], .file (Text.encode "a\x7bfloat:left\x7d")),
      (["w", "a.js"], .file (Text.encode "document.getElementById(x)\nnew XMLHttpRequest"))]⟩
    files.Proper ∧ (∃ advice : Confidence → Advice,
      (∀ level, (scanAt files ["w"] none {} level.name ["."]).value = .ok (advice level))
      ∧ (advice .low).suggestions.map (fun s => (s.file, s.found))
        = [("a.js", "document.getElementById"), ("a.js", "XMLHttpRequest"), ("b.css", "float:left")]
      ∧ (advice .high).suggestions
        = (advice .low).suggestions.filter fun s => s.confidence.atLeast .high)
    ∧ scanAt files ["w"] none {} "certain" ["."]
      = ⟨.error "Unknown confidence level 'certain' (expected one of high, medium, low)", 0⟩ := by
  intro files
  have hp : files.Proper := by decide +kernel
  obtain ⟨⟨advice, hscan, hfilter, -⟩, hunknown⟩ := scan_at_every_level hp ["w"] none {} ["."]
  refine ⟨hp, ⟨advice, hscan, ?_, hfilter .high⟩, hunknown "certain" (by decide)⟩
  have hlow : advice .low = (scan files ["w"] none {} .low ["."]).value :=
    Except.ok.inj ((hscan .low).symm.trans (value_scanAt .low))
  rw [hlow]
  decide +kernel

end WebAudit.Upgrade
