import WebAudit.Proofs.ConfigSearch

/-!
# Where loading a configuration breaks off

A candidate whose bytes cannot be read is not passed over like one that is no JSON or no
configuration: it ends the search, whatever usable candidates come after it. So a search comes to a
configuration just if all candidates up to the first usable one are legible. A file that is named has
no other way to fail without an error about its configuration.
-/

namespace WebAudit.Config

open Files (Path Tree)

/-! ## Candidates that can be read -/

namespace Candidate

variable {k : Candidate}

theorem legible_of_outcome (text : String) (h : ∀ e, k.outcome text ≠ some (.error e)) : k.Legible :=
  legible_iff.mpr fun _ hu => h _ (hu.outcome text)

theorem Silent.legible (h : k.Silent) : k.Legible := by
  refine legible_of_outcome "" fun e he => ?_
  obtain hnone | hnone := h.outcome ""
  · simp [hnone] at he
  · simp [hnone] at he

theorem Faulty.legible (h : k.Faulty) : k.Legible := by
  refine legible_of_outcome "" fun e he => ?_
  obtain ⟨f, hf⟩ := h.outcome ""
  simp [hf] at he

theorem Usable.legible {c : Config} (h : k.Usable c) : k.Legible := by
  refine legible_of_outcome "" fun e he => ?_
  simp [h.outcome ""] at he

end Candidate

/-! ## The search -/

section Search

variable {files : Tree} {names p : List String} {places : List (List String)}

/-- The first candidate counts, and the others do if it is not usable. -/
theorem counts_cons_iff :
    Counts files (p :: places) names
      ↔ names = p ∨ (∀ c, ¬ (candidateAt files p).Usable c) ∧ Counts files places names := by
  constructor
  · rintro ⟨before, after, hplaces, hbefore⟩
    cases before with
    | nil =>
      obtain ⟨rfl, -⟩ := List.cons.inj hplaces
      exact .inl rfl
    | cons q before =>
      obtain ⟨rfl, rfl⟩ := List.cons.inj hplaces
      obtain ⟨hp, hbefore⟩ := List.forall_mem_cons.mp hbefore
      exact .inr ⟨hp, before, after, rfl, hbefore⟩
  · rintro (rfl | ⟨hp, before, after, rfl, hbefore⟩)
    · exact ⟨[], places, rfl, fun q hq => nomatch hq⟩
    · exact ⟨p :: before, after, rfl, List.forall_mem_cons.mpr ⟨hp, hbefore⟩⟩

/-- **A search comes to a configuration just if every candidate that counts is legible.** -/
theorem exists_search_eq_ok_iff (n : Nat) :
    (∃ c, (search files n places).value = .ok c)
      ↔ ∀ names, Counts files places names → (candidateAt files names).Legible := by
  induction places generalizing n with
  | nil =>
    refine ⟨fun _ names h => ?_, fun _ => ⟨default, rfl⟩⟩
    obtain ⟨before, after, h, -⟩ := h
    cases before <;> cases h
  | cons p places ih =>
    simp only [counts_cons_iff, forall_eq_or_imp]
    obtain hp | hp | ⟨c, hp⟩ | ⟨u, hp⟩ := (candidateAt files p).cases
    · rw [search_of_silent hp, ih]
      simp [hp.legible, hp.not_usable]
    · rw [search_of_faulty hp, ih]
      simp [hp.legible, hp.not_usable]
    · -- nothing counts after a usable candidate
      rw [search_of_usable hp]
      have hnone : ¬ ∀ c, ¬ (candidateAt files p).Usable c := fun h => h c hp
      simp [hp.legible, hnone]
    · rw [search_of_breaks hp]
      have hillegible : ¬ (candidateAt files p).Legible := fun h => Candidate.legible_iff.mp h u hp
      simp [hillegible]

/-- A search breaks off at the first candidate that cannot be read, if no usable one comes before
it. -/
theorem search_eq_error_iff {n : Nat} {e : LoadError} :
    (search files n places).value = .error e
      ↔ ∃ before names after m u, places = before ++ names :: after
        ∧ Skips (before.map (candidateAt files)) m ∧ (candidateAt files names).Breaks u
        ∧ e = .unreadable u := by
  constructor
  · intro h
    obtain ⟨m, hm⟩ | ⟨before, names, after, m, rfl, hm, ⟨c, hc⟩ | ⟨u, hu⟩⟩ := exists_stop files places
    · rw [← List.append_nil places, search_of_skips hm] at h
      cases h
    · rw [search_of_skips hm, search_of_usable hc] at h
      cases h
    · rw [search_of_skips hm, search_of_breaks hu] at h
      exact ⟨before, names, after, m, u, rfl, hm, hu, (Except.error.inj h).symm⟩
  · rintro ⟨before, names, after, m, u, rfl, hm, hu, rfl⟩
    rw [search_of_skips hm, search_of_breaks hu]

end Search

/-! ## A named file -/

section Named

variable {files : Tree} {working names : List String} {path : String} {bytes : List UInt8}

/-- The file at some place as a candidate under the last name of a path. -/
def named (path : String) (bytes : List UInt8) : Candidate :=
  ⟨(Path.parse path).fileName, some bytes⟩

/-- A legible file gives a configuration or an error about it. -/
theorem loadFile_of_legible (hplace : files.locateFile? working (Path.parse path) = some names)
    (hfile : files.file? names = some bytes) (h : Json.Legible bytes) :
    (∃ c, loadFile files working path = .ok c)
      ∨ ∃ e, loadFile files working path = .error (.file e) := by
  have hk : (named path bytes).Legible := by
    rintro _ ⟨⟩
    exact h
  have houtcome (r) : (named path bytes).outcome (Path.parse path).text = some r →
      readFile (Path.parse path).fileName (Path.parse path).text bytes = r := Option.some.inj
  obtain hk | hk | ⟨c, hk⟩ := hk.cases
  · obtain hnone | hnone := hk.outcome (Path.parse path).text
    · cases hnone
    · left
      simp only [loadFile, hplace, hfile, Option.getD_some, houtcome _ hnone, ok_bind]
      exact ⟨_, rfl⟩
  · right
    obtain ⟨e, he⟩ := hk.outcome (Path.parse path).text
    simp only [loadFile, hplace, hfile, Option.getD_some, houtcome _ he, ok_bind]
    cases e <;> exact ⟨_, rfl⟩
  · left
    simp only [loadFile, hplace, hfile, Option.getD_some,
      houtcome _ (hk.outcome (Path.parse path).text), ok_bind]
    exact ⟨_, rfl⟩

/-- A file that cannot be read gives another error. -/
theorem loadFile_of_breaks (hplace : files.locateFile? working (Path.parse path) = some names)
    (hfile : files.file? names = some bytes) {u : Json.Unreadable} (h : Json.Breaks bytes u) :
    loadFile files working path = .error (.unreadable u) := by
  have hread := Json.ofBytes_eq_error_iff.mpr h
  simp only [loadFile, hplace, hfile, Option.getD_some, readFile_of_unreadable hread, error_bind]

theorem loadFile_eq_unreadable_iff
    (hplace : files.locateFile? working (Path.parse path) = some names)
    (hfile : files.file? names = some bytes) {u : Json.Unreadable} :
    loadFile files working path = .error (.unreadable u) ↔ Json.Breaks bytes u := by
  constructor
  · intro h
    obtain hlegible | ⟨v, hv⟩ := Json.legible_or_breaks bytes
    · obtain ⟨c, hc⟩ | ⟨e, he⟩ := loadFile_of_legible hplace hfile hlegible
      · rw [hc] at h
        cases h
      · rw [he] at h
        cases h
    · rw [loadFile_of_breaks hplace hfile hv] at h
      cases h
      exact hv
  · exact loadFile_of_breaks hplace hfile

/-- **A named file gives no error but those about its configuration just if it is legible.** -/
theorem loadFile_error_iff (hplace : files.locateFile? working (Path.parse path) = some names)
    (hfile : files.file? names = some bytes) :
    (∀ e, loadFile files working path = .error e → ∃ f, e = .file f) ↔ Json.Legible bytes := by
  constructor
  · intro h
    refine Json.legible_iff.mpr fun u hu => ?_
    obtain ⟨f, hf⟩ := h _ (loadFile_of_breaks hplace hfile hu)
    cases hf
  · intro h e he
    obtain ⟨c, hc⟩ | ⟨f, hf⟩ := loadFile_of_legible hplace hfile h
    · rw [hc] at he
      cases he
    · rw [hf] at he
      exact ⟨f, (Except.error.inj he).symm⟩

theorem load_of_some (hpath : path ≠ "") (start : Option String) :
    load files working (some path) start = ⟨loadFile files working path, 0⟩ := by
  simp only [load, Option.filter_some, bne_iff_ne, ne_eq, hpath, not_false_eq_true, if_true]

end Named

/-- Loading breaks off just over bytes that cannot be read: in a search, those of the first candidate
that is not passed over, and in a named file its own. Whatever else is wrong with a file, a search
goes on after it, and a named file gives an error about its configuration. -/
theorem load_breaks_off_iff (files : Tree) (working : List String) (start : Option String) :
    ((∃ c, (load files working none start).value = .ok c)
        ↔ ∀ names, Counts files (placesFrom (searchStart working start)) names →
            (candidateAt files names).Legible)
      ∧ (∀ e, (load files working none start).value = .error e
        ↔ ∃ before names after m u,
            placesFrom (searchStart working start) = before ++ names :: after
              ∧ Skips (before.map (candidateAt files)) m ∧ (candidateAt files names).Breaks u
              ∧ e = .unreadable u)
      ∧ ∀ path names bytes, path ≠ "" → files.locateFile? working (Path.parse path) = some names →
          files.file? names = some bytes →
            ((∀ e, (load files working (some path) start).value = .error e → ∃ f, e = .file f)
                ↔ Json.Legible bytes)
              ∧ ∀ u, (load files working (some path) start).value = .error (.unreadable u)
                  ↔ Json.Breaks bytes u := by
  rw [load_of_none, candidates_eq_placesFrom]
  refine ⟨exists_search_eq_ok_iff 0, fun e => search_eq_error_iff, ?_⟩
  intro path names bytes hpath hplace hfile
  rw [load_of_some hpath]
  exact ⟨loadFile_error_iff hplace hfile, fun u => loadFile_eq_unreadable_iff hplace hfile⟩

/-- A file that is no text hides the usable one beside it from a search, and is no less in the way
when it is named. -/
theorem load_breaks_off_beside_usable :
    let files : Tree := ⟨[(["w", "baseline.config.json"], .file [0xFF]),
      (["w", ".baseline.json"], .file (Text.encode "\x7b\"ignore\": [\"grid\"]\x7d"))]⟩
    (load files ["w"] none none).value = .error (.unreadable .notText)
      ∧ (load files ["w"] (some "baseline.config.json") none).value = .error (.unreadable .notText)
      ∧ (load files ["w"] (some ".baseline.json") none).value.toOption.map ignored
          = some ["grid"] := by
  intro files
  have hbreaks : Json.Breaks [0xFF] .notText :=
    .notText (Json.decode?_eq_none_iff.mp (by decide +kernel))
  obtain ⟨-, hsearch, hnamed⟩ := load_breaks_off_iff files ["w"] none
  refine ⟨?_, ?_, by decide +kernel⟩
  · exact (hsearch _).mpr ⟨[], ["w", "baseline.config.json"], _, 0, .notText, rfl, .nil,
      ⟨[0xFF], rfl, hbreaks⟩, rfl⟩
  · obtain ⟨-, hunreadable⟩ := hnamed "baseline.config.json" ["w", "baseline.config.json"] [0xFF]
      (by decide) (by decide +kernel) rfl
    exact (hunreadable _).mpr hbreaks

end WebAudit.Config
