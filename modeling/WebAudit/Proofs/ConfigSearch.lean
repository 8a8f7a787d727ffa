import WebAudit.Proofs.DigitLimit
import WebAudit.Proofs.Discovery
import WebAudit.Proofs.Settings

/-!
# Looking for a configuration

A search goes through the candidates from a directory upward. Each candidate can be used, is passed
over silently, or is passed over with one warning (`Candidate.Usable`, `Candidate.Silent`,
`Candidate.Faulty`), and this depends on its name and its content alone. So the search gives what
the first usable candidate holds, and what comes after that candidate does not matter.
-/

namespace WebAudit.Config

open Files (Tree)

/-! ## Candidates -/

/-- A file in which a configuration is looked for: its name, and its bytes if it is there. -/
structure Candidate where
  name : String
  content : Option (List UInt8)

/-- The candidate at some place. -/
def candidateAt (files : Tree) (names : List String) : Candidate :=
  ⟨names.getLastD "", files.file? names⟩

namespace Candidate

/-- The JSON value in the file. -/
def Holds (k : Candidate) (v : Json) : Prop :=
  ∃ bytes, k.content = some bytes ∧ Json.ofBytes bytes = .ok (.ok v)

/-- The settings that a candidate gives: what the file holds, or what it holds under `baseline` if it
is the package file. -/
inductive Gives (k : Candidate) : Json → Prop where
  | own {v : Json} (hname : k.name ≠ packageFile) (hv : k.Holds v) : Gives k v
  | packaged {fs : Json.Fields} {v : Json} (hname : k.name = packageFile) (hfs : k.Holds (.obj fs))
      (hv : Json.Fields.get? fs "baseline" = some v) : Gives k v

/-- A candidate that has a configuration. -/
def Usable (k : Candidate) (c : Config) : Prop :=
  ∃ fs, k.Gives (.obj fs) ∧ validate (.obj fs) = .ok c

/-- A candidate that has nothing to say: it is absent, or a package file without settings. -/
inductive Silent (k : Candidate) : Prop where
  | absent (h : k.content = none)
  | notObject {v : Json} (hname : k.name = packageFile) (hv : k.Holds v) (hfields : v.fields? = none)
  | noSettings {fs : Json.Fields} (hname : k.name = packageFile) (hfs : k.Holds (.obj fs))
      (hkey : Json.Fields.get? fs "baseline" = none)

/-- A candidate that cannot be used though it should be. -/
inductive Faulty (k : Candidate) : Prop where
  | notJson {bytes : List UInt8} {e : Json.Error} (hcontent : k.content = some bytes)
      (he : Json.ofBytes bytes = .ok (.error e))
  | notObject {v : Json} (hv : k.Gives v) (hfields : v.fields? = none)
  | invalid {fs : Json.Fields} {e : ConfigError} (hfs : k.Gives (.obj fs))
      (he : validate (.obj fs) = .error e)

/-- A candidate that, if it is there, is text without a whole number that is too long. -/
def Legible (k : Candidate) : Prop :=
  ∀ bytes, k.content = some bytes → Json.Legible bytes

/-- A candidate that is there and cannot be read. -/
def Breaks (k : Candidate) (u : Json.Unreadable) : Prop :=
  ∃ bytes, k.content = some bytes ∧ Json.Breaks bytes u

end Candidate

/-! ## Reading a candidate -/

/-- The settings in the value of a file with some name. -/
def settingsIn (name : String) (v : Json) : Option Json :=
  if name == packageFile then v.field? "baseline" else some v

section Reading

variable {name text : String} {bytes : List UInt8} {v : Json}

theorem readFile_of_unreadable {u : Json.Unreadable} (h : Json.ofBytes bytes = .error u) :
    readFile name text bytes = .error (.unreadable u) := by
  rw [readFile, h]
  rfl

theorem readFile_of_notJson {e : Json.Error} (h : Json.ofBytes bytes = .ok (.error e)) :
    readFile name text bytes = .ok (.error (.notJson text e)) := by
  rw [readFile, h]
  rfl

theorem readFile_of_none (h : Json.ofBytes bytes = .ok (.ok v)) (hs : settingsIn name v = none) :
    readFile name text bytes = .ok (.ok none) := by
  rw [settingsIn] at hs
  simp only [readFile, h, mapError_ok, ok_bind, hs]
  rfl

theorem readFile_of_valid {fs : Json.Fields} {c : Config} (h : Json.ofBytes bytes = .ok (.ok v))
    (hs : settingsIn name v = some (.obj fs)) (hc : validate (.obj fs) = .ok c) :
    readFile name text bytes = .ok (.ok (some (c.overlaying default))) := by
  rw [settingsIn] at hs
  simp only [readFile, h, mapError_ok, ok_bind, hs, hc]
  rfl

theorem readFile_of_invalid {fs : Json.Fields} {e : ConfigError}
    (h : Json.ofBytes bytes = .ok (.ok v)) (hs : settingsIn name v = some (.obj fs))
    (he : validate (.obj fs) = .error e) :
    readFile name text bytes = .ok (.error (.invalid e)) := by
  rw [settingsIn] at hs
  simp only [readFile, h, mapError_ok, ok_bind, hs, he]
  rfl

theorem readFile_of_notObject {w : Json} (h : Json.ofBytes bytes = .ok (.ok v))
    (hs : settingsIn name v = some w) (hw : w.fields? = none) :
    readFile name text bytes = .ok (.error (.notObject text)) := by
  rw [settingsIn] at hs
  simp only [readFile, h, mapError_ok, ok_bind, hs]
  split
  next hnone => cases hnone
  next fs hfs =>
    obtain rfl := Option.some.inj hfs
    cases hw
  next => rfl

end Reading

namespace Candidate

variable {k : Candidate}

theorem gives_iff {v : Json} : k.Gives v ↔ ∃ w, k.Holds w ∧ settingsIn k.name w = some v := by
  constructor
  · intro h
    cases h with
    | own hname hv => exact ⟨v, hv, if_neg (by simpa using hname)⟩
    | packaged hname hfs hv => exact ⟨_, hfs, (if_pos (by simpa using hname)).trans hv⟩
  · rintro ⟨w, hw, hs⟩
    rw [settingsIn] at hs
    split at hs
    next hname =>
      cases hfields : w.fields? with
      | none =>
        -- only an object has something under a key
        rw [Json.field?_of_fields?_eq_none hfields] at hs
        cases hs
      | some fs =>
        obtain rfl := Json.eq_obj_of_fields? hfields
        exact .packaged (by simpa using hname) hw hs
    next hname =>
      obtain rfl := Option.some.inj hs
      exact .own (by simpa using hname) hw

theorem silent_iff : k.Silent ↔ k.content = none ∨ ∃ w, k.Holds w ∧ settingsIn k.name w = none := by
  constructor
  · intro h
    cases h with
    | absent h => exact .inl h
    | notObject hname hv hfields =>
      refine .inr ⟨_, hv, (if_pos (by simpa using hname)).trans ?_⟩
      exact Json.field?_of_fields?_eq_none hfields _
    | noSettings hname hfs hkey =>
      exact .inr ⟨_, hfs, (if_pos (by simpa using hname)).trans hkey⟩
  · rintro (h | ⟨w, hw, hs⟩)
    · exact .absent h
    · rw [settingsIn] at hs
      split at hs
      next hname =>
        have hname : k.name = packageFile := by simpa using hname
        cases hfields : w.fields? with
        | none => exact .notObject hname hw hfields
        | some fs =>
          obtain rfl := Json.eq_obj_of_fields? hfields
          exact .noSettings hname hw hs
      next => cases hs

/-- How the file is read, if it is there. -/
def outcome (k : Candidate) (text : String) :
    Option (Except LoadError (Except FileError (Option Config))) :=
  k.content.map (readFile k.name text)

theorem Silent.outcome (h : k.Silent) (text : String) :
    k.outcome text = none ∨ k.outcome text = some (.ok (.ok none)) := by
  obtain hnone | ⟨w, ⟨bytes, hcontent, hw⟩, hs⟩ := silent_iff.mp h
  · left
    rw [Candidate.outcome, hnone]
    rfl
  · right
    rw [Candidate.outcome, hcontent, Option.map_some, readFile_of_none hw hs]

theorem Faulty.outcome (h : k.Faulty) (text : String) :
    ∃ e, k.outcome text = some (.ok (.error e)) := by
  cases h with
  | notJson hcontent he =>
    rw [Candidate.outcome, hcontent, Option.map_some, readFile_of_notJson he]
    exact ⟨_, rfl⟩
  | notObject hv hfields =>
    obtain ⟨w, ⟨bytes, hcontent, hw⟩, hs⟩ := gives_iff.mp hv
    rw [Candidate.outcome, hcontent, Option.map_some, readFile_of_notObject hw hs hfields]
    exact ⟨_, rfl⟩
  | invalid hfs he =>
    obtain ⟨w, ⟨bytes, hcontent, hw⟩, hs⟩ := gives_iff.mp hfs
    rw [Candidate.outcome, hcontent, Option.map_some, readFile_of_invalid hw hs he]
    exact ⟨_, rfl⟩

theorem Usable.outcome {c : Config} (h : k.Usable c) (text : String) :
    k.outcome text = some (.ok (.ok (some (c.overlaying default)))) := by
  obtain ⟨fs, hfs, hc⟩ := h
  obtain ⟨w, ⟨bytes, hcontent, hw⟩, hs⟩ := gives_iff.mp hfs
  rw [Candidate.outcome, hcontent, Option.map_some, readFile_of_valid hw hs hc]

theorem Breaks.outcome {u : Json.Unreadable} (h : k.Breaks u) (text : String) :
    k.outcome text = some (.error (.unreadable u)) := by
  obtain ⟨bytes, hcontent, hu⟩ := h
  have hread := Json.ofBytes_eq_error_iff.mpr hu
  rw [Candidate.outcome, hcontent, Option.map_some, readFile_of_unreadable hread]

theorem legible_iff : k.Legible ↔ ∀ u, ¬ k.Breaks u := by
  constructor
  · rintro h u ⟨bytes, hcontent, hu⟩
    exact Json.legible_iff.mp (h bytes hcontent) u hu
  · intro h bytes hcontent
    exact Json.legible_iff.mpr fun u hu => h u ⟨bytes, hcontent, hu⟩

/-- A candidate is passed over silently, passed over with a warning, used, or cannot be read. -/
theorem cases (k : Candidate) : k.Silent ∨ k.Faulty ∨ (∃ c, k.Usable c) ∨ ∃ u, k.Breaks u := by
  cases hcontent : k.content with
  | none => exact .inl (.absent hcontent)
  | some bytes =>
    cases hr : Json.ofBytes bytes with
    | error u => exact .inr (.inr (.inr ⟨u, bytes, hcontent, Json.ofBytes_eq_error_iff.mp hr⟩))
    | ok r =>
      cases r with
      | error e => exact .inr (.inl (.notJson hcontent hr))
      | ok w =>
        have hw : k.Holds w := ⟨bytes, hcontent, hr⟩
        cases hs : settingsIn k.name w with
        | none => exact .inl (silent_iff.mpr (.inr ⟨w, hw, hs⟩))
        | some v =>
          have hv : k.Gives v := gives_iff.mpr ⟨w, hw, hs⟩
          cases hfields : v.fields? with
          | none => exact .inr (.inl (.notObject hv hfields))
          | some fs =>
            obtain rfl := Json.eq_obj_of_fields? hfields
            cases hc : validate (.obj fs) with
            | error e => exact .inr (.inl (.invalid hv hc))
            | ok c => exact .inr (.inr (.inl ⟨c, fs, hv, hc⟩))

theorem Legible.cases (h : k.Legible) : k.Silent ∨ k.Faulty ∨ ∃ c, k.Usable c := by
  obtain hk | hk | hk | ⟨u, hu⟩ := k.cases
  · exact .inl hk
  · exact .inr (.inl hk)
  · exact .inr (.inr hk)
  · exact absurd hu (legible_iff.mp h u)

/-- A candidate that is just one of silent, faulty and usable. -/
structure OfOneKind (k : Candidate) : Prop where
  any : k.Silent ∨ k.Faulty ∨ ∃ c, k.Usable c
  silent : k.Silent → ¬ k.Faulty ∧ ∀ c, ¬ k.Usable c
  faulty : k.Faulty → ∀ c, ¬ k.Usable c

theorem Silent.not_faulty (h : k.Silent) : ¬ k.Faulty := by
  intro hfaulty
  obtain ⟨e, he⟩ := hfaulty.outcome ""
  obtain hnone | hnone := h.outcome ""
  · simp [hnone] at he
  · simp [hnone] at he

theorem Silent.not_usable (h : k.Silent) (c : Config) : ¬ k.Usable c := by
  intro hc
  have hc := hc.outcome ""
  obtain hnone | hnone := h.outcome ""
  · simp [hnone] at hc
  · simp [hnone] at hc

theorem Faulty.not_usable (h : k.Faulty) (c : Config) : ¬ k.Usable c := by
  intro hc
  have hc := hc.outcome ""
  obtain ⟨e, he⟩ := h.outcome ""
  simp [he] at hc

theorem Legible.ofOneKind (h : k.Legible) : k.OfOneKind :=
  ⟨h.cases, fun hs => ⟨hs.not_faulty, hs.not_usable⟩, fun hf => hf.not_usable⟩

end Candidate

/-! ## Passing candidates over -/

/-- Candidates that are all passed over, and the number of warnings on the way. -/
inductive Skips : List Candidate → Nat → Prop where
  | nil : Skips [] 0
  | silent {k : Candidate} {ks : List Candidate} {n : Nat} (hk : k.Silent) (h : Skips ks n) :
      Skips (k :: ks) n
  | faulty {k : Candidate} {ks : List Candidate} {n : Nat} (hk : k.Faulty) (h : Skips ks n) :
      Skips (k :: ks) (n + 1)

section Search

variable {files : Tree} {names : List String} {places rest : List (List String)}

theorem search_of_silent (h : (candidateAt files names).Silent) (n : Nat) :
    search files n (names :: rest) = search files n rest := by
  obtain hnone | hsome := h.outcome (Files.absoluteText names)
  · have hfile : files.file? names = none := Option.map_eq_none_iff.mp hnone
    simp only [search, hfile]
  · obtain ⟨bytes, hfile, hread⟩ := Option.map_eq_some_iff.mp hsome
    dsimp only [candidateAt] at hfile hread
    simp only [search, hfile, hread]

theorem search_of_faulty (h : (candidateAt files names).Faulty) (n : Nat) :
    search files n (names :: rest) = search files (n + 1) rest := by
  obtain ⟨e, he⟩ := h.outcome (Files.absoluteText names)
  obtain ⟨bytes, hfile, hread⟩ := Option.map_eq_some_iff.mp he
  dsimp only [candidateAt] at hfile hread
  simp only [search, hfile, hread]

theorem search_of_usable {c : Config} (h : (candidateAt files names).Usable c) (n : Nat) :
    search files n (names :: rest) = ⟨.ok (c.overlaying default), n⟩ := by
  obtain ⟨bytes, hfile, hread⟩ := Option.map_eq_some_iff.mp (h.outcome (Files.absoluteText names))
  dsimp only [candidateAt] at hfile hread
  simp only [search, hfile, hread]

theorem search_of_breaks {u : Json.Unreadable} (h : (candidateAt files names).Breaks u) (n : Nat) :
    search files n (names :: rest) = ⟨.error (.unreadable u), n⟩ := by
  obtain ⟨bytes, hfile, hread⟩ := Option.map_eq_some_iff.mp (h.outcome (Files.absoluteText names))
  dsimp only [candidateAt] at hfile hread
  simp only [search, hfile, hread]

/-- Candidates that are passed over leave nothing but their warnings. -/
theorem search_of_skips {m : Nat} (h : Skips (places.map (candidateAt files)) m) (n : Nat) :
    search files n (places ++ rest) = search files (n + m) rest := by
  induction places generalizing n m with
  | nil =>
    cases h
    rfl
  | cons names places ih =>
    rw [List.map_cons] at h
    cases h with
    | silent hk h => rw [List.cons_append, search_of_silent hk, ih h]
    | faulty hk h => rw [List.cons_append, search_of_faulty hk, ih h, Nat.add_right_comm, Nat.add_assoc]

/-- Either all candidates are passed over, or all before the first that is used or cannot be read. -/
theorem exists_stop (files : Tree) (places : List (List String)) :
    (∃ m, Skips (places.map (candidateAt files)) m)
      ∨ ∃ before names after m, places = before ++ names :: after
        ∧ Skips (before.map (candidateAt files)) m
        ∧ ((∃ c, (candidateAt files names).Usable c) ∨ ∃ u, (candidateAt files names).Breaks u) := by
  induction places with
  | nil => exact .inl ⟨0, .nil⟩
  | cons names places ih =>
    -- after a candidate that is passed over the search goes on; any other is the end
    obtain hk | hk | hk := (candidateAt files names).cases
    · obtain ⟨m, hm⟩ | ⟨before, p, after, m, rfl, hm, hp⟩ := ih
      · exact .inl ⟨m, .silent hk hm⟩
      · exact .inr ⟨names :: before, p, after, m, rfl, .silent hk hm, hp⟩
    · obtain ⟨m, hm⟩ | ⟨before, p, after, m, rfl, hm, hp⟩ := ih
      · exact .inl ⟨m + 1, .faulty hk hm⟩
      · exact .inr ⟨names :: before, p, after, m + 1, rfl, .faulty hk hm, hp⟩
    · exact .inr ⟨[], names, places, 0, rfl, .nil, hk⟩

theorem exists_skips (h : ∀ names ∈ places, (candidateAt files names).Legible) :
    (∃ m, Skips (places.map (candidateAt files)) m)
      ∨ ∃ before names after m c, places = before ++ names :: after
        ∧ Skips (before.map (candidateAt files)) m ∧ (candidateAt files names).Usable c := by
  obtain hall | ⟨before, names, after, m, rfl, hm, ⟨c, hc⟩ | ⟨u, hu⟩⟩ := exists_stop files places
  · exact .inl hall
  · exact .inr ⟨before, names, after, m, c, rfl, hm, hc⟩
  · exact absurd hu (Candidate.legible_iff.mp (h names (by simp)) u)

/-- What the search gives: the default after passing all candidates over, or the configuration of
the first usable one. -/
theorem search_cases (h : ∀ names ∈ places, (candidateAt files names).Legible) :
    (∃ m, Skips (places.map (candidateAt files)) m ∧ search files 0 places = ⟨.ok default, m⟩)
      ∨ ∃ before names after m c, places = before ++ names :: after
        ∧ Skips (before.map (candidateAt files)) m ∧ (candidateAt files names).Usable c
        ∧ search files 0 places = ⟨.ok (c.overlaying default), m⟩ := by
  obtain ⟨m, hm⟩ | ⟨before, names, after, m, c, rfl, hm, hc⟩ := exists_skips h
  · refine .inl ⟨m, hm, ?_⟩
    rw [← List.append_nil places, search_of_skips hm, Nat.zero_add, search]
  · refine .inr ⟨before, names, after, m, c, rfl, hm, hc, ?_⟩
    rw [search_of_skips hm, search_of_usable hc, Nat.zero_add]

theorem Skips.not_usable {ks : List Candidate} {m : Nat} (h : Skips ks m) {k : Candidate}
    (hk : k ∈ ks) (c : Config) : ¬ k.Usable c := by
  induction h with
  | nil => cases hk
  | silent hsilent _ ih =>
    obtain rfl | hk := List.mem_cons.mp hk
    · exact hsilent.not_usable c
    · exact ih hk
  | faulty hfaulty _ ih =>
    obtain rfl | hk := List.mem_cons.mp hk
    · exact hfaulty.not_usable c
    · exact ih hk

/-- A candidate counts if no usable one comes before it. -/
def Counts (files : Tree) (places : List (List String)) (names : List String) : Prop :=
  ∃ before after, places = before ++ names :: after
    ∧ ∀ q ∈ before, ∀ c, ¬ (candidateAt files q).Usable c

theorem counts_of_mem {m : Nat} (h : Skips (places.map (candidateAt files)) m)
    (hnames : names ∈ places) : Counts files (places ++ rest) names := by
  obtain ⟨before, after, rfl⟩ := List.append_of_mem hnames
  refine ⟨before, after ++ rest, by simp, fun q hq c => ?_⟩
  exact h.not_usable (List.mem_map_of_mem (by simp [hq])) c

/-- Trees that have the same candidates up to the first usable one give the same configuration. -/
theorem search_eq_of_agree (h : ∀ names ∈ places, (candidateAt files names).Legible) {files' : Tree}
    (hagree : ∀ names, Counts files places names → candidateAt files' names = candidateAt files names) :
    search files' 0 places = search files 0 places := by
  obtain ⟨m, hm⟩ | ⟨before, names, after, m, c, rfl, hm, hc⟩ := exists_skips h
  · -- without a usable candidate all of them count
    have hm' : Skips (places.map (candidateAt files')) m := by
      rw [List.map_congr_left fun q hq => hagree q ?_]
      · exact hm
      · rw [← List.append_nil places]
        exact counts_of_mem hm hq
    rw [← List.append_nil places, search_of_skips hm, search_of_skips hm']
    rfl
  · have hm' : Skips (before.map (candidateAt files')) m := by
      rw [List.map_congr_left fun q hq => hagree q (counts_of_mem hm hq)]
      exact hm
    have hc' : (candidateAt files' names).Usable c := by
      rw [hagree names ⟨before, after, rfl, fun q hq => hm.not_usable (List.mem_map_of_mem hq)⟩]
      exact hc
    rw [search_of_skips hm, search_of_skips hm', search_of_usable hc, search_of_usable hc']

end Search

/-! ## The places to look -/

/-- The directory from which a search starts; by default the working directory. -/
def searchStart (working : List String) (start : Option String) : List String :=
  match start.filter (· != "") with
  | some s => (Files.Path.parse s).absolute working
  | none => working

theorem load_of_none (files : Tree) (working : List String) (start : Option String) :
    load files working none start = search files 0 (candidates (searchStart working start)) := rfl

/-- The places of a search from a directory: in it and in each directory above it, up to the root, the
two configuration files and the package file. -/
def placesFrom (directory : List String) : List (List String) :=
  (List.range (directory.length + 1)).flatMap fun k =>
    ["baseline.config.json", ".baseline.json", "package.json"].map fun n =>
      directory.take (directory.length - k) ++ [n]

theorem upward_eq (names : List String) :
    upward names = (List.range (names.length + 1)).map fun k => (names.drop k).reverse := by
  induction names with
  | nil => rfl
  | cons n ns ih =>
    have hrange : List.range ((n :: ns).length + 1) = 0 :: (List.range (ns.length + 1)).map Nat.succ :=
      List.range_succ_eq_map
    rw [upward, ih, hrange, List.map_cons, List.map_map]
    rfl

theorem candidates_eq_placesFrom (directory : List String) :
    candidates directory = placesFrom directory := by
  have htake : ∀ k, (directory.reverse.drop k).reverse = directory.take (directory.length - k) := by
    intro k
    rw [List.drop_reverse, List.reverse_reverse]
  rw [candidates, upward_eq, List.flatMap_map, List.length_reverse]
  simp only [htake]
  rfl

/-- Without a named file, loading gives the configuration of the first usable candidate, from the
starting directory up to the root, or the default. Each candidate before it is passed over silently
or with one warning, and what comes after it does not matter. -/
theorem load_takes_first_usable (files : Tree) (working : List String) (start : Option String)
    (hlegible : ∀ names ∈ placesFrom (searchStart working start),
      (candidateAt files names).Legible) :
    (∀ names ∈ placesFrom (searchStart working start), (candidateAt files names).OfOneKind)
      ∧ ((∃ m, Skips ((placesFrom (searchStart working start)).map (candidateAt files)) m
          ∧ load files working none start = ⟨.ok default, m⟩)
        ∨ ∃ before names after m c c', placesFrom (searchStart working start) = before ++ names :: after
          ∧ Skips (before.map (candidateAt files)) m ∧ (candidateAt files names).Usable c
          ∧ load files working none start = ⟨.ok c', m⟩ ∧ c'.SameValues c)
      ∧ ∀ files', (∀ names, Counts files (placesFrom (searchStart working start)) names →
          candidateAt files' names = candidateAt files names) →
        load files' working none start = load files working none start := by
  refine ⟨fun names hnames => (hlegible names hnames).ofOneKind, ?_, ?_⟩
  · rw [load_of_none, candidates_eq_placesFrom]
    obtain hnone | ⟨before, names, after, m, c, hplaces, hm, hc, hsearch⟩ := search_cases hlegible
    · exact .inl hnone
    · obtain ⟨fs, -, hvalid⟩ := id hc
      exact .inr ⟨before, names, after, m, c, _, hplaces, hm, hc, hsearch,
        (settled_of_validate hvalid).sameValues_overlaying_default⟩
  · intro files' hagree
    rw [load_of_none, load_of_none, candidates_eq_placesFrom]
    exact search_eq_of_agree hlegible hagree

/-- A file that is no JSON and a package file that is a list are passed over, the first of them with
a warning, for a file one directory up. -/
theorem load_takes_first_usable_one_up :
    let files : Tree := ⟨[(["w", "a", ".baseline.json"], .file (Text.encode "nope")),
      (["w", "a", "package.json"], .file (Text.encode "[]")),
      (["w", "baseline.config.json"], .file (Text.encode "\x7b\"ignore\": [\"grid\"]\x7d"))]⟩
    ∃ before names after c c', placesFrom ["w", "a"] = before ++ names :: after
      ∧ Skips (before.map (candidateAt files)) 1 ∧ (candidateAt files names).Usable c
      ∧ load files ["w", "a"] none none = ⟨.ok c', 1⟩ ∧ c'.SameValues c ∧ c.ignored = ["grid"] := by
  intro files
  have hlegible : ∀ names ∈ placesFrom (searchStart ["w", "a"] none),
      (candidateAt files names).Legible := by
    intro names _ bytes hfile
    have hentry := Files.Tree.mem_entries_of_file? hfile
    obtain ⟨-, rfl⟩ | ⟨-, rfl⟩ | ⟨-, rfl⟩ : (names = _ ∧ bytes = _) ∨ (names = _ ∧ bytes = _)
        ∨ (names = _ ∧ bytes = _) := by
      simpa [files] using hentry
    all_goals exact (Json.shortRuns_of_length (by decide)).legible
  have hwarnings : (load files ["w", "a"] none none).warnings = 1 := by decide +kernel
  have hignored : (load files ["w", "a"] none none).value.toOption.map ignored = some ["grid"] := by
    decide +kernel
  obtain ⟨-, ⟨m, -, hload⟩ | ⟨before, names, after, m, c, c', hplaces, hskips, hc, hload, hvalues⟩, -⟩ :=
    load_takes_first_usable files ["w", "a"] none hlegible
  · rw [hload] at hignored
    cases hignored
  · rw [hload] at hwarnings hignored
    obtain rfl : m = 1 := hwarnings
    have hc' : c'.ignored = ["grid"] := Option.some.inj hignored
    exact ⟨before, names, after, c, c', hplaces, hskips, hc, hload, hvalues,
      hvalues.ignored.symm.trans hc'⟩

end WebAudit.Config
