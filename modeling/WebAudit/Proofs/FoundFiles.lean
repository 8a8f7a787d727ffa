import Mathlib.Data.List.Sort
import WebAudit.Proofs.Discovery
import WebAudit.Proofs.FileWrites

/-!
# Which files are found

What some paths name or contain, said without the way it is looked for. A path leads to a place name
by name (`Tree.Leads`); it contributes the file it leads to, or the wanted files below the directory it
leads to (`Scan.Found`). The result of a search has just these files in strictly ascending order, so
it is known from the places that the paths lead to, and each file of the result leads to itself.
-/

namespace WebAudit

namespace Files

/-! ## Where paths lead -/

namespace Tree

/-- Names lead from one place to another: each but the last stands for a directory that is there, a
double dot leads upward, and at the end there is a file or a directory. -/
inductive Follows (t : Tree) : List String → List String → List String → Prop where
  | here {place : List String} (h : t.has place = true) : Follows t place [] place
  | up {place names target : List String} (hd : t.isDirectory place = true)
      (h : Follows t place.dropLast names target) : Follows t place (".." :: names) target
  | down {place names target : List String} {n : String} (hn : n ≠ "..")
      (hd : t.isDirectory place = true) (h : Follows t (place ++ [n]) names target) :
      Follows t place (n :: names) target

/-- A path leads to a place, from the root if it starts there and else from the working directory. -/
def Leads (t : Tree) (working : List String) (path : String) (place : List String) : Prop :=
  t.Follows (if (Path.parse path).root = "" then working else []) (Path.parse path).names place

variable {t : Tree} {working place target names : List String} {path : String}

theorem follow?_eq_some_iff : t.follow? place names = some target ↔ t.Follows place names target := by
  induction names generalizing place with
  | nil =>
    rw [follow?]
    constructor
    · intro h
      split at h
      next hhas =>
        cases h
        exact .here hhas
      · cases h
    · rintro ⟨hhas⟩
      rw [if_pos hhas]
  | cons n names ih =>
    rw [follow?]
    constructor
    · intro h
      split at h
      next hd =>
        rw [ih] at h
        split at h
        next hn =>
          obtain rfl : n = ".." := by simpa using hn
          exact .up hd h
        next hn => exact .down (by simpa using hn) hd h
      · cases h
    · intro h
      cases h with
      | up hd h => rw [if_pos hd, ih]; exact h
      | down hn hd h => rw [if_pos hd, ih, if_neg (by simpa using hn)]; exact h

theorem locate?_eq_some_iff :
    t.locate? working (Path.parse path) = some place ↔ t.Leads working path place := by
  rw [locate?, Leads]
  split
  next h => rw [if_pos (by simpa using h), follow?_eq_some_iff]
  next h => rw [if_neg (by simpa using h), follow?_eq_some_iff]

theorem Leads.unique {place' : List String} (h : t.Leads working path place)
    (h' : t.Leads working path place') : place = place' := by
  rw [← locate?_eq_some_iff] at h h'
  exact Option.some.inj (h.symm.trans h')

theorem Follows.has_start (h : t.Follows place names target) : t.has place = true := by
  cases h with
  | here h => exact h
  | up hd h => simp [has, hd]
  | down hn hd h => simp [has, hd]

theorem Follows.has_target (h : t.Follows place names target) : t.has target = true := by
  induction h with
  | here h => exact h
  | up _ _ ih => exact ih
  | down _ _ _ ih => exact ih

/-! ## Resolved places -/

theorem withoutDots_append {kept rest : List String} (h : ".." ∉ names) :
    withoutDots kept (names ++ rest) = withoutDots (names.reverse ++ kept) rest := by
  induction names generalizing kept with
  | nil => rfl
  | cons n names ih =>
    obtain ⟨hn, hnames⟩ := not_or.mp (mt List.mem_cons.mpr h)
    rw [List.cons_append, withoutDots, if_neg (by simpa using Ne.symm hn), ih hnames,
      List.reverse_cons, List.append_assoc, List.singleton_append]

/-- Following names takes double dots away as reading the path does. -/
theorem Follows.eq_withoutDots (h : t.Follows place names target) :
    target = withoutDots place.reverse names := by
  induction h with
  | here h => rw [withoutDots, List.reverse_reverse]
  | up hd h ih => rw [ih, withoutDots, if_pos (beq_self_eq_true _), List.tail_reverse]
  | down hn hd h ih =>
    rw [ih, withoutDots, if_neg (by simpa using hn), List.reverse_append, List.reverse_singleton,
      List.singleton_append]

theorem Proper.isName_of_has (hp : t.Proper) (h : t.has place = true) : ∀ n ∈ place, IsName n := by
  intro n hn
  rw [has, Bool.or_eq_true, isDirectory_iff] at h
  rcases h with hfile | rfl | ⟨e, he, ⟨rfl, -⟩ | ⟨hbelow, -⟩⟩
  · obtain ⟨content, hc⟩ := Option.isSome_iff_exists.mp hfile
    exact hp.names _ (mem_entries_of_file? hc) n hn
  · cases hn
  · exact hp.names e he n hn
  · exact hp.names e he n (hbelow.subset hn)

/-- **A path leads to its resolved names.** -/
theorem Proper.eq_absolute (hp : t.Proper) (h : t.Leads working path place) :
    place = (Path.parse path).absolute working := by
  unfold Leads at h
  rw [h.eq_withoutDots, Path.absolute]
  split at h
  next hroot =>
    have hdots : ".." ∉ working := fun hn => (hp.isName_of_has h.has_start _ hn).ne_dots rfl
    simp only [hroot, beq_self_eq_true, if_true]
    rw [withoutDots_append hdots, List.append_nil]
  next hroot => simp [hroot]

end Tree

/-! ## Files lead to themselves -/

theorem toList_absoluteText (names : List String) :
    (absoluteText names).toList = '/' :: ("/".intercalate names).toList := by
  rw [absoluteText, String.toList_append]
  rfl

/-- Names are read back from the text of an absolute path. -/
theorem names_parse_absoluteText {names : List String} (h : ∀ n ∈ names, IsName n) :
    (Path.parse (absoluteText names)).names = names := by
  show ((Text.splitAt '/' (absoluteText names).toList).map String.ofList).filter _ = _
  rw [toList_absoluteText, Text.splitAt, if_pos (beq_self_eq_true _), List.map_cons,
    List.filter_cons_of_neg (by decide)]
  by_cases hnil : names = []
  · rw [hnil]
    decide
  · rw [map_ofList_splitAt_intercalate hnil fun n hn => (h n hn).no_slash]
    refine List.filter_eq_self.mpr fun n hn => ?_
    simp [(h n hn).ne_empty, (h n hn).ne_dot]

theorem root_parse_absoluteText (names : List String) :
    (Path.parse (absoluteText names)).root ≠ "" := by
  simp only [Path.parse, toList_absoluteText]
  split
  · decide
  · decide
  · decide
  next h => exact absurd rfl (h _)

namespace Tree

variable {t : Tree} {working names : List String}

theorem isFile_iff (hp : t.Proper) :
    t.isFile names = true ↔ ∃ content, (names, Node.file content) ∈ t.entries := by
  rw [isFile, Option.isSome_iff_exists]
  exact exists_congr fun content => ⟨mem_entries_of_file?, hp.file?_eq⟩

theorem Proper.follows_of_isFile (hp : t.Proper) (place : List String) {rest : List String}
    (h : t.isFile (place ++ rest) = true) : t.Follows place rest (place ++ rest) := by
  have hhas : t.has (place ++ rest) = true := by simp [has, h]
  obtain ⟨content, hc⟩ := (isFile_iff hp).mp h
  induction rest generalizing place with
  | nil =>
    rw [List.append_nil] at hhas ⊢
    exact .here hhas
  | cons n rest ih =>
    -- what comes before the name of an entry is a directory
    have hd : t.isDirectory place = true :=
      isDirectory_iff.mpr (.inr ⟨_, hc, .inr ⟨List.prefix_append _ _, by simp⟩⟩)
    have hn : n ≠ ".." := (hp.names _ hc n (by simp)).ne_dots
    rw [List.append_cons] at h hhas hc ⊢
    exact .down hn hd (ih _ h hhas hc)

/-- **A file is what the text of its absolute path leads to.** -/
theorem Proper.leads_absoluteText (hp : t.Proper) (h : t.isFile names = true) :
    t.Leads working (absoluteText names) names := by
  have hnames : ∀ n ∈ names, IsName n := hp.isName_of_has (by simp [has, h])
  rw [Leads, if_neg (root_parse_absoluteText names), names_parse_absoluteText hnames]
  exact hp.follows_of_isFile [] h

end Tree

end Files

/-! ## What paths contribute -/

namespace Scan

open Files (Path Tree)

/-- A path contributes the file that it leads to, whatever it is called. If it leads to a directory, it
contributes the files below it whose suffix is wanted, in whatever case, and that lie in no directory
below it that is excluded. -/
inductive Found (files : Tree) (working : List String) (f : Filter) (path : String) :
    List String → Prop where
  | named {place : List String} (h : files.Leads working path place)
      (hfile : files.isFile place = true) : Found files working f path place
  | below {place rest : List String} (h : files.Leads working path place)
      (hdirectory : files.isDirectory place = true) (hplace : files.isFile place = false)
      (hrest : rest ≠ []) (hfile : files.isFile (place ++ rest) = true)
      (hsuffix : Text.lower (Files.suffix (rest.getLastD "")) ∈ f.extensions.map Text.lower)
      (hexcluded : ∀ n ∈ rest.dropLast, n ∉ f.excluded) : Found files working f path (place ++ rest)

variable {files : Tree} {working : List String} {f : Filter} {path : String} {names : List String}

theorem accepts_iff :
    f.accepts names = true
      ↔ Text.lower (Files.suffix (names.getLastD "")) ∈ f.extensions.map Text.lower
        ∧ ∀ n ∈ names.dropLast, n ∉ f.excluded := by
  simp [Filter.accepts]

/-- The files at a path are those that it contributes. -/
theorem mem_filesAt?_iff (hp : files.Proper) :
    names ∈ (filesAt? files working f path).getD [] ↔ Found files working f path names := by
  constructor
  · intro h
    rw [filesAt?] at h
    split at h
    · cases h
    next place hplace =>
      rw [Tree.locate?_eq_some_iff] at hplace
      split at h
      next hfile =>
        obtain rfl := List.mem_singleton.mp h
        exact .named hplace hfile
      next hfile =>
        obtain ⟨rest, hrest, rfl⟩ := List.mem_map.mp h
        obtain ⟨hbelow, haccepts⟩ := List.mem_filter.mp hrest
        obtain ⟨hne, hentry⟩ := Tree.mem_filesBelow_iff.mp hbelow
        obtain ⟨hsuffix, hexcluded⟩ := accepts_iff.mp haccepts
        have hfile : files.isFile place = false := by simpa using hfile
        -- what is there and is no file is a directory
        have hdirectory : files.isDirectory place = true := by
          simpa [Tree.has, hfile] using Tree.Follows.has_target hplace
        exact .below hplace hdirectory hfile hne ((Tree.isFile_iff hp).mpr hentry) hsuffix hexcluded
  · intro h
    cases h with
    | named h hfile =>
      rw [← Tree.locate?_eq_some_iff] at h
      simp [filesAt?, h, hfile]
    | below h _ hplace hne hfile hsuffix hexcluded =>
      rw [← Tree.locate?_eq_some_iff] at h
      simp only [filesAt?, h, hplace, Bool.false_eq_true, if_false, Option.getD_some]
      refine List.mem_map_of_mem (List.mem_filter.mpr ⟨?_, accepts_iff.mpr ⟨hsuffix, hexcluded⟩⟩)
      exact Tree.mem_filesBelow_iff.mpr ⟨hne, (Tree.isFile_iff hp).mp hfile⟩

/-! ## What is found -/

/-- **What is found is what some path contributes.** -/
theorem mem_discover_iff (hp : files.Proper) {paths : List String} :
    names ∈ (discover files working f paths).value
      ↔ ∃ path ∈ paths, Found files working f path names := by
  simp only [discover, Files.mem_sortPaths, List.mem_flatMap, List.mem_map, exists_exists_and_eq_and,
    mem_filesAt?_iff hp]

theorem pairwise_discover (paths : List String) :
    (discover files working f paths).value.Pairwise (· < ·) :=
  Files.pairwise_sortPaths _

/-- Ascending lists of the same files are the same. -/
theorem discover_eq_of_mem_iff {paths : List String} {found : List (List String)}
    (hfound : found.Pairwise (· < ·))
    (h : ∀ names, names ∈ (discover files working f paths).value ↔ names ∈ found) :
    (discover files working f paths).value = found :=
  (pairwise_discover paths).eq_of_mem_iff hfound h

/-- What a path contributes depends on where it leads to. -/
theorem Found.of_leads {path' : String} (h : Found files working f path names)
    (hleads : ∀ place, files.Leads working path place → files.Leads working path' place) :
    Found files working f path' names := by
  cases h with
  | named h hfile => exact .named (hleads _ h) hfile
  | below h hdirectory hplace hrest hfile hsuffix hexcluded =>
    exact .below (hleads _ h) hdirectory hplace hrest hfile hsuffix hexcluded

theorem Found.exists_leads (h : Found files working f path names) :
    ∃ place, files.Leads working path place := by
  cases h with
  | named h => exact ⟨_, h⟩
  | below h => exact ⟨_, h⟩

/-- Paths that lead to no new place add nothing. -/
theorem mem_discover_of_leads (hp : files.Proper) {paths paths' : List String}
    (hleads : ∀ place, (∃ path ∈ paths, files.Leads working path place) →
      ∃ path ∈ paths', files.Leads working path place)
    (h : names ∈ (discover files working f paths).value) :
    names ∈ (discover files working f paths').value := by
  rw [mem_discover_iff hp] at h ⊢
  obtain ⟨path, hpath, hfound⟩ := h
  obtain ⟨place, hplace⟩ := hfound.exists_leads
  obtain ⟨path', hpath', hplace'⟩ := hleads place ⟨path, hpath, hplace⟩
  refine ⟨path', hpath', hfound.of_leads fun q hq => ?_⟩
  rwa [hq.unique hplace]

/-- The text of a file contributes the file and nothing else. -/
theorem found_absoluteText_iff (hp : files.Proper) {file : List String}
    (hfile : files.isFile file = true) :
    Found files working f (Files.absoluteText file) names ↔ names = file := by
  have hleads : files.Leads working (Files.absoluteText file) file := hp.leads_absoluteText hfile
  constructor
  · intro h
    cases h with
    | named h => exact h.unique hleads
    | below h _ hplace =>
      rw [h.unique hleads, hfile] at hplace
      cases hplace
  · rintro rfl
    exact .named hleads hfile

theorem Found.isFile (h : Found files working f path names) : files.isFile names = true := by
  cases h with
  | named _ hfile => exact hfile
  | below _ _ _ _ hfile => exact hfile

/-- Files that were found find themselves, from any directory and whatever is wanted. -/
theorem discover_discover (hp : files.Proper) (paths working' : List String) (f' : Filter) :
    (discover files working' f'
        ((discover files working f paths).value.map Files.absoluteText)).value
      = (discover files working f paths).value := by
  refine discover_eq_of_mem_iff (pairwise_discover paths) fun names => ?_
  have hfile : ∀ file ∈ (discover files working f paths).value, files.isFile file = true := by
    intro file hf
    obtain ⟨path, -, hfound⟩ := (mem_discover_iff hp).mp hf
    exact hfound.isFile
  rw [mem_discover_iff hp]
  constructor
  · rintro ⟨_, hpath, hfound⟩
    obtain ⟨file, hf, rfl⟩ := List.mem_map.mp hpath
    rwa [(found_absoluteText_iff hp (hfile file hf)).mp hfound]
  · intro h
    exact ⟨_, List.mem_map_of_mem h, (found_absoluteText_iff hp (hfile names h)).mpr rfl⟩

/-- The files that are found stand in strictly ascending order, name by name, and are just those that
some path contributes, each at its resolved place. So the result depends on the paths as a set, indeed
only on the places they lead to, and given back as paths it finds itself. -/
theorem discover_finds_contributions {files : Tree} (hp : files.Proper) (working : List String)
    (f : Filter) (paths : List String) :
    let found := (discover files working f paths).value
    found.Pairwise (· < ·) ∧ found.Nodup
      ∧ (∀ names, names ∈ found ↔ ∃ path ∈ paths, Found files working f path names)
      ∧ (∀ path place, files.Leads working path place → place = (Path.parse path).absolute working)
      ∧ (∀ paths' : List String, (∀ path, path ∈ paths' ↔ path ∈ paths) →
          (discover files working f paths').value = found)
      ∧ (∀ paths' : List String,
          (∀ place, (∃ path ∈ paths', files.Leads working path place)
            ↔ ∃ path ∈ paths, files.Leads working path place) →
          (discover files working f paths').value = found)
      ∧ ∀ working' f',
          (discover files working' f' (found.map Files.absoluteText)).value = found := by
  intro found
  have hplaces (paths' : List String)
      (h : ∀ place, (∃ path ∈ paths', files.Leads working path place)
        ↔ ∃ path ∈ paths, files.Leads working path place) :
      (discover files working f paths').value = found :=
    discover_eq_of_mem_iff (pairwise_discover paths) fun names =>
      ⟨mem_discover_of_leads hp fun place => (h place).mp,
        mem_discover_of_leads hp fun place => (h place).mpr⟩
  refine ⟨pairwise_discover paths, nodup_discover paths, fun names => mem_discover_iff hp,
    fun path place => hp.eq_absolute, fun paths' h => hplaces paths' fun place => ?_, hplaces,
    discover_discover hp paths⟩
  simp only [h]

/-- Paths that overlap, one of them to a file in an excluded directory and one in another spelling. The
directory `a` comes before `a-b`, though the text of its file does not. -/
theorem discover_finds_contributions_of_overlapping :
    let files : Tree := ⟨[(["w", "a-b", "y.css"], .file []), (["w", "a", "Z.CSS"], .file []),
      (["w", "a", "dist", "x.css"], .file []), (["w", "a", "notes.md"], .file [])]⟩
    let paths := [".", "a/dist/x.css", "a/../a", "."]
    let found := (discover files ["w"] ⟨[".Css"], ["dist"]⟩ paths).value
    files.Proper
      ∧ found = [["w", "a", "Z.CSS"], ["w", "a", "dist", "x.css"], ["w", "a-b", "y.css"]]
      ∧ (discover files ["w"] ⟨[".Css"], ["dist"]⟩ ["a/../a", ".", "a/dist/x.css"]).value = found
      ∧ (discover files [] ⟨[], []⟩ (found.map Files.absoluteText)).value = found := by
  intro files paths found
  have hp : files.Proper := by decide +kernel
  obtain ⟨-, -, -, -, hset, -, hagain⟩ :=
    discover_finds_contributions hp ["w"] ⟨[".Css"], ["dist"]⟩ paths
  refine ⟨hp, by decide +kernel, hset _ fun path => ?_, hagain [] ⟨[], []⟩⟩
  simp only [paths, List.mem_cons, List.not_mem_nil, or_false]
  tauto

end Scan

end WebAudit
