import WebAudit.Files.Tree
import WebAudit.Proofs.Outcome

/-!
# Files after they are written

A file that could be written is read back under the same name. Setting a file where its directory
exists makes no directory and takes none away, so a name that led to the file leads to it afterwards.
-/

namespace WebAudit.Files.Tree

/-! ## Directories -/

section

variable {t : Tree} {names place d : List String} {content : List UInt8}

theorem isDirectory_iff :
    t.isDirectory names = true ↔ names = [] ∨ ∃ e ∈ t.entries,
      (e.1 = names ∧ e.2 = .directory) ∨ (names <+: e.1 ∧ names.length < e.1.length) := by
  simp [isDirectory]

/-- A beginning of a directory's names is a directory. -/
theorem isDirectory_of_isPrefix (hd : t.isDirectory d = true) (h : names <+: d) :
    t.isDirectory names = true := by
  rcases Nat.eq_or_lt_of_le h.length_le with heq | hlt
  · rwa [h.eq_of_length heq]
  rw [isDirectory_iff] at hd ⊢
  rcases hd with rfl | ⟨e, he, ⟨rfl, -⟩ | ⟨hbelow, hlength⟩⟩
  · exact .inl (List.prefix_nil.mp h)
  · exact .inr ⟨e, he, .inr ⟨h, hlt⟩⟩
  · exact .inr ⟨e, he, .inr ⟨h.trans hbelow, Nat.lt_trans hlt hlength⟩⟩

/-! ## Setting a file -/

theorem mem_entries_set {e : List String × Node} :
    e ∈ (t.set place content).entries ↔
      (e ∈ t.entries ∧ e.1 ≠ place) ∨ e = (place, .file content) := by
  simp [set]

theorem file?_set_self : (t.set place content).file? place = some content := by
  have hlookup : (t.set place content).entries.lookup place = some (.file content) := by
    refine List.lookup_eq_some_iff.mpr ⟨_, [], rfl, fun e he => ?_⟩
    have hne : e.1 ≠ place := by simpa using (List.mem_filter.mp he).2
    simpa using hne.symm
  rw [file?, hlookup]

/-- Setting a file leaves all others as they are. -/
theorem file?_set_of_ne {other : List String} (h : other ≠ place) :
    (t.set place content).file? other = t.file? other := by
  have hlookup : (t.set place content).entries.lookup other = t.entries.lookup other := by
    unfold set
    induction t.entries with
    | nil => simp [h]
    | cons e es ih =>
      obtain ⟨names, node⟩ := e
      by_cases hplace : names = place
      · subst hplace
        have hne : (other == names) = false := by simpa using h
        simpa [List.lookup_cons, hne] using ih
      · rw [List.filter_cons_of_pos (by simpa using hplace), List.cons_append, List.lookup_cons,
          List.lookup_cons, ih]
  rw [file?, file?, hlookup]

/-- A new file in a directory changes no directory. -/
theorem isDirectory_set {n : String} (hd : t.isDirectory d = true)
    (hplace : t.isDirectory (d ++ [n]) = false) :
    (t.set (d ++ [n]) content).isDirectory names = t.isDirectory names := by
  rw [Bool.eq_iff_iff]
  constructor
  · intro h
    rw [isDirectory_iff] at h
    rcases h with rfl | ⟨e, he, hcase⟩
    · exact isDirectory_iff.mpr (.inl rfl)
    rcases mem_entries_set.mp he with ⟨hmem, -⟩ | rfl
    · exact isDirectory_iff.mpr (.inr ⟨e, hmem, hcase⟩)
    -- the new file makes directories only of its own beginnings
    rcases hcase with ⟨-, hnode⟩ | ⟨hbegin, hlength⟩
    · cases hnode
    · rcases List.prefix_concat_iff.mp hbegin with rfl | hbegin
      · exact absurd hlength (Nat.lt_irrefl _)
      · exact isDirectory_of_isPrefix hd hbegin
  · intro h
    rw [isDirectory_iff] at h ⊢
    rcases h with rfl | ⟨e, he, hcase⟩
    · exact .inl rfl
    refine .inr ?_
    by_cases hplaced : e.1 = d ++ [n]
    · -- an entry that was replaced held no directory but those before it
      rcases hcase with ⟨rfl, hnode⟩ | hbelow
      · have hdirectory : t.isDirectory (d ++ [n]) = true :=
          isDirectory_iff.mpr (.inr ⟨e, he, .inl ⟨hplaced, hnode⟩⟩)
        rw [hplace] at hdirectory
        cases hdirectory
      · exact ⟨_, mem_entries_set.mpr (.inr rfl), .inr (hplaced ▸ hbelow)⟩
    · exact ⟨e, mem_entries_set.mpr (.inl ⟨he, hplaced⟩), hcase⟩

theorem follow?_set {n : String} (hd : t.isDirectory d = true)
    (hplace : t.isDirectory (d ++ [n]) = false) {start : List String} {ns : List String}
    (h : t.follow? start ns = some d) : (t.set (d ++ [n]) content).follow? start ns = some d := by
  induction ns generalizing start with
  | nil =>
    rw [follow?] at h ⊢
    split at h
    · obtain rfl := Option.some.inj h
      rw [if_pos (by simp [has, isDirectory_set hd hplace, hd])]
    · cases h
  | cons m ns ih =>
    rw [follow?] at h ⊢
    rw [isDirectory_set hd hplace]
    split at h
    · next hstart =>
      rw [if_pos hstart]
      exact ih h
    · cases h

end

/-! ## Writing and reading -/

section

variable {t t' : Tree} {working : List String} {text content : String}

/-- A name leads to the same place after a file is set there. -/
theorem target_set {g : Target} {bytes : List UInt8} (h : t.target working text = .ok g)
    (hwants : g.wantsDirectory = false) (hplace : t.isDirectory g.place = false) :
    (t.set g.place bytes).target working text = .ok g := by
  unfold target at h ⊢
  dsimp only at h ⊢
  split at h
  · cases h
  next hne =>
  rw [if_neg hne]
  split at h
  · obtain rfl := Except.ok.inj h
    cases hwants
  next n hn =>
  split at h
  · cases h
  next d hd =>
  split at h
  · next hdirectory =>
    obtain rfl := Except.ok.inj h
    -- a double dot leads to a directory
    have hdots : n ≠ ".." := by
      rintro rfl
      have hparent : t.isDirectory d.dropLast = true :=
        isDirectory_of_isPrefix hdirectory (List.dropLast_prefix d)
      exact absurd hparent (by simpa using hplace)
    have hdots : (n == "..") = false := by simpa using hdots
    simp only [hdots, Bool.false_eq_true, if_false] at hplace ⊢
    simp only [follow?_set hdirectory hplace hd, isDirectory_set hdirectory hplace, hdirectory,
      if_true]
  · cases h

/-- A written path names a place where a file can be put. -/
structure Takes (t : Tree) (working : List String) (text : String) (place : List String) : Prop where
  target : t.target working text = .ok ⟨place, false⟩
  free : t.isDirectory place = false

theorem takes_of_map {place : List String} (h : (t.target working text).map
    (fun g => (g.place, g.wantsDirectory)) = .ok (place, false)) (hfree : t.isDirectory place = false) :
    t.Takes working text place := by
  obtain ⟨⟨place', wants⟩, hg, hpair⟩ := map_eq_ok_iff.mp h
  obtain ⟨rfl, rfl⟩ := Prod.mk.inj hpair
  exact ⟨hg, hfree⟩

/-- Writing sets the file at the place that takes it, and fails if there is none. -/
theorem write_eq_ok_iff : t.write working text content = .ok t' ↔
    ∃ place, t.Takes working text place ∧ t' = t.set place (Text.encode content) := by
  constructor
  · intro h
    obtain ⟨g, hg, h⟩ := bind_eq_ok_iff.mp h
    obtain ⟨place, wants⟩ := g
    split at h
    · cases h
    next hplace =>
    split at h
    · cases h
    next hwants =>
    obtain rfl : wants = false := by simpa using hwants
    exact ⟨place, ⟨hg, by simpa using hplace⟩, (Except.ok.inj h).symm⟩
  · rintro ⟨place, h, rfl⟩
    simp [write, h.target, h.free]

/-- Writing fails just where no place takes the file, whatever is to be written. -/
theorem exists_write_eq_error_iff : (∃ e, t.write working text content = .error e) ↔
    ∀ place, ¬ t.Takes working text place := by
  constructor
  · rintro ⟨e, he⟩ place h
    rw [write_eq_ok_iff.mpr ⟨place, h, rfl⟩] at he
    cases he
  · intro h
    cases hwrite : t.write working text content with
    | error e => exact ⟨e, rfl⟩
    | ok t' =>
      obtain ⟨place, htakes, -⟩ := write_eq_ok_iff.mp hwrite
      exact absurd htakes (h place)

/-- **What was written is read.** -/
theorem read_of_write (h : t.write working text content = .ok t') :
    t'.read working text = .ok (Text.encode content) := by
  obtain ⟨place, htakes, rfl⟩ := write_eq_ok_iff.mp h
  simp [read, target_set htakes.target rfl htakes.free, file?_set_self]

end

end WebAudit.Files.Tree
