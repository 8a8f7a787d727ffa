import WebAudit.Proofs.Paths
import WebAudit.Scan.Discover

/-!
# Files that are found

What a search through a tree can find: entries of the tree that are files, in strictly ascending
order. In a proper tree each of them can be read.
-/

namespace WebAudit

namespace Files.Tree

/-- A tree as a file system has it: names are proper names, and no two entries stand at one
place. -/
structure Proper (t : Tree) : Prop where
  names : ∀ e ∈ t.entries, ∀ n ∈ e.1, IsName n
  distinct : (t.entries.map Prod.fst).Nodup

instance (t : Tree) : Decidable t.Proper :=
  decidable_of_iff ((∀ e ∈ t.entries, ∀ n ∈ e.1, IsName n) ∧ (t.entries.map Prod.fst).Nodup)
    ⟨fun h => ⟨h.1, h.2⟩, fun h => ⟨h.names, h.distinct⟩⟩

variable {t : Tree} {names : List String} {content : List UInt8}

theorem mem_entries_of_lookup {node : Node} (h : t.entries.lookup names = some node) :
    (names, node) ∈ t.entries := by
  obtain ⟨before, after, hsplit, -⟩ := List.lookup_eq_some_iff.mp h
  rw [hsplit]
  simp

theorem mem_entries_of_file? (h : t.file? names = some content) :
    (names, Node.file content) ∈ t.entries := by
  unfold file? at h
  split at h
  · next hl =>
    cases h
    exact mem_entries_of_lookup hl
  · cases h

/-- With no place taken twice, an entry is what is found at its place. -/
theorem Proper.lookup_eq (hp : t.Proper) {node : Node} (h : (names, node) ∈ t.entries) :
    t.entries.lookup names = some node := by
  obtain ⟨before, after, hsplit⟩ := List.append_of_mem h
  refine List.lookup_eq_some_iff.mpr ⟨before, after, hsplit, fun e he => ?_⟩
  have hd := hp.distinct
  rw [hsplit, List.map_append, List.map_cons] at hd
  have hne : e.1 ≠ names := fun heq =>
    (List.nodup_append.mp hd).2.2 e.1 (List.mem_map_of_mem he) names (by simp) heq
  simpa using hne.symm

theorem Proper.file?_eq (hp : t.Proper) (h : (names, Node.file content) ∈ t.entries) :
    t.file? names = some content := by
  simp only [file?, hp.lookup_eq h]

/-- What stands below a directory is an entry behind the names of the directory. -/
theorem mem_filesBelow_iff {directory rest : List String} :
    rest ∈ t.filesBelow directory
      ↔ rest ≠ [] ∧ ∃ content, (directory ++ rest, Node.file content) ∈ t.entries := by
  constructor
  · intro h
    obtain ⟨⟨place, node⟩, he, hrest⟩ := List.mem_filterMap.mp h
    cases node with
    | directory => cases hrest
    | file content =>
      simp only at hrest
      split at hrest
      · next hbelow =>
        cases hrest
        obtain ⟨hstart, hlength⟩ := Bool.and_eq_true_iff.mp hbelow
        obtain ⟨tail, rfl⟩ := List.isPrefixOf_iff_prefix.mp hstart
        rw [List.drop_left]
        refine ⟨?_, content, he⟩
        rintro rfl
        simp at hlength
      · cases hrest
  · rintro ⟨hne, content, he⟩
    refine List.mem_filterMap.mpr ⟨_, he, ?_⟩
    have hlength : 0 < rest.length := List.length_pos_iff.mpr hne
    simp [hlength]

end Files.Tree

namespace Scan

open Files (IsName Node Tree)

variable {files : Tree} {working : List String} {f : Filter} {names : List String}

theorem mem_entries_of_filesAt? {path : String} {found : List (List String)}
    (h : filesAt? files working f path = some found) (hn : names ∈ found) :
    ∃ content, (names, Node.file content) ∈ files.entries := by
  unfold filesAt? at h
  dsimp only at h
  split at h
  · cases h
  · split at h
    · next hfile =>
      cases h
      obtain rfl := List.mem_singleton.mp hn
      obtain ⟨content, hc⟩ := Option.isSome_iff_exists.mp hfile
      exact ⟨content, Files.Tree.mem_entries_of_file? hc⟩
    · cases h
      obtain ⟨rest, hrest, rfl⟩ := List.mem_map.mp hn
      exact (Files.Tree.mem_filesBelow_iff.mp (List.mem_of_mem_filter hrest)).2

/-- Whatever is found is a file of the tree. -/
theorem mem_entries_of_discover {paths : List String}
    (h : names ∈ (discover files working f paths).value) :
    ∃ content, (names, Node.file content) ∈ files.entries := by
  obtain ⟨r, hr, hn⟩ := List.mem_flatMap.mp (Files.mem_sortPaths.mp h)
  obtain ⟨path, -, rfl⟩ := List.mem_map.mp hr
  cases hat : filesAt? files working f path with
  | none =>
    rw [hat] at hn
    cases hn
  | some found =>
    rw [hat] at hn
    exact mem_entries_of_filesAt? hat hn

theorem isName_of_discover (hp : files.Proper) {paths : List String}
    (h : names ∈ (discover files working f paths).value) : ∀ n ∈ names, IsName n := by
  obtain ⟨content, hc⟩ := mem_entries_of_discover h
  exact hp.names _ hc

/-- In a proper tree whatever is found can be read. -/
theorem text?_of_discover (hp : files.Proper) {paths : List String}
    (h : names ∈ (discover files working f paths).value) :
    ∃ text, files.text? names = some text := by
  obtain ⟨content, hc⟩ := mem_entries_of_discover h
  unfold Files.Tree.text?
  rw [hp.file?_eq hc]
  exact ⟨_, rfl⟩

/-- Nothing is found twice. -/
theorem nodup_discover (paths : List String) : (discover files working f paths).value.Nodup :=
  Files.nodup_sortPaths _

end Scan

end WebAudit
