import Mathlib.Data.List.Lex
import Mathlib.Data.String.Basic
import WebAudit.Files.Tree

/-!
# Paths and their texts

Two facts about paths as lists of names. The order by which files are sorted is the lexicographic
one on names, so a sorted list is strictly ascending and has no path twice. And the relative text of a
file can be read back: as long as names are proper names, two files have two texts.
-/

namespace WebAudit

/-! ## Splitting -/

theorem Text.splitAt_eq_splitOn (separator : Char) (cs : List Char) :
    Text.splitAt separator cs = cs.splitOn separator := by
  induction cs with
  | nil => simp [Text.splitAt]
  | cons c cs ih =>
    rw [Text.splitAt, List.splitOn_cons_eq_if_modifyHead, ih]
    have hne := List.splitOn_ne_nil separator cs
    cases h : cs.splitOn separator with
    | nil => exact absurd h hne
    | cons p ps => rfl

namespace Files

/-! ## The order of paths -/

theorem namesLt_iff_lt : ∀ (a b : List String), namesLt a b = true ↔ a < b
  | a, [] => by simp [namesLt]
  | [], b :: bs => by simp [namesLt]
  | a :: as, b :: bs => by
    have ih := namesLt_iff_lt as bs
    simp only [namesLt, Bool.or_eq_true, Bool.and_eq_true, decide_eq_true_eq, beq_iff_eq, ih,
      List.cons_lt_cons_iff]

theorem mem_insertPath {p q : List String} :
    ∀ {ps : List (List String)}, q ∈ insertPath p ps ↔ q = p ∨ q ∈ ps
  | [] => by simp [insertPath]
  | r :: rs => by
    rw [insertPath]
    split
    · exact List.mem_cons
    · split
      · next h =>
        have hpr : p = r := by simpa using h
        simp [hpr]
      · rw [List.mem_cons, mem_insertPath, List.mem_cons]
        exact or_left_comm

theorem mem_sortPaths {p : List String} {ps : List (List String)} : p ∈ sortPaths ps ↔ p ∈ ps := by
  induction ps with
  | nil => rfl
  | cons q qs ih =>
    show p ∈ insertPath q (sortPaths qs) ↔ _
    rw [mem_insertPath, ih, List.mem_cons]

/-- Putting a path into a strictly ascending list keeps it strictly ascending. -/
theorem pairwise_insertPath {p : List String} :
    ∀ {ps : List (List String)}, ps.Pairwise (· < ·) → (insertPath p ps).Pairwise (· < ·)
  | [], _ => List.pairwise_singleton _ _
  | q :: qs, h => by
    obtain ⟨hq, hqs⟩ := List.pairwise_cons.mp h
    rw [insertPath]
    split
    · next hlt =>
      have hpq : p < q := (namesLt_iff_lt p q).mp hlt
      refine List.pairwise_cons.mpr ⟨fun r hr => ?_, h⟩
      rcases List.mem_cons.mp hr with rfl | hr
      · exact hpq
      · exact lt_trans hpq (hq r hr)
    · next hnlt =>
      split
      · exact h
      · next hne =>
        -- neither below nor equal, so the path belongs further back
        have hqp : q < p := by
          rcases lt_trichotomy p q with hpq | hpq | hpq
          · exact absurd ((namesLt_iff_lt p q).mpr hpq) hnlt
          · exact absurd (by simpa using hpq) hne
          · exact hpq
        refine List.pairwise_cons.mpr ⟨fun r hr => ?_, pairwise_insertPath hqs⟩
        rcases mem_insertPath.mp hr with rfl | hr
        · exact hqp
        · exact hq r hr

/-- **Sorted paths are strictly ascending.** -/
theorem pairwise_sortPaths (ps : List (List String)) : (sortPaths ps).Pairwise (· < ·) := by
  induction ps with
  | nil => exact List.Pairwise.nil
  | cons p ps ih => exact pairwise_insertPath ih

theorem nodup_sortPaths (ps : List (List String)) : (sortPaths ps).Nodup :=
  (pairwise_sortPaths ps).imp fun h => ne_of_lt h

/-! ## Relative texts -/

/-- What a file or directory can be called. -/
structure IsName (n : String) : Prop where
  ne_empty : n ≠ ""
  ne_dot : n ≠ "."
  ne_dots : n ≠ ".."
  no_slash : '/' ∉ n.toList

theorem isName_iff (n : String) :
    IsName n ↔ n ≠ "" ∧ n ≠ "." ∧ n ≠ ".." ∧ '/' ∉ n.toList :=
  ⟨fun h => ⟨h.ne_empty, h.ne_dot, h.ne_dots, h.no_slash⟩, fun ⟨h₁, h₂, h₃, h₄⟩ => ⟨h₁, h₂, h₃, h₄⟩⟩

instance (n : String) : Decidable (IsName n) :=
  decidable_of_iff _ (isName_iff n).symm

/-- The names of the relative path that leads from one directory to a file. -/
def relativeNames (base file : List String) : List String :=
  (withoutCommon base file).1.map (fun _ => "..") ++ (withoutCommon base file).2

/-- What is left of two lists is what comes after a common start. -/
theorem withoutCommon_eq : ∀ (as bs : List String),
    ∃ start, as = start ++ (withoutCommon as bs).1 ∧ bs = start ++ (withoutCommon as bs).2
  | [], bs => ⟨[], by simp [withoutCommon]⟩
  | a :: as, [] => ⟨[], by simp [withoutCommon]⟩
  | a :: as, b :: bs => by
    rw [withoutCommon]
    split
    · next h =>
      have hab : a = b := by simpa using h
      obtain ⟨start, has, hbs⟩ := withoutCommon_eq as bs
      refine ⟨a :: start, ?_, ?_⟩
      · rw [List.cons_append, ← has]
      · rw [List.cons_append, ← hbs, hab]
    · exact ⟨[], rfl, rfl⟩

theorem mem_of_mem_withoutCommon {base file : List String} {n : String}
    (h : n ∈ (withoutCommon base file).2) : n ∈ file := by
  obtain ⟨start, -, hfile⟩ := withoutCommon_eq base file
  rw [hfile]
  exact List.mem_append_right _ h

theorem relativeText_of_nil {base file : List String} (h : relativeNames base file = []) :
    relativeText base file = "." := by
  unfold relativeNames at h
  simp only [relativeText, h]

theorem relativeText_of_ne_nil {base file : List String} (h : relativeNames base file ≠ []) :
    relativeText base file = "/".intercalate (relativeNames base file) := by
  unfold relativeNames at h ⊢
  simp only [relativeText]

/-- A name in a relative path is a proper one or leads upward. -/
theorem relativeNames_forall {base file : List String} (hf : ∀ n ∈ file, IsName n) :
    ∀ n ∈ relativeNames base file, n ≠ "" ∧ n ≠ "." ∧ '/' ∉ n.toList := by
  intro n hn
  rcases List.mem_append.mp hn with hup | hdown
  · obtain ⟨_, -, rfl⟩ := List.mem_map.mp hup
    decide
  · have h := hf n (mem_of_mem_withoutCommon hdown)
    exact ⟨h.ne_empty, h.ne_dot, h.no_slash⟩

/-- Names without slashes are read back from their text. -/
theorem map_ofList_splitAt_intercalate {ns : List String} (hne : ns ≠ [])
    (h : ∀ n ∈ ns, '/' ∉ n.toList) :
    (Text.splitAt '/' ("/".intercalate ns).toList).map String.ofList = ns := by
  rw [Text.splitAt_eq_splitOn, String.toList_intercalate]
  show ((['/'].intercalate (ns.map String.toList)).splitOn '/').map String.ofList = ns
  rw [List.splitOn_intercalate '/' (by simpa using h) (by simpa using hne), List.map_map]
  simp [Function.comp_def]

/-- **Reading the relative text of a file gives the names of the relative path.** -/
theorem names_parse_relativeText {base file : List String} (hf : ∀ n ∈ file, IsName n) :
    (Path.parse (relativeText base file)).names = relativeNames base file := by
  by_cases hnil : relativeNames base file = []
  · rw [relativeText_of_nil hnil, hnil]
    decide
  · have hall : ∀ n ∈ relativeNames base file, _ := relativeNames_forall hf
    rw [relativeText_of_ne_nil hnil]
    show ((Text.splitAt '/' _).map String.ofList).filter _ = _
    rw [map_ofList_splitAt_intercalate hnil fun n hn => (hall n hn).2.2]
    refine List.filter_eq_self.mpr fun n hn => ?_
    simp [(hall n hn).1, (hall n hn).2.1]

/-- Steps upward and names that lead on can be told apart. -/
theorem upward_append_inj {down down' : List String} (hd : ".." ∉ down) (hd' : ".." ∉ down') :
    ∀ {up up' : List String},
      up.map (fun _ => "..") ++ down = up'.map (fun _ => "..") ++ down' →
      up.length = up'.length ∧ down = down'
  | [], [], h => ⟨rfl, h⟩
  | _ :: _, [], h => by
    exfalso
    refine hd' ?_
    rw [List.map_nil, List.nil_append] at h
    rw [← h]
    simp
  | [], _ :: _, h => by
    exfalso
    refine hd ?_
    rw [List.map_nil, List.nil_append] at h
    rw [h]
    simp
  | _ :: up, _ :: up', h => by
    simp only [List.map_cons, List.cons_append, List.cons.injEq, true_and] at h
    obtain ⟨hlen, hdown⟩ := upward_append_inj hd hd' h
    exact ⟨congrArg (· + 1) hlen, hdown⟩

/-- A file is known from its relative path. -/
theorem relativeNames_inj {base file file' : List String} (hf : ∀ n ∈ file, IsName n)
    (hf' : ∀ n ∈ file', IsName n) (h : relativeNames base file = relativeNames base file') :
    file = file' := by
  have hdots : ∀ {g : List String}, (∀ n ∈ g, IsName n) → ".." ∉ (withoutCommon base g).2 :=
    fun hg hm => (hg _ (mem_of_mem_withoutCommon hm)).ne_dots rfl
  obtain ⟨start, hbase, hfile⟩ := withoutCommon_eq base file
  obtain ⟨start', hbase', hfile'⟩ := withoutCommon_eq base file'
  obtain ⟨hup, hdown⟩ := upward_append_inj (hdots hf) (hdots hf') h
  -- equally long ends of the same directory leave equal starts
  have hstart : start = start' := (List.append_inj_left' (hbase.symm.trans hbase') hup)
  rw [hfile, hfile', hstart, hdown]

/-- **Two files have two relative texts.** -/
theorem relativeText_inj {base file file' : List String} (hf : ∀ n ∈ file, IsName n)
    (hf' : ∀ n ∈ file', IsName n) (h : relativeText base file = relativeText base file') :
    file = file' := by
  have hnames : relativeNames base file = relativeNames base file' := by
    rw [← names_parse_relativeText hf, ← names_parse_relativeText hf', h]
  exact relativeNames_inj hf hf' hnames

end Files

end WebAudit
