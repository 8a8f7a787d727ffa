import Mathlib.Data.List.Find
import WebAudit.Analysis
import WebAudit.Proofs.FoundFiles
import WebAudit.Proofs.LowerCase

/-!
# The dialect of a script

Two things are read off a path in two ways. Whether a file is a script is told by the suffix of its last
name, and which dialect it is written in by how its whole path ends. For a path that is written as it would
be written again, both come to the same: the path ends in the suffix (`Files.Path.suffix_parse_suffix`), so
does its lower case (`Text.lower_suffix_lower`), and of two texts with a dot in front and none behind it a
path ends in one at most (`IsExtension.suffix_iff`). The paths of files that a scan finds are written so
(`Scan.text_parse_of_mem_discover`).
-/

namespace WebAudit

namespace Files

/-! ## The end of a path -/

theorem suffix_suffix_name (name : String) : (suffix name).toList <:+ name.toList := by
  unfold suffix
  dsimp only
  split
  · exact List.nil_suffix
  · rw [String.toList_ofList]
    exact List.drop_suffix _ _

theorem getLastD_suffix_intercalate (names : List String) :
    (names.getLastD "").toList <:+ ("/".intercalate names).toList := by
  rcases List.eq_nil_or_concat' names with rfl | ⟨init, last, rfl⟩
  · exact List.nil_suffix
  · rw [List.getLastD_concat]
    by_cases hinit : init = []
    · simp only [hinit, List.nil_append, String.intercalate_singleton, List.suffix_refl]
    · rw [String.intercalate_append_of_ne_nil hinit (List.cons_ne_nil _ _),
        String.intercalate_singleton, String.toList_append]
      exact List.suffix_append _ _

namespace Path

theorem fileName_suffix_text (p : Path) : p.fileName.toList <:+ p.text.toList := by
  unfold text fileName
  split
  next h =>
    have hnames : p.names = [] := by simpa using (Bool.and_eq_true_iff.mp h).2
    rw [hnames]
    exact List.nil_suffix
  next =>
    rw [String.toList_append]
    exact (getLastD_suffix_intercalate p.names).trans (List.suffix_append _ _)

/-- **A path in normal form ends in its suffix.** -/
theorem suffix_parse_suffix {path : String} (h : (parse path).text = path) :
    (parse path).suffix.toList <:+ path.toList := by
  have hname : (parse path).fileName.toList <:+ (parse path).text.toList := fileName_suffix_text _
  rw [h] at hname
  exact (suffix_suffix_name _).trans hname

end Path

/-! ## Paths in normal form -/

theorem root_parse_absoluteText_of_isName {names : List String} (h : ∀ n ∈ names, IsName n) :
    (Path.parse (absoluteText names)).root = "/" := by
  cases names with
  | nil => rfl
  | cons n rest =>
    have hn : IsName n := h n List.mem_cons_self
    obtain ⟨c, cs, hcs⟩ : ∃ c cs, n.toList = c :: cs :=
      List.exists_cons_of_ne_nil (mt String.toList_eq_nil_iff.mp hn.ne_empty)
    have hc : c ≠ '/' := by
      rintro rfl
      exact hn.no_slash (hcs ▸ List.mem_cons_self)
    -- one slash, and a first name that does not start with another
    obtain ⟨more, hmore⟩ : ∃ more, (absoluteText (n :: rest)).toList = '/' :: c :: more := by
      rw [toList_absoluteText, String.toList_intercalate, List.map_cons, hcs]
      cases rest with
      | nil => exact ⟨_, rfl⟩
      | cons m rest => exact ⟨_, rfl⟩
    simp only [Path.parse, hmore]
    split
    next heq => exact absurd (List.cons.inj (List.cons.inj heq).2).1 hc
    next heq => exact absurd (List.cons.inj (List.cons.inj heq).2).1 hc
    next => rfl
    next hnone => exact absurd rfl (hnone _)

/-- The text of an absolute path is written as it is. -/
theorem text_parse_absoluteText {names : List String} (h : ∀ n ∈ names, IsName n) :
    (Path.parse (absoluteText names)).text = absoluteText names := by
  rw [Path.text, names_parse_absoluteText h, root_parse_absoluteText_of_isName h]
  rfl

end Files

theorem Scan.text_parse_of_mem_discover {files : Files.Tree} (hp : files.Proper) {working : List String}
    {f : Filter} {paths names : List String} (h : names ∈ (discover files working f paths).value) :
    (Files.Path.parse (Files.absoluteText names)).text = Files.absoluteText names := by
  obtain ⟨path, -, hfound⟩ := (mem_discover_iff hp).mp h
  have hfile : files.isFile names = true := hfound.isFile
  have hhas : files.has names = true := by rw [Files.Tree.has, hfile, Bool.true_or]
  exact Files.text_parse_absoluteText (hp.isName_of_has hhas)

/-! ## Extensions -/

/-- A text with a dot in front and no other dot. -/
def IsExtension (cs : List Char) : Prop :=
  cs.head? = some '.' ∧ '.' ∉ cs.tail

instance (cs : List Char) : Decidable (IsExtension cs) :=
  inferInstanceAs (Decidable (_ ∧ _))

namespace IsExtension

variable {s t cs : List Char}

theorem eq_of_suffix (hs : IsExtension s) (ht : IsExtension t) (h : s <:+ t) : s = t := by
  cases t with
  | nil => cases ht.1
  | cons c rest =>
    rcases List.suffix_cons_iff.mp h with heq | hbehind
    · exact heq
    · -- the dot in front of `s` would stand behind the one in front of `t`
      exact absurd (hbehind.subset (List.mem_of_mem_head? hs.1)) ht.2

/-- **A text ends in one extension at most.** -/
theorem suffix_iff (hs : IsExtension s) (ht : IsExtension t) (h : s <:+ cs) : t <:+ cs ↔ t = s := by
  constructor
  · intro h'
    rcases List.suffix_or_suffix_of_suffix h' h with hts | hst
    · exact ht.eq_of_suffix hs hts
    · exact (hs.eq_of_suffix ht hst).symm
  · rintro rfl
    exact h

end IsExtension

theorem isExtension_of_mem_dialectSuffixes : ∀ e ∈ dialectSuffixes, IsExtension e.1.toList := by
  decide

theorem isExtension_of_mem_suffixes (type : ContentType) : ∀ s ∈ type.suffixes, IsExtension s.toList := by
  cases type <;> decide

/-- The suffixes of scripts are ASCII without `k`. -/
theorem ascii_of_mem_suffixes {s : String} (hs : s ∈ ContentType.script.suffixes) :
    ∀ d ∈ s.toList, d.toNat < 0x80 ∧ d ≠ 'k' := by
  have hall : ∀ s ∈ ContentType.script.suffixes,
      s.toList.all (fun d => d.toNat < 0x80 && d != 'k') = true := by decide
  intro d hd
  simpa using List.all_eq_true.mp (hall s hs) d hd

/-! ## Dialects -/

/-- The dialect of a script by its suffix in lower case. -/
def dialectOfSuffix (s : String) : Script.Dialect :=
  ((dialectSuffixes.find? (·.1 == s)).map (·.2)).getD .javascript

theorem dialectOfSuffix_of_mem : ∀ s ∈ ContentType.script.suffixes,
    (dialectOfSuffix s = .typescript ↔ s ∈ [".ts", ".mts", ".cts"])
      ∧ (dialectOfSuffix s = .tsx ↔ s = ".tsx")
      ∧ (dialectOfSuffix s = .javascript ↔ s ∉ [".ts", ".mts", ".cts", ".tsx"]) := by
  decide

theorem mem_suffixes_of_ofSuffix? {s : String} {type : ContentType}
    (h : ContentType.ofSuffix? s = some type) : s ∈ type.suffixes := by
  simpa using List.find?_some h

/-- A path that ends in an extension has the dialect of it. -/
theorem dialectOfPath_of_suffix {path s : String} (hs : IsExtension s.toList)
    (h : s.toList <:+ (Text.lower path).toList) : dialectOfPath path = dialectOfSuffix s := by
  have hfind : dialectSuffixes.find? (fun e => e.1.toList.isSuffixOf (Text.lower path).toList)
      = dialectSuffixes.find? (·.1 == s) := by
    refine List.find?_congr fun e he => ?_
    rw [Bool.eq_iff_iff, List.isSuffixOf_iff_suffix, beq_iff_eq, ← String.toList_inj]
    exact hs.suffix_iff (isExtension_of_mem_dialectSuffixes e he) h
  unfold dialectOfPath dialectOfSuffix
  dsimp only
  rw [hfind]
  cases dialectSuffixes.find? (·.1 == s) with
  | none => rfl
  | some e => rfl

/-- **A script is read in the dialect of its suffix.** The path is in normal form and the file is a script;
how the path ends then tells the dialect just as the suffix of the last name does, whatever the case of its
letters and however many dots and directories there are. -/
theorem dialect_of_script_path (path : String) (hnormal : (Files.Path.parse path).text = path)
    (hscript : ContentType.ofPath? path = some .script) :
    (dialectOfPath path = .typescript
      ↔ Text.lower (Files.Path.parse path).suffix ∈ [".ts", ".mts", ".cts"])
    ∧ (dialectOfPath path = .tsx ↔ Text.lower (Files.Path.parse path).suffix = ".tsx")
    ∧ (dialectOfPath path = .javascript
      ↔ Text.lower (Files.Path.parse path).suffix ∉ [".ts", ".mts", ".cts", ".tsx"]) := by
  have hmem : Text.lower (Files.Path.parse path).suffix ∈ ContentType.script.suffixes :=
    mem_suffixes_of_ofSuffix? hscript
  have hend : (Text.lower (Files.Path.parse path).suffix).toList <:+ (Text.lower path).toList :=
    Text.lower_suffix_lower (Files.Path.suffix_parse_suffix hnormal) (ascii_of_mem_suffixes hmem)
  rw [dialectOfPath_of_suffix (isExtension_of_mem_suffixes .script _ hmem) hend]
  exact dialectOfSuffix_of_mem _ hmem

/-- A file that a scan finds below a directory with a suffix of its own, with a sigma in front of the suffix,
and one whose name starts with a dot. -/
theorem dialect_of_script_path_found :
    let files : Files.Tree := ⟨[(["w.tsx", "ΑΣ.MTS"], .file []), (["w.tsx", ".ts.d.Js"], .file [])]⟩
    let found := (Scan.discover files ["w.tsx"] {} ["."]).value
    found = [["w.tsx", ".ts.d.Js"], ["w.tsx", "ΑΣ.MTS"]]
      ∧ dialectOfPath "/w.tsx/ΑΣ.MTS" = .typescript
      ∧ dialectOfPath "/w.tsx/.ts.d.Js" = .javascript := by
  intro files found
  have hp : files.Proper := by decide +kernel
  have hfound : found = [["w.tsx", ".ts.d.Js"], ["w.tsx", "ΑΣ.MTS"]] := by decide +kernel
  have hnormal (names : List String) (h : names ∈ found) := Scan.text_parse_of_mem_discover hp h
  obtain ⟨htyped, -, -⟩ := dialect_of_script_path "/w.tsx/ΑΣ.MTS"
    (hnormal ["w.tsx", "ΑΣ.MTS"] (by simp [hfound])) (by decide +kernel)
  obtain ⟨-, -, hplain⟩ := dialect_of_script_path "/w.tsx/.ts.d.Js"
    (hnormal ["w.tsx", ".ts.d.Js"] (by simp [hfound])) (by decide +kernel)
  exact ⟨hfound, htyped.mpr (by decide +kernel), hplain.mpr (by decide +kernel)⟩

/-- A path with a slash at its end is not in normal form, and a name that is all suffix has none. -/
example : dialectOfPath "a.ts/" = .javascript ∧ (Files.Path.parse "a.ts/").suffix = ".ts"
    ∧ dialectOfPath ".ts" = .typescript ∧ (Files.Path.parse ".ts").suffix = "" := by
  decide +kernel

end WebAudit
