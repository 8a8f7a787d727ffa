import Mathlib.Data.List.TakeWhile
import WebAudit.Command.Run
import WebAudit.Proofs.FoundFiles
import WebAudit.Proofs.JsonReadBack
import WebAudit.Proofs.Outcome
import WebAudit.Service.Handle

/-!
# Filters from the command line and in requests

The suffixes to look for and the names to leave out come as lists with commas to the command line and
as lists of texts to the service. Both are read to the same lists. What is done with a list of suffixes
without any item is not the same: the command line looks for no suffix at all, the service for the
usual ones.

* `run_scan_filters`, `run_upgrade_filters`: the settings that words with both lists are read to;
* `handle_scan_filters`, `handle_upgrade_filters`: the request that a body with both lists is read to;
* `commaList_eq_nil_iff`: the texts that have no item;
* `same_files_unless_list_is_empty`: when both find the same files.
-/

namespace WebAudit

/-! ## Flags with values -/

namespace Command

/-- The words that give a value to a flag: one word with an equals sign, or two, of which the second
is no flag. -/
inductive Gives (flag value : String) : List String → Prop where
  | attached : Gives flag value [flag ++ "=" ++ value]
  | apart (h : value.toList.head? ≠ some '-') : Gives flag value [flag, value]

/-- A name is long and has no equals sign in it, and no name of a flag has one. -/
structure Named {σ : Type} (flags : List (Flag σ)) (name : String) : Prop where
  dashes : ∃ c r, name.toList = '-' :: '-' :: c :: r
  plain : '=' ∉ name.toList
  others : ∀ n ∈ (named flags).map Prod.fst, '=' ∉ n.toList

variable {σ : Type} {flags : List (Flag σ)} {name value : String} {f : Flag σ}

/-- A long name is neither a dash nor two. -/
theorem ne_of_dashes {c : Char} {r : List Char} (h : name.toList = '-' :: '-' :: c :: r) :
    name ≠ "-" ∧ name ≠ "--" := by
  constructor <;> (rintro rfl; cases h)

theorem ne_of_head? (h : value.toList.head? ≠ some '-') : value ≠ "--" := by
  rintro rfl
  exact h rfl

theorem Named.exists_attached (h : Named flags name) (value : String) :
    ∃ c r, (name ++ "=" ++ value).toList = '-' :: '-' :: c :: r := by
  obtain ⟨c, r, hr⟩ := h.dashes
  exact ⟨c, r ++ '=' :: value.toList, by simp [hr]⟩

theorem ne_equals_of_mem (h : '=' ∉ name.toList) : ∀ c ∈ name.toList, (c != '=') = true := by
  intro c hc
  rw [bne_iff_ne]
  rintro rfl
  exact h hc

theorem cutValue_append (h : '=' ∉ name.toList) (cs : List Char) :
    cutValue (name.toList ++ '=' :: cs) = (name.toList, some ⟨cs, true⟩) := by
  have hne := ne_equals_of_mem h
  rw [cutValue, List.dropWhile_append_of_pos hne, List.takeWhile_append_of_pos hne]
  simp

/-- What has an equals sign in it is no name. -/
theorem find?_of_equals (h : ∀ n ∈ (named flags).map Prod.fst, '=' ∉ n.toList)
    (hname : '=' ∈ name.toList) : find? flags name = none := by
  rw [find?, List.lookup_eq_none_iff]
  intro e he
  rw [bne_iff_ne]
  rintro rfl
  exact h _ (List.mem_map_of_mem he) hname

theorem wordOf_attached (h : Named flags name) (hf : find? flags name = some f) :
    wordOf flags (name ++ "=" ++ value) = .ok (.flag f name (some ⟨value.toList, true⟩)) := by
  obtain ⟨c, r, hr⟩ := h.exists_attached value
  have htext : (name ++ "=" ++ value).toList = name.toList ++ '=' :: value.toList := by simp
  have hhead : (name ++ "=" ++ value).toList.head? = some '-' := by rw [hr, List.head?_cons]
  have hnone : find? flags (name ++ "=" ++ value) = none :=
    find?_of_equals h.others (by simp [htext])
  have hdash : (name ++ "=" ++ value == "-") = false := beq_eq_false_iff_ne.mpr (ne_of_dashes hr).1
  unfold wordOf
  simp only [hhead, hdash, hnone]
  rw [htext, cutValue_append h.plain]
  simp [hf]

theorem wordOf_bare (h : Named flags name) (hf : find? flags name = some f) :
    wordOf flags name = .ok (.flag f name none) := by
  obtain ⟨c, r, hr⟩ := h.dashes
  have hdash : (name == "-") = false := beq_eq_false_iff_ne.mpr (ne_of_dashes hr).1
  unfold wordOf
  simp [hr, hdash, hf]

theorem wordOf_plain (h : value.toList.head? ≠ some '-') : wordOf flags value = .ok (.plain value) := by
  unfold wordOf
  simp [h]

theorem wordsOf_cons {w : Word σ} {s : String} {ss : List String} {ws : List (Word σ)}
    (hs : s ≠ "--") (hw : wordOf flags s = .ok w) (hws : wordsOf flags ss = .ok ws) :
    wordsOf flags (s :: ss) = .ok (w :: ws) := by
  rw [wordsOf, if_neg (by simpa using hs), hw, hws]
  rfl

/-- Two dashes make all words after them plain. -/
theorem wordsOf_dashes (paths : List String) :
    wordsOf flags ("--" :: paths) = .ok (.dashes :: paths.map .plain) := rfl

/-! ## Reading -/

namespace Grammar

variable {g : Grammar σ} {settings : σ} {set : String → σ → σ} {names : List String}

theorem readWords_attached (given : Bool) (a : Attached) (rest : List (Word σ)) :
    g.readWords given settings (.flag (textFlag names set) name (some a) :: rest)
      = g.readWords given (set (String.ofList a.text) settings) rest := by
  have hunfold : unfold g.flags (textFlag names set) name (some a)
      = .ok ⟨[], .value (textFlag names set) (String.ofList a.text)⟩ := by
    cases htext : a.text with
    | nil => simp [unfold, unfoldAttached, htext, Flag.takesValue, textFlag]
    | cons c r => simp [unfold, unfoldAttached, htext, Flag.takesValue, textFlag]
  rw [readWords, hunfold]
  rfl

theorem readWords_apart (given : Bool) (rest : List (Word σ)) :
    g.readWords given settings (.flag (textFlag names set) name none :: .plain value :: rest)
      = g.readWords given (set value settings) rest := by
  rw [readWords]
  rfl

/-- Paths after two dashes are given to the command as they are. -/
theorem readWords_paths {take : List String → σ → σ} (hplain : g.plain = some take)
    (paths : List String) :
    g.readWords false settings (.dashes :: paths.map .plain)
      = .ok ⟨take paths settings, []⟩ := by
  have hall : ∀ w ∈ paths.map (Word.plain : String → Word σ), w.isPlain = true := by
    intro w hw
    obtain ⟨p, -, rfl⟩ := List.mem_map.mp hw
    rfl
  have htexts : plainTexts (.dashes :: paths.map (Word.plain : String → Word σ)) = paths := by
    simp [plainTexts, Word.text, Function.comp_def]
  rw [readWords.eq_def]
  simp only [hplain, List.takeWhile_eq_self_iff.mpr hall, List.dropWhile_eq_nil_iff.mpr hall, htexts]
  rw [readWords]

/-- Words that give a value to a flag change the settings by it. -/
theorem exists_reading {ws : List String} (hws : Gives name value ws) (hn : Named g.flags name)
    (hf : find? g.flags name = some (textFlag names set)) :
    ∃ read : List (Word σ),
      (∀ ss rest, wordsOf g.flags ss = .ok rest → wordsOf g.flags (ws ++ ss) = .ok (read ++ rest))
        ∧ ∀ given settings rest,
          g.readWords given settings (read ++ rest) = g.readWords given (set value settings) rest := by
  cases hws with
  | attached =>
    obtain ⟨c, r, hr⟩ := hn.exists_attached value
    refine ⟨[.flag (textFlag names set) name (some ⟨value.toList, true⟩)], ?_, ?_⟩
    · intro ss rest hss
      exact wordsOf_cons (ne_of_dashes hr).2 (wordOf_attached hn hf) hss
    · intro given settings rest
      rw [List.singleton_append, readWords_attached, String.ofList_toList]
  | apart hvalue =>
    obtain ⟨c, r, hr⟩ := hn.dashes
    refine ⟨[.flag (textFlag names set) name none, .plain value], ?_, ?_⟩
    · intro ss rest hss
      have hrest := wordsOf_cons (ne_of_head? hvalue) (wordOf_plain hvalue) hss
      exact wordsOf_cons (ne_of_dashes hr).2 (wordOf_bare hn hf) hrest
    · intro given settings rest
      exact readWords_apart given rest

end Grammar

/-! ## Filters from the command line -/

/-- The flag for the suffixes of files that are taken. -/
def includeFlag (on : (FileSettings → FileSettings) → σ → σ) : Flag σ :=
  textFlag ["--include"] fun v => on fun s => { s with extensions := commaList v }

/-- The flag for the directories that are left out. -/
def excludeFlag (on : (FileSettings → FileSettings) → σ → σ) : Flag σ :=
  textFlag ["--exclude"] fun v => on fun s => { s with excluded := commaList v }

/-- A command takes both filters, and paths as plain words. -/
structure Grammar.Filtered (g : Grammar σ) (on : (FileSettings → FileSettings) → σ → σ) : Prop where
  plain : g.plain = some (takePaths on)
  includes : find? g.flags "--include" = some (includeFlag on)
  excludes : find? g.flags "--exclude" = some (excludeFlag on)
  others : ∀ n ∈ (named g.flags).map Prod.fst, '=' ∉ n.toList

theorem filtered_scanGrammar : scanGrammar.Filtered ScanSettings.onFiles :=
  ⟨rfl, rfl, rfl, by decide⟩

theorem filtered_upgradeGrammar : upgradeGrammar.Filtered UpgradeSettings.onFiles :=
  ⟨rfl, rfl, rfl, by decide⟩

section

variable {s x : String} {ws vs : List String} (hws : Gives "--include" s ws)
  (hvs : Gives "--exclude" x vs)

include hws hvs

theorem Grammar.Filtered.read {g : Grammar σ} {on : (FileSettings → FileSettings) → σ → σ}
    (hg : g.Filtered on) (settings : σ) (paths : List String) :
    g.read settings (ws ++ (vs ++ "--" :: paths))
      = .ok ⟨takePaths on paths (on (fun o => { o with excluded := commaList x })
          (on (fun o => { o with extensions := commaList s }) settings)), []⟩ := by
  obtain ⟨first, hinclude, hextensions⟩ :=
    g.exists_reading hws ⟨⟨_, _, rfl⟩, by decide, hg.others⟩ hg.includes
  obtain ⟨second, hexclude, hexcluded⟩ :=
    g.exists_reading hvs ⟨⟨_, _, rfl⟩, by decide, hg.others⟩ hg.excludes
  have hwords := hinclude _ _ (hexclude _ _ (wordsOf_dashes paths))
  rw [Grammar.read, hwords]
  simp only [hextensions, hexcluded]
  exact Grammar.readWords_paths hg.plain paths

end

/-! ## The program's own flags -/

/-- What can be no flag is a word all the same. -/
theorem exists_wordOf (flags : List (Flag σ)) (word : String)
    (h : candidates flags word.toList = []) : ∃ w, wordOf flags word = .ok w := by
  simp only [wordOf, h]
  repeat' split
  all_goals exact ⟨_, rfl⟩

theorem candidates_eq_nil {cs : List Char} (hcs : ∃ r, cs = '-' :: '-' :: r)
    (h : ∀ n ∈ (named flags).map Prod.fst, (cutValue cs).1.isPrefixOf n.toList = false) :
    candidates flags cs = [] := by
  obtain ⟨r, rfl⟩ := hcs
  simp only [candidates, List.filterMap_eq_nil_iff]
  intro e he
  rw [if_neg (by simp [h _ (List.mem_map_of_mem he)])]

/-- Words for a flag that the program does not have are words to it. -/
theorem Gives.exists_wordsOf {ws : List String} (hws : Gives name value ws) (hn : Named flags name)
    (h : ∀ n ∈ (named flags).map Prod.fst, name.toList.isPrefixOf n.toList = false) {ss : List String}
    (hss : ∃ rest, wordsOf flags ss = .ok rest) : ∃ rest, wordsOf flags (ws ++ ss) = .ok rest := by
  obtain ⟨rest, hrest⟩ := hss
  cases hws with
  | attached =>
    obtain ⟨c, r, hr⟩ := hn.exists_attached value
    have htext : (name ++ "=" ++ value).toList = name.toList ++ '=' :: value.toList := by simp
    have hcut : (cutValue (name ++ "=" ++ value).toList).1 = name.toList := by
      rw [htext, cutValue_append hn.plain]
    obtain ⟨w, hw⟩ := exists_wordOf flags _ (candidates_eq_nil ⟨_, hr⟩ (by rwa [hcut]))
    exact ⟨_, wordsOf_cons (ne_of_dashes hr).2 hw hrest⟩
  | apart hvalue =>
    obtain ⟨c, r, hr⟩ := hn.dashes
    have hcut : (cutValue name.toList).1 = name.toList := by
      rw [cutValue, List.dropWhile_eq_nil_iff.mpr (ne_equals_of_mem hn.plain)]
    obtain ⟨w, hw⟩ := exists_wordOf flags name (candidates_eq_nil ⟨_, hr⟩ (by rwa [hcut]))
    have hvalues := wordsOf_cons (ne_of_head? hvalue) (wordOf_plain hvalue) hrest
    exact ⟨_, wordsOf_cons (ne_of_dashes hr).2 hw hvalues⟩

section

variable {s x : String} {ws vs : List String} (hws : Gives "--include" s ws)
  (hvs : Gives "--exclude" x vs)

include hws hvs

/-- A command's name before the filters calls the command with the words after it. -/
theorem callOf_filters (command : String) (hcommand : command.toList.head? ≠ some '-')
    (paths : List String) :
    callOf programGrammar () (command :: (ws ++ (vs ++ "--" :: paths)))
      = .ok ⟨command, [], ws ++ (vs ++ "--" :: paths)⟩ := by
  have hothers : ∀ n ∈ (named programGrammar.flags).map Prod.fst, '=' ∉ n.toList := by decide
  obtain ⟨rest, hrest⟩ := hws.exists_wordsOf ⟨⟨_, _, rfl⟩, by decide, hothers⟩ (by decide)
    (hvs.exists_wordsOf ⟨⟨_, _, rfl⟩, by decide, hothers⟩ (by decide) ⟨_, wordsOf_dashes paths⟩)
  rw [callOf, wordsOf_cons (ne_of_head? hcommand) (wordOf_plain hcommand) hrest]
  rfl

/-- A command that takes the filters is read with them. -/
theorem parse_filters {g : Grammar σ} {on : (FileSettings → FileSettings) → σ → σ}
    (hg : g.Filtered on) {settings : σ} {make : σ → Task} (command : String)
    (hcommand : command.toList.head? ≠ some '-')
    (hlookup : commands.lookup command = some (readInto g settings make)) (paths : List String) :
    parse (command :: (ws ++ (vs ++ "--" :: paths)))
      = .ok (make (takePaths on paths (on (fun o => { o with excluded := commaList x })
          (on (fun o => { o with extensions := commaList s }) settings)))) := by
  rw [parse, callOf_filters hws hvs command hcommand, ok_bind]
  simp only [hlookup, readInto, hg.read hws hvs, ok_bind, pure_eq_ok, List.append_nil]

/-- The settings of a command line with both filters. -/
theorem run_scan_filters (session : Session) {paths : List String} (hpaths : paths ≠ []) :
    run session ("scan" :: (ws ++ (vs ++ "--" :: paths)))
      = runScan session
        { files := { paths := paths, extensions := commaList s, excluded := commaList x } } := by
  rw [run, parse_filters hws hvs filtered_scanGrammar "scan" (by decide) rfl]
  simp [runTask, takePaths, ScanSettings.onFiles, hpaths]

theorem run_upgrade_filters (session : Session) {paths : List String} (hpaths : paths ≠ []) :
    run session ("upgrade" :: (ws ++ (vs ++ "--" :: paths)))
      = runUpgrade session
        { files := { paths := paths, extensions := commaList s, excluded := commaList x } } := by
  rw [run, parse_filters hws hvs filtered_upgradeGrammar "upgrade" (by decide) rfl]
  simp [runTask, takePaths, UpgradeSettings.onFiles, hpaths]

end

end Command

/-! ## Filters in requests -/

namespace Service

/-- Texts as a list in a body. -/
def textsJson (ss : List String) : Json :=
  .arr (ss.map .str)

/-- The body that asks for paths with both filters. -/
def filterBody (paths extensions excluded : List String) : Json.Fields :=
  [("paths", textsJson paths), ("include", textsJson extensions), ("exclude", textsJson excluded)]

/-- The request with a body. -/
def post (path : String) (body : Json.Fields) : Request :=
  { method := "POST", path := path, body := (Json.obj body).compact }

theorem textsFrom_map_str (place : List Json) (i : Nat) (ss : List String) :
    textsFrom place i (ss.map .str) = .ok ss := by
  induction ss generalizing i with
  | nil => rfl
  | cons s ss ih =>
    rw [List.map_cons, textsFrom, ih]
    rfl

theorem texts_textsJson (place : List Json) (ss : List String) :
    texts place (textsJson ss) = .ok ss :=
  textsFrom_map_str place 0 ss

theorem wellFormed_textsJson (ss : List String) : Json.WellFormed (textsJson ss) := by
  refine .arr fun v hv => ?_
  obtain ⟨s, -, rfl⟩ := List.mem_map.mp hv
  exact .str s

theorem not_hasFloat_textsJson {y : Double} (ss : List String) : ¬ Json.HasFloat y (textsJson ss) := by
  intro h
  cases h with
  | item hv hy =>
    obtain ⟨s, -, rfl⟩ := List.mem_map.mp hv
    cases hy

/-- The fields of a body are read back from its text. -/
theorem fieldsOf_compact {fs : Json.Fields} (hfs : Json.WellFormed (.obj fs))
    (hfloat : ∀ y, Json.HasFloat y (.obj fs) → Json.Survives y) :
    fieldsOf (Json.obj fs).compact = .ok fs := by
  have htext : (Json.obj fs).compact.toList = '\x7b' :: Json.compactFields fs ++ ['\x7d'] := by
    rw [Json.compact, String.toList_ofList, Json.compactList]
  have hne : ((Json.obj fs).compact == "") = false := by
    rw [beq_eq_false_iff_ne, ne_eq, ← String.toList_inj, htext]
    simp
  have hparse := Json.parse_compact hfs hfloat
  rw [Json.parse, Json.parseList, htext] at hparse
  have hmark : (('\x7b' :: Json.compactFields fs ++ ['\x7d']).head? == some '\ufeff') = false := rfl
  rw [hmark, if_neg (by simp)] at hparse
  have hbody : withoutMark ('\x7b' :: Json.compactFields fs ++ ['\x7d'])
      = '\x7b' :: Json.compactFields fs ++ ['\x7d'] := rfl
  rw [fieldsOf, hne, htext, hbody, hparse]
  rfl

theorem fieldsOf_filterBody (paths extensions excluded : List String) :
    fieldsOf (Json.obj (filterBody paths extensions excluded)).compact
      = .ok (filterBody paths extensions excluded) := by
  refine fieldsOf_compact (.obj (by simp [filterBody]) ?_) ?_
  · intro f hf
    obtain rfl | rfl | rfl : f = _ ∨ f = _ ∨ f = _ := by simpa [filterBody] using hf
    all_goals exact wellFormed_textsJson _
  · intro y hy
    obtain ⟨f, hf, hy⟩ := Json.hasFloat_obj_iff.mp hy
    obtain rfl | rfl | rfl : f = _ ∨ f = _ ∨ f = _ := by simpa [filterBody] using hf
    all_goals exact absurd hy (not_hasFloat_textsJson _)

/-- A list that may be null is read as a list. -/
theorem nullable_textsJson (place : List Json) (ss : List String) :
    nullable texts place (textsJson ss) = .ok (some ss) := by
  show (texts place (textsJson ss)).map some = _
  rw [texts_textsJson]
  rfl

section

variable (session : Session) (paths extensions excluded : List String)

theorem paths_filterBody :
    required (filterBody paths extensions excluded) "paths" texts = .ok paths :=
  texts_textsJson _ paths

theorem include_filterBody :
    optionalTexts (filterBody paths extensions excluded) "include" = .ok (some extensions) :=
  nullable_textsJson _ extensions

theorem exclude_filterBody :
    optionalTexts (filterBody paths extensions excluded) "exclude" = .ok (some excluded) :=
  nullable_textsJson _ excluded

/-- A body that can be used is answered as what it asks for. -/
theorem withBody_filterBody {α : Type} {read : Json.Fields → Checked Problem α} {a : α}
    (h : read (filterBody paths extensions excluded) = .ok a) (answer : α → Warned Response) :
    withBody read (Json.obj (filterBody paths extensions excluded)).compact answer = answer a := by
  have hbody : readBody read (Json.obj (filterBody paths extensions excluded)).compact = .ok a := by
    rw [readBody, fieldsOf_filterBody, ok_bind, h]
    rfl
  rw [withBody, hbody]

theorem handle_scan_filters :
    handle session (post "/scan" (filterBody paths extensions excluded))
      = scanAnswer session ⟨⟨paths, some extensions, some excluded⟩, none⟩ Scan.Summary.toJson := by
  have hroute : route? "/scan" = some .scan := by decide +kernel
  have hread : ScanRequest.ofFields (filterBody paths extensions excluded)
      = .ok ⟨⟨paths, some extensions, some excluded⟩, none⟩ := by
    rw [ScanRequest.ofFields, paths_filterBody, include_filterBody, exclude_filterBody]
    rfl
  simp only [handle, post, hroute]
  exact withBody_filterBody paths extensions excluded hread _

theorem handle_upgrade_filters :
    handle session (post "/upgrade" (filterBody paths extensions excluded))
      = upgradeAnswer session ⟨⟨paths, some extensions, some excluded⟩, .medium⟩ := by
  have hroute : route? "/upgrade" = some .upgrade := by decide +kernel
  have hread : UpgradeRequest.ofFields (filterBody paths extensions excluded)
      = .ok ⟨⟨paths, some extensions, some excluded⟩, .medium⟩ := by
    rw [UpgradeRequest.ofFields, paths_filterBody, include_filterBody, exclude_filterBody]
    rfl
  simp only [handle, post, hroute]
  exact withBody_filterBody paths extensions excluded hread _

end

theorem FileRequest.filter_of_ne_nil {paths extensions excluded : List String}
    (h : extensions ≠ []) (usual : List String) :
    FileRequest.filter ⟨paths, some extensions, some excluded⟩ usual
      = ⟨Scan.extensions extensions, excluded⟩ := by
  cases extensions with
  | nil => exact absurd rfl h
  | cons e es => rfl

end Service

/-! ## Empty lists of suffixes -/

namespace Command

/-- A text has nothing left without the blanks at its ends if and only if it is all blanks. -/
theorem stripList_eq_nil_iff (cs : List Char) :
    Text.stripList cs = [] ↔ ∀ c ∈ cs, Text.isBlank c = true := by
  rw [Text.stripList, Text.stripEnd, List.reverse_eq_nil_iff, List.dropWhile_eq_nil_iff]
  constructor
  · intro h c hc
    rw [← List.takeWhile_append_dropWhile (p := Text.isBlank) (l := cs), List.mem_append] at hc
    obtain hc | hc := hc
    · exact List.mem_takeWhile_imp hc
    · exact h c (List.mem_reverse.mpr hc)
  · intro h c hc
    exact h c ((List.dropWhile_suffix _).subset (List.mem_reverse.mp hc))

theorem forall_mem_splitAt_iff (separator : Char) (p : Char → Prop) (cs : List Char) :
    (∀ item ∈ Text.splitAt separator cs, ∀ c ∈ item, p c)
      ↔ ∀ c ∈ cs, c = separator ∨ p c := by
  induction cs with
  | nil => simp [Text.splitAt]
  | cons c cs ih =>
    rw [Text.splitAt]
    by_cases hc : c = separator
    · simp [hc, ih]
    · -- the character goes to the first item of the rest
      cases hsplit : Text.splitAt separator cs with
      | nil =>
        rw [hsplit] at ih
        simp [hc, ← ih]
      | cons item items =>
        rw [hsplit] at ih
        simp [hc, ← ih, and_assoc]

/-- A list with commas has no item if and only if it is commas and blanks. -/
theorem commaList_eq_nil_iff (s : String) :
    commaList s = [] ↔ ∀ c ∈ s.toList, c = ',' ∨ Text.isBlank c = true := by
  rw [← forall_mem_splitAt_iff ',' (Text.isBlank · = true)]
  simp [commaList, stripList_eq_nil_iff]

end Command

namespace Scan

variable {files : Files.Tree} {working paths excluded : List String} {names : List String}

/-- Some path leads to a file. -/
def IsNamed (files : Files.Tree) (working paths names : List String) : Prop :=
  ∃ path ∈ paths, files.Leads working path names ∧ files.isFile names = true

theorem IsNamed.mem_discover (hfiles : files.Proper) (f : Filter)
    (h : IsNamed files working paths names) : names ∈ (discover files working f paths).value := by
  obtain ⟨path, hpath, hleads, hfile⟩ := h
  exact (mem_discover_iff hfiles).mpr ⟨path, hpath, .named hleads hfile⟩

/-- Without suffixes, only files that are named are found. -/
theorem mem_discover_nil_iff (hfiles : files.Proper) :
    names ∈ (discover files working ⟨[], excluded⟩ paths).value
      ↔ IsNamed files working paths names := by
  refine ⟨fun h => ?_, IsNamed.mem_discover hfiles _⟩
  obtain ⟨path, hpath, hfound⟩ := (mem_discover_iff hfiles).mp h
  cases hfound with
  | named hleads hfile => exact ⟨path, hpath, hleads, hfile⟩
  | below _ _ _ _ _ hsuffix => cases hsuffix

end Scan

open Command Service in
/-- **The command line and the service find the same files, unless the list of suffixes has no item.**
The words and the body with the same lists are read to the settings and the request with these lists.
If the include list has an item, both find the same. It has none if it is commas and blanks; then the
command line finds only the files that are named, while the service finds those with the usual
suffixes, as if no list was given. So what they find is the same if and only if the list has an item or
the usual suffixes find nothing but files that are named. -/
theorem same_files_unless_list_is_empty (session : Session) (hfiles : session.files.Proper)
    {s x : String} {ws vs : List String} (hws : Gives "--include" s ws)
    (hvs : Gives "--exclude" x vs) (paths : List String) (hpaths : paths ≠ []) :
    let o : FileSettings :=
      { paths := paths, extensions := commaList s, excluded := commaList x }
    let r : FileRequest := ⟨paths, some (commaList s), some (commaList x)⟩
    run session ("scan" :: (ws ++ (vs ++ "--" :: paths))) = runScan session { files := o }
    ∧ run session ("upgrade" :: (ws ++ (vs ++ "--" :: paths))) = runUpgrade session { files := o }
    ∧ handle session (post "/scan" (filterBody paths (commaList s) (commaList x)))
      = scanAnswer session ⟨r, none⟩ Scan.Summary.toJson
    ∧ handle session (post "/upgrade" (filterBody paths (commaList s) (commaList x)))
      = upgradeAnswer session ⟨r, .medium⟩
    ∧ (commaList s = [] ↔ ∀ c ∈ s.toList, c = ',' ∨ Text.isBlank c = true)
    ∧ ∀ usual : List String,
      let byCommand := Scan.discover session.files session.working o.filter o.paths
      let byService := Scan.discover session.files session.working (r.filter usual) r.paths
      (commaList s ≠ [] → byCommand = byService)
      ∧ (commaList s = [] →
        (∀ names, names ∈ byCommand.value ↔ Scan.IsNamed session.files session.working paths names)
        ∧ byService = Scan.discover session.files session.working ⟨usual, commaList x⟩ paths)
      ∧ (byCommand.value = byService.value ↔ commaList s ≠ []
        ∨ ∀ names ∈ byService.value, Scan.IsNamed session.files session.working paths names) := by
  intro o r
  refine ⟨run_scan_filters hws hvs session hpaths, run_upgrade_filters hws hvs session hpaths,
    handle_scan_filters _ _ _ _, handle_upgrade_filters _ _ _ _, commaList_eq_nil_iff s, ?_⟩
  intro usual byCommand byService
  have hagree : commaList s ≠ [] → byCommand = byService := by
    intro hne
    simp only [byCommand, byService, r, FileRequest.filter_of_ne_nil hne]
    rfl
  have hempty : commaList s = [] →
      (∀ names, names ∈ byCommand.value ↔ Scan.IsNamed session.files session.working paths names)
      ∧ byService = Scan.discover session.files session.working ⟨usual, commaList x⟩ paths := by
    intro hnil
    simp only [byCommand, byService, o, r, FileSettings.filter, hnil]
    exact ⟨fun names => Scan.mem_discover_nil_iff hfiles, rfl⟩
  refine ⟨hagree, hempty, ?_⟩
  by_cases hnil : commaList s = []
  · have hnamed := (hempty hnil).1
    simp only [hnil, ne_eq, not_true_eq_false, false_or]
    constructor
    · intro heq names hnames
      exact (hnamed names).mp (heq ▸ hnames)
    · intro h
      refine Scan.discover_eq_of_mem_iff (Scan.pairwise_discover _) fun names => ?_
      rw [hnamed names]
      exact ⟨Scan.IsNamed.mem_discover hfiles _, h names⟩
  · simp [hagree hnil, hnil]

open Command Service in
/-- A list of one comma: the command line finds nothing in the directory, the service finds the style
sheet. -/
theorem same_files_unless_list_is_empty_of_comma :
    let files : Files.Tree := ⟨[(["w", "a.css"], .file [])]⟩
    let o : FileSettings :=
      { paths := ["."], extensions := commaList ",", excluded := commaList "" }
    let r : FileRequest := ⟨["."], some (commaList ","), some (commaList "")⟩
    ["w", "a.css"] ∈ (Scan.discover files ["w"] (r.filter Scan.defaultExtensions) ["."]).value
      ∧ (Scan.discover files ["w"] o.filter ["."]).value
        ≠ (Scan.discover files ["w"] (r.filter Scan.defaultExtensions) ["."]).value := by
  intro files o r
  let session : Session :=
    { files := files
      working := ["w"]
      store := { cachePath := "c.json", dataUrl := "", features := [] }
      download := .failed
      now := { year := 2025, month := 1, day := 2 } }
  have hfiles : session.files.Proper := by decide +kernel
  have hfound : ["w", "a.css"]
      ∈ (Scan.discover files ["w"] (r.filter Scan.defaultExtensions) ["."]).value := by decide +kernel
  obtain ⟨-, -, -, -, hcommas, hfinds⟩ := same_files_unless_list_is_empty session hfiles
    (s := ",") (x := "") .attached .attached ["."] (by decide)
  obtain ⟨-, -, hsame⟩ := hfinds Scan.defaultExtensions
  have hnil : commaList "," = [] := by
    refine hcommas.mpr fun c hc => .inl ?_
    exact List.mem_singleton.mp hc
  have hunnamed : ¬ Scan.IsNamed session.files session.working ["."] ["w", "a.css"] := by
    rintro ⟨path, hpath, hleads, -⟩
    obtain rfl := List.mem_singleton.mp hpath
    have hdot : session.files.Leads session.working "." ["w"] :=
      Files.Tree.locate?_eq_some_iff.mp (by decide +kernel)
    exact absurd (hleads.unique hdot) (by decide)
  refine ⟨hfound, fun heq => ?_⟩
  obtain hne | hnamed := hsame.mp heq
  · exact hne hnil
  · exact hunnamed (hnamed _ hfound)

end WebAudit
