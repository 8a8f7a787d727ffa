import Mathlib.Data.List.Nodup
import Mathlib.Tactic.Choose
import WebAudit.Proofs.Classification
import WebAudit.Proofs.Discovery
import WebAudit.Proofs.Settings
import WebAudit.Scan.Summary

/-!
# A scan is one report

A scan analyses its files one by one, each under the configuration merged once more over the
default, and adds every report to running counters. The result is that of a single report on all
detections of all files. Three facts are behind this: reports on parts make up the report on the
whole (`Report.classified_append`), merging once more changes no value (`Report.create_congr`), and
what is left out of the list of files has nothing to report.
-/

namespace WebAudit

open Dataset (Fault Resolution Resolver)

/-! ## Reports on parts -/

namespace Report

/-- Two reports together. -/
def append (r q : Report) : Report where
  safe := r.safe + q.safe
  risky := r.risky ++ q.risky

theorem total_append (r q : Report) : (r.append q).total = r.total + q.total := by
  simp only [total, append, List.length_append]
  omega

/-- A report on nothing lists nothing. -/
theorem risky_of_total_eq_zero {r : Report} (h : r.total = 0) : r.risky = [] := by
  unfold total at h
  exact List.eq_nil_of_length_eq_zero (by omega)

/-- **Reports on parts make up the report on the whole.** -/
theorem classified_append (c : Config) (known : Detection → Resolution) (ds es : List Detection) :
    classified c known (ds ++ es) = (classified c known ds).append (classified c known es) := by
  simp [classified, append, Config.passed, Config.flagged, Config.counted]

/-- Reports depend on the values of a configuration, not on what was supplied. -/
theorem create_congr {a b : Config} (h : a.SameValues b) (resolve : Resolver)
    (ds : List Detection) : create a resolve ds = create b resolve ds := by
  have hrisky : a.isRisky = b.isRisky := by
    funext status
    cases status with
    | high => rfl
    | low => simp only [Config.isRisky, h.allowsLow]
    | limited => simp only [Config.isRisky, h.blocksFalse]
  induction ds with
  | nil => rfl
  | cons d ds ih =>
    simp only [create, add, h.ignored, hrisky, ih]

end Report

namespace Scan

open Files (Tree)

/-! ## Adding reports -/

namespace Summary

/-- A summary says what a report on the same detections says. -/
structure Agrees (s : Summary) (r : Report) : Prop where
  total : s.total = r.total
  safe : s.safe = r.safe
  risky : s.risky = r.risky.length
  entries : s.reports.flatMap (·.report.risky) = r.risky

theorem add_nothing (s : Summary) (file : String) : s.add file ⟨0, []⟩ = s := rfl

/-- A report that is added to a summary is a part of what the summary says. -/
theorem Agrees.add {s : Summary} {r : Report} (h : s.Agrees r) (file : String) (q : Report) :
    (s.add file q).Agrees (r.append q) where
  total := by
    rw [Report.total_append, ← h.total]
    rfl
  safe := congrArg (· + q.safe) h.safe
  risky := by
    show s.risky + q.risky.length = (r.risky ++ q.risky).length
    rw [List.length_append, h.risky]
  entries := by
    show (if 0 < q.total then s.reports ++ [⟨file, q⟩] else s.reports).flatMap _
      = r.risky ++ q.risky
    split
    · rw [List.flatMap_append, h.entries]
      simp
    · next hq =>
      -- nothing is lost with a report that is not listed
      have hnil : q.risky = [] := Report.risky_of_total_eq_zero (by omega)
      rw [h.entries, hnil, List.append_nil]

theorem Agrees.score {s : Summary} {r : Report} (h : s.Agrees r) : s.score = r.score := by
  simp only [Summary.score, Report.score, h.safe, h.total]

end Summary

/-! ## Files and their detections -/

/-- The detections in a file, none if its name is that of no kind of text. -/
def detectionsIn (files : Tree) (names : List String) : List Detection :=
  match ContentType.ofPath? (Files.absoluteText names) with
  | none => []
  | some type =>
    (detect (String.ofList ((files.text? names).getD [])) type
      (some (Files.absoluteText names))).detections

variable {files : Tree} {base : List String} {c : Config} {resolve : Resolver}
  {known : Detection → Resolution}

theorem analysable?_of_none {names : List String}
    (h : ContentType.ofPath? (Files.absoluteText names) = none) :
    analysable? files names = none := by
  unfold analysable?
  rw [h]
  rfl

theorem analysable?_of_some {names : List String} {type : ContentType} {text : List Char}
    (h : ContentType.ofPath? (Files.absoluteText names) = some type)
    (htext : files.text? names = some text) :
    analysable? files names = some (String.ofList text, type) := by
  unfold analysable?
  rw [h, htext]
  rfl

theorem detectionsIn_of_none {names : List String}
    (h : ContentType.ofPath? (Files.absoluteText names) = none) :
    detectionsIn files names = [] := by
  unfold detectionsIn
  rw [h]

theorem detectionsIn_of_some {names : List String} {type : ContentType} {text : List Char}
    (h : ContentType.ofPath? (Files.absoluteText names) = some type)
    (htext : files.text? names = some text) :
    detectionsIn files names = (detect (String.ofList text) type
      (some (Files.absoluteText names))).detections := by
  unfold detectionsIn
  rw [h, htext]
  rfl

/-- The report on a text in a scan is the one under the configuration as it is. -/
theorem value_analyzeWith_config (hc : c.Settled)
    (hk : ∀ d : Detection, resolve d.featureId d.supportKey = .ok (known d)) (content : String)
    (type : ContentType) (path : Option String) :
    (analyzeWith resolve (.config c) content type path).value
      = .ok (Report.classified c known (detect content type path).detections) := by
  show Report.create (c.overlaying .default) resolve (detect content type path).detections = _
  rw [Report.create_congr hc.sameValues_overlaying_default]
  exact Report.create_eq_classified fun d _ => hk d

/-- **One file.** A file that can be read is added with the report on its detections. -/
theorem value_addFile (hc : c.Settled)
    (hk : ∀ d : Detection, resolve d.featureId d.supportKey = .ok (known d)) {names : List String}
    (hread : ∃ text, files.text? names = some text) (s : Summary) :
    (addFile files base c resolve s names).value
      = .ok (s.add (Files.relativeText base names)
          (Report.classified c known (detectionsIn files names))) := by
  obtain ⟨text, htext⟩ := hread
  unfold addFile
  rcases Option.eq_none_or_eq_some (ContentType.ofPath? (Files.absoluteText names))
    with htype | ⟨type, htype⟩
  · rw [analysable?_of_none htype, detectionsIn_of_none htype, Report.classified_nil,
      Summary.add_nothing]
  · rw [analysable?_of_some htype htext, detectionsIn_of_some htype htext]
    simp only [Warned.map, value_analyzeWith_config hc hk, Except.map]

/-- **All files.** Every file that was found is added in turn. -/
theorem value_addFiles (hc : c.Settled)
    (hk : ∀ d : Detection, resolve d.featureId d.supportKey = .ok (known d))
    (found : List (List String)) (hread : ∀ names ∈ found, ∃ text, files.text? names = some text)
    (s : Summary) :
    (addFiles files base c resolve s found).value
      = .ok (found.foldl (fun s names => s.add (Files.relativeText base names)
          (Report.classified c known (detectionsIn files names))) s) := by
  induction found generalizing s with
  | nil => rfl
  | cons names rest ih =>
    have hfirst : (addFile files base c resolve s names).value = .ok _ :=
      value_addFile hc hk (hread names (by simp)) s
    rw [addFiles, Warned.value_andThen_of_ok hfirst, List.foldl_cons]
    exact ih (fun n hn => hread n (by simp [hn])) _

/-! ## What the counters come to -/

/-- Adding up files adds up their detections. -/
theorem agrees_foldl_add (file : List String → String) (found : List (List String))
    (ds : List Detection) {s : Summary} (h : s.Agrees (Report.classified c known ds)) :
    (found.foldl (fun s names => s.add (file names)
      (Report.classified c known (detectionsIn files names))) s).Agrees
      (Report.classified c known (ds ++ found.flatMap (detectionsIn files))) := by
  induction found generalizing s ds with
  | nil => simpa using h
  | cons names rest ih =>
    rw [List.foldl_cons, List.flatMap_cons, ← List.append_assoc]
    refine ih _ ?_
    rw [Report.classified_append]
    exact h.add _ _

/-- The list has the files with a counted detection. -/
theorem reports_foldl_add (file : List String → String) (report : List String → Report)
    (found : List (List String)) (s : Summary) :
    (found.foldl (fun s names => s.add (file names) (report names)) s).reports
      = s.reports ++ (found.filter fun names => 0 < (report names).total).map
          fun names => ⟨file names, report names⟩ := by
  induction found generalizing s with
  | nil => simp
  | cons names rest ih =>
    rw [List.foldl_cons, ih]
    by_cases h : 0 < (report names).total
    · simp [Summary.add, h]
    · simp [Summary.add, h]

theorem totalFiles_foldl_add (file : List String → String) (report : List String → Report)
    (found : List (List String)) (s : Summary) :
    (found.foldl (fun s names => s.add (file names) (report names)) s).totalFiles = s.totalFiles := by
  induction found generalizing s with
  | nil => rfl
  | cons names rest ih =>
    rw [List.foldl_cons, ih]
    rfl

/-- A report on a file has something to say if and only if a detection in the file counts. -/
theorem total_classified_pos_iff (names : List String) :
    0 < (Report.classified c known (detectionsIn files names)).total
      ↔ c.counted (detectionsIn files names) ≠ [] := by
  rw [Report.total_classified]
  exact List.length_pos_iff

/-! ## The scan as a whole -/

/-- A scan comes to a summary of all files that were found. -/
theorem exists_value_scan {working : List String} {f : Filter} {paths : List String}
    (hfiles : files.Proper) (hc : c.Settled)
    (hk : ∀ d : Detection, resolve d.featureId d.supportKey = .ok (known d)) (dir : Option String) :
    let found := (discover files working f paths).value
    ∃ s, (scan files working dir c f resolve paths).value = .ok s ∧ s.totalFiles = found.length
      ∧ s.Agrees (Report.classified c known (found.flatMap (detectionsIn files))) :=
  ⟨_, value_addFiles hc hk _ (fun _ hn => text?_of_discover hfiles hn) _,
    totalFiles_foldl_add _ _ _ _, agrees_foldl_add _ _ [] ⟨rfl, rfl, rfl, rfl⟩⟩

/-- **A scan says what one report on the detections of all its files says.** The files are those
found, in the order in which they are found. The list has the files in which a detection counts,
each with its own report and under a name of its own. -/
theorem scan_agrees_with_one_report (files : Tree) (working : List String) (dir : Option String)
    (c : Config) (f : Filter) (resolve : Resolver) (paths : List String) (hfiles : files.Proper)
    (hc : c.Obtained) (hresolve : ∀ id key, ∃ res, resolve id key = .ok res) :
    let found := (discover files working f paths).value
    let listed := found.filter fun names => c.counted (detectionsIn files names) ≠ []
    ∃ s r, (scan files working dir c f resolve paths).value = .ok s
      ∧ Report.create c resolve (found.flatMap (detectionsIn files)) = .ok r
      ∧ s.safe = r.safe ∧ s.risky = r.risky.length ∧ s.total = r.total ∧ s.score = r.score
      ∧ s.total = s.safe + s.risky
      ∧ s.reports.map (fun e => (e.file, Except.ok e.report))
        = listed.map (fun names => (Files.relativeText (baseDirectory working dir) names,
            Report.create c resolve (detectionsIn files names)))
      ∧ (s.reports.map (·.file)).Nodup
      ∧ s.reports.flatMap (·.report.risky) = r.risky := by
  intro found listed
  choose known hknown using hresolve
  let status : Detection → Resolution := fun d => known d.featureId d.supportKey
  have hk : ∀ d : Detection, resolve d.featureId d.supportKey = .ok (status d) :=
    fun d => hknown d.featureId d.supportKey
  have hcreate : ∀ ds, Report.create c resolve ds = .ok (Report.classified c status ds) :=
    fun ds => Report.create_eq_classified fun d _ => hk d
  let report := fun names => Report.classified c status (detectionsIn files names)
  let file := Files.relativeText (baseDirectory working dir)
  let start : Summary := { totalFiles := found.length }
  let s := found.foldl (fun s names => s.add (file names) (report names)) start
  have hscan : (scan files working dir c f resolve paths).value = .ok s :=
    value_addFiles hc.settled hk found (fun _ hn => text?_of_discover hfiles hn) start
  have hagrees : s.Agrees (Report.classified c status (found.flatMap (detectionsIn files))) :=
    agrees_foldl_add file found [] ⟨rfl, rfl, rfl, rfl⟩
  have hreports : s.reports = listed.map fun names => ⟨file names, report names⟩ := by
    have hlisted : (found.filter fun names => 0 < (report names).total) = listed :=
      List.filter_congr fun names _ => by simp [report, total_classified_pos_iff]
    rw [← hlisted]
    exact reports_foldl_add file report found start
  refine ⟨s, _, hscan, hcreate _, hagrees.safe, hagrees.risky, hagrees.total, hagrees.score, ?_, ?_,
    ?_, hagrees.entries⟩
  · rw [hagrees.total, hagrees.safe, hagrees.risky]
    rfl
  · rw [hreports, List.map_map]
    exact List.map_congr_left fun names _ => by simp [hcreate, file, report]
  · rw [hreports, List.map_map]
    -- names of files that differ differ, and no file is found twice
    refine List.Nodup.map_on ?_ ((nodup_discover paths).filter _)
    intro names hn names' hn' heq
    exact Files.relativeText_inj (isName_of_discover hfiles (List.mem_of_mem_filter hn))
      (isName_of_discover hfiles (List.mem_of_mem_filter hn')) heq

/-- A file whose only detection is ignored, one with a detection that counts, and one of no kind. -/
theorem scan_agrees_with_one_report_of_three_files :
    let files : Tree := ⟨[(["w", "a.css"], .file (Text.encode "a{display:grid}")),
      (["w", "b.js"], .file (Text.encode "a??b")), (["w", "n.txt"], .file [])]⟩
    let c : Config := { ignore := .given ["css-display"] }
    let resolve : Resolver := fun _ _ => .ok { baseline := .limited }
    ∃ s, (scan files ["w"] none c {} resolve ["n.txt", "."]).value = .ok s
      ∧ s.total = 1 ∧ s.safe = 0 ∧ s.reports.map (·.file) = ["b.js"] := by
  intro files c resolve
  have hfiles : files.Proper := by decide +kernel
  have hvalid : Config.validate (.obj [("ignore", .arr [.str "css-display"])]) = .ok c := rfl
  obtain ⟨s, r, hs, hr, hsafe, -, htotal, -, -, hreports, -⟩ :=
    scan_agrees_with_one_report files ["w"] none c {} resolve ["n.txt", "."] hfiles
      (.validated hvalid) fun _ _ => ⟨_, rfl⟩
  have hds : (discover files ["w"] {} ["n.txt", "."]).value.flatMap (detectionsIn files)
      = [⟨"css-display", ⟨1, 3, none, none⟩, "display: grid", some "css.properties.display"⟩,
        ⟨"nullish-coalescing", ⟨1, 1, some 1, some 5⟩, "??", some "js.nullish-coalescing"⟩] := by
    decide +kernel
  have hlisted : ((discover files ["w"] {} ["n.txt", "."]).value.filter fun names =>
      c.counted (detectionsIn files names) ≠ []) = [["w", "b.js"]] := by decide +kernel
  have hname : Files.relativeText (baseDirectory ["w"] none) ["w", "b.js"] = "b.js" := by
    decide +kernel
  rw [hds] at hr
  rw [hlisted] at hreports
  have hr : r = ⟨0, [_]⟩ := (Except.ok.inj hr).symm
  have hnames : s.reports.map (·.file) = ["b.js"] := by
    have h := congrArg (List.map Prod.fst) hreports
    simpa [Function.comp_def, hname] using h
  exact ⟨s, hs, by rw [htotal, hr]; rfl, by rw [hsafe, hr], hnames⟩

end Scan

end WebAudit
