import WebAudit.Command.Run
import WebAudit.Proofs.FoundFiles
import WebAudit.Proofs.Gates
import WebAudit.Proofs.ShapedRecords

/-!
# How a scan from the command line ends

A scan goes through stages, and each can be the last: the configuration, the paths, the files, the
dataset, the gate, and the file for the result. `Ends` has one case for each way to end, with what is
printed and the session afterwards, and `ends_runScan` says that there are no others. What the exit
code means and what is left behind is read off these cases.
-/

namespace WebAudit.Command

open Files (Tree)
open Scan (Summary detectionsIn)

variable {s s' : Session} {o : ScanSettings}

/-! ## Stages -/

/-- What loading the configuration gives. -/
def configOf (s : Session) (o : ScanSettings) : Except Config.LoadError Config :=
  (Config.load s.files s.working o.config none).value

/-- All paths lead somewhere. -/
def PathsExist (s : Session) (o : ScanSettings) : Prop :=
  ∀ p ∈ o.files.paths, ∃ place, s.files.Leads s.working p place

/-- The configuration cannot be used, or a path leads nowhere. -/
def Rejected (s : Session) (o : ScanSettings) : Prop :=
  (∃ e, configOf s o = .error (.file e)) ∨ ¬ PathsExist s o

/-- The files that are found. -/
def foundBy (s : Session) (o : ScanSettings) : List (List String) :=
  (Scan.discover s.files s.working o.files.filter o.files.paths).value

/-- What the scan says under a configuration. -/
def summaryOf (s : Session) (o : ScanSettings) (c : Config) : Except Dataset.Fault Summary :=
  (Scan.scan s.files s.working none c o.files.filter s.resolver o.files.paths).value

/-- The scan comes to a summary of some files. -/
structure Scanned (s : Session) (o : ScanSettings) (c : Config) (summary : Summary) : Prop where
  config : configOf s o = .ok c
  paths : PathsExist s o
  found : foundBy s o ≠ []
  summary : summaryOf s o c = .ok summary

/-- The gate does not let the summary pass. -/
def GateFails (s : Session) (o : ScanSettings) : Prop :=
  ∃ c summary, configOf s o = .ok c ∧ summaryOf s o c = .ok summary
    ∧ o.gate.passes summary.score summary.risky = false

/-- The result is to be written to a file. -/
def Requested (o : ScanSettings) (path : String) : Prop :=
  o.files.output = some path ∧ path ≠ ""

theorem Requested.unique {path path' : String} (h : Requested o path) (h' : Requested o path') :
    path = path' :=
  Option.some.inj (h.1.symm.trans h'.1)

/-! ## Ways to end -/

/-- The code that the gate gives. -/
def gateCode (o : ScanSettings) (summary : Summary) : Nat :=
  if o.gate.passes summary.score summary.risky then 0 else 1

/-- How a scan ends, what it prints, and the session afterwards. -/
inductive Ends (s : Session) (o : ScanSettings) : Finish → String → Session → Prop where
  | unreadable {e : Json.Unreadable} (h : configOf s o = .error (.unreadable e)) :
      Ends s o (.failed (.config e)) "" s
  | misconfigured {e : Config.FileError} (h : configOf s o = .error (.file e)) :
      Ends s o (.exit 2) "" s
  | missing {c : Config} (h : configOf s o = .ok c) (hpaths : ¬ PathsExist s o) :
      Ends s o (.exit 2) "" s
  | nothing {c : Config} (h : configOf s o = .ok c) (hpaths : PathsExist s o)
      (hfound : foundBy s o = []) : Ends s o (.exit 1) "" s
  | printed {c : Config} {summary : Summary} (h : Scanned s o c summary)
      (hnone : ∀ path, ¬ Requested o path) :
      Ends s o (.exit (gateCode o summary)) (summary.toJson.indented ++ "\n") s
  | written {c : Config} {summary : Summary} {path : String} {place : List String}
      (h : Scanned s o c summary) (hpath : Requested o path)
      (htakes : s.files.Takes s.working path place) :
      Ends s o (.exit (gateCode o summary)) (summary.toJson.indented ++ "\n")
        { s with files := s.files.set place (Text.encode summary.toJson.indented) }
  | unwritable {c : Config} {summary : Summary} {path : String} {e : Tree.OpenError}
      (h : Scanned s o c summary) (hpath : Requested o path)
      (hwrite : ∀ place, ¬ s.files.Takes s.working path place) :
      Ends s o (.failed (.output e)) (summary.toJson.indented ++ "\n") s

theorem filter_output_eq_some_iff {path : String} :
    o.files.output.filter (· != "") = some path ↔ Requested o path := by
  simp [Option.filter_eq_some_iff, Requested]

theorem missing_eq_nil_iff : s.missing o.files.paths = [] ↔ PathsExist s o := by
  simp only [Session.missing, List.filter_eq_nil_iff, PathsExist, ← Tree.locate?_eq_some_iff,
    Option.isNone_iff_eq_none, ← Option.ne_none_iff_exists', ne_eq]

/-- In a well-shaped dataset a scan adds up the reports on the files that are found. -/
theorem summaryOf_eq (hfiles : s.files.Proper) (hdata : s.store.features.WellShaped) {c : Config}
    (hc : configOf s o = .ok c) :
    summaryOf s o c = .ok ((foundBy s o).foldl (fun summary names => summary.add
      (Files.relativeText (Scan.baseDirectory s.working none) names)
      (Report.classified c (fun d => s.sources.resolution d.featureId d.supportKey)
        (detectionsIn s.files names))) { totalFiles := (foundBy s o).length }) :=
  Scan.value_addFiles (Config.Obtained.loaded hc).settled
    (fun d => hdata.resolve_eq d.featureId d.supportKey) _
    (fun _ hn => Scan.text?_of_discover hfiles hn) _

/-- In a well-shaped dataset a scan comes to a summary that agrees with the report on all detections
of the files that are found. -/
theorem exists_summaryOf (hfiles : s.files.Proper) (hdata : s.store.features.WellShaped) {c : Config}
    (hc : configOf s o = .ok c) :
    ∃ summary, summaryOf s o c = .ok summary ∧ summary.totalFiles = (foundBy s o).length
      ∧ summary.Agrees (Report.classified c
          (fun d => s.sources.resolution d.featureId d.supportKey)
          ((foundBy s o).flatMap (detectionsIn s.files))) :=
  Scan.exists_value_scan hfiles (Config.Obtained.loaded hc).settled
    (fun d => hdata.resolve_eq d.featureId d.supportKey) none

theorem ends_deliver {c : Config} {summary : Summary} (h : Scanned s o c summary) (note : String) :
    let r := deliver s summary.toJson o.files.output (gateCode o summary) note
    Ends s o r.finish r.stdout r.session := by
  intro r
  cases hout : o.files.output.filter (· != "") with
  | none =>
    have hnone : ∀ path, ¬ Requested o path := fun path hpath => by
      rw [filter_output_eq_some_iff.mpr hpath] at hout
      cases hout
    simp only [r, deliver, hout]
    exact .printed h hnone
  | some path =>
    have hpath : Requested o path := filter_output_eq_some_iff.mp hout
    simp only [r, deliver, hout]
    cases hwrite : s.files.write s.working path summary.toJson.indented with
    | error e => exact .unwritable h hpath (Tree.exists_write_eq_error_iff.mp ⟨e, hwrite⟩)
    | ok files =>
      obtain ⟨place, htakes, rfl⟩ := Tree.write_eq_ok_iff.mp hwrite
      exact .written h hpath htakes

theorem ends_scanWith (hfiles : s.files.Proper) (hdata : s.store.features.WellShaped) {c : Config}
    (hc : configOf s o = .ok c) (hpaths : PathsExist s o) :
    Ends s o (scanWith s o c).finish (scanWith s o c).stdout (scanWith s o c).session := by
  obtain ⟨summary, hsummary, htotal, -⟩ := exists_summaryOf hfiles hdata hc
  have hvalue : (Scan.scan s.files s.working none c o.files.filter s.resolver o.files.paths).value
      = .ok summary := hsummary
  simp only [scanWith, Outcome.after, hvalue]
  by_cases hfound : foundBy s o = []
  · rw [if_pos (by simp [htotal, hfound])]
    exact .nothing hc hpaths hfound
  · rw [if_neg (by simp [htotal, hfound])]
    exact ends_deliver ⟨hc, hpaths, hfound, hsummary⟩ _

/-- **A scan ends in one of these ways.** -/
theorem ends_runScan (hfiles : s.files.Proper) (hdata : s.store.features.WellShaped)
    (o : ScanSettings) :
    Ends s o (runScan s o).finish (runScan s o).stdout (runScan s o).session := by
  cases hc : configOf s o with
  | error e =>
    have hvalue : (Config.load s.files s.working o.config none).value = .error e := hc
    simp only [runScan, Outcome.after, hvalue]
    cases e with
    | unreadable e => exact .unreadable hc
    | file e => exact .misconfigured hc
  | ok c =>
    have hvalue : (Config.load s.files s.working o.config none).value = .ok c := hc
    simp only [runScan, Outcome.after, hvalue, withPaths]
    cases hmissing : s.missing o.files.paths with
    | nil => exact ends_scanWith hfiles hdata hc (missing_eq_nil_iff.mp hmissing)
    | cons p ps =>
      refine .missing hc fun hpaths => ?_
      rw [missing_eq_nil_iff.mpr hpaths] at hmissing
      cases hmissing

/-! ## The exit code -/

section

variable {c : Config} {summary : Summary} {code : Nat} {finish : Finish} {out : String}

theorem rejected_of_error {e : Config.FileError} (h : configOf s o = .error (.file e)) :
    Rejected s o :=
  .inl ⟨e, h⟩

theorem not_rejected (h : configOf s o = .ok c) (hpaths : PathsExist s o) : ¬ Rejected s o := by
  rintro (⟨e, he⟩ | hmissing)
  · rw [h] at he
    cases he
  · exact hmissing hpaths

theorem Scanned.gateFails_iff (h : Scanned s o c summary) :
    GateFails s o ↔ o.gate.passes summary.score summary.risky = false := by
  constructor
  · rintro ⟨c', summary', hc, hsummary, hfails⟩
    obtain rfl := Except.ok.inj (h.config.symm.trans hc)
    obtain rfl := Except.ok.inj (h.summary.symm.trans hsummary)
    exact hfails
  · intro hfails
    exact ⟨c, summary, h.config, h.summary, hfails⟩

/-- What the exit codes say of a scan. -/
structure CodeMeans (s : Session) (o : ScanSettings) (code : Nat) : Prop where
  two : code = 2 ↔ Rejected s o
  one : code = 1 ↔ ¬ Rejected s o ∧ (foundBy s o = [] ∨ GateFails s o)
  zero : code = 0 ↔ ¬ Rejected s o ∧ foundBy s o ≠ [] ∧ ¬ GateFails s o

theorem codeMeans_of_rejected (h : Rejected s o) : CodeMeans s o 2 :=
  ⟨by simp [h], by simp [h], by simp [h]⟩

theorem Scanned.codeMeans (h : Scanned s o c summary) : CodeMeans s o (gateCode o summary) := by
  have hrejected : ¬ Rejected s o := not_rejected h.config h.paths
  unfold gateCode
  cases hpasses : o.gate.passes summary.score summary.risky with
  | true => constructor <;> simp [hrejected, h.found, h.gateFails_iff, hpasses]
  | false => constructor <;> simp [hrejected, h.found, h.gateFails_iff, hpasses]

theorem Ends.codeMeans (h : Ends s o (.exit code) out s') : CodeMeans s o code := by
  cases h with
  | misconfigured h => exact codeMeans_of_rejected (rejected_of_error h)
  | missing h hpaths => exact codeMeans_of_rejected (.inr hpaths)
  | nothing h hpaths hfound => constructor <;> simp [not_rejected h hpaths, hfound]
  | printed h hnone => exact h.codeMeans
  | written h hpath htakes => exact h.codeMeans

/-! ## What is left behind -/

/-- A scan that is rejected or finds nothing prints nothing and changes nothing. -/
theorem Ends.silent (h : Ends s o (.exit code) out s') (hcode : code = 2 ∨ foundBy s o = []) :
    out = "" ∧ s' = s := by
  have hscanned : ∀ {c summary}, Scanned s o c summary →
      ¬ (gateCode o summary = 2 ∨ foundBy s o = []) := by
    rintro c summary h (htwo | hfound)
    · exact not_rejected h.config h.paths (h.codeMeans.two.mp htwo)
    · exact h.found hfound
  cases h with
  | misconfigured h => exact ⟨rfl, rfl⟩
  | missing h hpaths => exact ⟨rfl, rfl⟩
  | nothing h hpaths hfound => exact ⟨rfl, rfl⟩
  | printed h hnone => exact absurd hcode (hscanned h)
  | written h hpath htakes => exact absurd hcode (hscanned h)

/-- A session afterwards differs by the file for the result, which holds a text, if one is asked
for. -/
structure Saved (s : Session) (o : ScanSettings) (text : String) (s' : Session) : Prop where
  session : s' = { s with files := s'.files }
  requested : ∀ path, Requested o path → s'.files.read s.working path = .ok (Text.encode text)
    ∧ ∃ place, s.files.Takes s.working path place
      ∧ ∀ other, other ≠ place → s'.files.file? other = s.files.file? other
  unrequested : (∀ path, ¬ Requested o path) → s' = s

theorem saved_of_takes {path text : String} {place : List String} (hpath : Requested o path)
    (htakes : s.files.Takes s.working path place) :
    Saved s o text { s with files := s.files.set place (Text.encode text) } where
  session := rfl
  requested path' hpath' := by
    obtain rfl := hpath.unique hpath'
    exact ⟨Tree.read_of_write (Tree.write_eq_ok_iff.mpr ⟨place, htakes, rfl⟩), place, htakes,
      fun other hother => Tree.file?_set_of_ne hother⟩
  unrequested hnone := absurd hpath (hnone path)

/-- Any other scan prints its summary and saves it, whatever the gate says. -/
theorem Ends.reported (h : Ends s o (.exit code) out s') (hcode : code ≠ 2)
    (hfound : foundBy s o ≠ []) :
    ∃ c summary, Scanned s o c summary ∧ out = summary.toJson.indented ++ "\n"
      ∧ Saved s o summary.toJson.indented s' := by
  cases h with
  | misconfigured h => exact absurd rfl hcode
  | missing h hpaths => exact absurd rfl hcode
  | nothing h hpaths hnothing => exact absurd hnothing hfound
  | printed h hnone =>
    exact ⟨_, _, h, rfl, rfl, fun path hpath => absurd hpath (hnone path), fun _ => rfl⟩
  | written h hpath htakes => exact ⟨_, _, h, rfl, saved_of_takes hpath htakes⟩

/-- A scan breaks off if and only if a configuration file cannot be read, or the result has nowhere
to go. -/
theorem Ends.failed_iff (h : Ends s o finish out s') :
    (∃ f, finish = .failed f) ↔ (∃ e, configOf s o = .error (.unreadable e))
      ∨ (¬ Rejected s o ∧ foundBy s o ≠ []
        ∧ ∃ path, Requested o path ∧ ∀ place, ¬ s.files.Takes s.working path place) := by
  cases h with
  | unreadable h => simp [h]
  | misconfigured h => simp [h, rejected_of_error h]
  | missing h hpaths => simp [h, Rejected, hpaths]
  | nothing h hpaths hfound => simp [h, hfound]
  | printed h hnone => simp [h.config, hnone]
  | written h hpath htakes =>
    constructor
    · rintro ⟨f, hf⟩
      cases hf
    · rintro (⟨e, he⟩ | ⟨-, -, path', hpath', hnowhere⟩)
      · rw [h.config] at he
        cases he
      · obtain rfl := hpath.unique hpath'
        exact absurd htakes (hnowhere _)
  | unwritable h hpath hwrite =>
    exact ⟨fun _ => .inr ⟨not_rejected h.config h.paths, h.found, _, hpath, hwrite⟩,
      fun _ => ⟨_, rfl⟩⟩

/-! ## Nothing risky -/

/-- No detection that counts is risky, in any file that is found. -/
def Clean (s : Session) (o : ScanSettings) (c : Config) : Prop :=
  ∀ names ∈ foundBy s o, ∀ d ∈ detectionsIn s.files names, d.featureId ∉ c.ignored →
    ∃ res, s.resolver d.featureId d.supportKey = .ok res ∧ c.isRisky res.baseline = false

theorem clean_iff (hdata : s.store.features.WellShaped) :
    Clean s o c ↔ (Report.classified c (fun d => s.sources.resolution d.featureId d.supportKey)
      ((foundBy s o).flatMap (detectionsIn s.files))).risky = [] := by
  have hresolve : ∀ id key, s.resolver id key = .ok (s.sources.resolution id key) :=
    hdata.resolve_eq
  rw [Report.risky_classified_eq_nil_iff]
  simp only [Clean, hresolve, Except.ok.injEq, exists_eq_left', List.mem_flatMap]
  constructor
  · rintro h d ⟨names, hnames, hd⟩
    exact h names hnames d hd
  · intro h names hnames d hd
    exact h d ⟨names, hnames, hd⟩

/-- With a threshold of a hundred or less, a gate that refuses risky features lets clean files pass
and nothing else. -/
theorem Scanned.gateCode_eq_zero_iff (hfiles : s.files.Proper)
    (hdata : s.store.features.WellShaped) (h : Scanned s o c summary) (hfail : o.failOnRisky = true)
    {q : ℚ} (hvalue : o.minScore.value? = some q) (hq : q ≤ 100) :
    gateCode o summary = 0 ↔ Clean s o c := by
  obtain ⟨summary', hsummary, -, hagrees⟩ := exists_summaryOf hfiles hdata h.config
  obtain rfl := Except.ok.inj (h.summary.symm.trans hsummary)
  have hgate : o.gate.minScore.value? = some q := hvalue
  rw [clean_iff hdata, ← hagrees.passes_iff hgate hq hfail, gateCode]
  split
  next hpasses => simp [hpasses]
  next hpasses => simp [hpasses]

theorem Ends.code_eq_zero_iff (hfiles : s.files.Proper) (hdata : s.store.features.WellShaped)
    (h : Ends s o (.exit code) out s') (hfail : o.failOnRisky = true)
    {q : ℚ} (hvalue : o.minScore.value? = some q) (hq : q ≤ 100) :
    code = 0 ↔ ∃ c, configOf s o = .ok c ∧ PathsExist s o ∧ foundBy s o ≠ [] ∧ Clean s o c := by
  have hscanned : ∀ {c summary}, Scanned s o c summary → (gateCode o summary = 0
      ↔ ∃ c, configOf s o = .ok c ∧ PathsExist s o ∧ foundBy s o ≠ [] ∧ Clean s o c) := by
    intro c summary h
    rw [h.gateCode_eq_zero_iff hfiles hdata hfail hvalue hq]
    simp [h.config, h.paths, h.found]
  cases h with
  | misconfigured h => simp [h]
  | missing h hpaths => simp [hpaths]
  | nothing h hpaths hfound => simp [hfound]
  | printed h hnone => exact hscanned h
  | written h hpath htakes => exact hscanned h

end

/-! ## The command line -/

theorem run_of_parse {words : List String} (h : parse words = .ok (.scan o)) (s : Session) :
    run s words = runScan s o := by
  rw [run, h]
  rfl

/-- **What the exit code of a scan says and what the scan leaves behind.** The code is 2 for a
configuration that cannot be used or a path that leads nowhere, 1 if no file is found or the gate
fails, and else 0. With nothing to report nothing is printed and no file changes; any other scan
prints its summary and saves the same text, whatever the gate says. A gate that refuses risky
features under a threshold of a hundred or less gives 0 if and only if no file has any. A scan
breaks off only over a configuration file that cannot be read, or over the file for the result. -/
theorem exit_code_of_scan (s : Session) {words : List String} {o : ScanSettings}
    (hwords : parse words = .ok (.scan o)) (hfiles : s.files.Proper)
    (hdata : s.store.features.WellShaped) :
    let r := run s words
    (∀ code, r.finish = .exit code →
      (code = 2 ↔ Rejected s o)
      ∧ (code = 1 ↔ ¬ Rejected s o ∧ (foundBy s o = [] ∨ GateFails s o))
      ∧ (code = 0 ↔ ¬ Rejected s o ∧ foundBy s o ≠ [] ∧ ¬ GateFails s o)
      ∧ (code = 2 ∨ foundBy s o = [] → r.stdout = "" ∧ r.session = s)
      ∧ (code ≠ 2 → foundBy s o ≠ [] → ∃ c summary, Scanned s o c summary
        ∧ r.stdout = summary.toJson.indented ++ "\n"
        ∧ Saved s o summary.toJson.indented r.session)
      ∧ (o.failOnRisky = true → (∃ q, o.minScore.value? = some q ∧ q ≤ 100) →
        (code = 0 ↔ ∃ c, configOf s o = .ok c ∧ PathsExist s o ∧ foundBy s o ≠ [] ∧ Clean s o c)))
    ∧ ((∃ f, r.finish = .failed f) ↔ (∃ e, configOf s o = .error (.unreadable e))
      ∨ (¬ Rejected s o ∧ foundBy s o ≠ []
        ∧ ∃ path, Requested o path ∧ ∀ place, ¬ s.files.Takes s.working path place)) := by
  intro r
  have hends : Ends s o r.finish r.stdout r.session := by
    simp only [r, run_of_parse hwords]
    exact ends_runScan hfiles hdata o
  refine ⟨fun code hcode => ?_, hends.failed_iff⟩
  rw [hcode] at hends
  have hmeans : CodeMeans s o code := hends.codeMeans
  refine ⟨hmeans.two, hmeans.one, hmeans.zero, hends.silent, hends.reported, ?_⟩
  rintro hfail ⟨q, hvalue, hq⟩
  exact hends.code_eq_zero_iff hfiles hdata hfail hvalue hq

/-- A style sheet with a risky property: the gate fails, and the report is printed and saved. -/
theorem exit_code_of_scan_of_risky_sheet :
    let files : Tree := ⟨[(["w", "a.css"], .file (Text.encode "a\x7bdisplay:grid\x7d"))]⟩
    let s : Session :=
      { files := files
        working := ["w"]
        store := { cachePath := "c.json", dataUrl := "",
                   features := [("css-display", [("status", .obj [("baseline", .bool false)])])] }
        download := .failed
        now := { year := 2025, month := 1, day := 2 } }
    let risky : Json := .obj [("id", .str "css-display"), ("baseline", .bool false),
      ("support", .obj []), ("location", .obj [("line", .int 1), ("column", .int 3)]),
      ("value", .str "display: grid")]
    let report : Json := .obj [("safe", .int 0), ("risky", .arr [risky]), ("total", .int 1),
      ("safetyScore", .int 0)]
    let printed : Json := .obj [("totalFiles", .int 1), ("totalFeatures", .int 1),
      ("safeFeatures", .int 0), ("riskyFeatures", .int 1), ("safetyScore", .int 0),
      ("reports", .arr [.obj [("file", .str "a.css"), ("report", report)]])]
    let r := run s ["scan", ".", "-o", "r.json"]
    r.finish = .exit 1 ∧ r.stdout = printed.indented ++ "\n"
      ∧ r.session.files.read ["w"] "r.json" = .ok (Text.encode printed.indented) := by
  intro files s risky report printed r
  let o : ScanSettings :=
    { files := { paths := ["."], output := some "r.json", extensions := Scan.defaultExtensions } }
  have hwords : parse ["scan", ".", "-o", "r.json"] = .ok (.scan o) :=
    eq_ok_of_toOption (by decide +kernel)
  have hfiles : s.files.Proper := by decide +kernel
  have hdata : s.store.features.WellShaped := by
    intro id r hr
    obtain ⟨before, after, hsplit, -⟩ := List.lookup_eq_some_iff.mp hr
    have hmem : (id, r) ∈ s.store.features := by
      rw [hsplit]
      simp
    obtain ⟨-, rfl⟩ := Prod.mk.inj (List.mem_singleton.mp hmem)
    exact ⟨.inr ⟨_, rfl⟩, .inl rfl, fun _ => .inl rfl⟩
  have hconfig : configOf s o = .ok .default := eq_ok_of_toOption (by decide +kernel)
  have hpaths : PathsExist s o := by
    intro p hp
    obtain rfl := List.mem_singleton.mp hp
    exact ⟨["w"], Tree.locate?_eq_some_iff.mp (by decide +kernel)⟩
  have hfound : foundBy s o = [["w", "a.css"]] := by decide +kernel
  let grid : Detection :=
    ⟨"css-display", ⟨1, 3, none, none⟩, "display: grid", some "css.properties.display"⟩
  have hdetections : detectionsIn s.files ["w", "a.css"] = [grid] := by decide +kernel
  have hrequested : Requested o "r.json" := ⟨rfl, by decide⟩
  have hrejected : ¬ Rejected s o := not_rejected hconfig hpaths
  have hclean : ¬ Clean s o .default := by
    intro h
    obtain ⟨res, hres, hrisky⟩ :=
      h ["w", "a.css"] (by simp [hfound]) grid (by simp [hdetections]) (by decide)
    obtain rfl := Except.ok.inj hres
    cases hrisky
  obtain ⟨hexit, hfailed⟩ := exit_code_of_scan s hwords hfiles hdata
  cases hfinish : r.finish with
  | failed f =>
    obtain ⟨e, he⟩ | ⟨-, -, path, hpath, hnowhere⟩ := hfailed.mp ⟨f, hfinish⟩
    · rw [hconfig] at he
      cases he
    · obtain rfl := hrequested.unique hpath
      exact absurd (Tree.takes_of_map (by decide +kernel) (by decide +kernel))
        (hnowhere ["w", "r.json"])
  | exit code =>
    obtain ⟨htwo, hone, hzero, -, hreported, hrisky⟩ := hexit code hfinish
    have hne : code ≠ 0 := by
      intro hcode
      obtain ⟨c, hc, -, -, h⟩ := (hrisky rfl ⟨_, rfl, by norm_num⟩).mp hcode
      obtain rfl := Except.ok.inj (hconfig.symm.trans hc)
      exact hclean h
    have hfails : GateFails s o := Classical.byContradiction fun h =>
      hne (hzero.mpr ⟨hrejected, by simp [hfound], h⟩)
    obtain rfl : code = 1 := hone.mpr ⟨hrejected, .inr hfails⟩
    obtain ⟨c, summary, hscanned, hstdout, hsaved⟩ := hreported (by decide) (by simp [hfound])
    have hprinted : summary.toJson = printed := by
      obtain rfl := Except.ok.inj (hconfig.symm.trans hscanned.config)
      have hname : Files.relativeText (Scan.baseDirectory s.working none) ["w", "a.css"] = "a.css" := by
        decide +kernel
      have hcreate : Report.create .default s.resolver [grid] = .ok (Report.classified .default
          (fun d => s.sources.resolution d.featureId d.supportKey) [grid]) :=
        Report.create_eq_classified fun d _ => hdata.resolve_eq d.featureId d.supportKey
      have hreport : Report.create .default s.resolver [grid]
          = .ok ⟨0, [.of grid { baseline := .limited }]⟩ := rfl
      have hsummary := hscanned.summary.symm.trans (summaryOf_eq hfiles hdata hconfig)
      rw [Except.ok.inj hsummary, hfound, List.foldl_cons, List.foldl_nil, hname, hdetections,
        Except.ok.inj (hcreate.symm.trans hreport)]
      subst grid
      rfl
    rw [hprinted] at hstdout hsaved
    exact ⟨rfl, hstdout, (hsaved.requested "r.json" hrequested).1⟩

end WebAudit.Command
