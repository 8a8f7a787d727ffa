import WebAudit.Proofs.Aggregation

/-!
# Merging once more

A configuration is merged over the default whenever a text is analysed, even if it was merged before.
For a settled configuration that does nothing but mark the rules as supplied
(`Config.Settled.overlaying_default`), and nothing that looks at values alone can tell
(`analyze_congr`, `Scan.scan_congr`).
-/

namespace WebAudit

open Dataset (Fault Resolver)

/-! ## The merged configuration -/

namespace Setting

variable {α : Type} {d : α} {s : Setting α}

theorem Settled.overlaying_unset (hs : s.Settled d) : s.overlaying (unset d) = s := by
  unfold Setting.overlaying
  cases h : s.supplied with
  | true => rfl
  | false =>
    obtain ⟨value, supplied⟩ := s
    obtain rfl : supplied = false := h
    obtain rfl : value = d := hs rfl
    rfl

end Setting

theorem Rules.Settled.overlaying_default {r : Rules} (h : r.Settled) : r.overlaying {} = r := by
  have hallow : r.allowLow.overlaying (.unset false) = r.allowLow := h.allowLow.overlaying_unset
  have hblock : r.blockFalse.overlaying (.unset true) = r.blockFalse := h.blockFalse.overlaying_unset
  rw [Rules.overlaying, hallow, hblock]

/-- Over the default a settled configuration stays as it is, but for the mark on its rules. -/
theorem Config.Settled.overlaying_default {c : Config} (h : c.Settled) :
    c.overlaying .default = { c with rules := .given c.rules.value } := by
  have hrules : (if c.rules.supplied then c.rules.value.overlaying default.rules.value
      else default.rules.value) = c.rules.value := by
    cases hs : c.rules.supplied with
    | true => exact h.flags.overlaying_default
    -- rules that were not supplied are the default ones with both of their flags
    | false => exact (h.rules hs).symm
  have hignore : c.ignore.overlaying default.ignore = c.ignore := h.ignore.overlaying_unset
  have hbrowsers : c.browsers.overlaying default.browsers = c.browsers :=
    h.browsers.overlaying_unset
  rw [Config.overlaying, hrules, hignore, hbrowsers]

/-! ## What looks at values alone -/

theorem analyze_congr {a b : Config} (h : a.SameValues b) (resolve : Resolver) (content : String)
    (type : ContentType) (path : Option String) :
    analyze resolve a content type path = analyze resolve b content type path := by
  rw [analyze, analyze, Report.create_congr h]

theorem analyzeWith_config {c : Config} (h : c.Settled) (resolve : Resolver) (content : String)
    (type : ContentType) (path : Option String) :
    analyzeWith resolve (.config c) content type path = analyze resolve c content type path := by
  have hmerge : Config.merge (.config c) .default = (c.overlaying .default, 0) := rfl
  rw [analyzeWith, hmerge]
  dsimp only
  rw [analyze_congr h.sameValues_overlaying_default, Warned.after, Nat.zero_add]

namespace Scan

open Files (Tree)

variable {a b : Config} {files : Tree} {base : List String} {resolve : Resolver}

theorem addFile_congr (ha : a.Settled) (hb : b.Settled) (h : a.SameValues b) (s : Summary)
    (names : List String) :
    addFile files base a resolve s names = addFile files base b resolve s names := by
  unfold addFile
  split
  · rfl
  · rw [analyzeWith_config ha, analyzeWith_config hb, analyze_congr h]

theorem addFiles_congr (ha : a.Settled) (hb : b.Settled) (h : a.SameValues b) (s : Summary)
    (found : List (List String)) :
    addFiles files base a resolve s found = addFiles files base b resolve s found := by
  induction found generalizing s with
  | nil => rfl
  | cons names rest ih =>
    rw [addFiles, addFiles, addFile_congr ha hb h]
    congr 1
    funext s
    exact ih s

theorem scan_congr (ha : a.Settled) (hb : b.Settled) (h : a.SameValues b) (files : Tree)
    (working : List String) (base : Option String) (f : Filter) (resolve : Resolver)
    (paths : List String) :
    scan files working base a f resolve paths = scan files working base b f resolve paths := by
  rw [scan, scan, addFiles_congr ha hb h]

end Scan

/-! ## Configurations that can be had -/

/-- Whatever way a configuration was come by, what is not supplied in it has its default. So merging
it over the default keeps its values, and neither an analysis nor a scan can tell the result from
the configuration itself. -/
theorem Config.Obtained.merging_over_default {c : Config} (h : c.Obtained) :
    c.Settled
      ∧ merge (.config c) .default = ({ c with rules := .given c.rules.value }, 0)
      ∧ (merge (.config c) .default).1.SameValues c
      ∧ (∀ resolve content type path,
        analyzeWith resolve (.config c) content type path = analyze resolve c content type path)
      ∧ ∀ files working base f resolve paths,
        Scan.scan files working base (merge (.config c) .default).1 f resolve paths
          = Scan.scan files working base c f resolve paths := by
  have hc : c.Settled := h.settled
  have hvalues : (merge (.config c) .default).1.SameValues c := hc.sameValues_overlaying_default
  refine ⟨hc, ?_, hvalues, analyzeWith_config hc, ?_⟩
  · exact congrArg (·, 0) hc.overlaying_default
  · exact Scan.scan_congr (hc.overlaying settled_default) hc hvalues

/-- One rule from a validated configuration and the other from an override of it. -/
theorem Config.Obtained.merging_over_default_twice :
    let base : Config := { rules := .given { blockFalse := .given false }, ignore := .given ["grid"] }
    let c := (merge (.json (.obj [("rules", .obj [("allowLow", .bool true)])])) base).1
    c.Obtained ∧ (merge (.config c) .default).1.SameValues c
      ∧ c.allowsLow = true ∧ c.blocksFalse = false ∧ c.ignored = ["grid"] := by
  intro base c
  have hbase : validate (.obj [("rules", .obj [("blockFalse", .bool false)]),
      ("ignore", .arr [.str "grid"])]) = .ok base := rfl
  have hc : c.Obtained := .overridden _ (.validated hbase)
  obtain ⟨-, -, hvalues, -⟩ := hc.merging_over_default
  exact ⟨hc, hvalues, rfl, rfl, rfl⟩

end WebAudit
