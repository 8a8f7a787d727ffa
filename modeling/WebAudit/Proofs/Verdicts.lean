import WebAudit.Proofs.Gates
import WebAudit.Proofs.Outcome

/-!
# What a gate says of a scan

A gate decides by the counter of risky features, and its message names the risky features of the
listed reports. The files without detections are not listed, but they have nothing risky either, so
the counter and the reports agree (`Summary.Tallied`): adding one report keeps this, and so does a
whole scan (`Summary.of_scan`). The named ids are those of all risky features, strictly ascending.
-/

namespace WebAudit.Scan

open Dataset (Fault Resolver)
open Files (Tree)

/-! ## Sorted texts -/

/-- Texts are sorted as paths of one name are. -/
theorem insertPath_singleton (s : String) (ts : List String) :
    Files.insertPath [s] (ts.map ([·])) = (insertText s ts).map ([·]) := by
  induction ts with
  | nil => rfl
  | cons t ts ih =>
    have hlt : Files.namesLt [s] [t] = decide (s < t) := by simp [Files.namesLt]
    rw [List.map_cons, Files.insertPath, insertText, hlt]
    by_cases hst : s < t
    · simp [hst]
    · by_cases heq : s = t
      · simp [heq]
      · simp [hst, heq, ih]

theorem sortPaths_map_singleton (ss : List String) :
    Files.sortPaths (ss.map ([·])) = (sortTexts ss).map ([·]) := by
  induction ss with
  | nil => rfl
  | cons s ss ih =>
    show Files.insertPath [s] (Files.sortPaths (ss.map ([·]))) = _
    rw [ih, insertPath_singleton]
    rfl

theorem mem_sortTexts {s : String} {ss : List String} : s ∈ sortTexts ss ↔ s ∈ ss := by
  have h : [s] ∈ Files.sortPaths (ss.map ([·])) ↔ [s] ∈ ss.map ([·]) := Files.mem_sortPaths
  rw [sortPaths_map_singleton] at h
  simpa using h

/-- Sorted texts are strictly ascending. -/
theorem pairwise_sortTexts (ss : List String) : (sortTexts ss).Pairwise (· < ·) := by
  have h := Files.pairwise_sortPaths (ss.map ([·]))
  rw [sortPaths_map_singleton, List.pairwise_map] at h
  refine h.imp fun hlt => ?_
  obtain hlt | ⟨-, hlt⟩ := List.cons_lt_cons_iff.mp hlt
  · exact hlt
  · cases hlt

/-! ## The counter and the reports -/

namespace Summary

/-- The counter of risky features has the risky features of the listed reports. -/
def Tallied (s : Summary) : Prop :=
  s.risky = (s.reports.flatMap (·.report.risky)).length

theorem Tallied.add {s : Summary} (h : s.Tallied) (file : String) (r : Report) :
    (s.add file r).Tallied := by
  unfold Tallied at h ⊢
  simp only [Summary.add]
  by_cases hr : 0 < r.total
  · simp [hr, h]
  · -- a report that is not listed has nothing risky
    have hnil : r.risky = [] := Report.risky_of_total_eq_zero (by omega)
    simp [hr, h, hnil]

/-- Some listed report has a risky feature. -/
def HasRisky (s : Summary) : Prop :=
  ∃ e ∈ s.reports, e.report.risky ≠ []

theorem Tallied.risky_pos_iff {s : Summary} (h : s.Tallied) : 0 < s.risky ↔ s.HasRisky := by
  rw [h, List.length_pos_iff, ne_eq, List.flatMap_eq_nil_iff]
  simp [HasRisky]

/-- The ids are those of the risky features of all reports. -/
theorem mem_riskyIds_iff {s : Summary} {id : String} :
    id ∈ s.riskyIds ↔ ∃ e ∈ s.reports, ∃ r ∈ e.report.risky, r.id = id := by
  simp [Summary.riskyIds]

theorem HasRisky.riskyIds_ne_nil {s : Summary} (h : s.HasRisky) : s.riskyIds ≠ [] := by
  obtain ⟨e, he, hrisky⟩ := h
  obtain ⟨r, hr⟩ := List.exists_mem_of_ne_nil _ hrisky
  exact List.ne_nil_of_mem (mem_riskyIds_iff.mpr ⟨e, he, r, hr, rfl⟩)

end Summary

section

variable {files : Tree} {base : List String} {c : Config} {resolve : Resolver} {s s' : Summary}

/-- A file changes a summary by one report, or not at all. -/
theorem eq_add_of_addFile {names : List String}
    (h : (addFile files base c resolve s names).value = .ok s') :
    s' = s ∨ ∃ file r, s' = s.add file r := by
  unfold addFile at h
  split at h
  · exact .inl (Except.ok.inj h).symm
  · next content type _ =>
    obtain ⟨r, -, hr⟩ := map_eq_ok_iff.mp h
    exact .inr ⟨_, r, hr.symm⟩

/-- What adding a report preserves holds after adding files. -/
theorem Summary.of_addFiles {P : Summary → Prop} (hadd : ∀ s file r, P s → P (s.add file r))
    (hs : P s) {found : List (List String)}
    (h : (addFiles files base c resolve s found).value = .ok s') : P s' := by
  induction found generalizing s with
  | nil =>
    obtain rfl := Except.ok.inj h
    exact hs
  | cons names rest ih =>
    rw [addFiles] at h
    cases hfirst : (addFile files base c resolve s names).value with
    | error e => simp [Warned.andThen, hfirst] at h
    | ok t =>
      rw [Warned.value_andThen_of_ok hfirst] at h
      refine ih ?_ h
      rcases eq_add_of_addFile hfirst with rfl | ⟨file, r, rfl⟩
      · exact hs
      · exact hadd s file r hs

/-- **What adding a report preserves holds after a scan,** if it holds before any report. -/
theorem Summary.of_scan {P : Summary → Prop} (hstart : ∀ n, P { totalFiles := n })
    (hadd : ∀ s file r, P s → P (s.add file r)) {working : List String} {dir : Option String}
    {f : Filter} {paths : List String}
    (h : (scan files working dir c f resolve paths).value = .ok s) : P s :=
  Summary.of_addFiles hadd (hstart _) h

/-- A scan counts the risky features of its reports. -/
theorem tallied_scan {working : List String} {dir : Option String} {f : Filter} {paths : List String}
    (h : (scan files working dir c f resolve paths).value = .ok s) : s.Tallied :=
  Summary.of_scan (fun _ => rfl) (fun _ file r hs => hs.add file r) h

end

/-! ## Verdicts -/

/-- Raising the threshold or refusing risky features lets nothing pass that did not pass before. -/
theorem Gate.passes_antitone {g g' : Gate} {t t' : ℚ} (ht : g.minScore.value? = some t)
    (ht' : g'.minScore.value? = some t') (hle : t ≤ t')
    (hfail : g.failOnRisky = true → g'.failOnRisky = true) {score risky : Int}
    (h : g'.passes score risky = true) : g.passes score risky = true := by
  rw [Gate.passes_iff ht'] at h
  rw [Gate.passes_iff ht]
  refine ⟨le_trans hle h.1, ?_⟩
  rintro ⟨hg, hrisky⟩
  exact h.2 ⟨hfail hg, hrisky⟩

/-- What is said where risky features are refused: the score, the threshold if it is not reached, and
the ids. -/
theorem Gate.message_of_blocksRisky {g : Gate} {score risky : Int} (h : g.blocksRisky risky = true)
    (ids : List String) :
    g.message score risky ids = "❌ FAILED: Safety score " ++ toString score ++ "%"
      ++ (if g.minScore.reachedBy score then "" else " below threshold " ++ g.minScore.text ++ "%")
      ++ ("\n⚠️ Risky features found: " ++ ", ".intercalate (sortTexts ids)) := by
  have hpasses : g.passes score risky = false := by simp [Gate.passes, h]
  unfold Gate.message
  rw [hpasses, h]
  rfl

/-- **A gate passes a scan by its score and by what its reports hold.** A threshold is compared as the
fraction it is. A higher threshold, or refusing risky features, never makes a failure a pass. Where
risky features are refused, the message names the ids of all risky features of all reports, each once
and in ascending order, and there is at least one. -/
theorem check_of_scan (files : Tree) (working : List String) (dir : Option String) (c : Config)
    (f : Filter) (resolve : Resolver) (paths : List String) {s : Summary}
    (hs : (scan files working dir c f resolve paths).value = .ok s) :
    (∀ (g : Gate) (t : ℚ), g.minScore.value? = some t →
      ((g.check s).1 = true ↔ t ≤ s.score ∧ ¬ (g.failOnRisky = true ∧ s.HasRisky)))
    ∧ (∀ (g g' : Gate) (t t' : ℚ), g.minScore.value? = some t → g'.minScore.value? = some t' →
      t ≤ t' → (g.failOnRisky = true → g'.failOnRisky = true) →
      (g.check s).1 = false → (g'.check s).1 = false)
    ∧ ∀ (g : Gate) (t : ℚ), g.minScore.value? = some t → g.failOnRisky = true → s.HasRisky →
      (g.check s).1 = false ∧ ∃ ids : List String, ids ≠ [] ∧ ids.Pairwise (· < ·)
        ∧ (∀ id, id ∈ ids ↔ ∃ e ∈ s.reports, ∃ r ∈ e.report.risky, r.id = id)
        ∧ (g.check s).2 = "❌ FAILED: Safety score " ++ toString s.score ++ "%"
          ++ (if t ≤ s.score then "" else " below threshold " ++ g.minScore.text ++ "%")
          ++ ("\n⚠️ Risky features found: " ++ ", ".intercalate ids) := by
  have htallied : s.Tallied := tallied_scan hs
  have hpasses : ∀ (g : Gate) (t : ℚ), g.minScore.value? = some t →
      ((g.check s).1 = true ↔ t ≤ s.score ∧ ¬ (g.failOnRisky = true ∧ s.HasRisky)) := by
    intro g t ht
    show g.passes s.score s.risky = true ↔ _
    rw [Gate.passes_iff ht, Int.natCast_pos, htallied.risky_pos_iff]
  refine ⟨hpasses, ?_, ?_⟩
  · intro g g' t t' ht ht' hle hfail hg
    rw [← Bool.not_eq_true] at hg ⊢
    exact mt (Gate.passes_antitone ht ht' hle hfail) hg
  · intro g t ht hfail hrisky
    have hblocks : g.blocksRisky s.risky = true := by
      simp [Gate.blocksRisky, hfail, htallied.risky_pos_iff.mpr hrisky]
    refine ⟨?_, sortTexts s.riskyIds, ?_, pairwise_sortTexts _, ?_, ?_⟩
    · rw [← Bool.not_eq_true, hpasses g t ht]
      exact fun h => h.2 ⟨hfail, hrisky⟩
    · obtain ⟨id, hid⟩ := List.exists_mem_of_ne_nil _ hrisky.riskyIds_ne_nil
      exact List.ne_nil_of_mem (mem_sortTexts.mpr hid)
    · intro id
      rw [mem_sortTexts, Summary.mem_riskyIds_iff]
    · show g.message s.score s.risky s.riskyIds = _
      rw [Gate.message_of_blocksRisky hblocks]
      simp only [Threshold.reachedBy_iff ht]

/-- Two files share a risky feature, which is named once. -/
theorem check_of_scan_of_three_files :
    let files : Tree := ⟨[(["w", "a.js"], .file (Text.encode "a??b")),
      (["w", "b.css"], .file (Text.encode "a\x7bdisplay:grid\x7d")),
      (["w", "c.js"], .file (Text.encode "c??d"))]⟩
    ∃ s ids, (scan files ["w"] none .default {} (fun _ _ => .ok { baseline := .limited }) ["."]).value
        = .ok s
      ∧ ids.Pairwise (· < ·) ∧ "css-display" ∈ ids ∧ "nullish-coalescing" ∈ ids
      ∧ Gate.check ⟨.whole 50, true⟩ s = (false, "❌ FAILED: Safety score 0% below threshold 50%"
          ++ ("\n⚠️ Risky features found: " ++ ", ".intercalate ids)) := by
  intro files
  let r := (scan files ["w"] none .default {} (fun _ _ => .ok { baseline := .limited }) ["."]).value
  have hr : r.toOption.map (fun s => (s.score, s.reports.map fun e => e.report.risky.map (·.id)))
      = some (0, [["nullish-coalescing"], ["css-display"], ["nullish-coalescing"]]) := by
    decide +kernel
  obtain ⟨s, hs, hfacts⟩ := Option.map_eq_some_iff.mp hr
  obtain ⟨hscore, hreports⟩ := Prod.mk.inj hfacts
  have hnamed : ∀ id, [id] ∈ s.reports.map (fun e => e.report.risky.map (·.id)) →
      ∃ e ∈ s.reports, ∃ r ∈ e.report.risky, r.id = id := by
    intro id hid
    obtain ⟨e, he, hrisky⟩ := List.mem_map.mp hid
    exact ⟨e, he, List.mem_map.mp (hrisky ▸ List.mem_singleton_self id)⟩
  have hgrid := hnamed "css-display" (by simp [hreports])
  have hnullish := hnamed "nullish-coalescing" (by simp [hreports])
  have hrisky : s.HasRisky := by
    obtain ⟨e, he, r, hr, -⟩ := hgrid
    exact ⟨e, he, List.ne_nil_of_mem hr⟩
  obtain ⟨-, -, hmessage⟩ := check_of_scan files ["w"] none .default {} _ ["."] (eq_ok_of_toOption hs)
  obtain ⟨hfails, ids, -, hsorted, hids, hsays⟩ := hmessage ⟨.whole 50, true⟩ _ rfl rfl hrisky
  rw [hscore, if_neg (by norm_num)] at hsays
  exact ⟨s, ids, eq_ok_of_toOption hs, hsorted, (hids _).mpr hgrid, (hids _).mpr hnullish,
    Prod.ext hfails hsays⟩

end WebAudit.Scan
