import Mathlib.Data.List.MinMax
import Mathlib.Tactic.Linarith
import WebAudit.Proofs.Verdicts

/-!
# The score of a whole and those of its parts

Every report is rounded by itself, and so is a scan. Still the score of a scan lies between the lowest
and the highest score of its reports: a number that all shares come within a half of is one that the
shares together come within a half of (`le_safetyScore_add`, `safetyScore_add_le`), however many they are
(`Report.scoresIn_together`). The counters of a scan are those of its listed reports together
(`Summary.summed_scan`), since a report that is not listed counts nothing.
-/

namespace WebAudit

/-! ## Two shares together -/

section

variable {a b c d q : Int}

theorem le_safetyScore_add (hb : 0 < b) (hd : 0 < d) (h : q ≤ safetyScore a b)
    (h' : q ≤ safetyScore c d) : q ≤ safetyScore (a + c) (b + d) := by
  rw [le_safetyScore_iff hb] at h
  rw [le_safetyScore_iff hd] at h'
  rw [le_safetyScore_iff (by omega)]
  linarith

theorem safetyScore_add_le (hb : 0 < b) (hd : 0 < d) (h : safetyScore a b ≤ q)
    (h' : safetyScore c d ≤ q) : safetyScore (a + c) (b + d) ≤ q := by
  rw [safetyScore_le_iff hb] at h
  rw [safetyScore_le_iff hd] at h'
  rw [safetyScore_le_iff (by omega)]
  linarith

end

/-! ## Reports together -/

namespace Report

variable {r q : Report} {lo hi : Int}

/-- A report counts something, and its score lies between two numbers. -/
structure ScoresIn (r : Report) (lo hi : Int) : Prop where
  pos : 0 < r.total
  low : lo ≤ r.score
  high : r.score ≤ hi

theorem ScoresIn.append (h : r.ScoresIn lo hi) (h' : q.ScoresIn lo hi) :
    (r.append q).ScoresIn lo hi := by
  have hr : (0 : Int) < r.total := Int.natCast_pos.mpr h.pos
  have hq : (0 : Int) < q.total := Int.natCast_pos.mpr h'.pos
  have hscore : (r.append q).score = safetyScore (r.safe + q.safe) (r.total + q.total) := by
    rw [score, total_append, Int.natCast_add]
    rfl
  refine ⟨?_, ?_, ?_⟩
  · rw [total_append]
    exact Nat.add_pos_left h.pos _
  · rw [hscore]
    exact le_safetyScore_add hr hq h.low h'.low
  · rw [hscore]
    exact safetyScore_add_le hr hq h.high h'.high

/-- Reports taken together. -/
def together (rs : List Report) : Report :=
  rs.foldl append ⟨0, []⟩

theorem together_concat (rs : List Report) (r : Report) :
    together (rs ++ [r]) = (together rs).append r := by
  simp only [together, List.foldl_append, List.foldl_cons, List.foldl_nil]

theorem together_cons (r : Report) (rs : List Report) : together (r :: rs) = rs.foldl append r := by
  have hfirst : append ⟨0, []⟩ r = r := by simp [append]
  rw [together, List.foldl_cons, hfirst]

/-- **Reports together score between the bounds of each of them.** -/
theorem scoresIn_together {rs : List Report} (hne : rs ≠ []) (h : ∀ r ∈ rs, r.ScoresIn lo hi) :
    (together rs).ScoresIn lo hi := by
  obtain ⟨r, rest, rfl⟩ := List.exists_cons_of_ne_nil hne
  rw [together_cons]
  refine List.foldlRecOn (motive := (ScoresIn · lo hi)) rest append (h r List.mem_cons_self)
    fun q hq p hp => ?_
  exact hq.append (h p (List.mem_cons_of_mem _ hp))

end Report

/-! ## The counters of a scan -/

namespace Scan

open Dataset (Resolver)
open Files (Tree)

/-- The counters of a summary are those of the listed reports together, each of which counts
something. -/
structure Summary.Summed (s : Summary) : Prop where
  agrees : s.Agrees (Report.together (s.reports.map (·.report)))
  pos : ∀ e ∈ s.reports, 0 < e.report.total

theorem Summary.Summed.add {s : Summary} (h : s.Summed) (file : String) (r : Report) :
    (s.add file r).Summed := by
  by_cases hr : 0 < r.total
  · have hreports : (s.add file r).reports = s.reports ++ [⟨file, r⟩] := if_pos hr
    refine ⟨?_, fun e he => ?_⟩
    · rw [hreports, List.map_append, List.map_singleton, Report.together_concat]
      exact h.agrees.add file r
    · rw [hreports, List.mem_append, List.mem_singleton] at he
      rcases he with he | rfl
      · exact h.pos e he
      · exact hr
  · -- a report that is not listed changes no counter
    obtain ⟨hsafe, hrisky⟩ : r.safe = 0 ∧ r.risky = [] :=
      ⟨by unfold Report.total at hr; omega, Report.risky_of_total_eq_zero (by omega)⟩
    have hr : r = ⟨0, []⟩ := by
      cases r
      simp only at hsafe hrisky
      rw [hsafe, hrisky]
    rw [hr, Summary.add_nothing]
    exact h

/-- **A scan counts what its listed reports count.** -/
theorem Summary.summed_scan {files : Tree} {working : List String} {dir : Option String} {c : Config}
    {f : Filter} {resolve : Resolver} {paths : List String} {s : Summary}
    (h : (scan files working dir c f resolve paths).value = .ok s) : s.Summed :=
  Summary.of_scan (fun _ => ⟨⟨rfl, rfl, rfl, rfl⟩, List.forall_mem_nil _⟩)
    (fun _ file r hs => hs.add file r) h

theorem Summary.Summed.score_mem {s : Summary} (h : s.Summed) (hne : s.reports ≠ []) {lo hi : Int}
    (hlow : ∀ e ∈ s.reports, lo ≤ e.report.score) (hhigh : ∀ e ∈ s.reports, e.report.score ≤ hi) :
    lo ≤ s.score ∧ s.score ≤ hi := by
  have hall : ∀ r ∈ s.reports.map (·.report), r.ScoresIn lo hi := by
    intro r hr
    obtain ⟨e, he, rfl⟩ := List.mem_map.mp hr
    exact ⟨h.pos e he, hlow e he, hhigh e he⟩
  have hwhole := Report.scoresIn_together (mt List.map_eq_nil_iff.mp hne) hall
  rw [h.agrees.score]
  exact ⟨hwhole.low, hwhole.high⟩

/-- **The score of a scan lies between the lowest and the highest score of its reports.** Without any
report it is a hundred. -/
theorem score_of_scan_within_reports (files : Tree) (working : List String) (dir : Option String)
    (c : Config) (f : Filter) (resolve : Resolver) (paths : List String) {s : Summary}
    (hs : (scan files working dir c f resolve paths).value = .ok s) :
    (s.reports ≠ [] → ∃ lowest ∈ s.reports, ∃ highest ∈ s.reports,
      (∀ e ∈ s.reports, lowest.report.score ≤ e.report.score
        ∧ e.report.score ≤ highest.report.score)
      ∧ lowest.report.score ≤ s.score ∧ s.score ≤ highest.report.score)
    ∧ (s.reports = [] → s.score = 100) := by
  have hsummed : s.Summed := Summary.summed_scan hs
  constructor
  · intro hne
    let score := fun e : FileReport => e.report.score
    obtain ⟨lowest, hlowest⟩ : ∃ e, s.reports.argmin score = some e :=
      Option.ne_none_iff_exists'.mp (mt List.argmin_eq_none.mp hne)
    obtain ⟨highest, hhighest⟩ : ∃ e, s.reports.argmax score = some e :=
      Option.ne_none_iff_exists'.mp (mt List.argmax_eq_none.mp hne)
    have hlow : ∀ e ∈ s.reports, score lowest ≤ score e :=
      fun e he => List.le_of_mem_argmin he hlowest
    have hhigh : ∀ e ∈ s.reports, score e ≤ score highest :=
      fun e he => List.le_of_mem_argmax he hhighest
    exact ⟨lowest, List.argmin_mem hlowest, highest, List.argmax_mem hhighest,
      fun e he => ⟨hlow e he, hhigh e he⟩, hsummed.score_mem hne hlow hhigh⟩
  · intro hnil
    have htotal : s.total = 0 := by
      rw [hsummed.agrees.total, hnil]
      rfl
    rw [Summary.score, htotal]
    exact safetyScore_of_nonpos (Int.le_refl _)

/-- Half of one file is safe and a third of another, and a third file has nothing in it: two out of five
score in between. -/
theorem score_of_scan_within_reports_of_three_files :
    let files : Tree := ⟨[(["w", "a.js"], .file (Text.encode "a??1n")),
      (["w", "b.js"], .file (Text.encode "a??b??1n")), (["w", "c.js"], .file [])]⟩
    let resolve : Resolver := fun id _ =>
      .ok { baseline := if id = "bigint" then .high else .limited }
    ∃ s, (scan files ["w"] none .default {} resolve ["."]).value = .ok s
      ∧ s.reports.map (·.report.score) = [50, 33] ∧ s.score = 40
      ∧ ∃ lowest ∈ s.reports, ∃ highest ∈ s.reports,
        lowest.report.score ≤ s.score ∧ s.score ≤ highest.report.score := by
  intro files resolve
  let r := (scan files ["w"] none .default {} resolve ["."]).value
  have hr : r.toOption.map (fun s => (s.reports.map (·.report.score), s.score))
      = some ([50, 33], 40) := by
    decide +kernel
  obtain ⟨s, hs, hfacts⟩ := Option.map_eq_some_iff.mp hr
  obtain ⟨hscores, hscore⟩ := Prod.mk.inj hfacts
  have hs : r = .ok s := eq_ok_of_toOption hs
  have hne : s.reports ≠ [] := by
    intro hnil
    simp [hnil] at hscores
  obtain ⟨hwithin, -⟩ := score_of_scan_within_reports files ["w"] none .default {} resolve ["."] hs
  obtain ⟨lowest, hlowest, highest, hhighest, -, hbetween⟩ := hwithin hne
  exact ⟨s, hs, hscores, hscore, lowest, hlowest, highest, hhighest, hbetween⟩

end Scan

end WebAudit
